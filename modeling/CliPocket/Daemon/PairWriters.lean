import CliPocket.Daemon.PairBridges
import CliPocket.Relay.Fifo

/-!
# What a dialer writes

`run_once` of the relay dialer with the tasks that write to its socket: the heartbeat, and one task for each pair. The
tasks of a session outlive it, with the sink they have been given.

- `RelayLink.step`: registration, the read loop, the writer tasks and the transports in front of them;
- `RelayLink.Writing`: what is on each sink, and on its way to it;
- `writers_deliver`: **each sink has the payloads of its transports in order**, and nothing else but the registration
  and heartbeats.
-/

namespace CliPocket

open RelayDialer (DialEvent)

/-- Where the writer task of a pair is. -/
inductive WriterPhase
  | receiving
  /-- It has taken a payload, and waits for the lock of the sink. -/
  | writing (bytes : List UInt8)
  | done
  deriving DecidableEq

/-- The writer task of a pair, behind the queue `from_daemon`. -/
structure PairWriter where
  pairId : PairId
  /-- The sink of the session that has announced the pair. -/
  sink : Nat
  fromDaemonRx : Channel.Mpsc (List UInt8) := { capacity := pairQueueCapacity }
  /-- The transport has not been dropped. -/
  held : Bool := true
  phase : WriterPhase := .receiving

namespace PairWriter

/-- What a transport's `send` does; `none` while it waits for room. -/
def send (w : PairWriter) (bytes : List UInt8) : Option PairWriter :=
  if w.held then
    match w.fromDaemonRx.send bytes with
    | .sent fromDaemonRx => some { w with fromDaemonRx }
    | .full => none
    | .closed => some w
  else none

/-- The end of a writer task: its queue is closed, and what is in it is lost. -/
def finish (w : PairWriter) : PairWriter :=
  { w with fromDaemonRx := { w.fromDaemonRx with queue := [], closed := true }, phase := .done }

/-- A writer task receives a payload, or ends behind a transport that has been dropped. -/
def take (w : PairWriter) : Option PairWriter :=
  match w.phase, w.fromDaemonRx.recv with
  | .receiving, some (bytes, fromDaemonRx) => some { w with fromDaemonRx, phase := .writing bytes }
  | .receiving, none => if w.held then none else some w.finish
  | _, _ => none

def frame (w : PairWriter) (bytes : List UInt8) : List UInt8 := encodeRelayData (.forward w.pairId bytes)

/-- What a writer task still has to write. -/
def pending (w : PairWriter) : List (List UInt8) :=
  match w.phase with
  | .receiving => w.fromDaemonRx.queue
  | .writing bytes => bytes :: w.fromDaemonRx.queue
  | .done => []

@[simp] theorem pending_finish (w : PairWriter) : w.finish.pending = [] := rfl

end PairWriter

/-- The sending half of a websocket to the relay. -/
structure RelaySink where
  written : List (List UInt8) := []
  /-- Its heartbeat task runs. -/
  heartbeat : Bool := false

/-- Where `run_forever` is. -/
inductive LinkPhase
  /-- Before `run_once`, with the result of the one before. -/
  | waiting (result : Option (Except DaemonError Unit))
  /-- `ServerRegister` is sent. -/
  | registering
  | reading

structure RelayLink where
  serverId : ServerId
  publicKey : PublicKey
  phase : LinkPhase := .waiting none
  /-- The read loop, and the queues `to_daemon`. -/
  dialer : RelayDialer := { result := some (.ok ()) }
  /-- One for each queue `to_daemon`. -/
  writers : List PairWriter := []
  /-- One for each session. -/
  sinks : List RelaySink := []

/-! ## What the tasks do -/

/-- What a task puts on a sink behind the registration. -/
inductive LinkFrame
  | heartbeat
  | forward (i : Nat) (pairId : PairId) (bytes : List UInt8)

def LinkFrame.encode : LinkFrame → List UInt8
  | .heartbeat => encodeRelayCtrl .serverHeartbeat
  | .forward _ pairId bytes => encodeRelayData (.forward pairId bytes)

inductive LinkEvent
  | dialer (event : DialEvent)
  /-- A transport's `send` has been taken. -/
  | sent (i : Nat) (bytes : List UInt8)
  | wrote (k : Nat) (frame : LinkFrame)

def LinkEvent.dialed : LinkEvent → Option DialEvent
  | .dialer event => some event
  | _ => none

def LinkEvent.sentOf (i : Nat) : LinkEvent → Option (List UInt8)
  | .sent j bytes => if j = i then some bytes else none
  | _ => none

def LinkEvent.frameOn (k : Nat) : LinkEvent → Option LinkFrame
  | .wrote j frame => if j = k then some frame else none
  | _ => none

def LinkFrame.payloadOf (i : Nat) : LinkFrame → Option (List UInt8)
  | .forward j _ bytes => if j = i then some bytes else none
  | .heartbeat => none

def LinkEvent.writtenOf (i : Nat) : LinkEvent → Option (List UInt8)
  | .wrote _ frame => frame.payloadOf i
  | _ => none

namespace RelayLink

def registerFrame (l : RelayLink) : List UInt8 := encodeRelayCtrl (.serverRegister l.serverId l.publicKey.bytes [])

/-! ## Registration -/

/-- `run_once` ends before its read loop. -/
def failed (l : RelayLink) (error : DaemonError) : RelayLink := { l with phase := .waiting (some (.error error)) }

/-- The read loop of a session that is registered, and its heartbeat. -/
def registered (l : RelayLink) : RelayLink :=
  { l with
    phase := .reading
    dialer := { l.dialer with pairs := ∅, pending := none, result := none }
    sinks := l.sinks.modify (l.sinks.length - 1) fun sink => { sink with heartbeat := true } }

/-- A turn of `next_binary`, and what `run_once` makes of the frame. -/
def answer (l : RelayLink) (msg : Incoming) : RelayLink :=
  match msg with
  | .error what => l.failed (RelayDialer.wsErr what)
  | .ended => l.failed (.internal "relay websocket closed")
  | .close => l.failed (.internal "relay websocket closed")
  | .pingPong => l
  | .textOrFrame => l.failed (.internal "unexpected non-binary frame on relay dialer")
  | .binary bytes =>
    match decodeRelay bytes with
    | .error err => l.failed (RelayDialer.codecErr err)
    | .ok (.ctrl .serverRegisterOk) => l.registered
    | .ok (.ctrl (.serverRegisterErr reason)) =>
      l.failed (.internal ("relay rejected server registration: " ++ reason))
    | .ok _ => l.failed (.internal "unexpected relay registration response")

/-- The frame that `run_once` waits for. -/
def isRegisterOk : Incoming → Bool
  | .binary bytes =>
    match decodeRelay bytes with
    | .ok (.ctrl .serverRegisterOk) => true
    | _ => false
  | _ => false

/-! ## The moves -/

/-- The writer task that `read_loop` spawns for a message. -/
def spawned (l : RelayLink) : RelayDialer.Move → List PairWriter
  | .read (.binary bytes) =>
    match decodeRelay bytes with
    | .ok (.ctrl (.pairInbound pairId)) => [{ pairId, sink := l.sinks.length - 1 }]
    | _ => []
  | _ => []

inductive Move
  /-- The websocket is opened and `ServerRegister` sent, or one of them fails. -/
  | connect (outcome : Except DaemonError Unit)
  | answer (msg : Incoming)
  /-- `RELAY_DIAL_ATTEMPT_TIMEOUT` passes without an answer. -/
  | timeout
  | dialer (move : RelayDialer.Move)
  /-- The connection task of a pair sends. -/
  | send (i : Nat) (bytes : List UInt8)
  /-- The transport of a pair is dropped. -/
  | drop (i : Nat)
  /-- A writer task receives. -/
  | take (i : Nat)
  /-- A writer task has the lock; `ok` says whether the websocket takes the frame. -/
  | write (i : Nat) (ok : Bool)
  | heartbeat (ok : Bool)

def step (l : RelayLink) : Move → Option RelayLink
  | .connect outcome =>
    match l.phase, l.dialer.result with
    | .registering, _ | .reading, none => none
    | _, _ =>
      match outcome with
      | .ok () => some { l with phase := .registering, sinks := l.sinks ++ [{ written := [l.registerFrame] }] }
      | .error error => some (l.failed error)
  | .answer msg =>
    match l.phase with
    | .registering => some (l.answer msg)
    | _ => none
  | .timeout =>
    match l.phase with
    | .registering => some (l.failed (.internal "relay register timed out"))
    | _ => none
  | .dialer .dial => none
  | .dialer move => (l.dialer.step move).map fun dialer => { l with dialer, writers := l.writers ++ l.spawned move }
  | .send i bytes =>
    match l.writers[i]? with
    | none => none
    | some w => (w.send bytes).map fun w => { l with writers := l.writers.set i w }
  | .drop i =>
    (l.dialer.step (.close i)).map fun dialer =>
      { l with dialer, writers := l.writers.modify i fun w => { w with held := false } }
  | .take i =>
    match l.writers[i]? with
    | none => none
    | some w => w.take.map fun w => { l with writers := l.writers.set i w }
  | .write i ok =>
    match l.writers[i]? with
    | none => none
    | some w =>
      match w.phase with
      | .writing bytes =>
        if ok then
          some { l with
            writers := l.writers.set i { w with phase := .receiving }
            sinks := l.sinks.modify w.sink fun sink =>
              { sink with written := sink.written ++ [w.frame bytes] } }
        else some { l with writers := l.writers.set i w.finish }
      | _ => none
  | .heartbeat ok =>
    match l.dialer.result, l.sinks[l.sinks.length - 1]? with
    | none, some sink =>
      if sink.heartbeat then
        some { l with sinks := l.sinks.modify (l.sinks.length - 1) fun sink =>
          if ok then { sink with written := sink.written ++ [LinkFrame.encode .heartbeat] }
          else { sink with heartbeat := false } }
      else none
    | _, _ => none

/-! ## What the moves have done -/

def emit (l : RelayLink) : Move → List LinkEvent
  | .answer msg => if isRegisterOk msg then [.dialer (.heard .reset)] else []
  | .dialer move => (l.dialer.emit move).map .dialer
  | .send i bytes =>
    match l.writers[i]? with
    | none => []
    | some w =>
      match w.fromDaemonRx.send bytes with
      | .sent _ => [.sent i bytes]
      | _ => []
  | .write i true =>
    match l.writers[i]? with
    | none => []
    | some w =>
      match w.phase with
      | .writing bytes => [.wrote w.sink (.forward i w.pairId bytes)]
      | _ => []
  | .heartbeat true => [.wrote (l.sinks.length - 1) .heartbeat]
  | _ => []

/-- What the read loop has done. -/
def dialed (g : List LinkEvent) : List DialEvent := g.filterMap LinkEvent.dialed

/-- What a transport has sent. -/
def sentOn (i : Nat) (g : List LinkEvent) : List (List UInt8) := g.filterMap (LinkEvent.sentOf i)

/-- What the tasks have put on a sink. -/
def framesOn (k : Nat) (g : List LinkEvent) : List LinkFrame := g.filterMap (LinkEvent.frameOn k)

/-- What the writer task of a pair has put on its sink. -/
def writtenBy (i : Nat) (g : List LinkEvent) : List (List UInt8) := g.filterMap (LinkEvent.writtenOf i)

/-! ## The events, one move at a time -/

section Events

variable (g g' : List LinkEvent)

@[simp] theorem dialed_append : dialed (g ++ g') = dialed g ++ dialed g' := List.filterMap_append

@[simp] theorem sentOn_append (i : Nat) : sentOn i (g ++ g') = sentOn i g ++ sentOn i g' := List.filterMap_append

@[simp] theorem framesOn_append (k : Nat) : framesOn k (g ++ g') = framesOn k g ++ framesOn k g' :=
  List.filterMap_append

@[simp] theorem writtenBy_append (i : Nat) : writtenBy i (g ++ g') = writtenBy i g ++ writtenBy i g' :=
  List.filterMap_append

end Events

@[simp] theorem dialed_dialer (events : List DialEvent) : dialed (events.map .dialer) = events := by
  induction events with
  | nil => rfl
  | cons event rest ih =>
    simp only [List.map_cons, dialed, List.filterMap_cons, LinkEvent.dialed]
    exact congrArg _ ih

@[simp] theorem sentOn_dialer (i : Nat) (events : List DialEvent) : sentOn i (events.map .dialer) = [] := by
  induction events with
  | nil => rfl
  | cons event rest ih => exact ih

@[simp] theorem framesOn_dialer (k : Nat) (events : List DialEvent) : framesOn k (events.map .dialer) = [] := by
  induction events with
  | nil => rfl
  | cons event rest ih => exact ih

@[simp] theorem writtenBy_dialer (i : Nat) (events : List DialEvent) : writtenBy i (events.map .dialer) = [] := by
  induction events with
  | nil => rfl
  | cons event rest ih => exact ih

/-! What transports have sent is for their own queues. -/

@[simp] theorem dialed_sent (i : Nat) (sent : List (List UInt8)) : dialed (sent.map (.sent i)) = [] :=
  List.filterMap_eq_nil_iff.mpr (by simp [LinkEvent.dialed])

@[simp] theorem framesOn_sent (i k : Nat) (sent : List (List UInt8)) : framesOn k (sent.map (.sent i)) = [] :=
  List.filterMap_eq_nil_iff.mpr (by simp [LinkEvent.frameOn])

@[simp] theorem writtenBy_sent (i j : Nat) (sent : List (List UInt8)) : writtenBy j (sent.map (.sent i)) = [] :=
  List.filterMap_eq_nil_iff.mpr (by simp [LinkEvent.writtenOf])

theorem sentOn_sent (i j : Nat) (sent : List (List UInt8)) :
    sentOn j (sent.map (.sent i)) = if i = j then sent else [] := by
  induction sent with
  | nil => simp [sentOn]
  | cons bytes rest ih =>
    unfold sentOn at ih ⊢
    rw [List.map_cons, List.filterMap_cons, LinkEvent.sentOf]
    by_cases hij : i = j
    · simpa [hij] using ih
    · simpa [hij] using ih

/-! What a task has put on a sink is for that sink. -/

@[simp] theorem dialed_wrote (k : Nat) (frame : LinkFrame) : dialed [.wrote k frame] = [] := rfl

@[simp] theorem sentOn_wrote (i k : Nat) (frame : LinkFrame) : sentOn i [.wrote k frame] = [] := rfl

theorem framesOn_wrote (j k : Nat) (frame : LinkFrame) :
    framesOn j [.wrote k frame] = if k = j then [frame] else [] := by
  by_cases hkj : k = j
  · simp [framesOn, LinkEvent.frameOn, hkj]
  · simp [framesOn, LinkEvent.frameOn, hkj]

theorem writtenBy_wrote (i k : Nat) (frame : LinkFrame) :
    writtenBy i [.wrote k frame] = (frame.payloadOf i).toList := by
  unfold writtenBy
  rw [List.filterMap_cons, LinkEvent.writtenOf]
  cases frame.payloadOf i with
  | none => rfl
  | some bytes => rfl

/-- What a writer task has put on its sink is among the frames of the sink. -/
theorem writtenBy_eq {i k : Nat} {g : List LinkEvent}
    (h : ∀ {j : Nat} {pairId : PairId} {bytes : List UInt8}, .forward i pairId bytes ∈ framesOn j g → j = k) :
    writtenBy i g = (framesOn k g).filterMap (LinkFrame.payloadOf i) := by
  induction g with
  | nil => rfl
  | cons event rest ih =>
    have happend : event :: rest = [event] ++ rest := rfl
    have hrest := ih fun {j pairId bytes} hm => @h j pairId bytes (by
      rw [happend, framesOn_append]
      exact List.mem_append_right _ hm)
    rw [happend, writtenBy_append, framesOn_append, List.filterMap_append, hrest]
    congr 1
    cases event with
    | dialer event | sent j bytes => rfl
    | wrote j frame =>
      cases frame with
      | heartbeat =>
        by_cases hj : j = k
        · simp only [framesOn, List.filterMap_cons, LinkEvent.frameOn, if_pos hj]
          rfl
        · simp only [framesOn, List.filterMap_cons, LinkEvent.frameOn, if_neg hj]
          rfl
      | forward i' pairId bytes =>
        by_cases hi : i' = i
        · subst hi
          have hj : j = k := @h j pairId bytes (by simp [framesOn, LinkEvent.frameOn])
          simp [writtenBy, framesOn, LinkEvent.writtenOf, LinkEvent.frameOn, LinkFrame.payloadOf, hj]
        · by_cases hj : j = k <;> simp [writtenBy, framesOn, LinkEvent.writtenOf, LinkEvent.frameOn,
            LinkFrame.payloadOf, hi, hj]

/-! ## What is on the sinks -/

/-- **What is on each sink, and on its way to it.** -/
structure Writing (l : RelayLink) (g : List LinkEvent) : Prop where
  /-- The sinks are there from the registration on. -/
  there : l.phase = .registering ∨ l.phase = .reading → 0 < l.sinks.length
  looping : l.dialer.result = none → l.phase = .reading
  labels : l.writers.map PairWriter.pairId = (RelayDialer.line (dialed g)).filterMap Demux.Signal.openedKey
  placed : ∀ {i : Nat} {w : PairWriter}, l.writers[i]? = some w → w.sink < l.sinks.length
  sinks : ∀ {k : Nat} {sink : RelaySink}, l.sinks[k]? = some sink →
    sink.written = l.registerFrame :: (framesOn k g).map LinkFrame.encode
  unwritten : ∀ {k : Nat}, l.sinks.length ≤ k → framesOn k g = []
  authored : ∀ {k i : Nat} {pairId : PairId} {bytes : List UInt8}, .forward i pairId bytes ∈ framesOn k g →
    ∃ w, l.writers[i]? = some w ∧ w.sink = k ∧ w.pairId = pairId
  flow : ∀ {i : Nat} {w : PairWriter}, l.writers[i]? = some w → writtenBy i g ++ w.pending <+: sentOn i g ∧
    (w.phase ≠ .done → writtenBy i g ++ w.pending = sentOn i g)
  finished : ∀ {i : Nat} {w : PairWriter}, l.writers[i]? = some w → w.phase = .done → w.fromDaemonRx.closed = true
  unsent : ∀ {i : Nat}, l.writers.length ≤ i → sentOn i g = [] ∧ writtenBy i g = []

variable {l m : RelayLink} {g : List LinkEvent}

theorem writing_empty (serverId : ServerId) (publicKey : PublicKey) : Writing { serverId, publicKey } [] where
  there hp := by rcases hp with hp | hp <;> cases hp
  looping hr := by cases hr
  labels := rfl
  placed hw := by cases hw
  sinks hk := by cases hk
  unwritten _ := rfl
  authored hm := by cases hm
  flow hw := by cases hw
  finished hw := by cases hw
  unsent _ := ⟨rfl, rfl⟩

/-- A writer task keeps its pair. -/
theorem map_pairId_set {writers : List PairWriter} {i : Nat} {w w' : PairWriter} (hi : writers[i]? = some w)
    (hpair : w'.pairId = w.pairId) :
    (writers.set i w').map PairWriter.pairId = writers.map PairWriter.pairId := by
  rw [List.map_set, hpair]
  refine List.ext_getElem? fun j => ?_
  by_cases hij : i = j
  · subst hij
    rw [List.getElem?_set_self (by simpa using (List.getElem?_eq_some_iff.mp hi).1)]
    simp [hi]
  · rw [List.getElem?_set_ne hij]

/-- One of the writer tasks has changed, and the others have not. -/
theorem set_cases {writers : List PairWriter} {i j : Nat} {w' u : PairWriter} (hj : (writers.set i w')[j]? = some u) :
    (j = i ∧ u = w') ∨ (j ≠ i ∧ writers[j]? = some u) := by
  by_cases hij : i = j
  · subst hij
    have hlt := (List.getElem?_eq_some_iff.mp hj).1
    rw [List.length_set] at hlt
    rw [List.getElem?_set_self hlt] at hj
    exact .inl ⟨rfl, (Option.some.inj hj).symm⟩
  · rw [List.getElem?_set_ne hij] at hj
    exact .inr ⟨Ne.symm hij, hj⟩

/-- Whether a heartbeat runs is no part of what is written. -/
theorem written_heartbeat (sinks : List RelaySink) (i k : Nat) (running : Bool) :
    ((sinks.modify i fun sink => { sink with heartbeat := running })[k]?).map RelaySink.written =
      (sinks[k]?).map RelaySink.written := by
  simp only [List.getElem?_modify]
  cases sinks[k]? with
  | none => rfl
  | some sink =>
    simp only [Option.map_eq_map, Option.map_some]
    split <;> rfl

/-- Neither the writer tasks nor their sinks have changed. -/
theorem Writing.same (hw : Writing l g) (events : List DialEvent) (hid : m.serverId = l.serverId)
    (hkey : m.publicKey = l.publicKey) (hwriters : m.writers = l.writers) (hlength : m.sinks.length = l.sinks.length)
    (hsinks : ∀ k : Nat, (m.sinks[k]?).map RelaySink.written = (l.sinks[k]?).map RelaySink.written)
    (hthere : m.phase = .registering ∨ m.phase = .reading → 0 < m.sinks.length)
    (hlooping : m.dialer.result = none → m.phase = .reading)
    (hline : (RelayDialer.line events).filterMap Demux.Signal.openedKey = []) :
    Writing m (g ++ events.map .dialer) where
  there := hthere
  looping := hlooping
  labels := by
    rw [hwriters, hw.labels]
    simp [hline]
  placed h := by
    rw [hlength]
    exact hw.placed (hwriters ▸ h)
  sinks {k sink} hk := by
    have hold := hsinks k
    rw [hk] at hold
    obtain ⟨sink', hk', hwritten⟩ := Option.map_eq_some_iff.mp hold.symm
    rw [← hwritten, hw.sinks hk']
    simp [registerFrame, hid, hkey]
  unwritten {k} hk := by
    rw [framesOn_append, framesOn_dialer, List.append_nil]
    exact hw.unwritten (hlength ▸ hk)
  authored hm := by
    rw [framesOn_append, framesOn_dialer, List.append_nil] at hm
    rw [hwriters]
    exact hw.authored hm
  flow hi := by
    rw [writtenBy_append, writtenBy_dialer, sentOn_append, sentOn_dialer, List.append_nil, List.append_nil]
    exact hw.flow (hwriters ▸ hi)
  finished hi := hw.finished (hwriters ▸ hi)
  unsent hi := by
    rw [writtenBy_append, writtenBy_dialer, sentOn_append, sentOn_dialer, List.append_nil, List.append_nil]
    exact hw.unsent (hwriters ▸ hi)

/-- A payload is queued for a writer task, or it goes on by itself. -/
theorem Writing.writer (hw : Writing l g) {i : Nat} {w : PairWriter} (hi : l.writers[i]? = some w)
    (w' : PairWriter) (hsink : w'.sink = w.sink) (hpair : w'.pairId = w.pairId) (sent : List (List UInt8))
    (hflow : writtenBy i g ++ w'.pending <+: sentOn i g ++ sent ∧
      (w'.phase ≠ .done → writtenBy i g ++ w'.pending = sentOn i g ++ sent))
    (hfinished : w'.phase = .done → w'.fromDaemonRx.closed = true) :
    Writing { l with writers := l.writers.set i w' } (g ++ sent.map (.sent i)) := by
  have hlt := (List.getElem?_eq_some_iff.mp hi).1
  refine ⟨hw.there, hw.looping, ?_, ?_, ?_, ?_, ?_, ?_, ?_, ?_⟩
  · rw [dialed_append, dialed_sent, List.append_nil]
    exact (map_pairId_set hi hpair).trans hw.labels
  · intro j u hj
    rcases set_cases hj with ⟨rfl, rfl⟩ | ⟨_, hj⟩
    · rw [hsink]
      exact hw.placed hi
    · exact hw.placed hj
  · intro k sink hk
    rw [framesOn_append, framesOn_sent, List.append_nil]
    exact hw.sinks hk
  · intro k hk
    rw [framesOn_append, framesOn_sent, List.append_nil]
    exact hw.unwritten hk
  · intro k j pairId bytes hm
    rw [framesOn_append, framesOn_sent, List.append_nil] at hm
    obtain ⟨u, hj, husink, hupair⟩ := hw.authored hm
    by_cases hij : i = j
    · subst hij
      obtain rfl := Option.some.inj (hi.symm.trans hj)
      exact ⟨w', List.getElem?_set_self hlt, hsink.trans husink, hpair.trans hupair⟩
    · exact ⟨u, (List.getElem?_set_ne hij).trans hj, husink, hupair⟩
  · intro j u hj
    rw [writtenBy_append, writtenBy_sent, List.append_nil, sentOn_append, sentOn_sent]
    rcases set_cases hj with ⟨rfl, rfl⟩ | ⟨hij, hj⟩
    · simpa using hflow
    · simpa [Ne.symm hij] using hw.flow hj
  · intro j u hj
    rcases set_cases hj with ⟨rfl, rfl⟩ | ⟨_, hj⟩
    · exact hfinished
    · exact hw.finished hj
  · intro j hj
    rw [List.length_set] at hj
    rw [writtenBy_append, writtenBy_sent, List.append_nil, sentOn_append, sentOn_sent, if_neg (by omega),
      List.append_nil]
    exact hw.unsent hj

/-- A writer task goes on by itself, and may lose what it still has to write. -/
theorem Writing.quiet (hw : Writing l g) {i : Nat} {w : PairWriter} (hi : l.writers[i]? = some w)
    (w' : PairWriter) (hsink : w'.sink = w.sink) (hpair : w'.pairId = w.pairId) (hpending : w'.pending <+: w.pending)
    (hphase : w'.phase ≠ .done → w.phase ≠ .done ∧ w'.pending = w.pending)
    (hfinished : w'.phase = .done → w'.fromDaemonRx.closed = true) :
    Writing { l with writers := l.writers.set i w' } g := by
  obtain ⟨hpre, heq⟩ := hw.flow hi
  have hflow : writtenBy i g ++ w'.pending <+: sentOn i g ++ [] ∧
      (w'.phase ≠ .done → writtenBy i g ++ w'.pending = sentOn i g ++ []) := by
    rw [List.append_nil]
    refine ⟨((List.prefix_append_right_inj _).mpr hpending).trans hpre, fun h => ?_⟩
    obtain ⟨hold, hsame⟩ := hphase h
    rw [hsame]
    exact heq hold
  have hwriter := hw.writer hi w' hsink hpair [] hflow hfinished
  rwa [List.map_nil, List.append_nil] at hwriter

/-- A writer task ends. -/
theorem Writing.ended (hw : Writing l g) {i : Nat} {w : PairWriter} (hi : l.writers[i]? = some w) :
    Writing { l with writers := l.writers.set i w.finish } g :=
  hw.quiet hi w.finish rfl rfl (List.nil_prefix) (fun h => absurd rfl h) (fun _ => rfl)

/-- A frame is put on a sink. -/
theorem Writing.wrote (hw : Writing l g) {k : Nat} (hk : k < l.sinks.length) (frame : LinkFrame)
    {writers : List PairWriter} (hlabels : writers.map PairWriter.pairId = l.writers.map PairWriter.pairId)
    (hwriters : ∀ {i : Nat} {u : PairWriter}, writers[i]? = some u → ∃ w, l.writers[i]? = some w ∧ u.sink = w.sink ∧
      (frame.payloadOf i).toList ++ u.pending = w.pending ∧ (u.phase = .done ↔ w.phase = .done) ∧
      u.fromDaemonRx.closed = w.fromDaemonRx.closed)
    (hauthor : ∀ {i : Nat} {pairId : PairId} {bytes : List UInt8}, frame = .forward i pairId bytes →
      ∃ w, l.writers[i]? = some w ∧ w.sink = k ∧ w.pairId = pairId) :
    Writing { l with
      writers
      sinks := l.sinks.modify k fun sink => { sink with written := sink.written ++ [frame.encode] } }
      (g ++ [.wrote k frame]) := by
  have hlength : writers.length = l.writers.length := by
    simpa using congrArg List.length hlabels
  have hback : ∀ {i : Nat} {w : PairWriter}, l.writers[i]? = some w →
      ∃ u, writers[i]? = some u ∧ u.pairId = w.pairId ∧ u.sink = w.sink := by
    intro i w hi
    have hlt := (List.getElem?_eq_some_iff.mp hi).1
    obtain ⟨u, hu⟩ : ∃ u, writers[i]? = some u := ⟨_, List.getElem?_eq_getElem (by omega)⟩
    refine ⟨u, hu, ?_, ?_⟩
    · have hpair := congrArg (fun ids : List PairId => ids[i]?) hlabels
      simpa [hi, hu] using hpair
    · obtain ⟨w', hi', hsink, _⟩ := hwriters hu
      obtain rfl := Option.some.inj (hi.symm.trans hi')
      exact hsink
  refine ⟨?_, hw.looping, ?_, ?_, ?_, ?_, ?_, ?_, ?_, ?_⟩
  · intro hp
    rw [List.length_modify]
    exact hw.there hp
  · rw [dialed_append, dialed_wrote, List.append_nil]
    exact hlabels.trans hw.labels
  · intro i u hi
    obtain ⟨w, hi, hsink, _⟩ := hwriters hi
    rw [List.length_modify, hsink]
    exact hw.placed hi
  · intro j sink hj
    rw [framesOn_append, framesOn_wrote]
    rw [List.getElem?_modify] at hj
    obtain ⟨old, hold, rfl⟩ := Option.map_eq_some_iff.mp hj
    have hsink := hw.sinks hold
    by_cases hkj : k = j
    · simp [hkj, hsink, registerFrame]
    · simp [hkj, hsink, registerFrame]
  · intro j hj
    rw [List.length_modify] at hj
    rw [framesOn_append, framesOn_wrote, hw.unwritten hj, if_neg (by omega), List.append_nil]
  · intro j i pairId bytes hm
    rw [framesOn_append, framesOn_wrote, List.mem_append] at hm
    have hauthored : ∃ w, l.writers[i]? = some w ∧ w.sink = j ∧ w.pairId = pairId := by
      rcases hm with hm | hm
      · exact hw.authored hm
      · split at hm
        · next hkj =>
          subst hkj
          exact hauthor (List.mem_singleton.mp hm).symm
        · cases hm
    obtain ⟨w, hi, rfl, rfl⟩ := hauthored
    obtain ⟨u, hu, hpair, hsink⟩ := hback hi
    exact ⟨u, hu, hsink, hpair⟩
  · intro i u hi
    obtain ⟨w, hi, _, hpending, hdone, _⟩ := hwriters hi
    obtain ⟨hpre, heq⟩ := hw.flow hi
    rw [writtenBy_append, writtenBy_wrote, sentOn_append, sentOn_wrote, List.append_nil, List.append_assoc, hpending]
    exact ⟨hpre, fun hu => heq fun h => hu (hdone.mpr h)⟩
  · intro i u hi hphase
    obtain ⟨w, hi, _, _, hdone, hclosed⟩ := hwriters hi
    rw [hclosed]
    exact hw.finished hi (hdone.mp hphase)
  · intro i hi
    rw [hlength] at hi
    obtain ⟨hsent, hnone⟩ := hw.unsent hi
    rw [sentOn_append, writtenBy_append, hsent, hnone, sentOn_wrote, writtenBy_wrote]
    refine ⟨rfl, ?_⟩
    cases frame with
    | heartbeat => rfl
    | forward j pairId bytes =>
      obtain ⟨w, hj, _⟩ := hauthor rfl
      have hlt := (List.getElem?_eq_some_iff.mp hj).1
      have hij : j ≠ i := by omega
      simp [LinkFrame.payloadOf, hij]

/-! ## One move -/

/-- The read loop does not begin again by itself. -/
theorem step_result {d e : RelayDialer} {move : RelayDialer.Move} (hs : d.step move = some e) (hmove : move ≠ .dial)
    (hresult : e.result = none) : d.result = none := by
  cases move with
  | read msg =>
    simp only [RelayDialer.step] at hs
    split at hs
    · assumption
    · cases hs
  | advance =>
    simp only [RelayDialer.step] at hs
    split at hs
    · assumption
    · cases hs
  | recv i =>
    simp only [RelayDialer.step] at hs
    split at hs
    · cases hs
    · obtain ⟨_, _, rfl⟩ := Option.map_eq_some_iff.mp hs
      exact hresult
  | accept =>
    obtain ⟨_, _, rfl⟩ := Option.map_eq_some_iff.mp hs
    exact hresult
  | close i | dropAccept =>
    cases hs
    exact hresult
  | dial => exact absurd rfl hmove

/-- What is spawned for a message is what it opens. -/
theorem labels_spawned (l : RelayLink) (msg : Incoming) :
    (l.spawned (.read msg)).map PairWriter.pairId = (RelayDialer.signalsOf msg).filterMap Demux.Signal.openedKey := by
  unfold spawned RelayDialer.signalsOf
  cases msg with
  | binary bytes =>
    dsimp only
    cases decodeRelay bytes with
    | error err => rfl
    | ok wire =>
      cases wire with
      | ctrl ctrl => cases ctrl <;> rfl
      | data data => rfl
  | _ => rfl

/-- Only messages open pairs. -/
theorem line_emit {d : RelayDialer} {move : RelayDialer.Move} (hread : ∀ msg, move ≠ .read msg) :
    (RelayDialer.line (d.emit move)).filterMap Demux.Signal.openedKey = [] := by
  cases move with
  | read msg => exact absurd rfl (hread msg)
  | recv i =>
    dsimp only [RelayDialer.emit]
    split <;> rfl
  | _ => rfl

/-- The read loop takes a message: it may spawn a writer task. -/
theorem Writing.read (hw : Writing l g) {msg : Incoming} {dialer : RelayDialer}
    (hs : l.dialer.step (.read msg) = some dialer) :
    Writing { l with dialer, writers := l.writers ++ l.spawned (.read msg) }
      (g ++ (l.dialer.emit (.read msg)).map .dialer) := by
  have hresult : l.dialer.result = none := by
    simp only [RelayDialer.step] at hs
    split at hs
    · assumption
    · cases hs
  have hreading := hw.looping hresult
  have hsinks := hw.there (.inr hreading)
  have hspawned : ∀ w ∈ l.spawned (.read msg), w.sink = l.sinks.length - 1 ∧ w.pending = [] ∧ w.phase = .receiving := by
    intro w hm
    unfold spawned at hm
    split at hm
    · split at hm
      · cases List.mem_singleton.mp hm
        exact ⟨rfl, rfl, rfl⟩
      · cases hm
    · cases hm
  have hgrown : ∀ {i : Nat} {w : PairWriter}, (l.writers ++ l.spawned (.read msg))[i]? = some w →
      l.writers[i]? = some w ∨ (l.writers.length ≤ i ∧ w ∈ l.spawned (.read msg)) := by
    intro i w hi
    by_cases hlt : i < l.writers.length
    · rw [List.getElem?_append_left hlt] at hi
      exact .inl hi
    · rw [List.getElem?_append_right (by omega)] at hi
      exact .inr ⟨by omega, List.mem_of_getElem? hi⟩
  refine ⟨hw.there, fun _ => hreading, ?_, ?_, ?_, ?_, ?_, ?_, ?_, ?_⟩
  · have hemit : l.dialer.emit (.read msg) = (RelayDialer.signalsOf msg).map .heard := rfl
    rw [List.map_append, hw.labels, labels_spawned, dialed_append, dialed_dialer, hemit, RelayDialer.line_append,
      RelayDialer.line_heard, List.filterMap_append]
  · intro i w hi
    rcases hgrown hi with hi | ⟨_, hm⟩
    · exact hw.placed hi
    · rw [(hspawned w hm).1]
      show l.sinks.length - 1 < l.sinks.length
      omega
  · intro k sink hk
    rw [framesOn_append, framesOn_dialer, List.append_nil]
    exact hw.sinks hk
  · intro k hk
    rw [framesOn_append, framesOn_dialer, List.append_nil]
    exact hw.unwritten hk
  · intro k i pairId bytes hm
    rw [framesOn_append, framesOn_dialer, List.append_nil] at hm
    obtain ⟨w, hi, hfound⟩ := hw.authored hm
    exact ⟨w, (List.getElem?_append_left (List.getElem?_eq_some_iff.mp hi).1).trans hi, hfound⟩
  · intro i w hi
    rw [writtenBy_append, writtenBy_dialer, sentOn_append, sentOn_dialer, List.append_nil, List.append_nil]
    rcases hgrown hi with hi | ⟨hlength, hm⟩
    · exact hw.flow hi
    · obtain ⟨hsent, hwritten⟩ := hw.unsent hlength
      rw [hsent, hwritten, (hspawned w hm).2.1]
      exact ⟨List.prefix_rfl, fun _ => rfl⟩
  · intro i w hi hphase
    rcases hgrown hi with hi | ⟨_, hm⟩
    · exact hw.finished hi hphase
    · rw [(hspawned w hm).2.2] at hphase
      cases hphase
  · intro i hi
    rw [List.length_append] at hi
    rw [writtenBy_append, writtenBy_dialer, sentOn_append, sentOn_dialer, List.append_nil, List.append_nil]
    exact hw.unsent (by omega)

/-- `run_once` ends before its read loop. -/
theorem Writing.failed (hw : Writing l g) (hresult : l.dialer.result ≠ none) (error : DaemonError) :
    Writing (l.failed error) g := by
  have hsame := hw.same (m := l.failed error) [] rfl rfl rfl rfl (fun _ => rfl)
    (fun hp => by rcases hp with hp | hp <;> cases hp) (fun hr => absurd hr hresult) rfl
  simpa using hsame

/-- A session is registered. -/
theorem Writing.registered (hw : Writing l g) (hphase : l.phase = .registering) :
    Writing l.registered (g ++ [.dialer (.heard .reset)]) := by
  have hlength : l.registered.sinks.length = l.sinks.length := List.length_modify _ _ _
  refine hw.same [.heard .reset] rfl rfl rfl hlength (fun k => written_heartbeat _ _ k true) ?_ ?_ rfl
  · intro _
    rw [hlength]
    exact hw.there (.inl hphase)
  · intro _
    rfl

/-- A session is registered, or the turn waits on, or `run_once` ends. -/
theorem answer_cases (l : RelayLink) (msg : Incoming) : (isRegisterOk msg = true ∧ l.answer msg = l.registered) ∨
    (isRegisterOk msg = false ∧
      (msg = .pingPong ∧ l.answer msg = l ∨ ∃ error, l.answer msg = l.failed error)) := by
  unfold RelayLink.answer isRegisterOk
  cases msg with
  | error what => exact .inr ⟨rfl, .inr ⟨_, rfl⟩⟩
  | ended | close | textOrFrame => exact .inr ⟨rfl, .inr ⟨_, rfl⟩⟩
  | pingPong => exact .inr ⟨rfl, .inl ⟨rfl, rfl⟩⟩
  | binary bytes =>
    dsimp only
    cases decodeRelay bytes with
    | error err => exact .inr ⟨rfl, .inr ⟨_, rfl⟩⟩
    | ok wire =>
      cases wire with
      | ctrl ctrl =>
        cases ctrl with
        | serverRegisterOk => exact .inl ⟨rfl, rfl⟩
        | _ => exact .inr ⟨rfl, .inr ⟨_, rfl⟩⟩
      | data data => exact .inr ⟨rfl, .inr ⟨_, rfl⟩⟩

/-- While `run_once` registers, no read loop runs. -/
theorem Writing.not_looping (hw : Writing l g) (hphase : l.phase = .registering) : l.dialer.result ≠ none := by
  intro hr
  have hreading := hw.looping hr
  rw [hphase] at hreading
  cases hreading

/-- `next_binary` takes a message. -/
theorem Writing.answer (hw : Writing l g) (hphase : l.phase = .registering) (msg : Incoming) :
    Writing (l.answer msg) (g ++ l.emit (.answer msg)) := by
  rcases l.answer_cases msg with ⟨hok, heq⟩ | ⟨hok, heq⟩
  · rw [heq, emit, if_pos hok]
    exact hw.registered hphase
  · rw [emit, if_neg (by simp [hok]), List.append_nil]
    rcases heq with ⟨_, heq⟩ | ⟨error, heq⟩
    · rw [heq]
      exact hw
    · rw [heq]
      exact hw.failed (hw.not_looping hphase) error

/-- A session begins. -/
theorem Writing.connected (hw : Writing l g) (hresult : l.dialer.result ≠ none) :
    Writing { l with phase := .registering, sinks := l.sinks ++ [{ written := [l.registerFrame] }] } g where
  there _ := by simp
  looping hr := absurd hr hresult
  labels := hw.labels
  placed hi := by
    have hold := hw.placed hi
    rw [List.length_append]
    omega
  sinks {k sink} hk := by
    by_cases hlt : k < l.sinks.length
    · rw [List.getElem?_append_left hlt] at hk
      exact hw.sinks hk
    · rw [List.getElem?_append_right (by omega)] at hk
      have hnone := hw.unwritten (k := k) (by omega)
      obtain rfl := List.mem_singleton.mp (List.mem_of_getElem? hk)
      rw [hnone]
      rfl
  unwritten hk := by
    rw [List.length_append] at hk
    exact hw.unwritten (by omega)
  authored := hw.authored
  flow := hw.flow
  finished := hw.finished
  unsent := hw.unsent

theorem Writing.connect (hw : Writing l g) {outcome : Except DaemonError Unit}
    (hs : l.step (.connect outcome) = some m) : Writing m g := by
  simp only [RelayLink.step] at hs
  split at hs
  · cases hs
  · cases hs
  · next hregistering hreading =>
    have hresult : l.dialer.result ≠ none := fun hr => hreading (hw.looping hr) hr
    cases outcome with
    | ok u =>
      cases hs
      exact hw.connected hresult
    | error error =>
      cases hs
      exact hw.failed hresult error

/-- What a move of the read loop is. -/
theorem step_dialer {move : RelayDialer.Move} (hs : l.step (.dialer move) = some m) :
    ∃ dialer, l.dialer.step move = some dialer ∧ move ≠ .dial ∧
      m = { l with dialer, writers := l.writers ++ l.spawned move } := by
  by_cases hdial : move = .dial
  · subst hdial
    cases hs
  · have hstep : (l.dialer.step move).map
        (fun dialer => { l with dialer, writers := l.writers ++ l.spawned move }) = some m := by
      cases move <;> first | exact hs | exact absurd rfl hdial
    obtain ⟨dialer, hd, rfl⟩ := Option.map_eq_some_iff.mp hstep
    exact ⟨dialer, hd, hdial, rfl⟩

theorem Writing.dialer (hw : Writing l g) {move : RelayDialer.Move} (hs : l.step (.dialer move) = some m) :
    Writing m (g ++ (l.dialer.emit move).map .dialer) := by
  obtain ⟨dialer, hd, hdial, rfl⟩ := step_dialer hs
  by_cases hread : ∃ msg, move = .read msg
  · obtain ⟨msg, rfl⟩ := hread
    exact hw.read hd
  · have hnone : l.spawned move = [] := by
      cases move with
      | read msg => exact absurd ⟨msg, rfl⟩ hread
      | _ => rfl
    rw [hnone, List.append_nil]
    exact hw.same (l.dialer.emit move) rfl rfl rfl rfl (fun _ => rfl) hw.there
      (fun hr => hw.looping (step_result hd hdial hr)) (line_emit fun msg h => hread ⟨msg, h⟩)

/-- A payload that has been taken stands behind the others. -/
theorem pending_queued {w : PairWriter} (hphase : w.phase ≠ .done) (bytes : List UInt8) :
    PairWriter.pending { w with fromDaemonRx := { w.fromDaemonRx with queue := w.fromDaemonRx.queue ++ [bytes] } } =
      w.pending ++ [bytes] := by
  unfold PairWriter.pending
  cases h : w.phase with
  | receiving | writing b => rfl
  | done => exact absurd h hphase

theorem Writing.send (hw : Writing l g) {i : Nat} {bytes : List UInt8} (hs : l.step (.send i bytes) = some m) :
    Writing m (g ++ l.emit (.send i bytes)) := by
  simp only [RelayLink.step] at hs
  split at hs
  · cases hs
  · next w hi =>
    obtain ⟨w', hsend, rfl⟩ := Option.map_eq_some_iff.mp hs
    simp only [PairWriter.send] at hsend
    split at hsend
    · cases hqueue : w.fromDaemonRx.send bytes with
      | sent queue =>
        simp only [hqueue] at hsend
        cases hsend
        obtain ⟨hopen, _, rfl⟩ := Channel.Mpsc.send_eq_sent.mp hqueue
        have hphase : w.phase ≠ .done := fun h => by
          rw [hw.finished hi h] at hopen
          cases hopen
        have hemit : l.emit (.send i bytes) = [bytes].map (.sent i) := by
          simp only [emit, hi, hqueue]
          rfl
        rw [hemit]
        refine hw.writer hi { w with
          fromDaemonRx := { w.fromDaemonRx with queue := w.fromDaemonRx.queue ++ [bytes] } } rfl rfl [bytes] ?_
          (fun h => absurd h hphase)
        rw [pending_queued hphase, ← List.append_assoc, (hw.flow hi).2 hphase]
        exact ⟨List.prefix_rfl, fun _ => rfl⟩
      | full =>
        simp only [hqueue] at hsend
        cases hsend
      | closed =>
        simp only [hqueue] at hsend
        cases hsend
        have hemit : l.emit (.send i bytes) = [] := by
          simp only [emit, hi, hqueue]
        rw [hemit, List.append_nil]
        exact hw.quiet hi w rfl rfl List.prefix_rfl (fun h => ⟨h, rfl⟩) (hw.finished hi)
    · cases hsend

theorem Writing.drop (hw : Writing l g) {i : Nat} (hs : l.step (.drop i) = some m) : Writing m g := by
  have hstep : (l.dialer.step (.close i)).map (fun dialer =>
      { l with dialer, writers := l.writers.modify i fun w => { w with held := false } }) = some m := hs
  obtain ⟨dialer, hd, rfl⟩ := Option.map_eq_some_iff.mp hstep
  have hresult : dialer.result = l.dialer.result := by
    cases hd
    rfl
  cases hi : l.writers[i]? with
  | none =>
    have hsame : l.writers.modify i (fun w => { w with held := false }) = l.writers :=
      List.modify_eq_self (List.getElem?_eq_none_iff.mp hi)
    have hleft := hw.same (m := { l with dialer }) [] rfl rfl rfl rfl (fun _ => rfl) hw.there
      (fun hr => hw.looping (hresult ▸ hr)) rfl
    rw [hsame]
    rwa [List.map_nil, List.append_nil] at hleft
  | some w =>
    have hset : l.writers.modify i (fun w => { w with held := false }) =
        l.writers.set i { w with held := false } := by
      rw [List.modify_eq_set_getElem?, hi]
      rfl
    have hfinished : w.phase = .done → w.fromDaemonRx.closed = true := hw.finished hi
    have hwriter := hw.quiet hi { w with held := false } rfl rfl List.prefix_rfl (fun h => ⟨h, rfl⟩) hfinished
    have hleft := hwriter.same (m := { l with dialer, writers := l.writers.set i { w with held := false } })
      [] rfl rfl rfl rfl (fun _ => rfl) hwriter.there (fun hr => hw.looping (hresult ▸ hr)) rfl
    rw [hset]
    rwa [List.map_nil, List.append_nil] at hleft

theorem Writing.take (hw : Writing l g) {i : Nat} (hs : l.step (.take i) = some m) : Writing m g := by
  simp only [RelayLink.step] at hs
  split at hs
  · cases hs
  · next w hi =>
    obtain ⟨w', htake, rfl⟩ := Option.map_eq_some_iff.mp hs
    simp only [PairWriter.take] at htake
    split at htake
    · next bytes queue hphase hrecv =>
      cases htake
      have hpending : PairWriter.pending { w with fromDaemonRx := queue, phase := .writing bytes } = w.pending := by
        unfold PairWriter.pending
        unfold Channel.Mpsc.recv at hrecv
        rw [hphase]
        split at hrecv
        · cases hrecv
        · next hqueue =>
          cases hrecv
          exact hqueue.symm
      refine hw.quiet hi { w with fromDaemonRx := queue, phase := .writing bytes } rfl rfl ?_ ?_ (fun h => nomatch h)
      · rw [hpending]
      · intro _
        exact ⟨by simp [hphase], hpending⟩
    · split at htake
      · cases htake
      · cases htake
        exact hw.ended hi
    · cases htake

theorem Writing.write (hw : Writing l g) {i : Nat} {ok : Bool} (hs : l.step (.write i ok) = some m) :
    Writing m (g ++ l.emit (.write i ok)) := by
  simp only [RelayLink.step] at hs
  split at hs
  · cases hs
  · next w hi =>
    split at hs
    · next bytes hphase =>
      cases ok with
      | true =>
        cases hs
        have hemit : l.emit (.write i true) = [.wrote w.sink (.forward i w.pairId bytes)] := by
          simp only [emit, hi, hphase]
        rw [hemit]
        refine hw.wrote (hw.placed hi) (.forward i w.pairId bytes) (map_pairId_set hi rfl) ?_ ?_
        · intro j u hj
          rcases set_cases hj with ⟨rfl, rfl⟩ | ⟨hij, hj⟩
          · refine ⟨w, hi, rfl, ?_, ?_, rfl⟩
            · simp [PairWriter.pending, hphase, LinkFrame.payloadOf]
            · simp [hphase]
          · refine ⟨u, hj, rfl, ?_, Iff.rfl, rfl⟩
            simp [LinkFrame.payloadOf, Ne.symm hij]
        · intro j pairId payload hframe
          cases hframe
          exact ⟨w, hi, rfl, rfl⟩
      | false =>
        cases hs
        have hemit : l.emit (.write i false) = [] := rfl
        rw [hemit, List.append_nil]
        exact hw.ended hi
    · cases hs

theorem Writing.heartbeat (hw : Writing l g) {ok : Bool} (hs : l.step (.heartbeat ok) = some m) :
    Writing m (g ++ l.emit (.heartbeat ok)) := by
  simp only [RelayLink.step] at hs
  split at hs
  · next sink _ hlast =>
    have hlt := (List.getElem?_eq_some_iff.mp hlast).1
    split at hs
    · cases ok with
      | true =>
        cases hs
        exact hw.wrote hlt .heartbeat rfl (fun {i u} hi => ⟨u, hi, rfl, rfl, Iff.rfl, rfl⟩) (fun h => nomatch h)
      | false =>
        cases hs
        have hemit : l.emit (.heartbeat false) = [] := rfl
        rw [hemit]
        refine hw.same [] rfl rfl rfl (List.length_modify _ _ _) (fun k => written_heartbeat _ _ k false) ?_
          hw.looping rfl
        intro hp
        rw [List.length_modify]
        exact hw.there hp
    · cases hs
  · cases hs

/-- **Every move keeps it.** -/
theorem Writing.step (hw : Writing l g) {move : Move} (hs : l.step move = some m) : Writing m (g ++ l.emit move) := by
  cases move with
  | connect outcome =>
    have hemit : l.emit (.connect outcome) = [] := rfl
    rw [hemit, List.append_nil]
    exact hw.connect hs
  | answer msg =>
    simp only [RelayLink.step] at hs
    split at hs
    · next hphase =>
      cases hs
      exact hw.answer hphase msg
    · cases hs
  | timeout =>
    simp only [RelayLink.step] at hs
    have hemit : l.emit .timeout = [] := rfl
    rw [hemit, List.append_nil]
    split at hs
    · next hphase =>
      cases hs
      exact hw.failed (hw.not_looping hphase) _
    · cases hs
  | dialer move => exact hw.dialer hs
  | send i bytes => exact hw.send hs
  | drop i =>
    have hemit : l.emit (.drop i) = [] := rfl
    rw [hemit, List.append_nil]
    exact hw.drop hs
  | take i =>
    have hemit : l.emit (.take i) = [] := rfl
    rw [hemit, List.append_nil]
    exact hw.take hs
  | write i ok => exact hw.write hs
  | heartbeat ok => exact hw.heartbeat hs

/-! ## Whole runs -/

/-- Whose link it is does not change. -/
theorem step_ids {move : Move} (hs : l.step move = some m) : m.serverId = l.serverId ∧ m.publicKey = l.publicKey := by
  cases move with
  | connect outcome =>
    simp only [step] at hs
    split at hs
    · cases hs
    · cases hs
    · cases outcome <;> cases hs <;> exact ⟨rfl, rfl⟩
  | answer msg =>
    simp only [step] at hs
    split at hs
    · cases hs
      rcases l.answer_cases msg with ⟨_, heq⟩ | ⟨_, ⟨_, heq⟩ | ⟨error, heq⟩⟩
      all_goals rw [heq]
      all_goals exact ⟨rfl, rfl⟩
    · cases hs
  | timeout =>
    simp only [step] at hs
    split at hs
    · cases hs
      exact ⟨rfl, rfl⟩
    · cases hs
  | dialer move =>
    obtain ⟨dialer, _, _, rfl⟩ := step_dialer hs
    exact ⟨rfl, rfl⟩
  | send i bytes | take i =>
    simp only [step] at hs
    split at hs
    · cases hs
    · obtain ⟨_, _, rfl⟩ := Option.map_eq_some_iff.mp hs
      exact ⟨rfl, rfl⟩
  | drop i =>
    have hstep : (l.dialer.step (.close i)).map (fun dialer =>
        { l with dialer, writers := l.writers.modify i fun w => { w with held := false } }) = some m := hs
    obtain ⟨dialer, _, rfl⟩ := Option.map_eq_some_iff.mp hstep
    exact ⟨rfl, rfl⟩
  | write i ok =>
    simp only [step] at hs
    split at hs
    · cases hs
    · split at hs
      · cases ok <;> cases hs <;> exact ⟨rfl, rfl⟩
      · cases hs
  | heartbeat ok =>
    simp only [step] at hs
    split at hs
    · split at hs
      · cases hs
        exact ⟨rfl, rfl⟩
      · cases hs
    · cases hs

variable {serverId : ServerId} {publicKey : PublicKey} {moves : List Move}

theorem writing_run (hr : Steps.run (Steps.traced step emit) ({ serverId, publicKey }, []) moves = some (l, g)) :
    Writing l g ∧ l.serverId = serverId ∧ l.publicKey = publicKey := by
  refine Steps.run_invariant (C := fun _ _ => True)
    (I := fun p => Writing p.1 p.2 ∧ p.1.serverId = serverId ∧ p.1.publicKey = publicKey) ?_
    (Steps.meets_true _ _) hr ⟨writing_empty serverId publicKey, rfl, rfl⟩
  rintro ⟨u, h⟩ move ⟨v, h'⟩ ⟨hu, hid, hkey⟩ _ hst
  obtain ⟨hv, rfl⟩ := Steps.traced_eq_some.mp hst
  obtain ⟨hid', hkey'⟩ := step_ids hv
  exact ⟨hu.step hv, hid'.trans hid, hkey'.trans hkey⟩

/-- What a writer task has put on its sink. -/
theorem Writing.written (hw : Writing l g) {i : Nat} {w : PairWriter} (hi : l.writers[i]? = some w) :
    writtenBy i g = (framesOn w.sink g).filterMap (LinkFrame.payloadOf i) := by
  apply writtenBy_eq
  intro k pairId bytes hm
  obtain ⟨u, hu, hsink, _⟩ := hw.authored hm
  obtain rfl := Option.some.inj (hi.symm.trans hu)
  exact hsink.symm

/-- **The writers deliver.** In every run, a sink has the registration, then heartbeats and the payloads of transports
of its session, under their pairs; the payloads of each transport, with what its writer task still has, are what the
transport has sent, in order, or where the task has ended the beginning of it. -/
theorem writers_deliver (hr : Steps.run (Steps.traced step emit) ({ serverId, publicKey }, []) moves = some (l, g)) :
    (∀ (k : Nat) (sink : RelaySink), l.sinks[k]? = some sink →
      sink.written =
        encodeRelayCtrl (.serverRegister serverId publicKey.bytes []) :: (framesOn k g).map LinkFrame.encode) ∧
    (∀ (k i : Nat) (pairId : PairId) (bytes : List UInt8), .forward i pairId bytes ∈ framesOn k g →
      ∃ w, l.writers[i]? = some w ∧ w.sink = k ∧ w.pairId = pairId) ∧
    ∀ (i : Nat) (w : PairWriter), l.writers[i]? = some w →
      (framesOn w.sink g).filterMap (LinkFrame.payloadOf i) ++ w.pending <+: sentOn i g ∧
        (w.phase ≠ .done → (framesOn w.sink g).filterMap (LinkFrame.payloadOf i) ++ w.pending = sentOn i g) := by
  obtain ⟨hw, hid, hkey⟩ := writing_run hr
  refine ⟨?_, fun k i pairId bytes hm => hw.authored hm, ?_⟩
  · intro k sink hk
    rw [hw.sinks hk, registerFrame, hid, hkey]
  · intro i w hi
    rw [← hw.written hi]
    exact hw.flow hi

/-- A pair is announced; its transport sends twice, around a heartbeat. -/
def linkMoves : List Move :=
  [.connect (.ok ()), .answer (.binary (encodeRelayCtrl .serverRegisterOk)),
    .dialer (.read (.binary (encodeRelayCtrl (.pairInbound pairA)))), .dialer .advance, .dialer .accept, .send 0 [0x2a],
    .take 0, .heartbeat true, .send 0 [0x2b], .write 0 true]

def linkTrace : RelayLink × List LinkEvent :=
  (Steps.run (Steps.traced step emit) ({ serverId := serverA, publicKey := PublicKey.splat 1 }, []) linkMoves).getD
    ({ serverId := serverA, publicKey := PublicKey.splat 1 }, [])

theorem run_linkMoves :
    Steps.run (Steps.traced step emit) ({ serverId := serverA, publicKey := PublicKey.splat 1 }, []) linkMoves =
      some linkTrace := by
  rfl

theorem writers_deliver_sample :
    framesOn 0 linkTrace.2 = [.heartbeat, .forward 0 pairA [0x2a]] ∧ sentOn 0 linkTrace.2 = [[0x2a], [0x2b]] ∧
      (framesOn 0 linkTrace.2).filterMap (LinkFrame.payloadOf 0) ++ [[0x2b]] = sentOn 0 linkTrace.2 := by
  have hi : linkTrace.1.writers[0]? = some { pairId := pairA, sink := 0, fromDaemonRx :=
      { capacity := pairQueueCapacity, queue := [[0x2b]] } } := by rfl
  have hflow := (writers_deliver run_linkMoves).2.2 0 _ hi
  exact ⟨by rfl, by rfl, hflow.2 (by decide)⟩

end RelayLink

end CliPocket
