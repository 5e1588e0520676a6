import CliPocket.Daemon.ClientDb
import CliPocket.Relay.Progress
import CliPocket.Relay.WorkerIsolation

/-!
# The daemon's end of the relay link

`read_loop` of the relay dialer, with the queues it feeds: one for each pair, and the one of accepted transports.

- `RelayDialer.read`, `RelayDialer.perform`: one message, and the awaited send it may leave;
- `reachable_wired`: each pair has a queue of its own, in every reachable state;
- `RelayDialer.canForward_iff`: **when the loop can forward the next frame, of another pair**;
- `server_link_serves`: **when a server's link serves, at both ends.**
-/

namespace CliPocket

def pairQueueCapacity : Nat := 32

/-- The capacity of the channel behind the dialer in `Daemon::start`. -/
def relayAcceptCapacity : Nat := 32

/-- A transport for the accept loop: the pair in its label, and the queue it reads from. -/
structure AcceptedTransport where
  label : PairId
  toDaemonRx : Nat
  deriving DecidableEq

/-- An awaited send of `read_loop`. -/
inductive AwaitedSend
  | accept (transport : AcceptedTransport)
  | forward (pairId : PairId) (toDaemonTx : Nat) (bytes : List UInt8)
  deriving DecidableEq

structure RelayDialer where
  pairs : AList fun _ : PairId => Nat := ∅
  /-- The queues `to_daemon`, of all pairs there have been. -/
  queues : List (Channel.Mpsc (List UInt8)) := []
  accepted : Channel.Mpsc AcceptedTransport := { capacity := relayAcceptCapacity }
  pending : Option AwaitedSend := none
  result : Option (Except DaemonError Unit) := none

namespace RelayDialer

def codecErr (err : CodecError) : DaemonError := .internal ("relay codec error: " ++ err.toMessage)

def wsErr (err : String) : DaemonError := .internal ("relay websocket error: " ++ err)

/-! ## The read loop -/

/-- One turn of `read_loop`. -/
def read (d : RelayDialer) (msg : Incoming) : RelayDialer :=
  match msg with
  | .error what => { d with result := some (.error (wsErr what)) }
  | .ended => { d with result := some (.ok ()) }
  | .close => { d with result := some (.ok ()) }
  | .pingPong => d
  | .textOrFrame => { d with result := some (.error (.internal "unexpected non-binary frame on relay dialer")) }
  | .binary bytes =>
    match decodeRelay bytes with
    | .error err => { d with result := some (.error (codecErr err)) }
    | .ok (.ctrl (.pairInbound pairId)) =>
      { d with
        pairs := d.pairs.insert pairId d.queues.length
        queues := d.queues ++ [{ capacity := pairQueueCapacity }]
        pending := some (.accept { label := pairId, toDaemonRx := d.queues.length }) }
    | .ok (.data (.forward pairId payload)) =>
      match d.pairs.lookup pairId with
      | some tx => { d with pending := some (.forward pairId tx payload) }
      | none => d
    | .ok (.ctrl (.pairClose pairId _)) => { d with pairs := d.pairs.erase pairId }
    | .ok (.ctrl _) => d

/-- The awaited send of a turn; `none` while it waits for room. -/
def perform (d : RelayDialer) : AwaitedSend → Option RelayDialer
  | .accept transport =>
    match d.accepted.send transport with
    | .sent accepted => some { d with accepted, pending := none }
    | .full => none
    | .closed =>
      some { d with pending := none, result := some (.error (.internal "relay inbound consumer dropped")) }
  | .forward pairId tx bytes =>
    match d.queues[tx]? with
    | none => none
    | some queue =>
      match queue.send bytes with
      | .sent queue => some { d with queues := d.queues.set tx queue, pending := none }
      | .full => none
      | .closed => some { d with pairs := d.pairs.erase pairId, pending := none }

/-! ## The moves -/

inductive Move
  | read (msg : Incoming)
  | advance
  /-- The pair's connection task receives. -/
  | recv (i : Nat)
  /-- The pair's transport is closed or dropped. -/
  | close (i : Nat)
  /-- The accept loop takes a transport. -/
  | accept
  /-- The accept loop is gone. -/
  | dropAccept
  /-- `run_once` again, behind a `read_loop` that has come to its end. -/
  | dial

def step (d : RelayDialer) : Move → Option RelayDialer
  | .read msg =>
    match d.result, d.pending with
    | none, none => some (d.read msg)
    | _, _ => none
  | .advance =>
    match d.result, d.pending with
    | none, some pending => d.perform pending
    | _, _ => none
  | .recv i =>
    match d.queues[i]? with
    | none => none
    | some queue => queue.recv.map fun (_, queue) => { d with queues := d.queues.set i queue }
  | .close i => some { d with queues := d.queues.modify i fun queue => { queue with closed := true } }
  | .accept => d.accepted.recv.map fun (_, accepted) => { d with accepted }
  | .dropAccept => some { d with accepted := { d.accepted with closed := true } }
  | .dial =>
    match d.result with
    | none => none
    | some _ => some { d with pairs := ∅, pending := none, result := none }

/-! ## Each pair has a queue of its own -/

structure Wired (d : RelayDialer) : Prop where
  there : ∀ {pairId : PairId} {tx : Nat}, d.pairs.lookup pairId = some tx → tx < d.queues.length
  own : ∀ {pairId pairId' : PairId} {tx : Nat}, d.pairs.lookup pairId = some tx → d.pairs.lookup pairId' = some tx →
    pairId = pairId'
  pending : ∀ {pairId : PairId} {tx : Nat} {bytes : List UInt8}, d.pending = some (.forward pairId tx bytes) →
    d.pairs.lookup pairId = some tx

variable {d e : RelayDialer}

/-- A change of the queues alone, or of the way to the accept loop. -/
theorem Wired.of_pairs (h : Wired d) (hpairs : e.pairs = d.pairs) (hlength : e.queues.length = d.queues.length)
    (hpending : e.pending = d.pending ∨ ∀ pairId tx bytes, e.pending ≠ some (.forward pairId tx bytes)) : Wired e := by
  refine ⟨?_, ?_, ?_⟩
  · intro pairId tx hl
    rw [hlength]
    exact h.there (hpairs ▸ hl)
  · intro pairId pairId' tx hl hl'
    exact h.own (hpairs ▸ hl) (hpairs ▸ hl')
  · intro pairId tx bytes hp
    rw [hpairs]
    rcases hpending with hpending | hno
    · exact h.pending (hpending ▸ hp)
    · exact absurd hp (hno _ _ _)

theorem lookup_erase_some {pairs : AList fun _ : PairId => Nat} {pairId id : PairId} {tx : Nat}
    (h : (pairs.erase pairId).lookup id = some tx) : id ≠ pairId ∧ pairs.lookup id = some tx := by
  by_cases hid : id = pairId
  · subst hid
    rw [AList.lookup_erase] at h
    cases h
  · rw [AList.lookup_erase_ne hid] at h
    exact ⟨hid, h⟩

/-- A pair that goes, with nothing to send. -/
theorem Wired.erase (h : Wired d) (pairId : PairId) : Wired { d with pairs := d.pairs.erase pairId, pending := none } where
  there hl := h.there (lookup_erase_some hl).2
  own hl hl' := h.own (lookup_erase_some hl).2 (lookup_erase_some hl').2
  pending hp := by cases hp

/-- A pair that comes, with a queue for it. -/
theorem Wired.insert (h : Wired d) (pairId : PairId) (queue : Channel.Mpsc (List UInt8)) (transport : AcceptedTransport) :
    Wired { d with
      pairs := d.pairs.insert pairId d.queues.length
      queues := d.queues ++ [queue]
      pending := some (.accept transport) } := by
  have hlookup : ∀ {id tx}, (d.pairs.insert pairId d.queues.length).lookup id = some tx →
      (id = pairId ∧ tx = d.queues.length) ∨ (id ≠ pairId ∧ d.pairs.lookup id = some tx) := by
    intro id tx hl
    by_cases hid : id = pairId
    · subst hid
      rw [AList.lookup_insert] at hl
      exact .inl ⟨rfl, (Option.some.inj hl).symm⟩
    · rw [AList.lookup_insert_ne hid] at hl
      exact .inr ⟨hid, hl⟩
  refine ⟨?_, ?_, ?_⟩
  · intro id tx hl
    rw [List.length_append, List.length_singleton]
    rcases hlookup hl with ⟨_, rfl⟩ | ⟨_, hl⟩
    · exact Nat.lt_succ_self _
    · exact Nat.lt_succ_of_lt (h.there hl)
  · intro id id' tx hl hl'
    rcases hlookup hl with ⟨hid, htx⟩ | ⟨_, hold⟩
    · rcases hlookup hl' with ⟨hid', _⟩ | ⟨_, hold'⟩
      · exact hid.trans hid'.symm
      · exact absurd (h.there hold') (by omega)
    · rcases hlookup hl' with ⟨_, htx'⟩ | ⟨_, hold'⟩
      · exact absurd (h.there hold) (by omega)
      · exact h.own hold hold'
  · intro id tx bytes hp
    cases hp

theorem Wired.read (h : Wired d) (hpending : d.pending = none) (msg : Incoming) : Wired (d.read msg) := by
  unfold RelayDialer.read
  cases msg with
  | error | ended | close | textOrFrame => exact h.of_pairs rfl rfl (.inl rfl)
  | pingPong => exact h
  | binary bytes =>
    simp only
    split
    · exact h.of_pairs rfl rfl (.inl rfl)
    · exact h.insert _ _ _
    · split
      · next tx hl =>
        refine ⟨h.there, h.own, ?_⟩
        intro id tx' bytes hp
        cases hp
        exact hl
      · exact h
    · next pairId _ _ =>
      have herased := h.erase pairId
      rw [← hpending] at herased
      exact herased
    · exact h

theorem Wired.perform (h : Wired d) {pending : AwaitedSend} (hs : d.perform pending = some e) : Wired e := by
  cases pending with
  | accept transport =>
    simp only [RelayDialer.perform] at hs
    split at hs
    · cases hs
      exact h.of_pairs rfl rfl (.inr fun _ _ _ => by simp)
    · cases hs
    · cases hs
      exact h.of_pairs rfl rfl (.inr fun _ _ _ => by simp)
  | forward pairId tx bytes =>
    simp only [RelayDialer.perform] at hs
    split at hs
    · cases hs
    · split at hs
      · cases hs
        exact h.of_pairs rfl (List.length_set ..) (.inr fun _ _ _ => by simp)
      · cases hs
      · cases hs
        exact h.erase pairId

/-- **Every move keeps the pairs wired.** -/
theorem Wired.step {move : Move} (h : Wired d) (hs : d.step move = some e) : Wired e := by
  cases move with
  | read msg =>
    simp only [RelayDialer.step] at hs
    split at hs
    · next hpending =>
      cases hs
      exact h.read hpending msg
    · cases hs
  | advance =>
    simp only [RelayDialer.step] at hs
    split at hs
    · exact h.perform hs
    · cases hs
  | recv i =>
    simp only [RelayDialer.step] at hs
    split at hs
    · cases hs
    · obtain ⟨⟨_, queue⟩, _, rfl⟩ := Option.map_eq_some_iff.mp hs
      exact h.of_pairs rfl (List.length_set ..) (.inl rfl)
  | close i =>
    cases hs
    exact h.of_pairs rfl (List.length_modify ..) (.inl rfl)
  | accept =>
    obtain ⟨⟨_, accepted⟩, _, rfl⟩ := Option.map_eq_some_iff.mp hs
    exact h.of_pairs rfl rfl (.inl rfl)
  | dropAccept =>
    cases hs
    exact h.of_pairs rfl rfl (.inl rfl)
  | dial =>
    simp only [RelayDialer.step] at hs
    split at hs
    · cases hs
    · cases hs
      exact ⟨fun hl => (by cases hl), fun hl => (by cases hl), fun hp => (by cases hp)⟩

/-- **Each pair has a queue of its own, in every reachable state.** -/
theorem reachable_wired (h : Steps.Reachable step {} d) : Wired d := by
  apply h.invariant (I := Wired)
  · exact ⟨fun hl => (by cases hl), fun hl => (by cases hl), fun hp => (by cases hp)⟩
  · intro d move e hd hs
    exact hd.step hs

/-! ## When the loop can forward the next frame -/

/-- The awaited send does not wait, and does not end the loop. -/
def Takes (d : RelayDialer) : AwaitedSend → Prop
  | .accept _ => d.accepted.closed = false ∧ d.accepted.queue.length < d.accepted.capacity
  | .forward _ tx _ => ∃ queue, d.queues[tx]? = some queue ∧ (queue.closed = false → queue.queue.length < queue.capacity)

/-- The next frame from the relay is for a pair that the loop is not busy with, and there is room in its queue. -/
structure Next (d : RelayDialer) (bytes : List UInt8) (pairId : PairId) (payload : List UInt8) (tx : Nat) : Prop where
  running : d.result = none
  frame : decodeRelay bytes = .ok (.data (.forward pairId payload))
  known : d.pairs.lookup pairId = some tx
  other : ∀ tx' bytes', d.pending ≠ some (.forward pairId tx' bytes')
  room : ∃ queue, d.queues[tx]? = some queue ∧ queue.closed = false ∧ queue.queue.length < queue.capacity

/-- The loop comes to queue `payload` for the pair at `tx` on its own, with `bytes` next on its socket. -/
def CanForward (d : RelayDialer) (bytes : List UInt8) (tx : Nat) (payload : List UInt8) : Prop :=
  ∃ n e queue, Steps.run step d (List.replicate n .advance ++ [.read (.binary bytes), .advance]) = some e ∧
    d.queues[tx]? = some queue ∧ e.queues[tx]? = some { queue with queue := queue.queue ++ [payload] }

theorem perform_accept (hopen : d.accepted.closed = false) (hroom : d.accepted.queue.length < d.accepted.capacity)
    (transport : AcceptedTransport) : d.perform (.accept transport) =
      some { d with accepted := { d.accepted with queue := d.accepted.queue ++ [transport] }, pending := none } := by
  simp only [perform, Channel.Mpsc.send_of_room hopen hroom]

theorem perform_forward {tx : Nat} {queue : Channel.Mpsc (List UInt8)} (hqueue : d.queues[tx]? = some queue)
    (hopen : queue.closed = false) (hroom : queue.queue.length < queue.capacity) (pairId : PairId) (bytes : List UInt8) :
    d.perform (.forward pairId tx bytes) = some { d with
      queues := d.queues.set tx { queue with queue := queue.queue ++ [bytes] }, pending := none } := by
  simp only [perform, hqueue, Channel.Mpsc.send_of_room hopen hroom]

/-- A pair whose transport is gone. -/
theorem perform_forward_closed {tx : Nat} {queue : Channel.Mpsc (List UInt8)} (hqueue : d.queues[tx]? = some queue)
    (hclosed : queue.closed = true) (pairId : PairId) (bytes : List UInt8) :
    d.perform (.forward pairId tx bytes) = some { d with pairs := d.pairs.erase pairId, pending := none } := by
  simp only [perform, hqueue, Channel.Mpsc.send_eq_closed.mpr hclosed]

/-- With nothing to send, it forwards. -/
theorem forward_idle (hpending : d.pending = none) {bytes : List UInt8} {pairId : PairId} {payload : List UInt8} {tx : Nat}
    {queue : Channel.Mpsc (List UInt8)} (hrunning : d.result = none)
    (hframe : decodeRelay bytes = .ok (.data (.forward pairId payload))) (hknown : d.pairs.lookup pairId = some tx)
    (hqueue : d.queues[tx]? = some queue) (hopen : queue.closed = false) (hroom : queue.queue.length < queue.capacity) :
    ∃ e, Steps.run step d [.read (.binary bytes), .advance] = some e ∧
      e.queues[tx]? = some { queue with queue := queue.queue ++ [payload] } := by
  have hread : d.step (.read (.binary bytes)) = some { d with pending := some (.forward pairId tx payload) } := by
    simp only [step, hrunning, hpending, read, hframe, hknown]
  have hadvance : step { d with pending := some (.forward pairId tx payload) } .advance = some { d with
      queues := d.queues.set tx { queue with queue := queue.queue ++ [payload] }, pending := none } := by
    simp only [step, hrunning, perform, hqueue, Channel.Mpsc.send_of_room hopen hroom]
  refine ⟨{ d with queues := d.queues.set tx { queue with queue := queue.queue ++ [payload] }, pending := none }, ?_, ?_⟩
  · rw [Steps.run_cons, hread, Option.bind_some, Steps.run_cons, hadvance]
    rfl
  · exact List.getElem?_set_self (List.getElem?_eq_some_iff.mp hqueue).1

/-- A send that is taken leaves the loop where it was, without it. -/
theorem step_advance_taken (hw : Wired d) {pending : AwaitedSend} (hpending : d.pending = some pending)
    (hrunning : d.result = none) (htakes : d.Takes pending) {pairId : PairId} {tx : Nat}
    (hknown : d.pairs.lookup pairId = some tx) (hother : ∀ tx' bytes', pending ≠ .forward pairId tx' bytes') :
    ∃ e, d.step .advance = some e ∧ e.pending = none ∧ e.result = none ∧ e.pairs.lookup pairId = some tx ∧
      e.queues[tx]? = d.queues[tx]? := by
  have hstep : d.step .advance = d.perform pending := by simp only [step, hrunning, hpending]
  rw [hstep]
  cases pending with
  | accept transport =>
    obtain ⟨hopen, hroom⟩ := htakes
    exact ⟨_, perform_accept hopen hroom transport, rfl, hrunning, hknown, rfl⟩
  | forward pairId' tx' bytes' =>
    obtain ⟨queue, hqueue, hroom⟩ := htakes
    have hpairs : pairId' ≠ pairId := by
      rintro rfl
      exact hother _ _ rfl
    have hne : tx' ≠ tx := by
      rintro rfl
      exact hpairs (hw.own (hw.pending hpending) hknown)
    cases hclosed : queue.closed with
    | true =>
      refine ⟨_, perform_forward_closed hqueue hclosed _ _, rfl, hrunning, ?_, rfl⟩
      exact (AList.lookup_erase_ne (Ne.symm hpairs)).trans hknown
    | false =>
      refine ⟨_, perform_forward hqueue hclosed (hroom hclosed) _ _, rfl, hrunning, hknown, ?_⟩
      exact List.getElem?_set_ne hne

/-- **The loop can forward the next frame, of another pair, exactly when the send it is in is taken.** -/
theorem canForward_iff (hw : Wired d) {bytes : List UInt8} {pairId : PairId} {payload : List UInt8} {tx : Nat}
    (hnext : d.Next bytes pairId payload tx) :
    d.CanForward bytes tx payload ↔ ∀ pending, d.pending = some pending → d.Takes pending := by
  obtain ⟨queue, hqueue, hopen, hroom⟩ := hnext.room
  constructor
  · rintro ⟨n, e, _, hr, _⟩ pending hpending
    cases n with
    | zero =>
      obtain ⟨m, hm, _⟩ := Steps.run_cons_some hr
      simp only [step, hpending, hnext.running] at hm
      cases hm
    | succ n =>
      rw [List.replicate_succ, List.cons_append] at hr
      obtain ⟨m, hm, hr⟩ := Steps.run_cons_some hr
      simp only [step, hpending, hnext.running] at hm
      cases pending with
      | accept transport =>
        simp only [perform] at hm
        split at hm
        · next accepted hsent =>
          obtain ⟨hopen, hroom, _⟩ := Channel.Mpsc.send_eq_sent.mp hsent
          exact ⟨hopen, hroom⟩
        · cases hm
        · cases hm
          -- The loop is at its end, and does not read.
          cases n with
          | zero => simp [Steps.run_cons, step] at hr
          | succ n => simp [List.replicate_succ, Steps.run_cons, step] at hr
      | forward pairId' tx' bytes' =>
        simp only [perform] at hm
        split at hm
        · cases hm
        · next queue' hqueue' =>
          refine ⟨queue', hqueue', fun hopen => ?_⟩
          split at hm
          · next hsent => exact (Channel.Mpsc.send_eq_sent.mp hsent).2.1
          · cases hm
          · next hclosed =>
            rw [Channel.Mpsc.send_eq_closed.mp hclosed] at hopen
            cases hopen
  · intro htakes
    cases hpending : d.pending with
    | none =>
      obtain ⟨e, hr, he⟩ := forward_idle hpending hnext.running hnext.frame hnext.known hqueue hopen hroom
      exact ⟨0, e, queue, hr, hqueue, he⟩
    | some pending =>
      obtain ⟨m, hm, hidle, hrunning, hknown, hsame⟩ := step_advance_taken hw hpending hnext.running (htakes pending hpending)
        hnext.known fun tx' bytes' he => hnext.other tx' bytes' (by rw [hpending, he])
      obtain ⟨e, hr, he⟩ := forward_idle hidle hrunning hnext.frame hknown (hsame.trans hqueue) hopen hroom
      refine ⟨1, e, queue, ?_, hqueue, he⟩
      rw [List.replicate_one, List.singleton_append, Steps.run_cons, hm]
      exact hr

end RelayDialer

/-! ## Both ends -/

/-- **A server's link.** In every reachable state of the relay, the loop of a server fails because of a receiver exactly
when its next send is required and lost there; it can forward the next frame, of another pair, exactly when all it has
left to send is taken. The same for the loop of the daemon. -/
theorem server_link_serves {idleThreshold : Nat} {s : Relay} {d : RelayDialer}
    (hs : Steps.Reachable Relay.step { idleThreshold } s) (hd : Steps.Reachable RelayDialer.step {} d) :
    (∀ c conn serverId g, s.conns[c]? = some conn → conn.role = .server serverId g → conn.phase.running → ∀ tx,
      (Relay.FailsFor s c tx (.advance c) ↔ Relay.Lost s c tx) ∧ ∀ msg now, ¬Relay.FailsFor s c tx (.read c msg now)) ∧
    (∀ c conn bytes pairId payload pair now, Relay.Next s c conn bytes pairId payload pair →
      (Relay.CanForward s c bytes now pair.clientTx (Relay.encodeDataFrame (.forward pairId payload)) ↔
        ∀ op ∈ conn.todo, Relay.Takes s op)) ∧
    (∀ bytes pairId payload tx, d.Next bytes pairId payload tx →
      (d.CanForward bytes tx payload ↔ ∀ pending, d.pending = some pending → d.Takes pending)) := by
  obtain ⟨_, hserving⟩ := Relay.reachable_serving hs
  refine ⟨?_, ?_, ?_⟩
  · intro c conn serverId g hc hrole hrunning tx
    exact Relay.failsFor_iff hserving hc hrole hrunning tx
  · intro c conn bytes pairId payload pair now hnext
    exact Relay.canForward_iff hserving hnext now
  · intro bytes pairId payload tx hnext
    exact RelayDialer.canForward_iff (RelayDialer.reachable_wired hd) hnext

/-- A frame for the client of `connectedRelay`. -/
def frameA : List UInt8 := encodeRelayData (.forward pairA [0x2a])

/-- The client's writer fails, and a frame for the client has come. -/
def lostMoves : List Relay.Move := connectedMoves ++ [.write 2 false, .read 0 (.binary frameA) 1]

def lostRelay : Relay := (Steps.run Relay.step {} lostMoves).getD {}

theorem run_lostMoves : Steps.run Relay.step {} lostMoves = some lostRelay := by
  rfl

def pairB : PairId := ⟨.splat 0xd⟩

def frameB : List UInt8 := encodeRelayData (.forward pairB [0x2b])

/-- A second client connects, and a frame for the first has come. -/
def busyMoves : List Relay.Move :=
  connectedMoves ++ [.client serverA (encodeRelayCtrl (.clientConnect serverA)) true pairB 0, .advance 3, .advance 3,
    .advance 3, .read 0 (.binary frameA) 1]

def busyRelay : Relay := (Steps.run Relay.step {} busyMoves).getD {}

theorem run_busyMoves : Steps.run Relay.step {} busyMoves = some busyRelay := by
  rfl

/-- The same at the daemon: two pairs have come in, and a frame for the first. -/
def busyDialerMoves : List RelayDialer.Move :=
  [.read (.binary (encodeRelayCtrl (.pairInbound pairA))), .advance,
    .read (.binary (encodeRelayCtrl (.pairInbound pairB))), .advance, .read (.binary frameA)]

def busyDialer : RelayDialer := (Steps.run RelayDialer.step {} busyDialerMoves).getD {}

theorem run_busyDialerMoves : Steps.run RelayDialer.step {} busyDialerMoves = some busyDialer := by
  rfl

theorem server_link_serves_sample :
    ¬Relay.FailsFor busyRelay 0 2 (.advance 0) ∧
    Relay.CanForward busyRelay 0 frameB 1 3 (Relay.encodeDataFrame (.forward pairB [0x2b])) ∧
    busyDialer.CanForward frameB 1 [0x2b] := by
  have hs : Steps.Reachable Relay.step {} busyRelay := ⟨busyMoves, run_busyMoves⟩
  have hd : Steps.Reachable RelayDialer.step {} busyDialer := ⟨busyDialerMoves, run_busyDialerMoves⟩
  obtain ⟨hfails, hserver, hdaemon⟩ := server_link_serves hs hd
  have hnext : Relay.Next busyRelay 0 (busyRelay.conns.get ⟨0, by decide⟩) frameB pairB [0x2b]
      ⟨pairB, serverA, 0, 0, 3⟩ :=
    ⟨by rfl, ⟨0, by rfl⟩, trivial, by rfl, by rfl, by decide, ⟨_, by rfl, by rfl, by decide⟩⟩
  have hpending : busyDialer.pending = some (.forward pairA 0 [0x2a]) := by rfl
  have hnext' : busyDialer.Next frameB pairB [0x2b] 1 := by
    refine ⟨by rfl, by rfl, by rfl, fun tx' bytes' h => ?_, ⟨_, by rfl, by rfl, by decide⟩⟩
    rw [hpending] at h
    have hne : pairA ≠ pairB := by decide
    exact hne (AwaitedSend.forward.inj (Option.some.inj h)).1
  have htodo : (busyRelay.conns.get ⟨0, by decide⟩).todo =
      [.send 2 (Relay.encodeDataFrame (.forward pairA [0x2a])) true] := by rfl
  refine ⟨?_, ?_, ?_⟩
  · rw [(hfails 0 (busyRelay.conns.get ⟨0, by decide⟩) serverA 0 (by rfl) (by rfl) trivial 2).1]
    rintro ⟨_, _, _, channel, _, _, hchannel, hclosed⟩
    have hopen : (busyRelay.channel 2).map Channel.Mpsc.closed = some false := by rfl
    rw [hchannel, Option.map_some, hclosed] at hopen
    cases hopen
  · refine (hserver 0 _ frameB pairB [0x2b] _ 1 hnext).mpr fun op hop => ?_
    rw [htodo] at hop
    obtain rfl := List.mem_singleton.mp hop
    exact ⟨2, _, true, (busyRelay.conns.get ⟨2, by decide⟩).channel, rfl, by rfl, by decide⟩
  · refine (hdaemon frameB pairB [0x2b] 1 hnext').mpr fun pending h => ?_
    rw [hpending] at h
    cases h
    exact ⟨_, by rfl, fun _ => by decide⟩

/-- A second client connects; the first reads nothing, its queue fills up, and one more frame has come for it. -/
def stalledMoves : List Relay.Move :=
  connectedMoves ++ [.client serverA (encodeRelayCtrl (.clientConnect serverA)) true pairB 0, .advance 3, .advance 3,
      .advance 3] ++
    (List.replicate 31 [.read 0 (.binary frameA) 1, .advance 0]).flatten ++ [.read 0 (.binary frameA) 1]

def stalledRelay : Relay := (Steps.run Relay.step {} stalledMoves).getD {}

theorem run_stalledMoves : Steps.run Relay.step {} stalledMoves = some stalledRelay := by
  rfl

/-- **One client ends and stalls the link of its server**: its writer is gone, or its queue is full. -/
theorem server_link_not_served :
    (¬∀ idleThreshold s, Steps.Reachable Relay.step { idleThreshold } s → ∀ c conn serverId g, s.conns[c]? = some conn →
      conn.role = .server serverId g → conn.phase.running → ∀ tx, ¬Relay.FailsFor s c tx (.advance c)) ∧
    ¬∀ idleThreshold s, Steps.Reachable Relay.step { idleThreshold } s → ∀ c conn bytes pairId payload pair now,
      Relay.Next s c conn bytes pairId payload pair →
      Relay.CanForward s c bytes now pair.clientTx (Relay.encodeDataFrame (.forward pairId payload)) := by
  constructor
  · intro h
    have hreach : Steps.Reachable Relay.step { idleThreshold := 0 } lostRelay := ⟨lostMoves, run_lostMoves⟩
    have hc : lostRelay.conns[0]? = some (lostRelay.conns.get ⟨0, by decide⟩) := by rfl
    have hrole : (lostRelay.conns.get ⟨0, by decide⟩).role = .server serverA 0 := by rfl
    refine h 0 lostRelay hreach 0 _ serverA 0 hc hrole trivial 2 ?_
    rw [(Relay.failsFor_iff (Relay.reachable_serving hreach).2 hc hrole trivial 2).1]
    exact ⟨_, _, _, _, hc, by rfl, by rfl, by rfl⟩
  · intro h
    have hreach : Steps.Reachable Relay.step { idleThreshold := 0 } stalledRelay := ⟨stalledMoves, run_stalledMoves⟩
    have hnext : Relay.Next stalledRelay 0 (stalledRelay.conns.get ⟨0, by decide⟩) frameB pairB [0x2b]
        ⟨pairB, serverA, 0, 0, 3⟩ :=
      ⟨by rfl, ⟨0, by rfl⟩, trivial, by rfl, by rfl, by decide, ⟨_, by rfl, by rfl, by decide⟩⟩
    have hforward := h 0 stalledRelay hreach 0 _ frameB pairB [0x2b] _ 1 hnext
    rw [Relay.canForward_iff (Relay.reachable_serving hreach).2 hnext] at hforward
    obtain ⟨u, hu⟩ := (hforward _ List.mem_cons_self).perform
    have hwaits : stalledRelay.perform (.send 2 (Relay.encodeDataFrame (.forward pairA [0x2a])) true) = none := by rfl
    have hnone := hu.symm.trans hwaits
    cases hnone

end CliPocket
