import CliPocket.Relay.Progress

/-!
# What a move of the relay can do

The state as functions, with times left out, and what moves leave behind: messages read, pairs inserted, messages
queued and frames written. Each move has one of a few effects on it.

- `Relay.view`, `Relay.emit`: the state as functions; the events of a move;
- `Relay.Effect`: what a move can do;
- `step_effect`: **every move does one of these.** What holds over whole runs is proved from it.
-/

namespace CliPocket

namespace Relay

/-! ## Events -/

inductive Event
  /-- A read loop takes a binary message. -/
  | read (c : ConnId) (who : Role) (bytes : List UInt8)
  | inserted (pair : Pair)
  /-- A message is queued for a writer. -/
  | pushed (tx : ConnId) (msg : ServerMsg)
  /-- The writer has written the message. -/
  | wrote (c : ConnId) (msg : ServerMsg) (frame : Written)
  deriving DecidableEq

def opEvents (s : Relay) : Op → List Event
  | .send tx msg _ =>
    match s.channel tx with
    | none => []
    | some channel =>
      match channel.send msg with
      | .sent _ => [.pushed tx msg]
      | _ => []
  | .insertPair pair => [.inserted pair]
  | _ => []

/-- What a move that is taken does. -/
def emit (s : Relay) : Move → List Event
  | .read c (.binary bytes) _ => (s.role c).toList.map fun who => .read c who bytes
  | .advance c =>
    match s.conns[c]? with
    | none => []
    | some conn => (conn.todo.take 1).flatMap s.opEvents
  | .sweepAdvance => (s.sweeper.take 1).flatMap s.opEvents
  | .write c ok =>
    match s.conns[c]? with
    | none => []
    | some conn =>
      match conn.channel.recv, writeOne conn ok with
      | some (msg, _), some (_, written) => (written.drop conn.written.length).map (.wrote c msg)
      | _, _ => []
  | _ => []

/-! ## The state as functions -/

/-- A pair without its time. -/
def timeless (pair : Pair) : Pair := { pair with lastProgress := 0 }

structure View where
  role : RoleMap
  phase : ConnId → Option Phase
  channel : ConnId → Option (Channel.Mpsc ServerMsg)
  /-- What the task of a connection has left to do, or, at `none`, the guillotine. -/
  todo : Option ConnId → List Op
  pairs : PairId → Option Pair
  servers : ServerId → Option StoredServerSlot
  nextGeneration : Nat

def phase (s : Relay) (i : ConnId) : Option Phase := s.conns[i]?.map Conn.phase

def todo (s : Relay) : Option ConnId → List Op
  | none => s.sweeper
  | some c => (s.conns[c]?.map Conn.todo).getD []

def view (s : Relay) : View where
  role := s.role
  phase := s.phase
  channel := s.channel
  todo := s.todo
  pairs := fun pairId => (s.pairs.lookup pairId).map timeless
  servers := fun serverId => s.servers.lookup serverId
  nextGeneration := s.nextGeneration

namespace View

def setTodo (v : View) (a : Option ConnId) (ops : List Op) : View := { v with todo := Function.update v.todo a ops }

def setPhase (v : View) (c : ConnId) (phase : Phase) : View :=
  { v with phase := Function.update v.phase c (some phase) }

def setChannel (v : View) (c : ConnId) (channel : Channel.Mpsc ServerMsg) : View :=
  { v with channel := Function.update v.channel c (some channel) }

def erase (v : View) (pairId : PairId) : View := { v with pairs := Function.update v.pairs pairId none }

def insert (v : View) (pair : Pair) : View :=
  { v with pairs := Function.update v.pairs pair.pairId (some (timeless pair)) }

/-- What `close_pair` leaves to do. -/
def closeOps (v : View) (pairId : PairId) (reason : PairCloseReason) : List Op :=
  match v.pairs pairId with
  | none => []
  | some pair =>
    [.send pair.serverTx (encodeCtrlFrame (.pairClose pairId reason)) false,
      .send pair.clientTx (encodeCtrlFrame (.pairClose pairId reason)) false]

def unregister (v : View) (serverId : ServerId) (generation : Nat) : View :=
  match v.servers serverId with
  | some stored =>
    if stored.generation = generation then { v with servers := Function.update v.servers serverId none } else v
  | none => v

/-- The end of a task; the registration of a server is dropped. -/
def leave (v : View) : Role → View
  | .server serverId generation => v.unregister serverId generation
  | .client _ _ _ => v

/-- An error in the task at `c`. -/
def fail (v : View) (c : ConnId) (who : Role) (phase : Phase) (error : RelayError) : View :=
  match who, phase with
  | .server serverId generation, _ =>
    ((v.unregister serverId generation).setPhase c (.ended (.error error))).setTodo (some c) []
  | .client _ _ _, .opening => (v.setPhase c (.ended (.error error))).setTodo (some c) []
  | .client pairId _ _, _ => (v.setPhase c (.closing (.error error))).setTodo (some c) [.closePair pairId .clientGone]

/-- The task at `c` waits for a message. -/
structure Idle (v : View) (c : ConnId) (who : Role) : Prop where
  role : v.role c = some who
  phase : v.phase c = some .opening ∨ v.phase c = some .reading
  todo : v.todo (some c) = []

/-! ## Fields of updated views -/

section Fields

variable (v : View) (a b : Option ConnId) (c i : ConnId) (ops : List Op) (ph : Phase) (ch : Channel.Mpsc ServerMsg)
  (p q : PairId) (pair : Pair) (serverId : ServerId) (g : Nat) (who : Role)

theorem setTodo_todo : (v.setTodo a ops).todo b = if b = a then ops else v.todo b := Function.update_apply _ _ _ _

@[simp] theorem setTodo_role : (v.setTodo a ops).role = v.role := rfl

@[simp] theorem setTodo_phase : (v.setTodo a ops).phase = v.phase := rfl

@[simp] theorem setTodo_channel : (v.setTodo a ops).channel = v.channel := rfl

@[simp] theorem setTodo_pairs : (v.setTodo a ops).pairs = v.pairs := rfl

@[simp] theorem setTodo_servers : (v.setTodo a ops).servers = v.servers := rfl

theorem setPhase_phase : (v.setPhase c ph).phase i = if i = c then some ph else v.phase i := Function.update_apply _ _ _ _

@[simp] theorem setPhase_role : (v.setPhase c ph).role = v.role := rfl

@[simp] theorem setPhase_todo : (v.setPhase c ph).todo = v.todo := rfl

@[simp] theorem setPhase_channel : (v.setPhase c ph).channel = v.channel := rfl

@[simp] theorem setPhase_pairs : (v.setPhase c ph).pairs = v.pairs := rfl

@[simp] theorem setPhase_servers : (v.setPhase c ph).servers = v.servers := rfl

theorem setChannel_channel : (v.setChannel c ch).channel i = if i = c then some ch else v.channel i :=
  Function.update_apply _ _ _ _

@[simp] theorem setChannel_role : (v.setChannel c ch).role = v.role := rfl

@[simp] theorem setChannel_phase : (v.setChannel c ch).phase = v.phase := rfl

@[simp] theorem setChannel_todo : (v.setChannel c ch).todo = v.todo := rfl

@[simp] theorem setChannel_pairs : (v.setChannel c ch).pairs = v.pairs := rfl

@[simp] theorem setChannel_servers : (v.setChannel c ch).servers = v.servers := rfl

theorem erase_pairs : (v.erase p).pairs q = if q = p then none else v.pairs q := Function.update_apply _ _ _ _

@[simp] theorem erase_role : (v.erase p).role = v.role := rfl

@[simp] theorem erase_phase : (v.erase p).phase = v.phase := rfl

@[simp] theorem erase_channel : (v.erase p).channel = v.channel := rfl

@[simp] theorem erase_todo : (v.erase p).todo = v.todo := rfl

@[simp] theorem erase_servers : (v.erase p).servers = v.servers := rfl

theorem insert_pairs : (v.insert pair).pairs q = if q = pair.pairId then some (timeless pair) else v.pairs q :=
  Function.update_apply _ _ _ _

@[simp] theorem insert_role : (v.insert pair).role = v.role := rfl

@[simp] theorem insert_phase : (v.insert pair).phase = v.phase := rfl

@[simp] theorem insert_channel : (v.insert pair).channel = v.channel := rfl

@[simp] theorem insert_todo : (v.insert pair).todo = v.todo := rfl

@[simp] theorem insert_servers : (v.insert pair).servers = v.servers := rfl

/-- Dropping a registration changes the registry only. -/
theorem unregister_eq : ∃ servers, v.unregister serverId g = { v with servers } := by
  unfold unregister
  split
  · split
    · exact ⟨_, rfl⟩
    · exact ⟨_, rfl⟩
  · exact ⟨_, rfl⟩

@[simp] theorem unregister_role : (v.unregister serverId g).role = v.role := by
  obtain ⟨_, h⟩ := v.unregister_eq serverId g
  rw [h]

@[simp] theorem unregister_phase : (v.unregister serverId g).phase = v.phase := by
  obtain ⟨_, h⟩ := v.unregister_eq serverId g
  rw [h]

@[simp] theorem unregister_channel : (v.unregister serverId g).channel = v.channel := by
  obtain ⟨_, h⟩ := v.unregister_eq serverId g
  rw [h]

@[simp] theorem unregister_todo : (v.unregister serverId g).todo = v.todo := by
  obtain ⟨_, h⟩ := v.unregister_eq serverId g
  rw [h]

@[simp] theorem unregister_pairs : (v.unregister serverId g).pairs = v.pairs := by
  obtain ⟨_, h⟩ := v.unregister_eq serverId g
  rw [h]

@[simp] theorem leave_role : (v.leave who).role = v.role := by cases who <;> simp [leave]

@[simp] theorem leave_phase : (v.leave who).phase = v.phase := by cases who <;> simp [leave]

@[simp] theorem leave_channel : (v.leave who).channel = v.channel := by cases who <;> simp [leave]

@[simp] theorem leave_todo : (v.leave who).todo = v.todo := by cases who <;> simp [leave]

@[simp] theorem leave_pairs : (v.leave who).pairs = v.pairs := by cases who <;> simp [leave]

/-- Where an error leaves a task: its phase, and what it still has to do. -/
def failing : Role → Phase → RelayError → Phase × List Op
  | .server _ _, _, error => (.ended (.error error), [])
  | .client _ _ _, .opening, error => (.ended (.error error), [])
  | .client pairId _ _, _, error => (.closing (.error error), [.closePair pairId .clientGone])

theorem fail_eq (error : RelayError) : v.fail c who ph error =
    (((v.leave who).setPhase c (failing who ph error).1).setTodo (some c) (failing who ph error).2) := by
  cases who with
  | server serverId g => rfl
  | client p serverId tx => cases ph <;> rfl

theorem fail_todo (error : RelayError) :
    (v.fail c who ph error).todo = Function.update v.todo (some c) (failing who ph error).2 := by
  simp [fail_eq, setTodo]

end Fields

end View

/-! ## Effects -/

/-- The frame that the writer of `who` makes of a message. -/
inductive Writes : Role → ServerMsg → Written → Prop
  | ctrl {who : Role} {bytes : List UInt8} : Writes who (.ctrl bytes) (.binary bytes)
  | data {serverId : ServerId} {g : Nat} {bytes : List UInt8} :
      Writes (.server serverId g) (.data bytes) (.binary bytes)
  | payload {p q : PairId} {serverId : ServerId} {tx : ConnId} {bytes payload : List UInt8}
      (h : decodeRelay bytes = .ok (.data (.forward q payload))) :
      Writes (.client p serverId tx) (.data bytes) (.binary payload)

/-- The move of the task at `a`, or of the guillotine. -/
def advanceOf : Option ConnId → Move
  | some c => .advance c
  | none => .sweepAdvance

/-- The move brings a new websocket. -/
def Connects : Move → Prop
  | .server _ _ => True
  | .client _ _ _ _ _ => True
  | _ => False

/-- What a move can do. -/
inductive Effect (v : View) : Move → View → List Event → Prop
  /-- A websocket is turned away. -/
  | refused {move : Move} (hmove : Connects move) : Effect v move v []
  | registered {n : ConnId} {serverId : ServerId} {first : List UInt8} {admitted : Bool} (hn : v.role n = none)
      (hfree : v.servers serverId = none) :
      Effect v (.server first admitted) {
        v with
        role := Function.update v.role n (some (.server serverId v.nextGeneration))
        phase := Function.update v.phase n (some .opening)
        channel := Function.update v.channel n (some { capacity := socketQueueCapacity })
        todo := Function.update v.todo (some n) [.send n (encodeCtrlFrame .serverRegisterOk) true]
        servers := Function.update v.servers serverId (some { tx := n, generation := v.nextGeneration })
        nextGeneration := v.nextGeneration + 1 } []
  | connected {slot : StoredServerSlot} {first : List UInt8} {admitted : Bool} {now : Nat} (pair : Pair)
      (hn : v.role pair.clientTx = none) (hslot : v.servers pair.serverId = some slot) (htx : slot.tx = pair.serverTx)
      (hfresh : ∀ i serverId tx, v.role i ≠ some (.client pair.pairId serverId tx)) :
      Effect v (.client pair.serverId first admitted pair.pairId now) {
        v with
        role := Function.update v.role pair.clientTx (some (.client pair.pairId pair.serverId pair.serverTx))
        phase := Function.update v.phase pair.clientTx (some .opening)
        channel := Function.update v.channel pair.clientTx (some { capacity := socketQueueCapacity })
        todo := Function.update v.todo (some pair.clientTx) [.insertPair pair,
          .send pair.serverTx (encodeCtrlFrame (.pairInbound pair.pairId)) true,
          .send pair.clientTx (encodeCtrlFrame (.pairOpen pair.pairId)) true] } []
  /-- A ping, or a pong. -/
  | pinged {c : ConnId} {who : Role} {msg : Incoming} {now : Nat} (hidle : v.Idle c who) :
      Effect v (.read c msg now) ((v.setPhase c .reading).setTodo (some c) []) []
  /-- A server's control frame that is not looked at. -/
  | ignored {c : ConnId} {serverId : ServerId} {g : Nat} {now : Nat} {bytes : List UInt8} {ctrl : RelayCtrl}
      (hidle : v.Idle c (.server serverId g)) (hdecode : decodeRelay bytes = .ok (.ctrl ctrl))
      (hother : ∀ pairId reason, ctrl ≠ .pairClose pairId reason) :
      Effect v (.read c (.binary bytes) now) ((v.setPhase c .reading).setTodo (some c) []) [.read c (.server serverId g) bytes]
  /-- A payload for a pair that is not there. -/
  | answered {c : ConnId} {serverId : ServerId} {g : Nat} {now : Nat} {bytes payload : List UInt8} {pairId : PairId}
      (hidle : v.Idle c (.server serverId g)) (hdecode : decodeRelay bytes = .ok (.data (.forward pairId payload)))
      (hnone : v.pairs pairId = none) :
      Effect v (.read c (.binary bytes) now) ((v.setPhase c .reading).setTodo (some c)
        [.send c (encodeCtrlFrame (.pairClose pairId .clientGone)) true]) [.read c (.server serverId g) bytes]
  | toClient {c : ConnId} {g : Nat} {now : Nat} {bytes payload : List UInt8} {pairId : PairId} (pair : Pair)
      (hidle : v.Idle c (.server pair.serverId g)) (hdecode : decodeRelay bytes = .ok (.data (.forward pairId payload)))
      (hpair : v.pairs pairId = some pair) :
      Effect v (.read c (.binary bytes) now) ((v.setPhase c .reading).setTodo (some c)
        [.send pair.clientTx (encodeDataFrame (.forward pairId payload)) true]) [.read c (.server pair.serverId g) bytes]
  | toServer {c : ConnId} {pairId : PairId} {serverId : ServerId} {tx : ConnId} {now : Nat} {bytes : List UInt8}
      (hidle : v.Idle c (.client pairId serverId tx))
      (hpayload : ∀ closing reason, decodeRelay bytes ≠ .ok (.ctrl (.pairClose closing reason))) :
      Effect v (.read c (.binary bytes) now) ((v.setPhase c .reading).setTodo (some c)
        [.send tx (encodeDataFrame (.forward pairId bytes)) true]) [.read c (.client pairId serverId tx) bytes]
  | closedByServer {c : ConnId} {serverId : ServerId} {g : Nat} {now : Nat} {bytes : List UInt8} {closing : PairId}
      {reason : PairCloseReason} (hidle : v.Idle c (.server serverId g))
      (hdecode : decodeRelay bytes = .ok (.ctrl (.pairClose closing reason))) :
      Effect v (.read c (.binary bytes) now) (((v.erase closing).setPhase c .reading).setTodo (some c) (v.closeOps closing reason))
        [.read c (.server serverId g) bytes]
  | closedByClient {c : ConnId} {pairId : PairId} {serverId : ServerId} {tx : ConnId} {now : Nat} {bytes : List UInt8}
      {closing : PairId} {reason : PairCloseReason} (hidle : v.Idle c (.client pairId serverId tx))
      (hdecode : decodeRelay bytes = .ok (.ctrl (.pairClose closing reason))) :
      Effect v (.read c (.binary bytes) now) (((v.erase closing).setPhase c (.closing (.ok ()))).setTodo (some c)
        (v.closeOps closing reason ++ [.closePair pairId .clientGone])) [.read c (.client pairId serverId tx) bytes]
  /-- The websocket has come to its end. -/
  | stopped {c : ConnId} {who : Role} {msg : Incoming} {now : Nat} (hidle : v.Idle c who) :
      Effect v (.read c msg now) ((v.setPhase c (.closing (.ok ()))).setTodo (some c) (Role.farewell c who)) []
  | readFailed {c : ConnId} {who : Role} {error : RelayError} {msg : Incoming} {now : Nat} (hidle : v.Idle c who)
      (hbad : (∃ what, msg = .error what) ∨ msg = .textOrFrame) :
      Effect v (.read c msg now) (v.fail c who .reading error) []
  /-- A server's frame that is malformed, or for a pair of another server. -/
  | rejected {c : ConnId} {serverId : ServerId} {g : Nat} {now : Nat} {bytes : List UInt8} {error : RelayError}
      (hidle : v.Idle c (.server serverId g))
      (hforeign : ∀ pairId payload, decodeRelay bytes = .ok (.data (.forward pairId payload)) →
        ∃ pair, v.pairs pairId = some pair ∧ pair.serverId ≠ serverId)
      (hbad : (∃ err, decodeRelay bytes = .error err) ∨ ∃ pairId payload, decodeRelay bytes = .ok (.data (.forward pairId payload))) :
      Effect v (.read c (.binary bytes) now) (v.fail c (.server serverId g) .reading error) [.read c (.server serverId g) bytes]
  | pushed {a : Option ConnId} {tx : ConnId} {msg : ServerMsg} {required : Bool} {rest : List Op}
      {channel : Channel.Mpsc ServerMsg} (htodo : v.todo a = .send tx msg required :: rest)
      (hchannel : v.channel tx = some channel) (hopen : channel.closed = false)
      (hroom : channel.queue.length < channel.capacity) :
      Effect v (advanceOf a) ((v.setChannel tx { channel with queue := channel.queue ++ [msg] }).setTodo a rest) [.pushed tx msg]
  /-- Nobody reads, and nobody minds. -/
  | skipped {a : Option ConnId} {tx : ConnId} {msg : ServerMsg} {rest : List Op} {channel : Channel.Mpsc ServerMsg}
      (htodo : v.todo a = .send tx msg false :: rest) (hchannel : v.channel tx = some channel)
      (hclosed : channel.closed = true) : Effect v (advanceOf a) (v.setTodo a rest) []
  | sendFailed {c : ConnId} {who : Role} {phase : Phase} {tx : ConnId} {msg : ServerMsg} {rest : List Op}
      {channel : Channel.Mpsc ServerMsg} (hrole : v.role c = some who) (hphase : v.phase c = some phase)
      (htodo : v.todo (some c) = .send tx msg true :: rest) (hchannel : v.channel tx = some channel)
      (hclosed : channel.closed = true) : Effect v (.advance c) (v.fail c who phase writerClosed) []
  | inserted {a : Option ConnId} {pair : Pair} {rest : List Op} (htodo : v.todo a = .insertPair pair :: rest) :
      Effect v (advanceOf a) ((v.insert pair).setTodo a rest) [.inserted pair]
  | closed {a : Option ConnId} {pairId : PairId} {reason : PairCloseReason} {rest : List Op}
      (htodo : v.todo a = .closePair pairId reason :: rest) :
      Effect v (advanceOf a) ((v.erase pairId).setTodo a (v.closeOps pairId reason ++ rest)) []
  | listed {a : Option ConnId} {serverId : ServerId} {ids : List PairId} {rest : List Op}
      (htodo : v.todo a = .closePairsOf serverId :: rest)
      (hids : ∀ pairId, pairId ∈ ids ↔ ∃ pair, v.pairs pairId = some pair ∧ pair.serverId = serverId) :
      Effect v (advanceOf a) (v.setTodo a (ids.map (fun pairId => .closePair pairId .serverGone) ++ rest)) []
  | removed {a : Option ConnId} {pairId : PairId} {rest : List Op} (htodo : v.todo a = .removePair pairId :: rest) :
      Effect v (advanceOf a) ((v.erase pairId).setTodo a rest) []
  | finished {c : ConnId} (who : Role) {result : RelayResult Unit} (hrole : v.role c = some who)
      (hphase : v.phase c = some (.closing result)) (htodo : v.todo (some c) = []) :
      Effect v (.finish c) ((v.leave who).setPhase c (.ended result)) []
  /-- The task has awaited its writer, and returns. -/
  | returned {c : ConnId} {result : RelayResult Unit} {channel : Channel.Mpsc ServerMsg}
      (hphase : v.phase c = some (.ended result)) (hchannel : v.channel c = some channel)
      (hclosed : channel.closed = true) : Effect v (.finish c) v []
  | wrote {c : ConnId} {ok : Bool} {who : Role} {channel : Channel.Mpsc ServerMsg} {msg : ServerMsg} {rest : List ServerMsg}
      {frame : Written} (hrole : v.role c = some who) (hchannel : v.channel c = some channel)
      (hopen : channel.closed = false) (hqueue : channel.queue = msg :: rest) (hframe : Writes who msg frame) :
      Effect v (.write c ok) (v.setChannel c { channel with queue := rest }) [.wrote c msg frame]
  /-- The writer is told to close, or the websocket refuses the frame, or the frame is malformed, or no sender is left. -/
  | writerEnded {c : ConnId} {ok : Bool} {channel : Channel.Mpsc ServerMsg} {events : List Event}
      (hchannel : v.channel c = some channel) (hopen : channel.closed = false)
      (hevents : events = [] ∨ (∃ rest, channel.queue = .close :: rest) ∧ events = [.wrote c .close .close]) :
      Effect v (.write c ok) (v.setChannel c { channel with queue := [], closed := true }) events
  | swept {now : Nat} {stuck : List Pair} (htodo : v.todo none = [])
      (hstuck : ∀ pair ∈ stuck, v.pairs pair.pairId = some (timeless pair))
      (hnodup : (stuck.map Pair.pairId).Nodup) : Effect v (.sweep now) (v.setTodo none (stuck.flatMap guillotine)) []

/-! ## Views of updates -/

variable {s t : Relay} {c : ConnId} {k : Conn}

theorem update_same {α β : Type} [DecidableEq α] {f : α → β} {a : α} {b : β} (h : f a = b) :
    Function.update f a b = f := by
  rw [← h, Function.update_eq_self]

theorem map_mapConn {α : Type} (hc : s.conns[c]? = some k) (f : Conn → Conn) (g : Conn → α) :
    (fun i => (s.mapConn c f).conns[i]?.map g) =
      Function.update (fun i => s.conns[i]?.map g) c (some (g (f k))) := by
  funext i
  by_cases hi : i = c
  · subst hi
    rw [Function.update_self, conns_mapConn_self hc, Option.map_some]
  · rw [Function.update_of_ne hi]
    simp [mapConn, Ne.symm hi]

theorem todo_mapConn (hc : s.conns[c]? = some k) (f : Conn → Conn) :
    (s.mapConn c f).todo = Function.update s.todo (some c) (f k).todo := by
  funext a
  cases a with
  | none => rw [Function.update_of_ne (by simp), todo, todo, sweeper_mapConn]
  | some i =>
    have hmap := congrFun (map_mapConn hc f Conn.todo) i
    simp only [todo]
    rw [hmap]
    by_cases hi : i = c
    · subst hi
      rw [Function.update_self, Function.update_self, Option.getD_some]
    · rw [Function.update_of_ne hi, Function.update_of_ne (by simpa using hi)]
      rfl

theorem view_mapConn (hc : s.conns[c]? = some k) (f : Conn → Conn) :
    (s.mapConn c f).view = {
      s.view with
      role := Function.update s.role c (some (f k).role)
      phase := Function.update s.phase c (some (f k).phase)
      channel := Function.update s.channel c (some (f k).channel)
      todo := Function.update s.todo (some c) (f k).todo } := by
  unfold view
  rw [todo_mapConn hc f]
  congr 1
  · exact map_mapConn hc f Conn.role
  · exact map_mapConn hc f Conn.phase
  · exact map_mapConn hc f Conn.channel

theorem role_eq (hc : s.conns[c]? = some k) : s.role c = some k.role := by simp only [role, hc, Option.map_some]

theorem phase_eq (hc : s.conns[c]? = some k) : s.phase c = some k.phase := by simp only [phase, hc, Option.map_some]

theorem channel_eq (hc : s.conns[c]? = some k) : s.channel c = some k.channel := by
  simp only [channel, hc, Option.map_some]

theorem todo_eq (hc : s.conns[c]? = some k) : s.todo (some c) = k.todo := by
  simp only [todo, hc, Option.map_some, Option.getD_some]

theorem view_setTodo (hc : s.conns[c]? = some k) (ops : List Op) :
    (s.mapConn c fun k => { k with todo := ops }).view = s.view.setTodo (some c) ops := by
  rw [view_mapConn hc]
  simp only [View.setTodo, view, update_same (role_eq hc),
    update_same (phase_eq hc), update_same (channel_eq hc)]

theorem view_setPhase (hc : s.conns[c]? = some k) (phase : Phase) :
    (s.mapConn c fun k => { k with phase }).view = s.view.setPhase c phase := by
  rw [view_mapConn hc]
  simp only [View.setPhase, view, update_same (role_eq hc),
    update_same (todo_eq hc), update_same (channel_eq hc)]

theorem view_setPhase_setTodo (hc : s.conns[c]? = some k) (phase : Phase) (ops : List Op) :
    (s.mapConn c fun k => { k with phase, todo := ops }).view = (s.view.setPhase c phase).setTodo (some c) ops := by
  rw [view_mapConn hc]
  simp only [View.setPhase, View.setTodo, view, update_same (role_eq hc),
    update_same (channel_eq hc)]

/-- Whether a task has returned is not in view. -/
theorem view_setPhase_setTodo_returned (hc : s.conns[c]? = some k) (phase : Phase) (ops : List Op) (returned : Bool) :
    (s.mapConn c fun k => { k with phase, todo := ops, returned }).view =
      (s.view.setPhase c phase).setTodo (some c) ops := by
  rw [view_mapConn hc]
  simp only [View.setPhase, View.setTodo, view, update_same (role_eq hc), update_same (channel_eq hc)]

theorem view_setReturned (hc : s.conns[c]? = some k) (returned : Bool) :
    (s.mapConn c fun k => { k with returned }).view = s.view := by
  rw [view_mapConn hc]
  simp only [view, update_same (role_eq hc), update_same (phase_eq hc), update_same (todo_eq hc),
    update_same (channel_eq hc)]

theorem view_setChannel (hc : s.conns[c]? = some k) (channel : Channel.Mpsc ServerMsg) :
    (s.mapConn c fun k => { k with channel }).view = s.view.setChannel c channel := by
  rw [view_mapConn hc]
  simp only [View.setChannel, view, update_same (role_eq hc),
    update_same (phase_eq hc), update_same (todo_eq hc)]

theorem view_setWritten (hc : s.conns[c]? = some k) (channel : Channel.Mpsc ServerMsg) (written : List Written) :
    (s.mapConn c fun k => { k with channel, written }).view = s.view.setChannel c channel := by
  rw [view_mapConn hc]
  simp only [View.setChannel, view, update_same (role_eq hc),
    update_same (phase_eq hc), update_same (todo_eq hc)]

theorem view_setSweeper (s : Relay) (ops : List Op) : { s with sweeper := ops }.view = s.view.setTodo none ops := by
  unfold view View.setTodo
  congr 1
  funext a
  cases a with
  | none => rw [Function.update_self, todo]
  | some i =>
    rw [Function.update_of_ne (by simp)]
    rfl

theorem view_erase (s : Relay) (pairId : PairId) :
    { s with pairs := s.pairs.erase pairId }.view = s.view.erase pairId := by
  unfold view View.erase
  congr 1
  funext id
  by_cases hid : id = pairId
  · subst hid
    rw [Function.update_self, AList.lookup_erase, Option.map_none]
  · rw [Function.update_of_ne hid, AList.lookup_erase_ne hid]

theorem view_insert (s : Relay) (pair : Pair) :
    { s with pairs := s.pairs.insert pair.pairId pair }.view = s.view.insert pair := by
  unfold view View.insert
  congr 1
  funext id
  by_cases hid : id = pair.pairId
  · subst hid
    rw [Function.update_self, AList.lookup_insert, Option.map_some]
  · rw [Function.update_of_ne hid, AList.lookup_insert_ne hid]

/-- Times are not in view. -/
theorem view_touch (s : Relay) (pairId : PairId) (now : Nat) : (s.touch pairId now).view = s.view := by
  unfold touch
  cases hl : s.pairs.lookup pairId with
  | none => rfl
  | some pair =>
    simp only
    unfold view
    congr 1
    funext id
    by_cases hid : id = pairId
    · subst hid
      rw [AList.lookup_insert, hl]
      rfl
    · rw [AList.lookup_insert_ne hid]

theorem view_unregister (s : Relay) (serverId : ServerId) (g : Nat) :
    (s.unregister serverId g).view = s.view.unregister serverId g := by
  unfold unregister View.unregister
  cases hl : s.servers.lookup serverId with
  | none => simp only [view, hl]
  | some stored =>
    simp only [view, hl]
    split
    · congr 1
      funext id
      by_cases hid : id = serverId
      · subst hid
        rw [Function.update_self, AList.lookup_erase]
      · rw [Function.update_of_ne hid, AList.lookup_erase_ne hid]
    · rfl

theorem view_closePair (s : Relay) (pairId : PairId) (reason : PairCloseReason) :
    (s.closePair pairId reason).1.view = s.view.erase pairId ∧
      (s.closePair pairId reason).2 = s.view.closeOps pairId reason := by
  unfold View.closeOps
  obtain ⟨hl, hc⟩ | ⟨pair, hl, hc⟩ := s.closePair_cases pairId reason
  · rw [hc]
    have hnone : s.view.pairs pairId = none := by simp only [view, hl, Option.map_none]
    rw [hnone]
    refine ⟨?_, rfl⟩
    unfold View.erase
    rw [update_same hnone]
  · rw [hc, view_erase]
    simp only [view, hl, Option.map_some, timeless, and_self]

theorem view_fail (hc : s.conns[c]? = some k) (phase : Phase) (error : RelayError) :
    (s.fail c { k with phase } error).view = s.view.fail c k.role phase error := by
  unfold Relay.fail View.fail
  cases hrole : k.role with
  | server serverId g =>
    simp only
    rw [view_setPhase_setTodo_returned (by rw [conns_unregister]; exact hc), view_unregister]
  | client pairId serverId tx =>
    cases phase with
    | opening => exact view_setPhase_setTodo_returned hc _ _ _
    | _ => exact view_setPhase_setTodo hc _ _

/-! ## Every move -/

theorem view_settle (hc : s.conns[c]? = some k) : ∀ flow : Flow, (s.settle c k flow).view =
    match flow with
    | .next ops => (s.view.setPhase c .reading).setTodo (some c) ops
    | .stop ops => (s.view.setPhase c (.closing (.ok ()))).setTodo (some c) (ops ++ Role.farewell c k.role)
    | .fail error => s.view.fail c k.role .reading error
  | .next _ => view_setPhase_setTodo hc _ _
  | .stop _ => view_setPhase_setTodo hc _ _
  | .fail _ => view_fail hc _ _

theorem clientRead_payload {bytes : List UInt8}
    (hpayload : ∀ closing reason, decodeRelay bytes ≠ .ok (.ctrl (.pairClose closing reason))) (pairId : PairId)
    (tx : ConnId) (now : Nat) : s.clientRead pairId tx (.binary bytes) now =
      (s.touch pairId now, .next [.send tx (encodeDataFrame (.forward pairId bytes)) true]) := by
  simp only [clientRead]

/-- A turn of a read loop. -/
theorem read_effect (hc : s.conns[c]? = some k) (hidle : s.view.Idle c k.role) (msg : Incoming) (now : Nat) :
    Effect s.view (.read c msg now) ((s.turn c k.role msg now).1.settle c k (s.turn c k.role msg now).2).view
      (s.emit (.read c msg now)) := by
  have hconn : (s.turn c k.role msg now).1.conns[c]? = some k := by rw [turn_conns, hc]
  have hrole := role_eq hc
  rw [view_settle hconn]
  clear hconn
  cases hwho : k.role with
  | server serverId g =>
    rw [hwho] at hidle hrole
    simp only [turn, serverRead]
    cases msg with
    | error what => exact .readFailed hidle (.inl ⟨what, rfl⟩)
    | ended => exact .stopped hidle
    | close => exact .stopped hidle
    | pingPong => exact .pinged hidle
    | textOrFrame => exact .readFailed hidle (.inr rfl)
    | binary bytes =>
      simp only [emit, hrole, Option.toList_some, List.map_cons, List.map_nil]
      cases hdecode : decodeRelay bytes with
      | error err => exact .rejected hidle (fun pairId payload h => by rw [hdecode] at h; cases h) (.inl ⟨err, hdecode⟩)
      | ok wire =>
        cases wire with
        | ctrl ctrl =>
          by_cases hclose : ∃ pairId reason, ctrl = .pairClose pairId reason
          · obtain ⟨pairId, reason, rfl⟩ := hclose
            obtain ⟨hview, hops⟩ := view_closePair s pairId reason
            simp only
            rw [hview, hops]
            exact .closedByServer hidle hdecode
          · have hother : ∀ pairId reason, ctrl ≠ .pairClose pairId reason :=
              fun pairId reason he => hclose ⟨pairId, reason, he⟩
            cases ctrl with
            | pairClose pairId reason => exact absurd rfl (hother pairId reason)
            | _ => exact .ignored hidle hdecode hother
        | data data =>
          obtain ⟨pairId, payload⟩ := data
          simp only
          cases hl : s.pairs.lookup pairId with
          | none => exact .answered hidle hdecode (by simp only [view, hl, Option.map_none])
          | some pair =>
            have hpair : s.view.pairs pairId = some (timeless pair) := by simp only [view, hl, Option.map_some]
            simp only
            by_cases hserver : pair.serverId = serverId
            · rw [if_neg (not_not.mpr hserver)]
              simp only [view_touch]
              subst hserver
              exact .toClient (timeless pair) hidle hdecode hpair
            · rw [if_pos hserver]
              refine .rejected hidle (fun p x h => ?_) (.inr ⟨pairId, payload, hdecode⟩)
              rw [hdecode] at h
              cases h
              exact ⟨timeless pair, hpair, hserver⟩
  | client pairId serverId tx =>
    rw [hwho] at hidle hrole
    simp only [turn]
    cases msg with
    | error what => exact .readFailed hidle (.inl ⟨what, rfl⟩)
    | ended => exact .stopped hidle
    | close => exact .stopped hidle
    | pingPong => exact .pinged hidle
    | textOrFrame => exact .readFailed hidle (.inr rfl)
    | binary bytes =>
      simp only [emit, hrole, Option.toList_some, List.map_cons, List.map_nil]
      by_cases hclose : ∃ closing reason, decodeRelay bytes = .ok (.ctrl (.pairClose closing reason))
      · obtain ⟨closing, reason, hdecode⟩ := hclose
        obtain ⟨hview, hops⟩ := view_closePair s closing reason
        have hturn : s.clientRead pairId tx (.binary bytes) now =
            ((s.closePair closing reason).1, .stop (s.closePair closing reason).2) := by
          simp only [clientRead, hdecode]
        rw [hturn]
        simp only
        rw [hview, hops]
        exact .closedByClient hidle hdecode
      · have hpayload : ∀ closing reason, decodeRelay bytes ≠ .ok (.ctrl (.pairClose closing reason)) :=
          fun closing reason he => hclose ⟨closing, reason, he⟩
        rw [clientRead_payload hpayload]
        simp only
        rw [view_touch]
        exact .toServer hidle hpayload

theorem view_mem_pairsOf (hw : Wf s) (serverId : ServerId) (pairId : PairId) :
    pairId ∈ s.pairsOf serverId ↔ ∃ pair, s.view.pairs pairId = some pair ∧ pair.serverId = serverId := by
  unfold pairsOf
  simp only [view, List.mem_map, List.mem_filter, decide_eq_true_eq, Option.map_eq_some_iff]
  constructor
  · rintro ⟨⟨key, pair⟩, ⟨hm, hserver⟩, rfl⟩
    have hl : s.pairs.lookup key = some pair := AList.mem_lookup_iff.mpr hm
    have hid := (hw.rooted.pairs hl).1
    simp only at hid hserver ⊢
    rw [hid]
    exact ⟨timeless pair, ⟨pair, hl, rfl⟩, hserver⟩
  · rintro ⟨_, ⟨pair, hl, rfl⟩, hserver⟩
    exact ⟨⟨pairId, pair⟩, ⟨AList.mem_lookup_iff.mp hl, hserver⟩, (hw.rooted.pairs hl).1⟩

/-- An operation that is done, taken from the front of `a`'s list. -/
theorem perform_effect (hw : Wf s) {op : Op} {rest more : List Op} {a : Option ConnId} (htodo : s.view.todo a = op :: rest)
    {u : Relay} (hs : s.perform op = some (u, .done more)) (hafter : t.view = u.view.setTodo a (more ++ rest)) :
    Effect s.view (advanceOf a) t.view (s.opEvents op) := by
  rw [hafter]
  cases op with
  | send tx msg required =>
    simp only [perform] at hs
    cases htx : s.conns[tx]? with
    | none =>
      rw [htx] at hs
      cases hs
    | some target =>
      have hchannel : s.view.channel tx = some target.channel := channel_eq htx
      rw [htx] at hs
      simp only at hs
      have hevents : s.opEvents (.send tx msg required) =
          match target.channel.send msg with
          | .sent _ => [.pushed tx msg]
          | _ => [] := by
        simp only [opEvents, channel_eq htx]
      rw [hevents]
      cases hsend : target.channel.send msg with
      | sent new =>
        rw [hsend] at hs
        cases hs
        obtain ⟨hopen, hroom, rfl⟩ := Channel.Mpsc.send_eq_sent.mp hsend
        rw [view_setChannel htx]
        exact .pushed htodo hchannel hopen hroom
      | full =>
        rw [hsend] at hs
        cases hs
      | closed =>
        rw [hsend] at hs
        cases required with
        | true => cases hs
        | false =>
          cases hs
          exact .skipped htodo hchannel (Channel.Mpsc.send_eq_closed.mp hsend)
  | insertPair pair =>
    cases hs
    rw [view_insert]
    exact .inserted htodo
  | closePair pairId reason =>
    have hperform : s.perform (.closePair pairId reason) =
        some ((s.closePair pairId reason).1, .done (s.closePair pairId reason).2) := rfl
    simp only [hperform, Option.some.injEq, Prod.mk.injEq, Outcome.done.injEq] at hs
    obtain ⟨rfl, rfl⟩ := hs
    obtain ⟨hview, hops⟩ := view_closePair s pairId reason
    rw [hview, hops]
    exact .closed htodo
  | closePairsOf serverId =>
    cases hs
    exact .listed htodo (view_mem_pairsOf hw serverId)
  | removePair pairId =>
    cases hs
    rw [view_erase]
    exact .removed htodo

theorem perform_failed {op : Op} {u : Relay} {error : RelayError} (hs : s.perform op = some (u, .failed error)) :
    ∃ tx msg channel, op = .send tx msg true ∧ s.channel tx = some channel ∧ channel.closed = true ∧ u = s ∧
      error = writerClosed := by
  cases op with
  | send tx msg required =>
    simp only [perform] at hs
    split at hs
    · cases hs
    · next target htx =>
      split at hs
      · cases hs
      · cases hs
      · next hclosed =>
        cases required with
        | true =>
          cases hs
          exact ⟨tx, msg, target.channel, rfl, channel_eq htx, Channel.Mpsc.send_eq_closed.mp hclosed, rfl, rfl⟩
        | false => cases hs
  | _ => cases hs

/-- A message that a writer takes. -/
theorem write_effect (hc : s.conns[c]? = some k) {ok : Bool} {channel : Channel.Mpsc ServerMsg} {written : List Written}
    (hw : writeOne k ok = some (channel, written)) :
    Effect s.view (.write c ok) (s.view.setChannel c channel) (s.emit (.write c ok)) := by
  have hchannel : s.view.channel c = some k.channel := channel_eq hc
  have hemit : s.emit (.write c ok) = match k.channel.recv, writeOne k ok with
      | some (msg, _), some (_, written) => (written.drop k.written.length).map (.wrote c msg)
      | _, _ => [] := by
    simp only [emit, hc]
  rw [hemit, hw]
  unfold writeOne at hw
  by_cases hopen : k.channel.closed = true
  · rw [if_pos hopen] at hw
    cases hw
  · rw [if_neg hopen] at hw
    rw [Bool.not_eq_true] at hopen
    unfold Channel.Mpsc.recv at hw ⊢
    cases hqueue : k.channel.queue with
    | nil =>
      rw [hqueue] at hw
      cases hw
    | cons msg rest =>
      rw [hqueue] at hw
      simp only at hw ⊢
      have hbinary : ∀ bytes, Writes k.role msg (.binary bytes) → (if ok then
            ({ k.channel with queue := rest }, k.written ++ [.binary bytes])
          else ({ k.channel with queue := [], closed := true }, k.written)) = (channel, written) →
          Effect s.view (.write c ok) (s.view.setChannel c channel) ((written.drop k.written.length).map (.wrote c msg)) := by
        intro bytes hwrites he
        cases ok with
        | true =>
          cases he
          rw [List.drop_left]
          exact .wrote (role_eq hc) hchannel hopen hqueue hwrites
        | false =>
          cases he
          rw [List.drop_length]
          exact .writerEnded hchannel hopen (.inl rfl)
      cases msg with
      | close =>
        cases hw
        rw [List.drop_left]
        exact .writerEnded hchannel hopen (.inr ⟨⟨rest, hqueue⟩, rfl⟩)
      | ctrl bytes =>
        exact hbinary bytes .ctrl (Option.some.inj hw)
      | data bytes =>
        cases hrole : k.role with
        | server serverId g =>
          rw [hrole] at hw hbinary
          exact hbinary bytes .data (Option.some.inj hw)
        | client p serverId tx =>
          rw [hrole] at hw hbinary
          simp only at hw
          split at hw
          · next q payload hdecode => exact hbinary payload (.payload hdecode) (Option.some.inj hw)
          · cases hw
            rw [List.drop_length]
            exact .writerEnded hchannel hopen (.inl rfl)

theorem view_accept (s : Relay) (conn : Conn) : (s.accept conn).view = {
    s.view with
    role := Function.update s.role s.conns.length (some conn.role)
    phase := Function.update s.phase s.conns.length (some conn.phase)
    channel := Function.update s.channel s.conns.length (some conn.channel)
    todo := Function.update s.todo (some s.conns.length) conn.todo } := by
  have hmap : ∀ {α : Type} (g : Conn → α), (fun i => (s.accept conn).conns[i]?.map g) =
      Function.update (fun i => s.conns[i]?.map g) s.conns.length (some (g conn)) := by
    intro α g
    funext i
    simp only [accept]
    rcases Nat.lt_trichotomy i s.conns.length with hi | rfl | hi
    · rw [Function.update_of_ne (Nat.ne_of_lt hi), List.getElem?_append_left hi]
    · rw [Function.update_self, List.getElem?_concat_length, Option.map_some]
    · rw [Function.update_of_ne (Nat.ne_of_gt hi), List.getElem?_eq_none (by simpa using Nat.succ_le_of_lt hi),
        List.getElem?_eq_none (Nat.le_of_lt hi)]
  have htodo : (s.accept conn).todo = Function.update s.todo (some s.conns.length) conn.todo := by
    funext a
    cases a with
    | none =>
      rw [Function.update_of_ne (by simp)]
      rfl
    | some i =>
      have hi := congrFun (hmap Conn.todo) i
      simp only [todo]
      rw [hi]
      by_cases he : i = s.conns.length
      · subst he
        rw [Function.update_self, Function.update_self, Option.getD_some]
      · rw [Function.update_of_ne he, Function.update_of_ne (by simpa using he)]
        rfl
  unfold view
  rw [htodo]
  congr 1
  · exact hmap Conn.role
  · exact hmap Conn.phase
  · exact hmap Conn.channel

theorem role_length (s : Relay) : s.role s.conns.length = none := by
  simp [role]

/-- **Every move has one of the effects.** -/
theorem step_effect (hw : Wf s) {move : Move} (hs : s.step move = some t) :
    Effect s.view move t.view (s.emit move) := by
  cases move with
  | server first admitted =>
    cases hs
    obtain he | ⟨serverId, hnone, he⟩ := s.runServerSide_cases first admitted
    · rw [he]
      exact .refused trivial
    · rw [he, view_accept]
      have hview : (s.registered serverId).view = { s.view with
          servers := Function.update s.view.servers serverId (some { tx := s.conns.length, generation := s.nextGeneration })
          nextGeneration := s.nextGeneration + 1 } := by
        unfold view
        congr 1
        funext id
        by_cases hid : id = serverId
        · subst hid
          rw [Function.update_self, registered, AList.lookup_insert]
        · rw [Function.update_of_ne hid, registered, AList.lookup_insert_ne hid]
      rw [hview]
      exact .registered (role_length s) hnone
  | client target first admitted pairId now =>
    simp only [step] at hs
    split at hs
    · next hfresh =>
      cases hs
      obtain he | ⟨slot, hslot, he⟩ := s.runClientSide_cases target first admitted pairId now
      · rw [he]
        exact .refused trivial
      · rw [he, view_accept]
        refine .connected (s.newPair target slot pairId now) (role_length s) hslot rfl ?_
        intro i serverId tx hi
        obtain ⟨conn, hconn, hrole⟩ := Option.map_eq_some_iff.mp hi
        have := hfresh conn (List.mem_of_getElem? hconn)
        rw [hrole] at this
        exact this rfl
    · cases hs
  | read c msg now =>
    simp only [step] at hs
    cases hc : s.conns[c]? with
    | none =>
      rw [hc] at hs
      cases hs
    | some conn =>
      simp only [hc] at hs
      have hconn : t = (s.turn c conn.role msg now).1.settle c conn (s.turn c conn.role msg now).2 ∧
          (conn.phase = .opening ∨ conn.phase = .reading) ∧ conn.todo = [] := by
        split at hs
        · next hphase htodo => exact ⟨(Option.some.inj hs).symm, .inl hphase, htodo⟩
        · next hphase htodo => exact ⟨(Option.some.inj hs).symm, .inr hphase, htodo⟩
        · cases hs
      obtain ⟨rfl, hphase, htodo⟩ := hconn
      refine read_effect hc ⟨role_eq hc, ?_, (todo_eq hc).trans htodo⟩ msg now
      rcases hphase with hphase | hphase
      · exact .inl ((phase_eq hc).trans (congrArg some hphase))
      · exact .inr ((phase_eq hc).trans (congrArg some hphase))
  | advance c =>
    simp only [step] at hs
    cases hc : s.conns[c]? with
    | none =>
      rw [hc] at hs
      cases hs
    | some conn =>
      rw [hc] at hs
      simp only at hs
      cases htodo : conn.todo with
      | nil =>
        rw [htodo] at hs
        cases hs
      | cons op rest =>
        have hview : s.view.todo (some c) = op :: rest := (todo_eq hc).trans htodo
        have hemit : s.emit (.advance c) = s.opEvents op := by
          simp only [emit, hc, htodo, List.take_succ_cons, List.take_zero, List.flatMap_cons, List.flatMap_nil,
            List.append_nil]
        rw [htodo] at hs
        simp only at hs
        rw [hemit]
        cases hperform : s.perform op with
        | none =>
          rw [hperform] at hs
          cases hs
        | some p =>
          obtain ⟨u, outcome⟩ := p
          rw [hperform] at hs
          cases outcome with
          | done more =>
            cases hs
            obtain ⟨k, hk, _⟩ := SameTask.perform hperform conn hc
            exact perform_effect (a := some c) hw hview hperform (view_setTodo hk _)
          | failed error =>
            cases hs
            obtain ⟨tx, msg, channel, rfl, hchannel, hclosed, rfl, rfl⟩ := perform_failed hperform
            have hevents : u.opEvents (.send tx msg true) = [] := by
              simp only [opEvents, hchannel, Channel.Mpsc.send_eq_closed.mpr hclosed]
            rw [hevents, view_fail hc conn.phase writerClosed]
            exact .sendFailed (role_eq hc) (phase_eq hc) hview hchannel hclosed
  | finish c =>
    obtain ⟨conn, hc, ⟨result, serverId, g, hphase, htodo, hrole, rfl⟩ | ⟨result, _, _, _, hphase, htodo, hrole, rfl⟩ |
      ⟨⟨result, hphase⟩, hclosed, _, rfl⟩⟩ := step_finish hs
    · rw [view_setPhase (by rw [conns_unregister]; exact hc), view_unregister]
      exact .finished (.server serverId g) ((role_eq hc).trans (congrArg some hrole))
        ((phase_eq hc).trans (congrArg some hphase)) ((todo_eq hc).trans htodo)
    · rw [view_setPhase hc]
      exact .finished (.client _ _ _) ((role_eq hc).trans (congrArg some hrole))
        ((phase_eq hc).trans (congrArg some hphase)) ((todo_eq hc).trans htodo)
    · rw [view_setReturned hc]
      exact .returned ((phase_eq hc).trans (congrArg some hphase)) (channel_eq hc) hclosed
  | write c ok =>
    simp only [step] at hs
    cases hc : s.conns[c]? with
    | none =>
      rw [hc] at hs
      cases hs
    | some conn =>
      rw [hc] at hs
      obtain ⟨⟨channel, written⟩, hturn, rfl⟩ := Option.map_eq_some_iff.mp hs
      rw [view_setWritten hc]
      rcases writerTurn_cases hturn with hwrite | ⟨hopen, hqueue, _, rfl, rfl⟩
      · exact write_effect hc hwrite
      · have hemit : s.emit (.write c ok) = [] := by
          simp only [emit, hc, Channel.Mpsc.recv, hqueue]
        rw [hemit]
        exact .writerEnded (channel_eq hc) hopen (.inl rfl)
  | sweep now =>
    simp only [step] at hs
    split at hs
    · next hsweeper =>
      cases hs
      have hentry : ∀ entry ∈ s.pairs.entries, s.pairs.lookup entry.1 = some entry.2 ∧ entry.2.pairId = entry.1 := by
        rintro ⟨key, pair⟩ hm
        have hl : s.pairs.lookup key = some pair := AList.mem_lookup_iff.mpr hm
        exact ⟨hl, (hw.rooted.pairs hl).1⟩
      generalize hstuck : s.pairs.entries.filter _ = stuck
      have hsub : stuck.Sublist s.pairs.entries := hstuck ▸ List.filter_sublist
      have hops : (stuck.flatMap fun entry => guillotine entry.2) = (stuck.map fun entry => entry.2).flatMap guillotine := by
        rw [List.flatMap_map]
      rw [hops]
      have htodo : s.view.todo none = [] := hsweeper
      refine cast (congrArg (fun v => Effect s.view (.sweep now) v []) (view_setSweeper s _).symm) (.swept htodo ?_ ?_)
      · intro pair hm
        obtain ⟨entry, hentry', rfl⟩ := List.mem_map.mp hm
        obtain ⟨hl, hid⟩ := hentry entry (hsub.subset hentry')
        simp only [view, hid, hl, Option.map_some]
      · have hids : (stuck.map fun entry => entry.2).map Pair.pairId = stuck.map Sigma.fst := by
          rw [List.map_map]
          exact List.map_congr_left fun entry hm => (hentry entry (hsub.subset hm)).2
        rw [hids]
        exact (hsub.map Sigma.fst).nodup s.pairs.nodupKeys
    · cases hs
  | sweepAdvance =>
    simp only [step] at hs
    split at hs
    · cases hs
    · next op rest hsweeper =>
      have hview : s.view.todo none = op :: rest := hsweeper
      have hemit : s.emit .sweepAdvance = s.opEvents op := by
        simp only [emit, hsweeper, List.take_succ_cons, List.take_zero, List.flatMap_cons, List.flatMap_nil,
          List.append_nil]
      rw [hemit]
      split at hs
      · next u more hperform =>
        cases hs
        exact perform_effect (a := none) hw hview hperform (view_setSweeper u _)
      · cases hs

end Relay

end CliPocket
