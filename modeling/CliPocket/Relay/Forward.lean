import CliPocket.Lib.Channel
import CliPocket.Lib.Steps
import CliPocket.Proto.Relay
import Mathlib.Data.List.AList

/-!
# The relay

Registry, pair table and the tasks of the relay, one for each websocket. A task reads a message, which may change
the tables at once, and then has operations left to perform (`todo`): sends into the bounded queues of the writer
tasks, each of which waits for room, and the closing of pairs. The other tasks run between any two operations.

- `Relay.closePair`, `Relay.serverRead`, `Relay.clientRead`: `close_pair` and one turn of each read loop;
- `Relay.perform`: one operation; `none` while it waits for room;
- `Relay.writerTurn`: one turn of a writer, which ends with its last sender (`Relay.held`);
- `Relay.step`: the moves of the relay and its surroundings.
-/

namespace CliPocket

/-- The place of a connection among all connections there have been; it also names its writer's queue. -/
abbrev ConnId := Nat

/-- What is queued for a writer task. -/
inductive ServerMsg
  | ctrl (bytes : List UInt8)
  | data (bytes : List UInt8)
  | close
  deriving DecidableEq

inductive RelayError
  | protocol (what : String)
  | internal (what : String)
  deriving DecidableEq

abbrev RelayResult := Except RelayError

def codecErrToProtocol (err : CodecError) : RelayError := .internal ("relay codec error: " ++ err.toMessage)

def wsErr (err : String) : RelayError := .internal ("websocket error: " ++ err)

def socketQueueCapacity : Nat := 32

structure Pair where
  pairId : PairId
  serverId : ServerId
  lastProgress : Nat
  serverTx : ConnId
  clientTx : ConnId
  deriving DecidableEq

structure StoredServerSlot where
  tx : ConnId
  generation : Nat
  deriving DecidableEq

/-- What a websocket gives its reader. -/
inductive Incoming
  | binary (bytes : List UInt8)
  | close
  | pingPong
  | textOrFrame
  | error (what : String)
  | ended
  deriving DecidableEq

/-- What a writer task writes to its websocket. -/
inductive Written
  | binary (bytes : List UInt8)
  | close
  deriving DecidableEq

/-- What a task still has to do before it reads again. -/
inductive Op
  /-- An awaited send; a closed queue ends the task where the code has `?`. -/
  | send (tx : ConnId) (msg : ServerMsg) (required : Bool)
  | insertPair (pair : Pair)
  | closePair (pairId : PairId) (reason : PairCloseReason)
  /-- The clean-up behind `server_read_loop`. -/
  | closePairsOf (serverId : ServerId)
  /-- The guillotine's removal. -/
  | removePair (pairId : PairId)
  deriving DecidableEq

inductive Role
  | server (serverId : ServerId) (generation : Nat)
  | client (pairId : PairId) (serverId : ServerId) (serverTx : ConnId)
  deriving DecidableEq

/-- The server a connection belongs to. -/
def Role.serverId : Role → ServerId
  | .server serverId _ => serverId
  | .client _ serverId _ => serverId

inductive Phase
  | opening
  | reading
  | closing (result : RelayResult Unit)
  /-- The clean-up is done, if there is one: the task awaits its writer, or has returned. -/
  | ended (result : RelayResult Unit)

def Phase.isOpening : Phase → Bool
  | .opening => true
  | _ => false

structure Conn where
  role : Role
  phase : Phase := .opening
  todo : List Op
  channel : Channel.Mpsc ServerMsg := { capacity := socketQueueCapacity }
  written : List Written := []
  /-- `run_server_side` or `run_client_side` has returned. -/
  returned : Bool := false

structure Relay where
  servers : AList fun _ : ServerId => StoredServerSlot := ∅
  nextGeneration : Nat := 0
  pairs : AList fun _ : PairId => Pair := ∅
  conns : List Conn := []
  /-- What the guillotine still has to do in its sweep. -/
  sweeper : List Op := []
  idleThreshold : Nat := 0

namespace Relay

def encodeCtrlFrame (ctrl : RelayCtrl) : ServerMsg := .ctrl (encodeRelayCtrl ctrl)

def encodeDataFrame (data : RelayData) : ServerMsg := .data (encodeRelayData data)

def mapConn (s : Relay) (c : ConnId) (f : Conn → Conn) : Relay := { s with conns := s.conns.modify c f }

/-! ## Registry and pair table -/

/-- `ServerRegistry::register`. -/
def register (s : Relay) (serverId : ServerId) (tx : ConnId) : RelayResult (Relay × Nat) :=
  match s.servers.lookup serverId with
  | some _ => .error (.protocol "duplicate server registration")
  | none =>
    .ok ({ s with
      servers := s.servers.insert serverId { tx, generation := s.nextGeneration }
      nextGeneration := s.nextGeneration + 1 }, s.nextGeneration)

/-- `ServerRegistration::unregister`. -/
def unregister (s : Relay) (serverId : ServerId) (generation : Nat) : Relay :=
  match s.servers.lookup serverId with
  | some stored => if stored.generation = generation then { s with servers := s.servers.erase serverId } else s
  | none => s

/-- `Pair::touch`. -/
def touch (s : Relay) (pairId : PairId) (now : Nat) : Relay :=
  match s.pairs.lookup pairId with
  | some pair => { s with pairs := s.pairs.insert pairId { pair with lastProgress := now } }
  | none => s

/-- The pairs of a server, as `list_for_sweep` and the filter behind it give them. -/
def pairsOf (s : Relay) (serverId : ServerId) : List PairId :=
  (s.pairs.entries.filter fun entry => entry.2.serverId = serverId).map fun entry => entry.2.pairId

/-- `close_pair`: the pair leaves the table, then both ends are told. -/
def closePair (s : Relay) (pairId : PairId) (reason : PairCloseReason) : Relay × List Op :=
  match s.pairs.lookup pairId with
  | none => (s, [])
  | some pair =>
    let frame := encodeCtrlFrame (.pairClose pairId reason)
    ({ s with pairs := s.pairs.erase pairId }, [.send pair.serverTx frame false, .send pair.clientTx frame false])

/-! ## The read loops -/

/-- How a read loop goes on after a message. -/
inductive Flow
  | next (todo : List Op)
  | stop (todo : List Op)
  | fail (error : RelayError)

def unexpectedFrame : RelayError := .protocol "unexpected non-binary frame on relay socket"

/-- One turn of `server_read_loop`. -/
def serverRead (s : Relay) (serverId : ServerId) (serverTx : ConnId) (msg : Incoming) (now : Nat) : Relay × Flow :=
  match msg with
  | .error what => (s, .fail (wsErr what))
  | .ended => (s, .stop [])
  | .close => (s, .stop [])
  | .pingPong => (s, .next [])
  | .textOrFrame => (s, .fail unexpectedFrame)
  | .binary bytes =>
    match decodeRelay bytes with
    | .error err => (s, .fail (codecErrToProtocol err))
    | .ok (.ctrl (.pairClose pairId reason)) =>
      let (s, todo) := s.closePair pairId reason
      (s, .next todo)
    | .ok (.ctrl _) => (s, .next [])
    | .ok (.data (.forward pairId payload)) =>
      match s.pairs.lookup pairId with
      | none => (s, .next [.send serverTx (encodeCtrlFrame (.pairClose pairId .clientGone)) true])
      | some pair =>
        if pair.serverId ≠ serverId then (s, .fail (.protocol "pair routed to wrong server"))
        else (s.touch pairId now, .next [.send pair.clientTx (encodeDataFrame (.forward pairId payload)) true])

/-- One turn of `client_read_loop`. -/
def clientRead (s : Relay) (pairId : PairId) (serverTx : ConnId) (msg : Incoming) (now : Nat) : Relay × Flow :=
  match msg with
  | .error what => (s, .fail (wsErr what))
  | .ended => (s, .stop [])
  | .close => (s, .stop [])
  | .pingPong => (s, .next [])
  | .textOrFrame => (s, .fail unexpectedFrame)
  | .binary bytes =>
    match decodeRelay bytes with
    | .ok (.ctrl (.pairClose closing reason)) =>
      let (s, todo) := s.closePair closing reason
      (s, .stop todo)
    | _ => (s.touch pairId now, .next [.send serverTx (encodeDataFrame (.forward pairId bytes)) true])

def turn (s : Relay) (c : ConnId) (role : Role) (msg : Incoming) (now : Nat) : Relay × Flow :=
  match role with
  | .server serverId _ => s.serverRead serverId c msg now
  | .client pairId _ serverTx => s.clientRead pairId serverTx msg now

/-- What follows a read loop that has come to its end. -/
def Role.farewell (c : ConnId) : Role → List Op
  | .server serverId _ => [.send c .close false, .closePairsOf serverId]
  | .client pairId _ _ => [.closePair pairId .clientGone]

/-- An error in a task. A client that has come as far as its read loop closes its pair; the registration of a server goes
in any case. A task that opens returns at once, behind its read loop it awaits its writer. -/
def fail (s : Relay) (c : ConnId) (conn : Conn) (error : RelayError) : Relay :=
  match conn.role, conn.phase with
  | .server serverId generation, phase =>
    (s.unregister serverId generation).mapConn c fun k =>
      { k with phase := .ended (.error error), todo := [], returned := phase.isOpening }
  | .client _ _ _, .opening =>
    s.mapConn c fun k => { k with phase := .ended (.error error), todo := [], returned := true }
  | .client pairId _ _, _ =>
    s.mapConn c fun k => { k with phase := .closing (.error error), todo := [.closePair pairId .clientGone] }

def settle (s : Relay) (c : ConnId) (conn : Conn) : Flow → Relay
  | .next todo => s.mapConn c fun k => { k with phase := .reading, todo }
  | .stop todo => s.mapConn c fun k => { k with phase := .closing (.ok ()), todo := todo ++ Role.farewell c conn.role }
  | .fail error => s.fail c { conn with phase := .reading } error

/-! ## Operations -/

inductive Outcome
  | done (more : List Op)
  | failed (error : RelayError)

/-- `relay peer writer closed`: the error of `send_server_msg`. -/
def writerClosed : RelayError := .protocol "relay peer writer closed"

def perform (s : Relay) : Op → Option (Relay × Outcome)
  | .send tx msg required =>
    match s.conns[tx]? with
    | none => none
    | some target =>
      match target.channel.send msg with
      | .sent channel => some (s.mapConn tx fun k => { k with channel }, .done [])
      | .full => none
      | .closed => some (s, if required then .failed writerClosed else .done [])
  | .insertPair pair => some ({ s with pairs := s.pairs.insert pair.pairId pair }, .done [])
  | .closePair pairId reason =>
    let (s, todo) := s.closePair pairId reason
    some (s, .done todo)
  | .closePairsOf serverId => some (s, .done ((s.pairsOf serverId).map fun pairId => .closePair pairId .serverGone))
  | .removePair pairId => some ({ s with pairs := s.pairs.erase pairId }, .done [])

/-! ## Senders -/

/-- Whoever has the operation to perform holds the pair object meanwhile. -/
def holdsPair (pairId : PairId) : Op → Bool
  | .send _ (.ctrl bytes) required =>
    match decodeRelay bytes with
    | .ok (.ctrl (.pairClose closing _)) => decide (closing = pairId) && !required
    | _ => false
  | .send _ (.data bytes) _ =>
    match decodeRelay bytes with
    | .ok (.data (.forward id _)) => id = pairId
    | _ => false
  | .insertPair pair => pair.pairId = pairId
  | .removePair id => id = pairId
  | _ => false

def hasEnded (conn : Conn) : Bool :=
  match conn.phase with
  | .ended _ => true
  | _ => false

/-- The pair object is held by its client's task, by the table, or by who has still something to do with it. -/
def pairLives (s : Relay) (conn : Conn) (pairId : PairId) : Bool :=
  !conn.returned || (s.pairs.lookup pairId).isSome || (s.sweeper ++ s.conns.flatMap Conn.todo).any (holdsPair pairId)

/-- A sender of the queue of `c` is left: in the registration of a server, or in a pair object of either end. -/
def held (s : Relay) (c : ConnId) : Bool :=
  s.conns.zipIdx.any fun (conn, i) =>
    match conn.role with
    | .server _ _ => i = c && !hasEnded conn
    | .client pairId _ tx => (i = c || tx = c) && s.pairLives conn pairId

/-! ## The moves -/

inductive Move
  /-- A websocket at `/ws/server` whose first frame is `first`; `admitted` is the answer of the capacity counters. -/
  | server (first : List UInt8) (admitted : Bool)
  /-- A websocket at `/ws/client`. -/
  | client (target : ServerId) (first : List UInt8) (admitted : Bool) (pairId : PairId) (now : Nat)
  | read (c : ConnId) (msg : Incoming) (now : Nat)
  | advance (c : ConnId)
  /-- A task has nothing left to do but await its writer; or that has ended, and the task returns. -/
  | finish (c : ConnId)
  /-- The writer task takes a message, and `ok` says whether the websocket takes it; or it finds no sender left. -/
  | write (c : ConnId) (ok : Bool)
  | sweep (now : Nat)
  | sweepAdvance

/-- `run_server_side` up to its read loop. -/
def runServerSide (s : Relay) (first : List UInt8) (admitted : Bool) : Relay :=
  match decodeRelay first with
  | .ok (.ctrl (.serverRegister serverId _ _)) =>
    if admitted then
      match s.register serverId s.conns.length with
      | .error _ => s
      | .ok (t, generation) =>
        { t with
          conns := s.conns ++ [{
            role := .server serverId generation
            todo := [.send s.conns.length (encodeCtrlFrame .serverRegisterOk) true] }] }
    else s
  | _ => s

/-- A pair identifier that no client has had: `Uuid::now_v7`. -/
def fresh (s : Relay) (pairId : PairId) : Prop :=
  ∀ conn ∈ s.conns, match conn.role with
    | .client used _ _ => used ≠ pairId
    | .server _ _ => True

instance (s : Relay) (pairId : PairId) : Decidable (s.fresh pairId) := by
  unfold fresh
  have : ∀ conn : Conn, Decidable (match conn.role with | .client used _ _ => used ≠ pairId | .server _ _ => True) :=
    fun conn => match conn.role with
      | .client _ _ _ => inferInstance
      | .server _ _ => inferInstance
  infer_instance

/-- `run_client_side` up to its read loop. -/
def runClientSide (s : Relay) (target : ServerId) (first : List UInt8) (admitted : Bool) (pairId : PairId) (now : Nat) :
    Relay :=
  match decodeRelay first with
  | .ok (.ctrl (.clientConnect serverId)) =>
    if serverId = target ∧ admitted then
      match s.servers.lookup target with
      | none => s
      | some slot =>
        let clientTx := s.conns.length
        { s with
          conns := s.conns ++ [{
            role := .client pairId target slot.tx
            todo := [
              .insertPair { pairId, serverId := target, lastProgress := now, serverTx := slot.tx, clientTx },
              .send slot.tx (encodeCtrlFrame (.pairInbound pairId)) true,
              .send clientTx (encodeCtrlFrame (.pairOpen pairId)) true] }] }
    else s
  | _ => s

/-- One message of `writer_loop` or `client_writer_loop`: the queue behind it, and what has been written. -/
def writeOne (conn : Conn) (ok : Bool) : Option (Channel.Mpsc ServerMsg × List Written) :=
  if conn.channel.closed then none
  else match conn.channel.recv with
    | none => none
    | some (msg, channel) =>
      let closed : Channel.Mpsc ServerMsg := { channel with queue := [], closed := true }
      let binary (bytes : List UInt8) : Channel.Mpsc ServerMsg × List Written :=
        if ok then (channel, conn.written ++ [.binary bytes]) else (closed, conn.written)
      match msg, conn.role with
      | .close, _ => some (closed, conn.written ++ [.close])
      | .ctrl bytes, _ => some (binary bytes)
      | .data bytes, .server _ _ => some (binary bytes)
      | .data bytes, .client _ _ _ =>
        match decodeRelay bytes with
        | .ok (.data (.forward _ payload)) => some (binary payload)
        | _ => some (closed, conn.written)

/-- One turn of the writer of `c`. Its loop also ends when its queue is empty and no sender is left. -/
def writerTurn (s : Relay) (c : ConnId) (conn : Conn) (ok : Bool) : Option (Channel.Mpsc ServerMsg × List Written) :=
  match writeOne conn ok with
  | some turn => some turn
  | none =>
    if conn.channel.closed || !conn.channel.queue.isEmpty || s.held c then none
    else some ({ conn.channel with queue := [], closed := true }, conn.written)

/-- `close_stuck` and the removal behind it. -/
def guillotine (pair : Pair) : List Op :=
  let frame := encodeCtrlFrame (.pairClose pair.pairId .stuck)
  [.send pair.serverTx frame false, .send pair.clientTx frame false, .removePair pair.pairId]

def step (s : Relay) : Move → Option Relay
  | .server first admitted => some (s.runServerSide first admitted)
  | .client target first admitted pairId now =>
    if s.fresh pairId then some (s.runClientSide target first admitted pairId now) else none
  | .read c msg now =>
    match s.conns[c]? with
    | none => none
    | some conn =>
      match conn.phase, conn.todo with
      | .opening, [] | .reading, [] =>
        let (t, flow) := s.turn c conn.role msg now
        some (t.settle c conn flow)
      | _, _ => none
  | .advance c =>
    match s.conns[c]? with
    | none => none
    | some conn =>
      match conn.todo with
      | [] => none
      | op :: rest =>
        match s.perform op with
        | none => none
        | some (t, .done more) => some (t.mapConn c fun k => { k with todo := more ++ rest })
        | some (t, .failed error) => some (t.fail c conn error)
  | .finish c =>
    match s.conns[c]? with
    | none => none
    | some conn =>
      match conn.phase, conn.todo, conn.role with
      | .closing result, [], .server serverId generation =>
        some ((s.unregister serverId generation).mapConn c fun k => { k with phase := .ended result })
      | .closing result, [], .client _ _ _ => some (s.mapConn c fun k => { k with phase := .ended result })
      -- The writer that the task awaits has ended.
      | .ended _, _, _ =>
        if conn.channel.closed && !conn.returned then some (s.mapConn c fun k => { k with returned := true }) else none
      | _, _, _ => none
  | .write c ok =>
    match s.conns[c]? with
    | none => none
    | some conn =>
      (s.writerTurn c conn ok).map fun (channel, written) => s.mapConn c fun k => { k with channel, written }
  | .sweep now =>
    match s.sweeper with
    | [] =>
      let stuck := s.pairs.entries.filter fun entry => entry.2.lastProgress + s.idleThreshold < now
      some { s with sweeper := stuck.flatMap fun entry => guillotine entry.2 }
    | _ :: _ => none
  | .sweepAdvance =>
    match s.sweeper with
    | [] => none
    | op :: rest =>
      match s.perform op with
      | some (t, .done more) => some { t with sweeper := more ++ rest }
      | _ => none

end Relay

end CliPocket
