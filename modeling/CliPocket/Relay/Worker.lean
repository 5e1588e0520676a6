import CliPocket.Lib.Steps
import CliPocket.Relay.WorkerCodec
import Mathlib.Data.List.AList

/-!
# The Cloudflare relay

One object for each server identifier, with its websockets and its pair table. The handlers of an object run to
completion one after the other; an uncaught exception ends a handler with what it has done so far. Objects are built
anew by the runtime at any time: the sockets and their attachments stay, the pair table is empty.

- `RelaySession.closePair`, `RelaySession.webSocketMessage`, `RelaySession.webSocketClose`: the handlers;
- `Worker.step`: the moves of all objects.
-/

namespace CliPocket

namespace Worker

abbrev SocketId := Nat

inductive SocketRole
  | server
  | client
  deriving DecidableEq

inductive SocketAttachment
  | server (registered : Bool) (serverId : Option ServerId) (connectedAt lastProgressAt : Nat)
  | client (targetServerId : ServerId) (pairId : Option PairId) (connectedAt lastProgressAt : Nat)
  deriving DecidableEq

structure PairState where
  pairId : PairId
  serverId : ServerId
  createdAt : Nat
  lastProgressAt : Nat
  queuedBytes : Nat
  bytesThisWindow : Nat
  windowStartedAt : Nat
  deriving DecidableEq

structure RelayLimits where
  maxServers : Nat
  maxPairs : Nat
  maxBytesPerSec : Nat
  maxQueuedBytes : Nat
  idleSeconds : Nat
  deriving DecidableEq

/-- What the worker gives to a websocket. -/
inductive Outgoing
  | binary (bytes : List UInt8)
  | text (text : String)
  | close (code : Nat) (reason : String)
  deriving DecidableEq

/-- What a websocket brings. -/
inductive Message
  | text (text : String)
  | binary (bytes : List UInt8)
  deriving DecidableEq

structure Socket where
  tag : SocketRole
  attachment : Option SocketAttachment
  /-- Neither end has closed it. -/
  isOpen : Bool := true
  /-- Its close event has been delivered. -/
  gone : Bool := false
  out : List Outgoing := []
  deriving DecidableEq

namespace Socket

/-- `ws.send`; on a socket that is not open it throws. -/
def push (ws : Socket) (message : Outgoing) : Socket := if ws.isOpen then { ws with out := ws.out ++ [message] } else ws

/-- `send`: exceptions, of the encoder too, are caught. -/
def send (ws : Socket) (message : RelayMessage) : Socket :=
  match encodeRelay message with
  | .ok bytes => ws.push (.binary bytes)
  | .error _ => ws

/-- `ws.close`. -/
def close (ws : Socket) (code : Nat) (reason : String) : Socket :=
  if ws.isOpen then { ws with out := ws.out ++ [.close code reason], isOpen := false } else ws

/-- `touchAttachment`. -/
def touch (ws : Socket) (now : Nat) : Socket :=
  { ws with attachment := ws.attachment.map fun
    | .server registered serverId connectedAt _ => .server registered serverId connectedAt now
    | .client target pairId connectedAt _ => .client target pairId connectedAt now }

/-- A registered server of this identifier, as `findRegisteredServer` looks for it. -/
def isRegistered (serverId : ServerId) (ws : Socket) : Bool :=
  !ws.gone && ws.tag = .server && match ws.attachment with
    | some (.server true (some id) _ _) => id = serverId
    | _ => false

/-- A client of this pair, as `clientsForPair` looks for it. -/
def isClientOf (pairId : PairId) (ws : Socket) : Bool :=
  !ws.gone && ws.tag = .client && match ws.attachment with
    | some (.client _ (some id) _ _) => id = pairId
    | _ => false

/-- A client of this server, as `clientsForServer` looks for it. -/
def isClientFor (serverId : ServerId) (ws : Socket) : Bool :=
  !ws.gone && ws.tag = .client && match ws.attachment with
    | some (.client target _ _ _) => target = serverId
    | _ => false

end Socket

/-- `reason.type`. -/
def typeOf : CloseReason → String
  | .normal => "Normal"
  | .serverGone => "ServerGone"
  | .clientGone => "ClientGone"
  | .stuck => "Stuck"
  | .relayShutdown => "RelayShutdown"
  | .rejected _ => "Rejected"

/-- A `RelaySessionDurableObject`. -/
structure RelaySession where
  limits : RelayLimits
  pairs : AList fun _ : PairId => PairState := ∅
  sockets : List Socket := []

namespace RelaySession

def mapSocket (s : RelaySession) (i : SocketId) (f : Socket → Socket) : RelaySession :=
  { s with sockets := s.sockets.modify i f }

def registeredServerCount (s : RelaySession) : Nat :=
  s.sockets.countP fun ws => !ws.gone && ws.tag = .server && match ws.attachment with
    | some (.server registered _ _ _) => registered
    | _ => false

def findRegisteredServer (s : RelaySession) (serverId : ServerId) : Option SocketId :=
  s.sockets.findIdx? (Socket.isRegistered serverId)

/-- `bumpRate`: the pair after it, and the error. -/
def bumpRate (limits : RelayLimits) (pair : PairState) (bytes now : Nat) : PairState × Option String :=
  let pair := if 1000 ≤ now - pair.windowStartedAt then { pair with windowStartedAt := now, bytesThisWindow := 0 } else pair
  if limits.maxBytesPerSec < pair.bytesThisWindow + bytes then (pair, some "max_bytes_per_sec exceeded")
  else ({ pair with bytesThisWindow := pair.bytesThisWindow + bytes, lastProgressAt := now }, none)

/-- The first half of `closePair`: the pair leaves the table, and its clients are told and closed. -/
def dropPair (s : RelaySession) (pairId : PairId) (reason : CloseReason) : RelaySession :=
  { s with
    pairs := s.pairs.erase pairId
    sockets := s.sockets.map fun ws =>
      if ws.isClientOf pairId then (ws.send (.pairClose pairId reason)).close 1000 (typeOf reason) else ws }

def closePair (s : RelaySession) (pairId : PairId) (reason : CloseReason) : RelaySession :=
  let t := s.dropPair pairId reason
  match s.pairs.lookup pairId with
  | none => t
  | some pair =>
    match t.findRegisteredServer pair.serverId with
    | none => t
    | some server => t.mapSocket server fun ws => ws.send (.pairClose pairId reason)

def sweepIdlePairs (s : RelaySession) (now : Nat) : RelaySession :=
  (s.pairs.entries.filter fun entry => s.limits.idleSeconds * 1000 < now - entry.2.lastProgressAt).foldl
    (fun s entry => s.closePair entry.1 .stuck) s

/-- `ServerRegisterErr` and the close behind it. -/
def refuse (s : RelaySession) (i : SocketId) (reason : String) : RelaySession :=
  s.mapSocket i fun ws => (ws.send (.serverRegisterErr reason)).close 1008 reason

/-- The first message of a server. -/
def registerServer (s : RelaySession) (i : SocketId) (expected : Option ServerId) (connectedAt : Nat)
    (decoded : RelayMessage) (now : Nat) : RelaySession :=
  match decoded with
  | .serverRegister serverId =>
    if expected.isSome ∧ expected ≠ some serverId then s.refuse i "server id URL/query mismatch"
    else if s.limits.maxServers ≤ s.registeredServerCount then s.refuse i "max_servers exceeded"
    else if (s.findRegisteredServer serverId).isSome then s.refuse i "duplicate server registration"
    else
      s.mapSocket i fun ws =>
        { ws with attachment := some (.server true (some serverId) connectedAt now) }.send .serverRegisterOk
  | _ => s.mapSocket i fun ws => ws.close 1008 "Expected ServerRegister as first server frame"

/-- A frame of a registered server. -/
def serverFrame (s : RelaySession) (i : SocketId) (decoded : RelayMessage) (now : Nat) : RelaySession :=
  let s := s.mapSocket i fun ws => ws.touch now
  match decoded with
  | .serverHeartbeat => s
  | .pairClose pairId reason => s.closePair pairId reason
  | .dataForward pairId bytes =>
    match s.pairs.lookup pairId with
    | none => s.mapSocket i fun ws => ws.send (.pairClose pairId .clientGone)
    | some pair =>
      match bumpRate s.limits pair bytes.length now with
      | (pair, some rateError) =>
        { s with pairs := s.pairs.insert pairId pair }.closePair pairId (.rejected rateError)
      | (pair, none) =>
        { s with
          pairs := s.pairs.insert pairId pair
          sockets := s.sockets.map fun ws =>
            if ws.isClientOf pairId then (ws.touch now).push (.binary bytes) else ws }
  | _ => s.mapSocket i fun ws => ws.close 1008 "Unexpected relay frame on registered server socket"

/-- The first message of a client. -/
def connectClient (s : RelaySession) (i : SocketId) (target : ServerId) (connectedAt : Nat) (decoded : RelayMessage)
    (pairId : PairId) (now : Nat) : RelaySession :=
  match decoded with
  | .clientConnect serverId =>
    if serverId ≠ target then s.mapSocket i fun ws => ws.close 1008 "ClientConnect server mismatch"
    else
      match s.findRegisteredServer target with
      | none =>
        s.mapSocket i fun ws =>
          (ws.send (.pairClose pairId (.rejected "target server not registered"))).close 1008 "target server not registered"
      | some server =>
        if s.limits.maxPairs ≤ s.pairs.entries.length then
          s.mapSocket i fun ws =>
            (ws.send (.pairClose pairId (.rejected "max_pairs exceeded"))).close 1008 "max_pairs exceeded"
        else
          let pair : PairState := {
            pairId, serverId := target, createdAt := now, lastProgressAt := now
            queuedBytes := 0, bytesThisWindow := 0, windowStartedAt := now }
          let s := { s with pairs := s.pairs.insert pairId pair }
          let s := s.mapSocket i fun ws => { ws with attachment := some (.client target (some pairId) connectedAt now) }
          let s := s.mapSocket server fun ws => ws.send (.pairInbound pairId)
          s.mapSocket i fun ws => ws.send (.pairOpen pairId)
  | _ => s.mapSocket i fun ws => ws.close 1008 "Expected ClientConnect as first client frame"

/-- A payload of the client of pair `pairId`. -/
def clientPayload (s : RelaySession) (i : SocketId) (target : ServerId) (pairId : PairId) (pair : PairState)
    (bytes : List UInt8) (now : Nat) : RelaySession :=
  match s.findRegisteredServer target with
  | none => s.closePair pairId .serverGone
  | some server =>
    match bumpRate s.limits pair bytes.length now with
    | (pair, some rateError) => { s with pairs := s.pairs.insert pairId pair }.closePair pairId (.rejected rateError)
    | (pair, none) =>
      if s.limits.maxQueuedBytes < pair.queuedBytes + bytes.length then
        { s with pairs := s.pairs.insert pairId { pair with queuedBytes := pair.queuedBytes + bytes.length } }.closePair
          pairId (.rejected "max_queued_bytes exceeded")
      else
        -- the payload is added to `queuedBytes` and taken off again behind the send
        let s := { s with pairs := s.pairs.insert pairId pair }
        let s := s.mapSocket i fun ws => ws.touch now
        s.mapSocket server fun ws => (ws.touch now).send (.dataForward pairId bytes)

/-- A message of a client that has a pair. -/
def clientFrame (s : RelaySession) (i : SocketId) (target : ServerId) (pairId : PairId) (bytes : List UInt8)
    (now : Nat) : RelaySession :=
  match s.pairs.lookup pairId with
  | none => s.mapSocket i fun ws => ws.close 1008 "Unknown pair id"
  | some pair =>
    match decodeRelay bytes with
    | .ok (.pairClose closing reason) => s.closePair closing reason
    | _ => s.clientPayload i target pairId pair bytes now

/-- `webSocketMessage`; `newPairId` is what `randomPairId` would give. -/
def webSocketMessage (s : RelaySession) (i : SocketId) (message : Message) (now : Nat) (newPairId : PairId) :
    RelaySession :=
  match (s.sockets[i]?).bind Socket.attachment with
  | none => s.mapSocket i fun ws => ws.close 1011 "Missing relay attachment"
  | some attachment =>
    match message, attachment with
    | .text text, .server true _ _ _ =>
      if text = "ping" then s.mapSocket i fun ws => (ws.touch now).push (.text "pong")
      else s.mapSocket i fun ws => ws.close 1003 "Text frames are not supported"
    | .text _, _ => s.mapSocket i fun ws => ws.close 1003 "Text frames are not supported"
    | .binary bytes, .server registered serverId connectedAt _ =>
      match decodeRelay bytes with
      | .error _ => s
      | .ok decoded =>
        if registered then s.serverFrame i decoded now else s.registerServer i serverId connectedAt decoded now
    | .binary bytes, .client target none connectedAt _ =>
      match decodeRelay bytes with
      | .error _ => s
      | .ok decoded => s.connectClient i target connectedAt decoded newPairId now
    | .binary bytes, .client target (some pairId) _ _ => s.clientFrame i target pairId bytes now

/-- The close event of a socket, and `webSocketClose`. -/
def webSocketClose (s : RelaySession) (i : SocketId) : RelaySession :=
  let s := s.mapSocket i fun ws => { ws with isOpen := false, gone := true }
  match (s.sockets[i]?).bind Socket.attachment with
  | some (.server true (some serverId) _ _) =>
    { s with sockets := s.sockets.map fun ws =>
      if ws.isClientFor serverId then
        (match ws.attachment with
          | some (.client _ (some pairId) _ _) => ws.send (.pairClose pairId .serverGone)
          | _ => ws).close 1012 "Server disconnected"
      else ws }
  | some (.client target (some pairId) _ _) =>
    let s := match s.findRegisteredServer target with
      | some server => s.mapSocket server fun ws => ws.send (.pairClose pairId .clientGone)
      | none => s
    { s with pairs := s.pairs.erase pairId }
  | _ => s

/-- `fetch` as far as a websocket is accepted. -/
def fetch (s : RelaySession) (role : SocketRole) (server : Option ServerId) (authorized : Bool) (now : Nat) :
    RelaySession :=
  match role, server with
  | .server, _ =>
    if authorized then
      { s with sockets := s.sockets ++ [{ tag := .server, attachment := some (.server false server now now) }] }
    else s
  | .client, some target =>
    { s with sockets := s.sockets ++ [{ tag := .client, attachment := some (.client target none now now) }] }
  | .client, none => s

end RelaySession

end Worker

/-- The worker: an object for every server identifier. -/
abbrev Worker := ServerId → Worker.RelaySession

namespace Worker

inductive Move
  /-- A websocket request at `/ws/server` or `/ws/client`. -/
  | fetch (role : SocketRole) (server : Option ServerId) (authorized : Bool) (now : Nat)
  | message (object : ServerId) (socket : SocketId) (message : Message) (now : Nat) (newPairId : PairId)
  | close (object : ServerId) (socket : SocketId)
  | sweep (object : ServerId) (now : Nat)
  /-- The runtime builds the object anew. -/
  | reconstruct (object : ServerId)

def step (w : Worker) : Move → Option Worker
  | .fetch role server authorized now =>
    match server with
    | none => some w
    | some id => some (Function.update w id ((w id).fetch role (some id) authorized now))
  | .message object socket message now newPairId =>
    match (w object).sockets[socket]? with
    | none => none
    | some ws =>
      if ws.gone then none
      else some (Function.update w object ((w object).webSocketMessage socket message now newPairId))
  | .close object socket =>
    match (w object).sockets[socket]? with
    | none => none
    | some ws => if ws.gone then none else some (Function.update w object ((w object).webSocketClose socket))
  | .sweep object now => some (Function.update w object ((w object).sweepIdlePairs now))
  | .reconstruct object => some (Function.update w object { w object with pairs := ∅ })

/-- No connection yet. -/
def init (limits : RelayLimits) : Worker := fun _ => { limits }

end Worker

end CliPocket
