import CliPocket.Lib.Channel
import CliPocket.Lib.Chunks
import CliPocket.Proto.Frame
import CliPocket.Pty.Terminal
import Mathlib.Data.List.AList

/-!
# The connection of the daemon

The session manager's terminals and one connection behind its handshake: the requests, the stream that is attached,
the forwarder tasks, and the output queue between them and the frame loop.

- `Daemon.handleRequest`: all requests but the opening of a terminal;
- `Daemon.openStep`: the steps of `handle_open_terminal_request`, between which terminals and forwarders move;
- `Daemon.forwarderReceive`, `forwarderEnqueue`, `output`: a chunk on its way to the client.
-/

namespace CliPocket

open Saturating (u32Max u64Max)

def outputChunkBytes : Nat := 16 * 1024

def openTerminalMaxBytes : Nat := 48 * 1024

def outputQueueCapacity : Nat := 64

/-! ## State -/

structure OutboundOutput where
  stream : StreamId
  terminalId : TerminalId
  frame : StreamDataFrame
  deriving DecidableEq

/-- The task of `spawn_attached_stream_forwarder`: how far it is in its subscription, and what is left of a chunk. -/
structure Forwarder where
  stream : StreamId
  terminalId : TerminalId
  next : Nat
  frames : List OutboundOutput := []
  /-- An aborted task goes on to the next point where it waits. -/
  aborted : Bool := false
  stopped : Bool := false

structure AttachedStream where
  terminalId : TerminalId

/-- `StreamContext`. -/
structure StreamContext where
  map : AList fun _ : StreamId => AttachedStream := ∅
  nextLocalStreamId : StreamId := 1
  output : Channel.Mpsc OutboundOutput := { capacity := outputQueueCapacity }

/-- Where the task of the connection stands: in its select, or in `handle_open_terminal_request`. -/
inductive ConnTask
  | select
  | cleared (requestId : RequestId) (terminalId : TerminalId) (stream : StreamId)
  | subscribed (requestId : RequestId) (terminalId : TerminalId) (stream : StreamId) (subscription : Nat)
  | snapshotted (requestId : RequestId) (terminalId : TerminalId) (stream : StreamId) (subscription : Nat)
    (snapshot : Snapshot)
  | found (requestId : RequestId) (terminalId : TerminalId) (stream : StreamId) (subscription : Nat)
    (snapshot : Snapshot) (info : TerminalInfo)
  | closed

structure Daemon where
  /-- All terminals there have been. -/
  terminals : AList fun _ : TerminalId => Terminal := ∅
  maxTerminals : Nat
  scrollbackBytes : Nat
  streams : StreamContext := {}
  forwarders : List Forwarder := []
  task : ConnTask := .select

/-- What the system answers during a request: errors by their texts. The `title` is the one that the program of a new
terminal has set by the time it is read. -/
structure Env where
  spawned : Except String TerminalId
  title : Option String := none
  now : Nat
  killed : Except String Unit
  resized : Bool
  saved : Except String Unit

/-! ## Responses -/

def okResponse (id : RequestId) (body : ResponseBody) : ResponseFrame := ⟨id, .ok body⟩

def errorResponse (id : RequestId) (code : ProtocolError) : ResponseFrame := ⟨id, .error ⟨code, code.toMessage⟩⟩

/-- `ProtocolError::Other` of a displayed error. -/
def otherResponse (id : RequestId) (message : String) : ResponseFrame := errorResponse id (.other message)

/-- The `Debug` form of a terminal identifier. -/
def TerminalId.debug (id : TerminalId) : String := "TerminalId(" ++ id.uuid.display ++ ")"

/-- The first byte of the snapshot, in the stream of output. -/
def startSeq (snapshot : Snapshot) : StreamSeq := snapshot.headSeq - snapshot.bytes.length

def renderBytes (snapshot : Snapshot) : List UInt8 := renderPrefixFromAnchor snapshot.anchorState ++ snapshot.bytes

/-- The frames of the pieces of a chunk, of which `sent` bytes have gone. -/
def pieceFrames (stream : StreamId) (terminalId : TerminalId) (start : Nat) :
    Nat → List (List UInt8) → List OutboundOutput
  | _, [] => []
  | sent, piece :: pieces =>
    let sent := sent + piece.length
    let frame : StreamDataFrame :=
      { streamId := stream, seq := Saturating.add u64Max start sent, offset := none, bytes := piece, last := false }
    { stream, terminalId, frame } :: pieceFrames stream terminalId start sent pieces

/-- `live_output_frames`. -/
def liveOutputFrames (stream : StreamId) (terminalId : TerminalId) (chunk : OutputChunk) :
    Except String (List OutboundOutput) :=
  let total := chunk.bytes.length
  if total = 0 then .ok []
  else if chunk.seqAtEnd < total then .error ("output sequence underflow for terminal " ++ terminalId.debug)
  else .ok (pieceFrames stream terminalId (chunk.seqAtEnd - total) 0 (Chunks.chunksOf outputChunkBytes chunk.bytes))

namespace Daemon

/-! ## The session manager -/

def registered (d : Daemon) : List (TerminalId × Terminal) :=
  (d.terminals.entries.map fun entry => (entry.1, entry.2)).filter fun entry => entry.2.registered

def attach (d : Daemon) (id : TerminalId) : Option Terminal := (d.terminals.lookup id).filter Terminal.registered

def list (d : Daemon) : List TerminalInfo := d.registered.map fun entry => entry.2.info entry.1

/-- `SessionManager::create`. -/
def create (d : Daemon) (params : TerminalCreateParams) (env : Env) : Except String (Daemon × TerminalInfo) :=
  if d.maxTerminals ≤ d.registered.length then
    .error ("internal: terminal limit reached (" ++ toString d.maxTerminals ++ ")")
  else
    match env.spawned with
    | .error message => .error message
    | .ok id =>
      match ScrollbackRing.new (max params.cols 1) (max params.rows 1) (some d.scrollbackBytes) with
      | .error (.capacityTooLarge capacity) =>
        .error ("pty: ring error: capacity " ++ toString capacity ++ " exceeds the per-terminal limit " ++
          toString maxCapacityBytes)
      | .ok ring =>
        let terminal : Terminal := { createdAtUnixMs := env.now, title := env.title, ring }
        .ok ({ d with terminals := d.terminals.insert id terminal }, terminal.info id)

def setTerminal (d : Daemon) (id : TerminalId) (t : Terminal) : Daemon := { d with terminals := d.terminals.insert id t }

/-! ## Requests -/

/-- The terminal of the attached streams. -/
def attachedTo (d : Daemon) (id : TerminalId) : Bool := d.streams.map.entries.any fun entry => entry.2.terminalId = id

def serverConfig (d : Daemon) : Except String ServerConfig :=
  if d.scrollbackBytes ≤ u32Max then .ok { scrollbackBytes := d.scrollbackBytes }
  else .error "config: limits.scrollback_bytes exceeds u32::MAX"

/-- `handle_request`, but for `OpenTerminal`. -/
def handleRequest (d : Daemon) (request : RequestFrame) (env : Env) : Daemon × ResponseFrame :=
  let id := request.id
  match request.body with
  | .listTerminals => (d, okResponse id (.listTerminals d.list))
  | .createTerminal params =>
    match d.create params env with
    | .ok (d, info) => (d, okResponse id (.createTerminal info))
    | .error message => (d, otherResponse id message)
  | .openTerminal _ => (d, errorResponse id .unknownTerminal)
  | .readHistory terminalId before maxBytes =>
    match d.attach terminalId with
    | none => (d, errorResponse id .unknownTerminal)
    | some terminal =>
      let page := terminal.ring.historyPage before maxBytes
      (d, okResponse id (.readHistory
        { terminalId, startSeq := page.startSeq, endSeq := page.endSeq, bytes := page.bytes, hasMore := page.hasMore }))
  | .killTerminal terminalId =>
    match d.attach terminalId with
    | none => (d, otherResponse id ("internal: unknown terminal " ++ terminalId.debug))
    | some terminal =>
      if terminal.exited then (d, okResponse id .killTerminal)
      else
        match env.killed with
        | .ok () => (d, okResponse id .killTerminal)
        | .error message => (d, otherResponse id message)
  | .getServerConfig =>
    match d.serverConfig with
    | .ok config => (d, okResponse id (.getServerConfig config))
    | .error message => (d, otherResponse id message)
  | .setServerConfig config =>
    match env.saved with
    | .ok () => ({ d with scrollbackBytes := config.scrollbackBytes }, okResponse id (.setServerConfig config))
    | .error message => (d, otherResponse id message)
  | .sendInput terminalId _ =>
    if d.attachedTo terminalId then (d, okResponse id .sendInput) else (d, errorResponse id .unknownTerminal)
  | .resizeTerminal terminalId cols rows =>
    if d.attachedTo terminalId then
      match d.terminals.lookup terminalId with
      | some terminal =>
        if terminal.exited || !env.resized then (d, okResponse id .resizeTerminal)
        else
          let ring := terminal.ring.setDims (max cols 1) (max rows 1)
          (d.setTerminal terminalId { terminal with ring }, okResponse id .resizeTerminal)
      | none => (d, okResponse id .resizeTerminal)
    else (d, errorResponse id .unknownTerminal)

/-- The first step of `handle_open_terminal_request`: the attached streams go before anything else is known. -/
def openStart (d : Daemon) (id : RequestId) (terminalId : TerminalId) : Daemon × Option ResponseFrame :=
  match d.attach terminalId with
  | none => (d, some (errorResponse id .unknownTerminal))
  | some _ =>
    let stream := d.streams.nextLocalStreamId
    ({ d with
      streams := { d.streams with map := ∅, nextLocalStreamId := Saturating.add u32Max stream 1 }
      forwarders := d.forwarders.map fun forwarder => { forwarder with aborted := true }
      task := .cleared id terminalId stream }, none)

/-- The next step of `handle_open_terminal_request`. -/
def openStep (d : Daemon) : Option (Daemon × Option ResponseFrame) :=
  match d.task with
  | .cleared id terminalId stream =>
    (d.terminals.lookup terminalId).map fun terminal =>
      ({ d with task := .subscribed id terminalId stream terminal.sent.length }, none)
  | .subscribed id terminalId stream subscription =>
    (d.terminals.lookup terminalId).map fun terminal =>
      let snapshot := terminal.ring.snapshotWithMaxBytes openTerminalMaxBytes
      ({ d with task := .snapshotted id terminalId stream subscription snapshot }, none)
  | .snapshotted id terminalId stream subscription snapshot =>
    match d.list.find? fun info => info.terminal = terminalId with
    | none => some ({ d with task := .select }, some (errorResponse id .unknownTerminal))
    | some info => some ({ d with task := .found id terminalId stream subscription snapshot info }, none)
  | .found id terminalId stream subscription snapshot info =>
    (d.terminals.lookup terminalId).map fun terminal =>
      let ack : OpenTerminalAck :=
        { streamId := stream
          info
          startSeq := startSeq snapshot
          endSeq := snapshot.headSeq
          renderBytes := renderBytes snapshot
          hasMoreHistory := (terminal.ring.historyPage (some (startSeq snapshot)) 1).hasMore }
      ({ d with
        streams := { d.streams with map := d.streams.map.insert stream { terminalId } }
        forwarders := d.forwarders ++ [{ stream, terminalId, next := subscription }]
        task := .select }, some (okResponse id (.openTerminal ack)))
  | .select | .closed => none

/-! ## Output -/

/-- Forwarder `i` receives from its subscription. -/
def forwarderReceive (d : Daemon) (i : Nat) : Option Daemon :=
  match d.forwarders[i]? with
  | none => none
  | some forwarder =>
    match forwarder.stopped, forwarder.frames, d.terminals.lookup forwarder.terminalId with
    | false, [], some terminal =>
      (receive terminal.sent forwarder.next).map fun (received, next) =>
        let forwarder := match received with
          | .lagged _ => { forwarder with next }
          | .chunk chunk =>
            match liveOutputFrames forwarder.stream forwarder.terminalId chunk with
            | .ok frames => { forwarder with next, frames }
            | .error _ => { forwarder with stopped := true }
        { d with forwarders := d.forwarders.set i forwarder }
    | _, _, _ => none

/-- Forwarder `i` has room in the queue for its next frame. -/
def forwarderEnqueue (d : Daemon) (i : Nat) : Option Daemon :=
  match d.forwarders[i]? with
  | none => none
  | some forwarder =>
    match forwarder.stopped, forwarder.frames with
    | true, _ | _, [] => none
    | false, frame :: frames =>
      match d.streams.output.send frame with
      | .sent output =>
        some { d with streams := { d.streams with output }, forwarders := d.forwarders.set i { forwarder with frames } }
      | _ => none

/-- An aborted forwarder comes to its end. -/
def forwarderCancel (d : Daemon) (i : Nat) : Option Daemon :=
  match d.forwarders[i]? with
  | none => none
  | some forwarder =>
    if forwarder.aborted then
      some { d with forwarders := d.forwarders.set i { forwarder with frames := [], stopped := true } }
    else none

/-- The output branch of the select: a frame goes to the client when its stream is attached to its terminal. -/
def output (d : Daemon) : Option (Daemon × Option StreamDataFrame) :=
  match d.task with
  | .select =>
    d.streams.output.recv.map fun (out, output) =>
      ({ d with streams := { d.streams with output } },
        match d.streams.map.lookup out.stream with
        | some attached => if attached.terminalId = out.terminalId then some out.frame else none
        | none => none)
  | _ => none

/-- The frame branch of the select. -/
def receiveFrame (d : Daemon) (frame : FrameBody) (env : Env) : Option (Daemon × Option FrameBody) :=
  match d.task with
  | .select =>
    match frame with
    | .request { id, body := .openTerminal terminalId } =>
      let (d, response) := d.openStart id terminalId
      some (d, response.map .response)
    | .request request =>
      let (d, response) := d.handleRequest request env
      some (d, some (.response response))
    | .ping nonce => some (d, some (.pong nonce))
    | .bye _ => some ({ d with task := .closed }, none)
    | _ => some (d, none)
  | _ => none

/-! ## The terminals -/

/-- What becomes of a terminal without the connection. -/
inductive TerminalMove
  | push (bytes : List UInt8)
  | broadcast
  | title (title : String)
  | resize (cols rows : Nat)
  | exit
  | reap

def moveTerminal (t : Terminal) : TerminalMove → Option Terminal
  | .push bytes => t.push bytes
  | .broadcast => t.broadcast
  | .title title => some { t with title := some title }
  | .resize cols rows => some { t with ring := t.ring.setDims (max cols 1) (max rows 1) }
  | .exit => some { t with exited := true }
  | .reap => if t.exited then some { t with registered := false } else none

end Daemon

end CliPocket
