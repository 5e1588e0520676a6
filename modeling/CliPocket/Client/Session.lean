import CliPocket.Lib.Saturating
import CliPocket.Proto.Frame
import Mathlib.Data.List.AList

/-!
# A session on the client's side

The state of one connection in `run_one_connection`, and what commands and inbound frames do to it.

- `ClientConn.frameForSessionCommand`, `frameForCommand`: a command becomes a request;
- `ClientConn.handleInboundFrame`, with `handleResponseFrame` and `handleStreamDataFrame`;
- `ClientConn.failAllPendingRequests`: what is left of a connection that ends in order.
-/

namespace CliPocket

open Saturating (u32Max)

inductive ClientError
  | transport (message : String)
  | crypto (message : String)
  | proto (message : String)
  | identity (message : String)
  | rejected (reason : ByeReason)
  | notConnected
  | noTerminal
  | closed
  | connectTimeout (timeoutMs : Nat)
  | internal (message : String)
  deriving DecidableEq

inductive ClientEvent
  | connecting
  | connected (sessionId : SessionId) (serverLabel : Option String)
  | disconnected (willRetry : Bool) (reason : String)
  | terminalCreated (info : TerminalInfo)
  | terminalOutput (terminalId : TerminalId) (streamSeq : StreamSeq) (bytes : List UInt8)
  | error (message : String)
  deriving DecidableEq

/-- The caller that waits for a reply. -/
abbrev ReplyId := Nat

inductive SessionCommand
  | createTerminal (params : TerminalCreateParams) (reply : ReplyId)
  | openTerminal (terminal : TerminalId) (reply : ReplyId)
  | listTerminals (reply : ReplyId)
  | readHistory (terminal : TerminalId) (before : Option StreamSeq) (maxBytes : Nat) (reply : ReplyId)
  | getServerConfig (reply : ReplyId)
  | setServerConfig (config : ServerConfig) (reply : ReplyId)
  | killTerminal (terminal : TerminalId) (reply : ReplyId)
  | shutdown

inductive TerminalCmd
  | input (terminal : TerminalId) (bytes : List UInt8)
  | resize (terminal : TerminalId) (cols rows : Nat)
  | kill (terminal : TerminalId)

/-! ## State -/

structure ActiveTerminalState where
  terminal : TerminalId
  stream : StreamId
  lastSeq : Option StreamSeq
  deriving DecidableEq

inductive RequestTxn
  | openTerminal (terminalId : TerminalId) (reply : ReplyId)
  | readHistory (terminalId : TerminalId) (reply : ReplyId)
  | createTerminal (reply : ReplyId)
  | listTerminals (reply : ReplyId)
  | getConfig (reply : ReplyId)
  | setConfig (reply : ReplyId)
  | sendInputAck
  | resizeAck
  | killTerminal (reply : Option ReplyId)
  deriving DecidableEq

/-- Who waits for the response. -/
def RequestTxn.reply : RequestTxn → Option ReplyId
  | .openTerminal _ reply | .readHistory _ reply | .createTerminal reply | .listTerminals reply | .getConfig reply
  | .setConfig reply => some reply
  | .sendInputAck | .resizeAck => none
  | .killTerminal reply => reply

/-- `StreamState::Output`. -/
structure StreamState where
  terminalId : TerminalId
  lastSeq : StreamSeq
  deriving DecidableEq

structure RuntimeState where
  active : Option ActiveTerminalState := none
  pendingRequests : AList fun _ : Nat => RequestTxn := ∅
  activeStreams : AList fun _ : StreamId => StreamState := ∅

structure TerminalHandle where
  info : TerminalInfo
  streamId : StreamId
  lastSeq : Option StreamSeq
  deriving DecidableEq

def TerminalHandle.terminalId (handle : TerminalHandle) : TerminalId := handle.info.terminal

/-- What `run_one_connection` works on; `replies` is what has been sent to waiting callers. -/
structure ClientConn where
  runtime : RuntimeState := {}
  terminal : Option TerminalHandle := none
  nextRequestId : Nat := 1
  replies : List (ReplyId × Except ClientError ResponseBody) := []

inductive Action
  | send (frame : FrameBody)
  | emit (event : ClientEvent)
  | return (result : Except ClientError Unit)
  | none

namespace RuntimeState

def activeStream (r : RuntimeState) : Option StreamId := r.active.map ActiveTerminalState.stream

def activeTerminal (r : RuntimeState) : Option TerminalId := r.active.map ActiveTerminalState.terminal

def updateActiveSeq (r : RuntimeState) (seq : StreamSeq) : RuntimeState :=
  { r with active := r.active.map fun active => { active with lastSeq := some seq } }

def setActive (r : RuntimeState) (info : TerminalInfo) (stream : StreamId) (lastSeq : Option StreamSeq) : RuntimeState :=
  { r with active := some { terminal := info.terminal, stream, lastSeq } }

def clearActive (r : RuntimeState) : RuntimeState :=
  match r.active with
  | some active => { r with activeStreams := r.activeStreams.erase active.stream, active := none }
  | none => r

end RuntimeState

namespace ClientConn

/-- The sender of a reply is taken when it is used. -/
def reply (c : ClientConn) (reply : ReplyId) (result : Except ClientError ResponseBody) : ClientConn :=
  if reply ∈ c.replies.map Prod.fst then c else { c with replies := c.replies ++ [(reply, result)] }

def replyTo (c : ClientConn) (caller : Option ReplyId) (result : Except ClientError ResponseBody) : ClientConn :=
  match caller with
  | some r => c.reply r result
  | none => c

def clearActiveTerminal (c : ClientConn) : ClientConn := { c with runtime := c.runtime.clearActive, terminal := none }

/-! ## Commands -/

/-- The next request identifier, with what is to become of its response. -/
def record (c : ClientConn) (txn : RequestTxn) : ClientConn :=
  { c with
    runtime := { c.runtime with pendingRequests := c.runtime.pendingRequests.insert c.nextRequestId txn }
    nextRequestId := Saturating.add u32Max c.nextRequestId 1 }

/-- `frame_for_session_command`; a shutdown never comes here. -/
def frameForSessionCommand (c : ClientConn) (cmd : SessionCommand) : Option (ClientConn × RequestFrame) :=
  let requestId := c.nextRequestId
  match cmd with
  | .createTerminal params reply => some (c.record (.createTerminal reply), ⟨requestId, .createTerminal params⟩)
  | .openTerminal target reply =>
    let c := c.record (.openTerminal target reply)
    some (if c.terminal.isSome then c.clearActiveTerminal else c, ⟨requestId, .openTerminal target⟩)
  | .listTerminals reply => some (c.record (.listTerminals reply), ⟨requestId, .listTerminals⟩)
  | .readHistory terminal before maxBytes reply =>
    some (c.record (.readHistory terminal reply), ⟨requestId, .readHistory terminal before maxBytes⟩)
  | .getServerConfig reply => some (c.record (.getConfig reply), ⟨requestId, .getServerConfig⟩)
  | .setServerConfig config reply => some (c.record (.setConfig reply), ⟨requestId, .setServerConfig config⟩)
  | .killTerminal terminal reply =>
    let c := c.record (.killTerminal (some reply))
    some (if c.runtime.activeTerminal = some terminal then c.clearActiveTerminal else c,
      ⟨requestId, .killTerminal terminal⟩)
  | .shutdown => none

/-- `frame_for_command`: commands for another terminal than the active one are dropped. -/
def frameForCommand (c : ClientConn) (cmd : TerminalCmd) : Option (ClientConn × RequestFrame) :=
  let requestId := c.nextRequestId
  let active (terminal : TerminalId) : Option TerminalHandle :=
    c.terminal.filter fun handle => handle.terminalId = terminal
  match cmd with
  | .input terminal bytes => (active terminal).map fun handle =>
    (c.record .sendInputAck, ⟨requestId, .sendInput handle.terminalId bytes⟩)
  | .resize terminal cols rows => (active terminal).map fun handle =>
    (c.record .resizeAck, ⟨requestId, .resizeTerminal handle.terminalId cols rows⟩)
  | .kill terminal => (active terminal).map fun handle =>
    (c.record (.killTerminal none), ⟨requestId, .killTerminal handle.terminalId⟩)

/-! ## Inbound frames -/

def unknownRequest (what : String) (requestId : Nat) : ClientError :=
  .proto (what ++ " for unknown request " ++ toString requestId)

def forgetRequest (c : ClientConn) (requestId : Nat) : ClientConn :=
  { c with runtime := { c.runtime with pendingRequests := c.runtime.pendingRequests.erase requestId } }

def failRequest (c : ClientConn) (requestId : Nat) (error : ClientError) : Except ClientError ClientConn :=
  match c.runtime.pendingRequests.lookup requestId with
  | none => .error (unknownRequest "response" requestId)
  | some txn => .ok ((c.forgetRequest requestId).replyTo txn.reply (.error error))

def completeOpenTerminal (c : ClientConn) (requestId : Nat) (streamId : StreamId) (ack : OpenTerminalAck) :
    Except String ClientConn :=
  match c.runtime.pendingRequests.lookup requestId with
  | some (.openTerminal terminalId reply) =>
    let c := c.forgetRequest requestId
    if terminalId ≠ ack.info.terminal then .error "open terminal response terminal mismatch"
    else
      let active := c.runtime.active.map fun active =>
        if active.stream = streamId then { active with lastSeq := some ack.endSeq } else active
      let state : StreamState := { terminalId := ack.info.terminal, lastSeq := ack.endSeq }
      let runtime := { c.runtime with active, activeStreams := c.runtime.activeStreams.insert streamId state }
      .ok (ClientConn.reply { c with runtime } reply (.ok (.openTerminal ack)))
  | _ => .error ("open terminal response for unknown request " ++ toString requestId)

/-- The streams are forgotten, and every caller that waits is told. -/
def failAllPendingRequests (c : ClientConn) (error : ClientError) : ClientConn :=
  let replied := c.runtime.pendingRequests.entries.foldl (fun c entry => c.replyTo entry.2.reply (.error error)) c
  { replied with runtime := {} }

/-- The successful responses that only complete their request. -/
def complete (c : ClientConn) (requestId : Nat) (reply : Option ReplyId) (body : ResponseBody) :
    Except ClientError (ClientConn × Action) :=
  .ok ((c.forgetRequest requestId).replyTo reply (.ok body), .none)

def handleResponseFrame (c : ClientConn) (response : ResponseFrame) : Except ClientError (ClientConn × Action) :=
  let requestId := response.id
  let txn := c.runtime.pendingRequests.lookup requestId
  match response.result with
  | .error error => (c.failRequest requestId (.proto error.message)).map fun c => (c, .none)
  | .ok body =>
    match body with
    | .listTerminals _ =>
      match txn with
      | some (.listTerminals reply) => c.complete requestId (some reply) body
      | _ => .error (unknownRequest "terminal list response" requestId)
    | .createTerminal info =>
      match txn with
      | some (.createTerminal reply) =>
        .ok ((c.forgetRequest requestId).reply reply (.ok body), .emit (.terminalCreated info))
      | _ => .error (unknownRequest "terminal create response" requestId)
    | .openTerminal ack =>
      match txn with
      | some (.openTerminal _ _) =>
        let opened : ClientConn := { c with
          runtime := c.runtime.setActive ack.info ack.streamId (some ack.endSeq)
          terminal := some { info := ack.info, streamId := ack.streamId, lastSeq := some ack.endSeq } }
        match opened.completeOpenTerminal requestId ack.streamId ack with
        | .error message => .error (.proto message)
        | .ok c => .ok (c, .none)
      | _ => .error (unknownRequest "open terminal response" requestId)
    | .readHistory page =>
      match txn with
      | some (.readHistory terminalId reply) =>
        if terminalId ≠ page.terminalId then .error (.proto "history response terminal mismatch")
        else c.complete requestId (some reply) body
      | _ => .error (unknownRequest "history response" requestId)
    | .killTerminal =>
      match txn with
      | some (.killTerminal reply) => c.complete requestId reply body
      | _ => .error (unknownRequest "kill response" requestId)
    | .getServerConfig _ =>
      match txn with
      | some (.getConfig reply) => c.complete requestId (some reply) body
      | _ => .error (unknownRequest "server config get response" requestId)
    | .setServerConfig _ =>
      match txn with
      | some (.setConfig reply) => c.complete requestId (some reply) body
      | _ => .error (unknownRequest "server config set response" requestId)
    | .sendInput | .resizeTerminal =>
      match txn with
      | some .sendInputAck | some .resizeAck => c.complete requestId none body
      | _ => .error (unknownRequest "ack response" requestId)

def unknownStream : ClientError := .proto "stream data on unknown stream"

def movedBackwards : ClientError := .proto "output sequence moved backwards"

/-- Output of the active stream, behind the checks. -/
def acceptOutput (c : ClientConn) (stream : StreamDataFrame) (terminalId : TerminalId) : ClientConn × Action :=
  let state : StreamState := { terminalId, lastSeq := stream.seq }
  let runtime := { c.runtime with activeStreams := c.runtime.activeStreams.insert stream.streamId state }
  match c.terminal with
  | some handle =>
    ({ c with runtime := runtime.updateActiveSeq stream.seq, terminal := some { handle with lastSeq := some stream.seq } },
      .emit (.terminalOutput handle.terminalId stream.seq stream.bytes))
  | none => ({ c with runtime }, .none)

def handleStreamDataFrame (c : ClientConn) (stream : StreamDataFrame) : Except ClientError (ClientConn × Action) :=
  match c.runtime.activeStreams.lookup stream.streamId with
  | some known =>
    if stream.offset.isSome then .error (.proto "output stream chunk must not include offset")
    else if c.runtime.activeStream ≠ some stream.streamId then .ok (c, .none)
    else
      match c.runtime.active with
      | some active =>
        if active.terminal ≠ known.terminalId then .error (.proto "output terminal mismatch")
        else if stream.seq < known.lastSeq then .error movedBackwards
        else .ok (c.acceptOutput stream known.terminalId)
      | none => .ok (c.acceptOutput stream known.terminalId)
  | none => .error unknownStream

def handleEventFrame (event : EventFrame) : Action :=
  match event.body with
  | .terminalCreated info => .emit (.terminalCreated info)
  | .error _ message => .emit (.error message)
  | .disconnected reason => .emit (.disconnected true reason)
  | .connected => .none

def isRecoverableBye : ByeReason → Bool
  | .serverShutdown | .protocolError .backpressureExceeded => true
  | _ => false

def handleInboundFrame (c : ClientConn) (frame : FrameBody) : Except ClientError (ClientConn × Action) :=
  match frame with
  | .response response => c.handleResponseFrame response
  | .streamData stream => c.handleStreamDataFrame stream
  | .event event => .ok (c, handleEventFrame event)
  | .bye reason => .ok (c, .return (.error (if isRecoverableBye reason then .closed else .rejected reason)))
  | .ping nonce => .ok (c, .send (.pong nonce))
  | _ => .ok (c, .none)

end ClientConn

end CliPocket
