import CliPocket.Proto.Terminal

/-!
# Frames

What client and daemon exchange over an established session: the hello pair, requests with their responses, stream
data, and the reasons to say goodbye.
-/

namespace CliPocket

/-! ## Errors -/

inductive ProtocolError
  | unknownTerminal
  | unauthorized
  | backpressureExceeded
  | protocolMismatch
  | resourceExhausted
  | invalidParam (message : String)
  | resumeStale
  | rateLimited
  | other (message : String)
  deriving DecidableEq

/-- `Display`. -/
def ProtocolError.toMessage : ProtocolError → String
  | .unknownTerminal => "unknown terminal"
  | .unauthorized => "unauthorized"
  | .backpressureExceeded => "backpressure exceeded"
  | .protocolMismatch => "protocol mismatch"
  | .resourceExhausted => "resource exhausted"
  | .invalidParam message => "invalid parameter: " ++ message
  | .resumeStale => "resume stale"
  | .rateLimited => "rate limited"
  | .other message => "other: " ++ message

inductive ByeReason
  | normal
  | revoked
  | serverShutdown
  | protocolError (error : ProtocolError)
  deriving DecidableEq

/-! ## Hello -/

/-- `PROTOCOL_VERSION`. -/
def protocolVersion : Nat := 1

structure ResumeAttachment where
  terminal : TerminalId
  lastSeq : StreamSeq
  deriving DecidableEq

structure ResumeToken where
  sessionId : SessionId
  attachments : List ResumeAttachment
  deriving DecidableEq

structure Hello where
  protocolMin : Nat
  protocolMax : Nat
  resume : Option ResumeToken
  deriving DecidableEq

structure ServerInfo where
  serverVersion : String
  serverLabel : Option String
  deriving DecidableEq

structure HelloOk where
  protocol : Nat
  serverInfo : ServerInfo
  sessionId : SessionId
  resumed : Bool
  deriving DecidableEq

/-! ## Requests and responses -/

inductive RequestBody
  | listTerminals
  | createTerminal (params : TerminalCreateParams)
  | openTerminal (terminalId : TerminalId)
  | readHistory (terminalId : TerminalId) (before : Option StreamSeq) (maxBytes : Nat)
  | killTerminal (terminalId : TerminalId)
  | getServerConfig
  | setServerConfig (config : ServerConfig)
  | sendInput (terminalId : TerminalId) (bytes : List UInt8)
  | resizeTerminal (terminalId : TerminalId) (cols rows : Nat)
  deriving DecidableEq

structure RequestFrame where
  id : RequestId
  body : RequestBody
  deriving DecidableEq

structure OpenTerminalAck where
  streamId : StreamId
  info : TerminalInfo
  startSeq : StreamSeq
  endSeq : StreamSeq
  renderBytes : List UInt8
  hasMoreHistory : Bool
  deriving DecidableEq

structure HistoryPage where
  terminalId : TerminalId
  startSeq : StreamSeq
  endSeq : StreamSeq
  bytes : List UInt8
  hasMore : Bool
  deriving DecidableEq

inductive ResponseBody
  | listTerminals (terminals : List TerminalInfo)
  | createTerminal (info : TerminalInfo)
  | openTerminal (ack : OpenTerminalAck)
  | readHistory (page : HistoryPage)
  | killTerminal
  | getServerConfig (config : ServerConfig)
  | setServerConfig (config : ServerConfig)
  | sendInput
  | resizeTerminal
  deriving DecidableEq

structure ResponseError where
  code : ProtocolError
  message : String
  deriving DecidableEq

structure ResponseFrame where
  id : RequestId
  result : Except ResponseError ResponseBody

structure StreamDataFrame where
  streamId : StreamId
  seq : StreamSeq
  offset : Option Nat
  bytes : List UInt8
  last : Bool
  deriving DecidableEq

inductive EventBody
  | connected
  | disconnected (reason : String)
  | terminalCreated (info : TerminalInfo)
  | error (error : ProtocolError) (message : String)
  deriving DecidableEq

structure EventFrame where
  body : EventBody
  deriving DecidableEq

/-! ## Frames -/

inductive FrameBody
  | hello (hello : Hello)
  | helloOk (helloOk : HelloOk)
  | ping (nonce : Nat)
  | pong (nonce : Nat)
  | bye (reason : ByeReason)
  | request (request : RequestFrame)
  | response (response : ResponseFrame)
  | streamData (frame : StreamDataFrame)
  | event (event : EventFrame)

structure Frame where
  body : FrameBody

/-! ## Streams -/

/-- Frames that carry neither output nor an open terminal. -/
def FrameBody.Plain : FrameBody → Prop
  | .streamData _ | .response ⟨_, .ok (.openTerminal _)⟩ => False
  | _ => True

theorem FrameBody.stream_cases (frame : FrameBody) : (∃ data, frame = .streamData data) ∨
    (∃ id ack, frame = .response ⟨id, .ok (.openTerminal ack)⟩) ∨ frame.Plain := by
  cases frame with
  | streamData data => exact .inl ⟨data, rfl⟩
  | response response =>
    obtain ⟨id, _ | body⟩ := response
    · exact .inr (.inr trivial)
    · cases body with
      | openTerminal ack => exact .inr (.inl ⟨id, ack, rfl⟩)
      | _ => exact .inr (.inr trivial)
  | _ => exact .inr (.inr trivial)

end CliPocket
