import CliPocket.Lib.PostcardReader
import CliPocket.Proto.Codec

/-!
# Reading frames

The derived decoders, field by field.

- `decodeFrame`: what is behind the value is not looked at;
- `FrameBody.Typed`: the values of the fields' own types;
- `FrameBody.lawful`: the laws of the writer and the reader, from those of the fields;
- `decodeFrame_encodeFrame`, `decodeFrame_sound`: **what is written is read back, and what is read was well formed.**
-/

namespace CliPocket

open Postcard Readers

/-! ## Fields -/

def Uuid.read : Read Uuid := do
  let run ← readBytes
  match Uuid.fromSlice run with
  | some u => pure u
  | none => throw (.postcard .serdeDeCustom)

def ProtocolError.read : Read ProtocolError := do
  match ← readUint32 with
  | 0 => pure .unknownTerminal
  | 1 => pure .unauthorized
  | 2 => pure .backpressureExceeded
  | 3 => pure .protocolMismatch
  | 4 => pure .resourceExhausted
  | 5 =>
    let message ← readStr
    pure (.invalidParam message)
  | 6 => pure .resumeStale
  | 7 => pure .rateLimited
  | 8 =>
    let message ← readStr
    pure (.other message)
  | _ => throw (.postcard .serdeDeCustom)

def ByeReason.read : Read ByeReason := do
  match ← readUint32 with
  | 0 => pure .normal
  | 1 => pure .revoked
  | 2 => pure .serverShutdown
  | 3 =>
    let error ← ProtocolError.read
    pure (.protocolError error)
  | _ => throw (.postcard .serdeDeCustom)

/-- A variable and its value. -/
def readEnvEntry : Read (String × String) := do
  let name ← readStr
  let value ← readStr
  pure (name, value)

def TerminalCreateParams.read : Read TerminalCreateParams := do
  let cols ← readUint16
  let rows ← readUint16
  let cwd ← readOption readStr
  let cmd ← readVec readStr
  let env ← readVec readEnvEntry
  pure ⟨cols, rows, cwd, cmd, env⟩

def ServerConfig.read : Read ServerConfig := do
  let scrollbackBytes ← readUint32
  pure ⟨scrollbackBytes⟩

def TerminalInfo.read : Read TerminalInfo := do
  let terminal ← Uuid.read
  let cols ← readUint16
  let rows ← readUint16
  let createdAtUnixMs ← readUint64
  let label ← readOption readStr
  let attachedClients ← readUint32
  pure ⟨⟨terminal⟩, cols, rows, createdAtUnixMs, label, attachedClients⟩

/-! ## Hello -/

def ResumeAttachment.read : Read ResumeAttachment := do
  let terminal ← Uuid.read
  let lastSeq ← readUint64
  pure ⟨⟨terminal⟩, lastSeq⟩

def ResumeToken.read : Read ResumeToken := do
  let sessionId ← Uuid.read
  let attachments ← readVec ResumeAttachment.read
  pure ⟨⟨sessionId⟩, attachments⟩

def Hello.read : Read Hello := do
  let protocolMin ← readUint32
  let protocolMax ← readUint32
  let resume ← readOption ResumeToken.read
  pure ⟨protocolMin, protocolMax, resume⟩

def ServerInfo.read : Read ServerInfo := do
  let serverVersion ← readStr
  let serverLabel ← readOption readStr
  pure ⟨serverVersion, serverLabel⟩

def HelloOk.read : Read HelloOk := do
  let protocol ← readUint32
  let serverInfo ← ServerInfo.read
  let sessionId ← Uuid.read
  let resumed ← readBool
  pure ⟨protocol, serverInfo, ⟨sessionId⟩, resumed⟩

/-! ## Requests and responses -/

def RequestBody.read : Read RequestBody := do
  match ← readUint32 with
  | 0 => pure .listTerminals
  | 1 =>
    let params ← TerminalCreateParams.read
    pure (.createTerminal params)
  | 2 =>
    let terminalId ← Uuid.read
    pure (.openTerminal ⟨terminalId⟩)
  | 3 =>
    let terminalId ← Uuid.read
    let before ← readOption readUint64
    let maxBytes ← readUint32
    pure (.readHistory ⟨terminalId⟩ before maxBytes)
  | 4 =>
    let terminalId ← Uuid.read
    pure (.killTerminal ⟨terminalId⟩)
  | 5 => pure .getServerConfig
  | 6 =>
    let config ← ServerConfig.read
    pure (.setServerConfig config)
  | 7 =>
    let terminalId ← Uuid.read
    let bytes ← readBytes
    pure (.sendInput ⟨terminalId⟩ bytes)
  | 8 =>
    let terminalId ← Uuid.read
    let cols ← readUint16
    let rows ← readUint16
    pure (.resizeTerminal ⟨terminalId⟩ cols rows)
  | _ => throw (.postcard .serdeDeCustom)

def RequestFrame.read : Read RequestFrame := do
  let id ← readUint32
  let body ← RequestBody.read
  pure ⟨id, body⟩

def OpenTerminalAck.read : Read OpenTerminalAck := do
  let streamId ← readUint32
  let info ← TerminalInfo.read
  let startSeq ← readUint64
  let endSeq ← readUint64
  let renderBytes ← readBytes
  let hasMoreHistory ← readBool
  pure ⟨streamId, info, startSeq, endSeq, renderBytes, hasMoreHistory⟩

def HistoryPage.read : Read HistoryPage := do
  let terminalId ← Uuid.read
  let startSeq ← readUint64
  let endSeq ← readUint64
  let bytes ← readBytes
  let hasMore ← readBool
  pure ⟨⟨terminalId⟩, startSeq, endSeq, bytes, hasMore⟩

def ResponseBody.read : Read ResponseBody := do
  match ← readUint32 with
  | 0 =>
    let terminals ← readVec TerminalInfo.read
    pure (.listTerminals terminals)
  | 1 =>
    let info ← TerminalInfo.read
    pure (.createTerminal info)
  | 2 =>
    let ack ← OpenTerminalAck.read
    pure (.openTerminal ack)
  | 3 =>
    let page ← HistoryPage.read
    pure (.readHistory page)
  | 4 => pure .killTerminal
  | 5 =>
    let config ← ServerConfig.read
    pure (.getServerConfig config)
  | 6 =>
    let config ← ServerConfig.read
    pure (.setServerConfig config)
  | 7 => pure .sendInput
  | 8 => pure .resizeTerminal
  | _ => throw (.postcard .serdeDeCustom)

def ResponseError.read : Read ResponseError := do
  let code ← ProtocolError.read
  let message ← readStr
  pure ⟨code, message⟩

/-- `Result`, as an enum of `Ok` and `Err`. -/
def readResult : Read (Except ResponseError ResponseBody) := do
  match ← readUint32 with
  | 0 =>
    let body ← ResponseBody.read
    pure (.ok body)
  | 1 =>
    let error ← ResponseError.read
    pure (.error error)
  | _ => throw (.postcard .serdeDeCustom)

def ResponseFrame.read : Read ResponseFrame := do
  let id ← readUint32
  let result ← readResult
  pure ⟨id, result⟩

def StreamDataFrame.read : Read StreamDataFrame := do
  let streamId ← readUint32
  let seq ← readUint64
  let offset ← readOption readUint32
  let bytes ← readBytes
  let last ← readBool
  pure ⟨streamId, seq, offset, bytes, last⟩

def EventBody.read : Read EventBody := do
  match ← readUint32 with
  | 0 => pure .connected
  | 1 =>
    let reason ← readStr
    pure (.disconnected reason)
  | 2 =>
    let info ← TerminalInfo.read
    pure (.terminalCreated info)
  | 3 =>
    let error ← ProtocolError.read
    let message ← readStr
    pure (.error error message)
  | _ => throw (.postcard .serdeDeCustom)

/-! ## Frames -/

def FrameBody.read : Read FrameBody := do
  match ← readUint32 with
  | 0 =>
    let body ← Hello.read
    pure (.hello body)
  | 1 =>
    let body ← HelloOk.read
    pure (.helloOk body)
  | 2 =>
    let nonce ← readUint32
    pure (.ping nonce)
  | 3 =>
    let nonce ← readUint32
    pure (.pong nonce)
  | 4 =>
    let reason ← ByeReason.read
    pure (.bye reason)
  | 5 =>
    let body ← RequestFrame.read
    pure (.request body)
  | 6 =>
    let body ← ResponseFrame.read
    pure (.response body)
  | 7 =>
    let frame ← StreamDataFrame.read
    pure (.streamData frame)
  | 8 =>
    let body ← EventBody.read
    pure (.event ⟨body⟩)
  | _ => throw (.postcard .serdeDeCustom)

/-- The error is the one that `CodecError::Postcard` wraps. -/
def decodeFrame (bytes : List UInt8) : Except ReadError Frame := do
  let (body, _) ← FrameBody.read bytes
  pure ⟨body⟩

/-! ## Ranges -/

/-- A text whose bytes a `usize` counts. -/
def TextFits (s : String) : Prop := (Utf8.encode s).length < 2 ^ 64

def ProtocolError.Typed : ProtocolError → Prop
  | .invalidParam message | .other message => TextFits message
  | _ => True

def ByeReason.Typed : ByeReason → Prop
  | .protocolError error => error.Typed
  | _ => True

structure TerminalCreateParams.Typed (p : TerminalCreateParams) : Prop where
  cols : p.cols < 2 ^ 16
  rows : p.rows < 2 ^ 16
  cwd : ∀ s ∈ p.cwd, TextFits s
  cmd : p.cmd.length < 2 ^ 64 ∧ ∀ s ∈ p.cmd, TextFits s
  env : p.env.length < 2 ^ 64 ∧ ∀ entry ∈ p.env, TextFits entry.1 ∧ TextFits entry.2

def ServerConfig.Typed (c : ServerConfig) : Prop := c.scrollbackBytes < 2 ^ 32

structure TerminalInfo.Typed (i : TerminalInfo) : Prop where
  cols : i.cols < 2 ^ 16
  rows : i.rows < 2 ^ 16
  createdAtUnixMs : i.createdAtUnixMs < 2 ^ 64
  label : ∀ s ∈ i.label, TextFits s
  attachedClients : i.attachedClients < 2 ^ 32

def ResumeAttachment.Typed (a : ResumeAttachment) : Prop := a.lastSeq < 2 ^ 64

def ResumeToken.Typed (t : ResumeToken) : Prop := t.attachments.length < 2 ^ 64 ∧ ∀ a ∈ t.attachments, a.Typed

structure Hello.Typed (h : Hello) : Prop where
  protocolMin : h.protocolMin < 2 ^ 32
  protocolMax : h.protocolMax < 2 ^ 32
  resume : ∀ t ∈ h.resume, t.Typed

structure ServerInfo.Typed (i : ServerInfo) : Prop where
  serverVersion : TextFits i.serverVersion
  serverLabel : ∀ s ∈ i.serverLabel, TextFits s

structure HelloOk.Typed (h : HelloOk) : Prop where
  protocol : h.protocol < 2 ^ 32
  serverInfo : h.serverInfo.Typed

def RequestBody.Typed : RequestBody → Prop
  | .createTerminal params => params.Typed
  | .readHistory _ before maxBytes => (∀ seq ∈ before, seq < 2 ^ 64) ∧ maxBytes < 2 ^ 32
  | .setServerConfig config => config.Typed
  | .sendInput _ bytes => bytes.length < 2 ^ 64
  | .resizeTerminal _ cols rows => cols < 2 ^ 16 ∧ rows < 2 ^ 16
  | _ => True

structure RequestFrame.Typed (r : RequestFrame) : Prop where
  id : r.id < 2 ^ 32
  body : r.body.Typed

structure OpenTerminalAck.Typed (a : OpenTerminalAck) : Prop where
  streamId : a.streamId < 2 ^ 32
  info : a.info.Typed
  startSeq : a.startSeq < 2 ^ 64
  endSeq : a.endSeq < 2 ^ 64
  renderBytes : a.renderBytes.length < 2 ^ 64

structure HistoryPage.Typed (p : HistoryPage) : Prop where
  startSeq : p.startSeq < 2 ^ 64
  endSeq : p.endSeq < 2 ^ 64
  bytes : p.bytes.length < 2 ^ 64

def ResponseBody.Typed : ResponseBody → Prop
  | .listTerminals terminals => terminals.length < 2 ^ 64 ∧ ∀ info ∈ terminals, info.Typed
  | .createTerminal info => info.Typed
  | .openTerminal ack => ack.Typed
  | .readHistory page => page.Typed
  | .getServerConfig config | .setServerConfig config => config.Typed
  | _ => True

structure ResponseError.Typed (e : ResponseError) : Prop where
  code : e.code.Typed
  message : TextFits e.message

def ResultTyped : Except ResponseError ResponseBody → Prop
  | .ok body => body.Typed
  | .error error => error.Typed

structure ResponseFrame.Typed (r : ResponseFrame) : Prop where
  id : r.id < 2 ^ 32
  result : ResultTyped r.result

structure StreamDataFrame.Typed (f : StreamDataFrame) : Prop where
  streamId : f.streamId < 2 ^ 32
  seq : f.seq < 2 ^ 64
  offset : ∀ n ∈ f.offset, n < 2 ^ 32
  bytes : f.bytes.length < 2 ^ 64

def EventBody.Typed : EventBody → Prop
  | .connected => True
  | .disconnected reason => TextFits reason
  | .terminalCreated info => info.Typed
  | .error e message => e.Typed ∧ TextFits message

/-- What the fields' own types hold. -/
def FrameBody.Typed : FrameBody → Prop
  | .hello body => body.Typed
  | .helloOk body => body.Typed
  | .ping nonce | .pong nonce => nonce < 2 ^ 32
  | .bye reason => reason.Typed
  | .request body => body.Typed
  | .response body => body.Typed
  | .streamData frame => frame.Typed
  | .event ⟨body⟩ => body.Typed

/-! ## Laws of the fields -/

theorem Uuid.lawful : Lawful Uuid.read Uuid.put fun _ => True where
  reads {u} _ := by
    have hlen : u.bytes.length < 2 ^ 64 := by
      have hlength := u.length_eq
      omega
    have hread : Reads (match Uuid.fromSlice u.bytes with
        | some w => (pure w : Read Uuid)
        | none => throw (.postcard .serdeDeCustom)) [] u := by
      rw [Uuid.fromSlice_eq_some.mpr rfl]
      exact .pure u
    exact List.append_nil u.put ▸ (lawful_bytes.reads hlen).bind hread
  takes := by
    refine lawful_bytes.takes.bind fun run used hrun => ?_
    split
    · next u hu =>
      rw [Uuid.fromSlice_eq_some.mp hu] at hrun
      exact .pure ⟨trivial, by rw [List.append_nil]; exact hrun.2⟩
    · exact .throw _

theorem ProtocolError.lawful : Lawful ProtocolError.read ProtocolError.put ProtocolError.Typed where
  reads {e} he := by
    cases e with
    | invalidParam message => exact reads_enum (by decide) (lawful_str.reads he).map
    | other message => exact reads_enum (by decide) (lawful_str.reads he).map
    | _ => exact reads_unit (by decide) (.pure _)
  takes := takes_enum fun n => by
    split
    case h_6 | h_9 =>
      exact lawful_str.takes.bind fun message used h => .pure ⟨h.1, by
        simp only [ProtocolError.put, List.length_append, List.length_nil]
        omega⟩
    case h_10 => exact .throw _
    all_goals exact .pure ⟨trivial, Nat.le_refl _⟩

theorem ByeReason.lawful : Lawful ByeReason.read ByeReason.put ByeReason.Typed where
  reads {r} hr := by
    cases r with
    | protocolError error => exact reads_enum (by decide) (ProtocolError.lawful.reads hr).map
    | _ => exact reads_unit (by decide) (.pure _)
  takes := takes_enum fun n => by
    split
    case h_4 =>
      exact ProtocolError.lawful.takes.bind fun error used h => .pure ⟨h.1, by
        simp only [ByeReason.put, List.length_append, List.length_nil]
        omega⟩
    case h_5 => exact .throw _
    all_goals exact .pure ⟨trivial, Nat.le_refl _⟩

theorem envEntry_lawful : Lawful readEnvEntry (fun entry => putStr entry.1 ++ putStr entry.2) fun entry =>
    TextFits entry.1 ∧ TextFits entry.2 where
  reads h := (lawful_str.reads h.1).bind (lawful_str.reads h.2).map
  takes := lawful_str.takes.bind fun name u₁ h₁ => lawful_str.takes.bind fun value u₂ h₂ => .pure ⟨⟨h₁.1, h₂.1⟩, by
    simp only [List.length_append, List.length_nil]
    omega⟩

theorem TerminalCreateParams.lawful :
    Lawful TerminalCreateParams.read TerminalCreateParams.put TerminalCreateParams.Typed where
  reads h := by
    simp only [TerminalCreateParams.put, List.append_assoc]
    exact (lawful_uint16.reads h.cols).bind <| (lawful_uint16.reads h.rows).bind <|
      ((lawful_option lawful_str).reads h.cwd).bind <| ((lawful_vec lawful_str).reads h.cmd).bind <|
      ((lawful_vec envEntry_lawful).reads h.env).map
  takes := lawful_uint16.takes.bind fun cols u₁ h₁ => lawful_uint16.takes.bind fun rows u₂ h₂ =>
    (lawful_option lawful_str).takes.bind fun cwd u₃ h₃ => (lawful_vec lawful_str).takes.bind fun cmd u₄ h₄ =>
    (lawful_vec envEntry_lawful).takes.bind fun env u₅ h₅ => .pure ⟨⟨h₁.1, h₂.1, h₃.1, h₄.1, h₅.1⟩, by
      simp only [TerminalCreateParams.put, List.length_append, List.length_nil]
      omega⟩

theorem ServerConfig.lawful : Lawful ServerConfig.read ServerConfig.put ServerConfig.Typed where
  reads h := (lawful_uint32.reads h).map
  takes := lawful_uint32.takes.bind fun scrollbackBytes used h => .pure ⟨h.1, by
    rw [List.append_nil]
    exact h.2⟩

theorem TerminalInfo.lawful : Lawful TerminalInfo.read TerminalInfo.put TerminalInfo.Typed where
  reads h := by
    simp only [TerminalInfo.put, List.append_assoc]
    exact (Uuid.lawful.reads trivial).bind <| (lawful_uint16.reads h.cols).bind <| (lawful_uint16.reads h.rows).bind <|
      (lawful_uint64.reads h.createdAtUnixMs).bind <| ((lawful_option lawful_str).reads h.label).bind <|
      (lawful_uint32.reads h.attachedClients).map
  takes := Uuid.lawful.takes.bind fun terminal u₁ h₁ => lawful_uint16.takes.bind fun cols u₂ h₂ =>
    lawful_uint16.takes.bind fun rows u₃ h₃ => lawful_uint64.takes.bind fun createdAtUnixMs u₄ h₄ =>
    (lawful_option lawful_str).takes.bind fun label u₅ h₅ => lawful_uint32.takes.bind fun attachedClients u₆ h₆ =>
    .pure ⟨⟨h₂.1, h₃.1, h₄.1, h₅.1, h₆.1⟩, by
      simp only [TerminalInfo.put, List.length_append, List.length_nil]
      omega⟩

/-! ## Laws of the hello -/

theorem ResumeAttachment.lawful : Lawful ResumeAttachment.read ResumeAttachment.put ResumeAttachment.Typed where
  reads h := (Uuid.lawful.reads trivial).bind (lawful_uint64.reads h).map
  takes := Uuid.lawful.takes.bind fun terminal u₁ h₁ => lawful_uint64.takes.bind fun lastSeq u₂ h₂ => .pure ⟨h₂.1, by
    simp only [ResumeAttachment.put, List.length_append, List.length_nil]
    omega⟩

theorem ResumeToken.lawful : Lawful ResumeToken.read ResumeToken.put ResumeToken.Typed where
  reads h := (Uuid.lawful.reads trivial).bind ((lawful_vec ResumeAttachment.lawful).reads h).map
  takes := Uuid.lawful.takes.bind fun sessionId u₁ h₁ =>
    (lawful_vec ResumeAttachment.lawful).takes.bind fun attachments u₂ h₂ => .pure ⟨h₂.1, by
      simp only [ResumeToken.put, List.length_append, List.length_nil]
      omega⟩

theorem Hello.lawful : Lawful Hello.read Hello.put Hello.Typed where
  reads h := by
    simp only [Hello.put, List.append_assoc]
    exact (lawful_uint32.reads h.protocolMin).bind <| (lawful_uint32.reads h.protocolMax).bind <|
      ((lawful_option ResumeToken.lawful).reads h.resume).map
  takes := lawful_uint32.takes.bind fun protocolMin u₁ h₁ => lawful_uint32.takes.bind fun protocolMax u₂ h₂ =>
    (lawful_option ResumeToken.lawful).takes.bind fun resume u₃ h₃ => .pure ⟨⟨h₁.1, h₂.1, h₃.1⟩, by
      simp only [Hello.put, List.length_append, List.length_nil]
      omega⟩

theorem ServerInfo.lawful : Lawful ServerInfo.read ServerInfo.put ServerInfo.Typed where
  reads h := (lawful_str.reads h.serverVersion).bind ((lawful_option lawful_str).reads h.serverLabel).map
  takes := lawful_str.takes.bind fun serverVersion u₁ h₁ =>
    (lawful_option lawful_str).takes.bind fun serverLabel u₂ h₂ => .pure ⟨⟨h₁.1, h₂.1⟩, by
      simp only [ServerInfo.put, List.length_append, List.length_nil]
      omega⟩

theorem HelloOk.lawful : Lawful HelloOk.read HelloOk.put HelloOk.Typed where
  reads h := by
    simp only [HelloOk.put, List.append_assoc]
    exact (lawful_uint32.reads h.protocol).bind <| (ServerInfo.lawful.reads h.serverInfo).bind <|
      (Uuid.lawful.reads trivial).bind <| (lawful_bool.reads trivial).map
  takes := lawful_uint32.takes.bind fun protocol u₁ h₁ => ServerInfo.lawful.takes.bind fun serverInfo u₂ h₂ =>
    Uuid.lawful.takes.bind fun sessionId u₃ h₃ => lawful_bool.takes.bind fun resumed u₄ h₄ => .pure ⟨⟨h₁.1, h₂.1⟩, by
      simp only [HelloOk.put, List.length_append, List.length_nil]
      omega⟩

/-! ## Laws of requests and responses -/

theorem RequestBody.lawful : Lawful RequestBody.read RequestBody.put RequestBody.Typed where
  reads {r} hr := by
    cases r with
    | createTerminal params => exact reads_enum (by decide) (TerminalCreateParams.lawful.reads hr).map
    | openTerminal terminalId => exact reads_enum (by decide) (Uuid.lawful.reads trivial).map
    | readHistory terminalId before maxBytes =>
      simp only [RequestBody.put, List.append_assoc]
      exact reads_enum (by decide) <| (Uuid.lawful.reads trivial).bind <|
        ((lawful_option lawful_uint64).reads hr.1).bind <| (lawful_uint32.reads hr.2).map
    | killTerminal terminalId => exact reads_enum (by decide) (Uuid.lawful.reads trivial).map
    | setServerConfig config => exact reads_enum (by decide) (ServerConfig.lawful.reads hr).map
    | sendInput terminalId bytes =>
      simp only [RequestBody.put, List.append_assoc]
      exact reads_enum (by decide) <| (Uuid.lawful.reads trivial).bind <| (lawful_bytes.reads hr).map
    | resizeTerminal terminalId cols rows =>
      simp only [RequestBody.put, List.append_assoc]
      exact reads_enum (by decide) <| (Uuid.lawful.reads trivial).bind <| (lawful_uint16.reads hr.1).bind <|
        (lawful_uint16.reads hr.2).map
    | _ => exact reads_unit (by decide) (.pure _)
  takes := takes_enum fun n => by
    split
    case h_2 =>
      exact TerminalCreateParams.lawful.takes.bind fun params used h => .pure ⟨h.1, by
        simp only [RequestBody.put, List.length_append, List.length_nil]
        omega⟩
    case h_3 | h_5 =>
      exact Uuid.lawful.takes.bind fun terminalId used h => .pure ⟨trivial, by
        simp only [RequestBody.put, List.length_append, List.length_nil]
        omega⟩
    case h_4 =>
      exact Uuid.lawful.takes.bind fun terminalId u₁ h₁ =>
        (lawful_option lawful_uint64).takes.bind fun before u₂ h₂ => lawful_uint32.takes.bind fun maxBytes u₃ h₃ =>
        .pure ⟨⟨h₂.1, h₃.1⟩, by
          simp only [RequestBody.put, List.length_append, List.length_nil]
          omega⟩
    case h_7 =>
      exact ServerConfig.lawful.takes.bind fun config used h => .pure ⟨h.1, by
        simp only [RequestBody.put, List.length_append, List.length_nil]
        omega⟩
    case h_8 =>
      exact Uuid.lawful.takes.bind fun terminalId u₁ h₁ => lawful_bytes.takes.bind fun bytes u₂ h₂ =>
        .pure ⟨h₂.1, by
          simp only [RequestBody.put, List.length_append, List.length_nil]
          omega⟩
    case h_9 =>
      exact Uuid.lawful.takes.bind fun terminalId u₁ h₁ => lawful_uint16.takes.bind fun cols u₂ h₂ =>
        lawful_uint16.takes.bind fun rows u₃ h₃ => .pure ⟨⟨h₂.1, h₃.1⟩, by
          simp only [RequestBody.put, List.length_append, List.length_nil]
          omega⟩
    case h_10 => exact .throw _
    all_goals exact .pure ⟨trivial, Nat.le_refl _⟩

theorem RequestFrame.lawful : Lawful RequestFrame.read RequestFrame.put RequestFrame.Typed where
  reads h := (lawful_uint32.reads h.id).bind (RequestBody.lawful.reads h.body).map
  takes := lawful_uint32.takes.bind fun id u₁ h₁ => RequestBody.lawful.takes.bind fun body u₂ h₂ =>
    .pure ⟨⟨h₁.1, h₂.1⟩, by
      simp only [RequestFrame.put, List.length_append, List.length_nil]
      omega⟩

theorem OpenTerminalAck.lawful : Lawful OpenTerminalAck.read OpenTerminalAck.put OpenTerminalAck.Typed where
  reads h := by
    simp only [OpenTerminalAck.put, List.append_assoc]
    exact (lawful_uint32.reads h.streamId).bind <| (TerminalInfo.lawful.reads h.info).bind <|
      (lawful_uint64.reads h.startSeq).bind <| (lawful_uint64.reads h.endSeq).bind <|
      (lawful_bytes.reads h.renderBytes).bind <| (lawful_bool.reads trivial).map
  takes := lawful_uint32.takes.bind fun streamId u₁ h₁ => TerminalInfo.lawful.takes.bind fun info u₂ h₂ =>
    lawful_uint64.takes.bind fun startSeq u₃ h₃ => lawful_uint64.takes.bind fun endSeq u₄ h₄ =>
    lawful_bytes.takes.bind fun renderBytes u₅ h₅ => lawful_bool.takes.bind fun hasMoreHistory u₆ h₆ =>
    .pure ⟨⟨h₁.1, h₂.1, h₃.1, h₄.1, h₅.1⟩, by
      simp only [OpenTerminalAck.put, List.length_append, List.length_nil]
      omega⟩

theorem HistoryPage.lawful : Lawful HistoryPage.read HistoryPage.put HistoryPage.Typed where
  reads h := by
    simp only [HistoryPage.put, List.append_assoc]
    exact (Uuid.lawful.reads trivial).bind <| (lawful_uint64.reads h.startSeq).bind <|
      (lawful_uint64.reads h.endSeq).bind <| (lawful_bytes.reads h.bytes).bind <| (lawful_bool.reads trivial).map
  takes := Uuid.lawful.takes.bind fun terminalId u₁ h₁ => lawful_uint64.takes.bind fun startSeq u₂ h₂ =>
    lawful_uint64.takes.bind fun endSeq u₃ h₃ => lawful_bytes.takes.bind fun bytes u₄ h₄ =>
    lawful_bool.takes.bind fun hasMore u₅ h₅ => .pure ⟨⟨h₂.1, h₃.1, h₄.1⟩, by
      simp only [HistoryPage.put, List.length_append, List.length_nil]
      omega⟩

theorem ResponseBody.lawful : Lawful ResponseBody.read ResponseBody.put ResponseBody.Typed where
  reads {r} hr := by
    cases r with
    | listTerminals terminals => exact reads_enum (by decide) ((lawful_vec TerminalInfo.lawful).reads hr).map
    | createTerminal info => exact reads_enum (by decide) (TerminalInfo.lawful.reads hr).map
    | openTerminal ack => exact reads_enum (by decide) (OpenTerminalAck.lawful.reads hr).map
    | readHistory page => exact reads_enum (by decide) (HistoryPage.lawful.reads hr).map
    | getServerConfig config => exact reads_enum (by decide) (ServerConfig.lawful.reads hr).map
    | setServerConfig config => exact reads_enum (by decide) (ServerConfig.lawful.reads hr).map
    | _ => exact reads_unit (by decide) (.pure _)
  takes := takes_enum fun n => by
    split
    case h_1 =>
      exact (lawful_vec TerminalInfo.lawful).takes.bind fun terminals used h => .pure ⟨h.1, by
        simp only [ResponseBody.put, List.length_append, List.length_nil]
        omega⟩
    case h_2 =>
      exact TerminalInfo.lawful.takes.bind fun info used h => .pure ⟨h.1, by
        simp only [ResponseBody.put, List.length_append, List.length_nil]
        omega⟩
    case h_3 =>
      exact OpenTerminalAck.lawful.takes.bind fun ack used h => .pure ⟨h.1, by
        simp only [ResponseBody.put, List.length_append, List.length_nil]
        omega⟩
    case h_4 =>
      exact HistoryPage.lawful.takes.bind fun page used h => .pure ⟨h.1, by
        simp only [ResponseBody.put, List.length_append, List.length_nil]
        omega⟩
    case h_6 | h_7 =>
      exact ServerConfig.lawful.takes.bind fun config used h => .pure ⟨h.1, by
        simp only [ResponseBody.put, List.length_append, List.length_nil]
        omega⟩
    case h_10 => exact .throw _
    all_goals exact .pure ⟨trivial, Nat.le_refl _⟩

theorem ResponseError.lawful : Lawful ResponseError.read ResponseError.put ResponseError.Typed where
  reads h := (ProtocolError.lawful.reads h.code).bind (lawful_str.reads h.message).map
  takes := ProtocolError.lawful.takes.bind fun code u₁ h₁ => lawful_str.takes.bind fun message u₂ h₂ =>
    .pure ⟨⟨h₁.1, h₂.1⟩, by
      simp only [ResponseError.put, List.length_append, List.length_nil]
      omega⟩

/-- What `ResponseFrame.put` writes behind the identifier. -/
def putResult : Except ResponseError ResponseBody → List UInt8
  | .ok body => putTag 0 ++ body.put
  | .error error => putTag 1 ++ error.put

theorem ResponseFrame.put_eq (r : ResponseFrame) : r.put = putUint r.id ++ putResult r.result := by
  obtain ⟨id, result⟩ := r
  cases result <;> rfl

theorem result_lawful : Lawful readResult putResult ResultTyped where
  reads {r} hr := by
    cases r with
    | ok body => exact reads_enum (by decide) (ResponseBody.lawful.reads hr).map
    | error error => exact reads_enum (by decide) (ResponseError.lawful.reads hr).map
  takes := takes_enum fun n => by
    split
    case h_1 =>
      exact ResponseBody.lawful.takes.bind fun body used h => .pure ⟨h.1, by
        simp only [putResult, List.length_append, List.length_nil]
        omega⟩
    case h_2 =>
      exact ResponseError.lawful.takes.bind fun error used h => .pure ⟨h.1, by
        simp only [putResult, List.length_append, List.length_nil]
        omega⟩
    case h_3 => exact .throw _

theorem ResponseFrame.lawful : Lawful ResponseFrame.read ResponseFrame.put ResponseFrame.Typed where
  reads {r} h := by
    rw [ResponseFrame.put_eq]
    exact (lawful_uint32.reads h.id).bind (result_lawful.reads h.result).map
  takes := lawful_uint32.takes.bind fun id u₁ h₁ => result_lawful.takes.bind fun result u₂ h₂ =>
    .pure ⟨⟨h₁.1, h₂.1⟩, by
      simp only [ResponseFrame.put_eq, List.length_append, List.length_nil]
      omega⟩

theorem StreamDataFrame.lawful : Lawful StreamDataFrame.read StreamDataFrame.put StreamDataFrame.Typed where
  reads h := by
    simp only [StreamDataFrame.put, List.append_assoc]
    exact (lawful_uint32.reads h.streamId).bind <| (lawful_uint64.reads h.seq).bind <|
      ((lawful_option lawful_uint32).reads h.offset).bind <| (lawful_bytes.reads h.bytes).bind <|
      (lawful_bool.reads trivial).map
  takes := lawful_uint32.takes.bind fun streamId u₁ h₁ => lawful_uint64.takes.bind fun seq u₂ h₂ =>
    (lawful_option lawful_uint32).takes.bind fun offset u₃ h₃ => lawful_bytes.takes.bind fun bytes u₄ h₄ =>
    lawful_bool.takes.bind fun last u₅ h₅ => .pure ⟨⟨h₁.1, h₂.1, h₃.1, h₄.1⟩, by
      simp only [StreamDataFrame.put, List.length_append, List.length_nil]
      omega⟩

theorem EventBody.lawful : Lawful EventBody.read EventBody.put EventBody.Typed where
  reads {e} he := by
    cases e with
    | connected => exact reads_unit (by decide) (.pure _)
    | disconnected reason => exact reads_enum (by decide) (lawful_str.reads he).map
    | terminalCreated info => exact reads_enum (by decide) (TerminalInfo.lawful.reads he).map
    | error e message =>
      simp only [EventBody.put, List.append_assoc]
      exact reads_enum (by decide) <| (ProtocolError.lawful.reads he.1).bind <| (lawful_str.reads he.2).map
  takes := takes_enum fun n => by
    split
    case h_1 => exact .pure ⟨trivial, Nat.le_refl _⟩
    case h_2 =>
      exact lawful_str.takes.bind fun reason used h => .pure ⟨h.1, by
        simp only [EventBody.put, List.length_append, List.length_nil]
        omega⟩
    case h_3 =>
      exact TerminalInfo.lawful.takes.bind fun info used h => .pure ⟨h.1, by
        simp only [EventBody.put, List.length_append, List.length_nil]
        omega⟩
    case h_4 =>
      exact ProtocolError.lawful.takes.bind fun e u₁ h₁ => lawful_str.takes.bind fun message u₂ h₂ =>
        .pure ⟨⟨h₁.1, h₂.1⟩, by
          simp only [EventBody.put, List.length_append, List.length_nil]
          omega⟩
    case h_5 => exact .throw _

/-! ## Laws of frames -/

theorem FrameBody.lawful : Lawful FrameBody.read FrameBody.put FrameBody.Typed where
  reads {f} hf := by
    cases f with
    | hello body => exact reads_enum (by decide) (Hello.lawful.reads hf).map
    | helloOk body => exact reads_enum (by decide) (HelloOk.lawful.reads hf).map
    | ping nonce => exact reads_enum (by decide) (lawful_uint32.reads hf).map
    | pong nonce => exact reads_enum (by decide) (lawful_uint32.reads hf).map
    | bye reason => exact reads_enum (by decide) (ByeReason.lawful.reads hf).map
    | request body => exact reads_enum (by decide) (RequestFrame.lawful.reads hf).map
    | response body => exact reads_enum (by decide) (ResponseFrame.lawful.reads hf).map
    | streamData frame => exact reads_enum (by decide) (StreamDataFrame.lawful.reads hf).map
    | event event => exact reads_enum (by decide) (EventBody.lawful.reads hf).map
  takes := takes_enum fun n => by
    split
    case h_1 =>
      exact Hello.lawful.takes.bind fun body used h => .pure ⟨h.1, by
        simp only [FrameBody.put, List.length_append, List.length_nil]
        omega⟩
    case h_2 =>
      exact HelloOk.lawful.takes.bind fun body used h => .pure ⟨h.1, by
        simp only [FrameBody.put, List.length_append, List.length_nil]
        omega⟩
    case h_3 | h_4 =>
      exact lawful_uint32.takes.bind fun nonce used h => .pure ⟨h.1, by
        simp only [FrameBody.put, List.length_append, List.length_nil]
        omega⟩
    case h_5 =>
      exact ByeReason.lawful.takes.bind fun reason used h => .pure ⟨h.1, by
        simp only [FrameBody.put, List.length_append, List.length_nil]
        omega⟩
    case h_6 =>
      exact RequestFrame.lawful.takes.bind fun body used h => .pure ⟨h.1, by
        simp only [FrameBody.put, List.length_append, List.length_nil]
        omega⟩
    case h_7 =>
      exact ResponseFrame.lawful.takes.bind fun body used h => .pure ⟨h.1, by
        simp only [FrameBody.put, List.length_append, List.length_nil]
        omega⟩
    case h_8 =>
      exact StreamDataFrame.lawful.takes.bind fun frame used h => .pure ⟨h.1, by
        simp only [FrameBody.put, List.length_append, List.length_nil]
        omega⟩
    case h_9 =>
      exact EventBody.lawful.takes.bind fun body used h => .pure ⟨h.1, by
        simp only [FrameBody.put, List.length_append, List.length_nil]
        omega⟩
    case h_10 => exact .throw _

/-! ## The codec -/

theorem decodeFrame_eq_ok {bytes : List UInt8} {frame : Frame} :
    decodeFrame bytes = .ok frame ↔ ∃ rest, FrameBody.read bytes = .ok (frame.body, rest) := by
  unfold decodeFrame
  rw [Wire.bind_eq_ok]
  constructor
  · rintro ⟨p, hp, h⟩
    cases h
    exact ⟨p.2, hp⟩
  · rintro ⟨rest, h⟩
    exact ⟨(frame.body, rest), h, rfl⟩

theorem decodeFrame_of_reads {used : List UInt8} {frame : Frame} (h : Reads FrameBody.read used frame.body)
    (more : List UInt8) : decodeFrame (used ++ more) = .ok frame := decodeFrame_eq_ok.mpr ⟨more, h more⟩

theorem decodeFrame_typed {frame : FrameBody} (h : frame.Typed) : decodeFrame (encodeFrame ⟨frame⟩) = .ok ⟨frame⟩ :=
  decodeFrame_eq_ok.mpr ⟨[], (FrameBody.lawful.reads h).nil⟩

/-- **A frame that has been written is read back**, whatever stands behind it; no frame begins like another. -/
theorem decodeFrame_encodeFrame : (∀ (frame : Frame) (rest : List UInt8), frame.body.Typed →
      decodeFrame (encodeFrame frame ++ rest) = .ok frame) ∧
    ∀ frame other : Frame, frame.body.Typed → other.body.Typed → encodeFrame frame <+: encodeFrame other →
      frame = other := by
  constructor
  · intro frame rest h
    exact decodeFrame_of_reads (FrameBody.lawful.reads h) rest
  · intro frame other h h' hprefix
    have hbody : frame.body = other.body := FrameBody.lawful.prefix_free h h' hprefix
    obtain ⟨body⟩ := frame
    exact congrArg Frame.mk hbody

/-- Output at the greatest position. -/
def sampleOutput : Frame := ⟨.streamData ⟨3, 2 ^ 64 - 1, some 7, [0x41, 0xff], true⟩⟩

theorem sampleOutput_typed : sampleOutput.body.Typed where
  streamId := by decide
  seq := by decide
  offset n hn := by
    cases hn
    decide
  bytes := by decide

theorem decodeFrame_encodeFrame_output : decodeFrame (encodeFrame sampleOutput ++ [0]) = .ok sampleOutput ∧
    (encodeFrame sampleOutput <+: encodeFrame sampleOutput → sampleOutput = sampleOutput) :=
  ⟨decodeFrame_encodeFrame.1 sampleOutput [0] sampleOutput_typed,
    decodeFrame_encodeFrame.2 sampleOutput sampleOutput sampleOutput_typed sampleOutput_typed⟩

/-- **What is read was well formed**: it is in the fields' ranges, its bytes are no fewer than are written, whatever
follows them is ignored, and no less of them is read. -/
theorem decodeFrame_sound (bytes : List UInt8) (frame : Frame) (h : decodeFrame bytes = .ok frame) :
    frame.body.Typed ∧ ∃ used rest, bytes = used ++ rest ∧ (encodeFrame frame).length ≤ used.length ∧
      (∀ more, decodeFrame (used ++ more) = .ok frame) ∧
      ∀ front, front <+: used → front ≠ used → ∀ other, decodeFrame front ≠ .ok other := by
  obtain ⟨rest, hread⟩ := decodeFrame_eq_ok.mp h
  obtain ⟨used, hsplit, hreads, htyped, hlen⟩ := FrameBody.lawful.takes _ _ _ hread
  refine ⟨htyped, used, rest, hsplit, hlen, decodeFrame_of_reads hreads, fun front hfront hne other hother => ?_⟩
  obtain ⟨rest', hread'⟩ := decodeFrame_eq_ok.mp hother
  exact FrameBody.lawful.takes.cut hreads hfront hne _ hread'

/-- A tag in two bytes, and a byte too many. -/
theorem decodeFrame_sound_ping : (FrameBody.ping 7).Typed ∧ ∃ used rest, [0x82, 0x00, 0x07, 0x09] = used ++ rest ∧
    (encodeFrame ⟨.ping 7⟩).length ≤ used.length ∧ (∀ more, decodeFrame (used ++ more) = .ok ⟨.ping 7⟩) ∧
    ∀ front, front <+: used → front ≠ used → ∀ other, decodeFrame front ≠ .ok other :=
  decodeFrame_sound [0x82, 0x00, 0x07, 0x09] ⟨.ping 7⟩ rfl

end CliPocket
