import CliPocket.Proto.Frame
import CliPocket.Proto.Relay

/-!
# The codec of frames

The postcard layout of the derived encoders.

- `encodeFrame`: what goes into a Noise message.
-/

namespace CliPocket

open Postcard

/-! ## Fields -/

def ProtocolError.put : ProtocolError → List UInt8
  | .unknownTerminal => putTag 0
  | .unauthorized => putTag 1
  | .backpressureExceeded => putTag 2
  | .protocolMismatch => putTag 3
  | .resourceExhausted => putTag 4
  | .invalidParam message => putTag 5 ++ putStr message
  | .resumeStale => putTag 6
  | .rateLimited => putTag 7
  | .other message => putTag 8 ++ putStr message

def ByeReason.put : ByeReason → List UInt8
  | .normal => putTag 0
  | .revoked => putTag 1
  | .serverShutdown => putTag 2
  | .protocolError error => putTag 3 ++ error.put

def TerminalCreateParams.put (p : TerminalCreateParams) : List UInt8 :=
  putUint p.cols ++ putUint p.rows ++ putOption putStr p.cwd ++ putVec putStr p.cmd ++
    putVec (fun entry => putStr entry.1 ++ putStr entry.2) p.env

def ServerConfig.put (c : ServerConfig) : List UInt8 := putUint c.scrollbackBytes

def TerminalInfo.put (i : TerminalInfo) : List UInt8 :=
  i.terminal.uuid.put ++ putUint i.cols ++ putUint i.rows ++ putUint i.createdAtUnixMs ++ putOption putStr i.label ++
    putUint i.attachedClients

/-! ## Hello -/

def ResumeAttachment.put (a : ResumeAttachment) : List UInt8 := a.terminal.uuid.put ++ putUint a.lastSeq

def ResumeToken.put (t : ResumeToken) : List UInt8 := t.sessionId.uuid.put ++ putVec ResumeAttachment.put t.attachments

def Hello.put (h : Hello) : List UInt8 :=
  putUint h.protocolMin ++ putUint h.protocolMax ++ putOption ResumeToken.put h.resume

def ServerInfo.put (i : ServerInfo) : List UInt8 := putStr i.serverVersion ++ putOption putStr i.serverLabel

def HelloOk.put (h : HelloOk) : List UInt8 :=
  putUint h.protocol ++ h.serverInfo.put ++ h.sessionId.uuid.put ++ putBool h.resumed

/-! ## Requests and responses -/

def RequestBody.put : RequestBody → List UInt8
  | .listTerminals => putTag 0
  | .createTerminal params => putTag 1 ++ params.put
  | .openTerminal terminalId => putTag 2 ++ terminalId.uuid.put
  | .readHistory terminalId before maxBytes =>
    putTag 3 ++ terminalId.uuid.put ++ putOption putUint before ++ putUint maxBytes
  | .killTerminal terminalId => putTag 4 ++ terminalId.uuid.put
  | .getServerConfig => putTag 5
  | .setServerConfig config => putTag 6 ++ config.put
  | .sendInput terminalId bytes => putTag 7 ++ terminalId.uuid.put ++ putBytes bytes
  | .resizeTerminal terminalId cols rows => putTag 8 ++ terminalId.uuid.put ++ putUint cols ++ putUint rows

def RequestFrame.put (r : RequestFrame) : List UInt8 := putUint r.id ++ r.body.put

def OpenTerminalAck.put (a : OpenTerminalAck) : List UInt8 :=
  putUint a.streamId ++ a.info.put ++ putUint a.startSeq ++ putUint a.endSeq ++ putBytes a.renderBytes ++
    putBool a.hasMoreHistory

def HistoryPage.put (p : HistoryPage) : List UInt8 :=
  p.terminalId.uuid.put ++ putUint p.startSeq ++ putUint p.endSeq ++ putBytes p.bytes ++ putBool p.hasMore

def ResponseBody.put : ResponseBody → List UInt8
  | .listTerminals terminals => putTag 0 ++ putVec TerminalInfo.put terminals
  | .createTerminal info => putTag 1 ++ info.put
  | .openTerminal ack => putTag 2 ++ ack.put
  | .readHistory page => putTag 3 ++ page.put
  | .killTerminal => putTag 4
  | .getServerConfig config => putTag 5 ++ config.put
  | .setServerConfig config => putTag 6 ++ config.put
  | .sendInput => putTag 7
  | .resizeTerminal => putTag 8

def ResponseError.put (e : ResponseError) : List UInt8 := e.code.put ++ putStr e.message

def ResponseFrame.put (r : ResponseFrame) : List UInt8 :=
  putUint r.id ++
    match r.result with
    | .ok body => putTag 0 ++ body.put
    | .error error => putTag 1 ++ error.put

def StreamDataFrame.put (f : StreamDataFrame) : List UInt8 :=
  putUint f.streamId ++ putUint f.seq ++ putOption putUint f.offset ++ putBytes f.bytes ++ putBool f.last

def EventBody.put : EventBody → List UInt8
  | .connected => putTag 0
  | .disconnected reason => putTag 1 ++ putStr reason
  | .terminalCreated info => putTag 2 ++ info.put
  | .error e message => putTag 3 ++ e.put ++ putStr message

/-! ## Frames -/

def FrameBody.put : FrameBody → List UInt8
  | .hello body => putTag 0 ++ body.put
  | .helloOk body => putTag 1 ++ body.put
  | .ping nonce => putTag 2 ++ putUint nonce
  | .pong nonce => putTag 3 ++ putUint nonce
  | .bye reason => putTag 4 ++ reason.put
  | .request body => putTag 5 ++ body.put
  | .response body => putTag 6 ++ body.put
  | .streamData frame => putTag 7 ++ frame.put
  | .event ⟨body⟩ => putTag 8 ++ body.put

def encodeFrame (frame : Frame) : List UInt8 := frame.body.put

end CliPocket
