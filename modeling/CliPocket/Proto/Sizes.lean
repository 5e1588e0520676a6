import CliPocket.Crypto.Noise

/-!
# The sizes of frames

How long the encoding of a frame is, from the sizes of what it carries.

- `length_request`, `length_response`, `length_streamData`: one lemma for each kind of frame;
- `fitsNoise_iff_size`: a frame fits a Noise message when its size does;
- `fitsNoise_ping`: pings and their answers always fit.
-/

namespace CliPocket

open Postcard

/-! ## Sizes -/

/-- The bytes of a number. -/
def uintSize (n : Nat) : Nat := (putUint n).length

/-- The bytes of a text. -/
def textSize (s : String) : Nat := (s.toList.flatMap String.utf8EncodeChar).length

/-- A text with its length. -/
def strSize (s : String) : Nat := uintSize (textSize s) + textSize s

def uuidSize : Nat := 17

def optionSize {α : Type} (size : α → Nat) : Option α → Nat
  | none => 1
  | some a => 1 + size a

def vecSize {α : Type} (size : α → Nat) (elements : List α) : Nat := uintSize elements.length + (elements.map size).sum

/-- What a frame may take in a Noise message. -/
def frameRoom : Nat := noiseMaxMsgLen - noiseTagLen

theorem uintSize_le {n : Nat} (h : n < 2 ^ 64) : uintSize n ≤ 10 := Wire.length_putVarint_le (by omega) (by decide)

@[simp] theorem length_putUint (n : Nat) : (putUint n).length = uintSize n := rfl

@[simp] theorem length_putStr_eq (s : String) : (putStr s).length = strSize s := length_putStr s

@[simp] theorem length_putBytes_eq (run : List UInt8) : (putBytes run).length = uintSize run.length + run.length :=
  length_putBytes run

@[simp] theorem length_putUuid (u : Uuid) : u.put.length = uuidSize := by
  unfold Uuid.put uuidSize
  rw [length_putBytes_eq, u.length_eq]
  rfl

@[simp] theorem length_putOption {α : Type} {put : α → List UInt8} {size : α → Nat} (h : ∀ a, (put a).length = size a)
    (o : Option α) : (putOption put o).length = optionSize size o := by
  cases o with
  | none => rfl
  | some a =>
    show (put a).length + 1 = 1 + size a
    rw [h, Nat.add_comm]

theorem length_putVec {α : Type} {put : α → List UInt8} {size : α → Nat} (h : ∀ a, (put a).length = size a)
    (elements : List α) : (putVec put elements).length = vecSize size elements := by
  unfold putVec vecSize
  rw [List.length_append, length_putUint, List.length_flatMap]
  congr 2
  exact List.map_congr_left fun a _ => h a

/-- The text of two. -/
theorem textSize_append (s t : String) : textSize (s ++ t) = textSize s + textSize t := by
  unfold textSize
  rw [String.toList_append, List.flatMap_append, List.length_append]

/-- A character takes four bytes at most. -/
theorem textSize_le (s : String) : textSize s ≤ 4 * s.length := by
  unfold textSize
  rw [← String.length_toList]
  induction s.toList with
  | nil => exact Nat.le_refl 0
  | cons c cs ih =>
    have hc : (String.utf8EncodeChar c).length ≤ 4 := by
      rw [String.length_utf8EncodeChar]
      exact c.utf8Size_le_four
    rw [List.flatMap_cons, List.length_append, List.length_cons]
    omega

theorem strSize_le {s : String} {n : Nat} (hn : n < 2 ^ 64) (h : textSize s ≤ n) : strSize s ≤ 10 + n := by
  have hlength : uintSize (textSize s) ≤ 10 := uintSize_le (Nat.lt_of_le_of_lt h hn)
  unfold strSize
  omega

/-- A small tag. -/
theorem length_putTag {n : Nat} (h : n < 0x80) : (putTag n).length = 1 := by
  unfold putTag Wire.putVarint Wire.varintBytes
  rw [if_pos h]
  rfl

/-! ## Fields -/

def TerminalInfo.size (i : TerminalInfo) : Nat :=
  uuidSize + uintSize i.cols + uintSize i.rows + uintSize i.createdAtUnixMs + optionSize strSize i.label +
    uintSize i.attachedClients

theorem TerminalInfo.length_put (i : TerminalInfo) : i.put.length = i.size := by
  unfold TerminalInfo.put TerminalInfo.size
  simp only [List.length_append, length_putUuid, length_putUint, length_putOption length_putStr_eq]

def TerminalCreateParams.size (p : TerminalCreateParams) : Nat :=
  uintSize p.cols + uintSize p.rows + optionSize strSize p.cwd + vecSize strSize p.cmd +
    vecSize (fun entry => strSize entry.1 + strSize entry.2) p.env

theorem TerminalCreateParams.length_put (p : TerminalCreateParams) : p.put.length = p.size := by
  unfold TerminalCreateParams.put TerminalCreateParams.size
  have hentry : ∀ entry : String × String,
      (putStr entry.1 ++ putStr entry.2).length = strSize entry.1 + strSize entry.2 := by
    intro entry
    rw [List.length_append, length_putStr_eq, length_putStr_eq]
  simp only [List.length_append, length_putUint, length_putOption length_putStr_eq, length_putVec length_putStr_eq,
    length_putVec hentry]

def ProtocolError.size : ProtocolError → Nat
  | .invalidParam message | .other message => 1 + strSize message
  | _ => 1

theorem ProtocolError.length_put (e : ProtocolError) : e.put.length = e.size := by
  cases e with
  | invalidParam message | other message =>
    unfold ProtocolError.put ProtocolError.size
    simp only [List.length_append, length_putStr_eq]
    rfl
  | _ => rfl

def ResumeToken.size (t : ResumeToken) : Nat :=
  uuidSize + vecSize (fun a : ResumeAttachment => uuidSize + uintSize a.lastSeq) t.attachments

theorem ResumeToken.length_put (t : ResumeToken) : t.put.length = t.size := by
  have hattachment : ∀ a : ResumeAttachment, a.put.length = uuidSize + uintSize a.lastSeq := by
    intro a
    unfold ResumeAttachment.put
    rw [List.length_append, length_putUuid, length_putUint]
  unfold ResumeToken.put ResumeToken.size
  rw [List.length_append, length_putUuid, length_putVec hattachment]

/-! ## Requests -/

def RequestBody.size : RequestBody → Nat
  | .listTerminals | .getServerConfig => 1
  | .createTerminal params => 1 + params.size
  | .openTerminal _ | .killTerminal _ => 1 + uuidSize
  | .readHistory _ before maxBytes => 1 + uuidSize + optionSize uintSize before + uintSize maxBytes
  | .setServerConfig config => 1 + uintSize config.scrollbackBytes
  | .sendInput _ bytes => 1 + uuidSize + (uintSize bytes.length + bytes.length)
  | .resizeTerminal _ cols rows => 1 + uuidSize + uintSize cols + uintSize rows

theorem RequestBody.length_put (b : RequestBody) : b.put.length = b.size := by
  cases b with
  | listTerminals | getServerConfig => rfl
  | createTerminal params =>
    unfold RequestBody.put RequestBody.size
    rw [List.length_append, length_putTag (by decide), params.length_put]
  | openTerminal terminalId | killTerminal terminalId =>
    unfold RequestBody.put RequestBody.size
    rw [List.length_append, length_putTag (by decide), length_putUuid]
  | readHistory terminalId before maxBytes =>
    unfold RequestBody.put RequestBody.size
    rw [List.length_append, List.length_append, List.length_append, length_putTag (by decide), length_putUuid,
      length_putOption length_putUint, length_putUint]
  | setServerConfig config =>
    unfold RequestBody.put RequestBody.size ServerConfig.put
    rw [List.length_append, length_putTag (by decide), length_putUint]
  | sendInput terminalId bytes =>
    unfold RequestBody.put RequestBody.size
    rw [List.length_append, List.length_append, length_putTag (by decide), length_putUuid, length_putBytes_eq]
  | resizeTerminal terminalId cols rows =>
    unfold RequestBody.put RequestBody.size
    rw [List.length_append, List.length_append, List.length_append, length_putTag (by decide), length_putUuid,
      length_putUint, length_putUint]

/-! ## Responses -/

def OpenTerminalAck.size (a : OpenTerminalAck) : Nat :=
  uintSize a.streamId + a.info.size + uintSize a.startSeq + uintSize a.endSeq +
    (uintSize a.renderBytes.length + a.renderBytes.length) + 1

def HistoryPage.size (p : HistoryPage) : Nat :=
  uuidSize + uintSize p.startSeq + uintSize p.endSeq + (uintSize p.bytes.length + p.bytes.length) + 1

def ResponseBody.size : ResponseBody → Nat
  | .listTerminals terminals => 1 + vecSize TerminalInfo.size terminals
  | .createTerminal info => 1 + info.size
  | .openTerminal ack => 1 + ack.size
  | .readHistory page => 1 + page.size
  | .getServerConfig config | .setServerConfig config => 1 + uintSize config.scrollbackBytes
  | .killTerminal | .sendInput | .resizeTerminal => 1

theorem ResponseBody.length_put (b : ResponseBody) : b.put.length = b.size := by
  cases b with
  | listTerminals terminals =>
    unfold ResponseBody.put ResponseBody.size
    rw [List.length_append, length_putTag (by decide), length_putVec TerminalInfo.length_put]
  | createTerminal info =>
    unfold ResponseBody.put ResponseBody.size
    rw [List.length_append, length_putTag (by decide), info.length_put]
  | openTerminal ack =>
    unfold ResponseBody.put ResponseBody.size OpenTerminalAck.put OpenTerminalAck.size
    simp only [List.length_append, length_putTag (show 2 < 0x80 by decide), length_putUint, TerminalInfo.length_put,
      length_putBytes_eq, length_putBool]
  | readHistory page =>
    unfold ResponseBody.put ResponseBody.size HistoryPage.put HistoryPage.size
    simp only [List.length_append, length_putTag (show 3 < 0x80 by decide), length_putUuid, length_putUint,
      length_putBytes_eq, length_putBool]
  | getServerConfig config | setServerConfig config =>
    unfold ResponseBody.put ResponseBody.size ServerConfig.put
    rw [List.length_append, length_putTag (by decide), length_putUint]
  | killTerminal | sendInput | resizeTerminal => rfl

/-- An error with its text. -/
def ResponseError.size (e : ResponseError) : Nat := e.code.size + strSize e.message

def ResponseFrame.size (r : ResponseFrame) : Nat :=
  uintSize r.id + 1 +
    match r.result with
    | .ok body => body.size
    | .error error => error.size

theorem ResponseFrame.length_put (r : ResponseFrame) : r.put.length = r.size := by
  obtain ⟨id, error | body⟩ := r
  · unfold ResponseFrame.put ResponseFrame.size ResponseError.put ResponseError.size
    simp only [List.length_append, length_putTag (show 1 < 0x80 by decide), length_putUint, ProtocolError.length_put,
      length_putStr_eq]
    rw [Nat.add_assoc (uintSize id)]
  · unfold ResponseFrame.put ResponseFrame.size
    simp only [List.length_append, length_putTag (show 0 < 0x80 by decide), length_putUint, ResponseBody.length_put]
    rw [Nat.add_assoc (uintSize id)]

/-! ## Frames -/

theorem length_request (r : RequestFrame) : (encodeFrame ⟨.request r⟩).length = 1 + uintSize r.id + r.body.size := by
  unfold encodeFrame FrameBody.put RequestFrame.put
  rw [List.length_append, List.length_append, length_putTag (by decide), length_putUint, RequestBody.length_put,
    Nat.add_assoc]

theorem length_response (r : ResponseFrame) : (encodeFrame ⟨.response r⟩).length = 1 + r.size := by
  unfold encodeFrame FrameBody.put
  rw [List.length_append, length_putTag (by decide), ResponseFrame.length_put]

theorem length_streamData (f : StreamDataFrame) : (encodeFrame ⟨.streamData f⟩).length =
    1 + uintSize f.streamId + uintSize f.seq + optionSize uintSize f.offset + (uintSize f.bytes.length + f.bytes.length) +
      1 := by
  unfold encodeFrame FrameBody.put StreamDataFrame.put
  simp only [List.length_append, length_putTag (show 7 < 0x80 by decide), length_putUint, length_putOption length_putUint,
    length_putBytes_eq, length_putBool]
  omega

theorem length_hello (h : Hello) : (encodeFrame ⟨.hello h⟩).length =
    1 + uintSize h.protocolMin + uintSize h.protocolMax + optionSize ResumeToken.size h.resume := by
  unfold encodeFrame FrameBody.put Hello.put
  simp only [List.length_append, length_putTag (show 0 < 0x80 by decide), length_putUint,
    length_putOption ResumeToken.length_put]
  omega

/-- **A frame fits when its size does.** -/
theorem fitsNoise_iff_size {frame : FrameBody} {size : Nat} (h : (encodeFrame ⟨frame⟩).length = size) :
    fitsNoise frame ↔ size ≤ frameRoom := by
  unfold fitsNoise frameRoom noiseMaxMsgLen noiseTagLen
  rw [h]
  omega

/-- Pings and their answers. -/
theorem fitsNoise_ping {nonce : Nat} (h : nonce < 2 ^ 64) : fitsNoise (.ping nonce) ∧ fitsNoise (.pong nonce) := by
  have hlength : ∀ tag < 0x80, (putTag tag ++ putUint nonce).length ≤ 11 := by
    intro tag htag
    have hnonce := uintSize_le h
    rw [List.length_append, length_putTag htag, length_putUint]
    omega
  refine ⟨(fitsNoise_iff_size rfl).mpr ?_, (fitsNoise_iff_size rfl).mpr ?_⟩
  · exact Nat.le_trans (hlength 2 (by decide)) (by decide)
  · exact Nat.le_trans (hlength 3 (by decide)) (by decide)

end CliPocket
