import CliPocket.Lib.Utf16
import CliPocket.Relay.WorkerCodec

/-!
# Between the two relay codecs

The worker holds identifiers and texts as JavaScript strings, sequences of UTF-16 code units. Its codec makes sixteen
bytes of an identifier and UTF-8 of a text, and back.

- `uuidToBytes_bytesToUuid`: the text of a UUID stands for that UUID;
- `encodeRelay_eq_ok`: what the worker encodes is the encoding of a `RelayCtrl` or `RelayData`;
- `decodeRelay_encode`: what the worker makes of such an encoding;
- `codecs_interoperate`: **which messages come through**, in both directions.
-/

namespace CliPocket

namespace Worker

/-! ## Identifiers -/

abbrev JsString := List UInt16

def hyphen : UInt16 := 0x2d

def slice (s : JsString) (start stop : Nat) : JsString := (s.take stop).drop start

def hexDigit (n : Nat) : UInt16 := UInt16.ofNat (Nat.digitChar n).toNat

/-- `value.toString(16).padStart(2, "0")`. -/
def hexByte (b : UInt8) : JsString := [hexDigit (b.toNat / 16), hexDigit (b.toNat % 16)]

def bytesToUuid (bytes : List UInt8) : JsString :=
  let hex := bytes.flatMap hexByte
  slice hex 0 8 ++ [hyphen] ++ slice hex 8 12 ++ [hyphen] ++ slice hex 12 16 ++ [hyphen] ++ slice hex 16 20 ++ [hyphen] ++
    slice hex 20 32

/-- What JavaScript trims. -/
def isSpace (u : UInt16) : Bool :=
  u ∈ [0x09, 0x0a, 0x0b, 0x0c, 0x0d, 0x20, 0xa0, 0x1680, 0x2000, 0x2001, 0x2002, 0x2003, 0x2004, 0x2005, 0x2006, 0x2007,
    0x2008, 0x2009, 0x200a, 0x2028, 0x2029, 0x202f, 0x205f, 0x3000, 0xfeff]

def hexVal (u : UInt16) : Option Nat :=
  if 0x30 ≤ u ∧ u ≤ 0x39 then some (u.toNat - 0x30)
  else if 0x61 ≤ u ∧ u ≤ 0x66 then some (u.toNat - 0x57)
  else if 0x41 ≤ u ∧ u ≤ 0x46 then some (u.toNat - 0x37)
  else none

/-- `Number.parseInt(s, 16)` of a string without a hyphen; `none` is `NaN`. -/
def parseInt16 (s : JsString) : Option Nat :=
  let s := s.dropWhile isSpace
  let s := if s.take 1 = [0x2b] then s.drop 1 else s
  let s := if s.take 2 = [0x30, 0x78] ∨ s.take 2 = [0x30, 0x58] then s.drop 2 else s
  let digits := s.takeWhile fun u => (hexVal u).isSome
  if digits = [] then none else some (digits.foldl (fun n u => n * 16 + (hexVal u).getD 0) 0)

/-- A `Uint8Array` of sixteen; `NaN` is stored as zero. -/
def uuidToBytes (uuid : JsString) : List UInt8 :=
  let compact := uuid.filter fun u => u ≠ hyphen
  (List.range 16).map fun index => UInt8.ofNat ((parseInt16 (slice compact (index * 2) (index * 2 + 2))).getD 0)

theorem length_uuidToBytes (uuid : JsString) : (uuidToBytes uuid).length = 16 := by
  simp [uuidToBytes]

theorem parseInt16_digits : ∀ hi < 16, ∀ lo < 16, parseInt16 [hexDigit hi, hexDigit lo] = some (hi * 16 + lo) := by
  decide +kernel

theorem parseInt16_hexByte (b : UInt8) : parseInt16 (hexByte b) = some b.toNat := by
  have hb := b.toNat_lt
  have h := parseInt16_digits (b.toNat / 16) (by omega) (b.toNat % 16) (by omega)
  rwa [Nat.div_add_mod' b.toNat 16] at h

theorem hexDigit_ne_hyphen : ∀ n < 16, hexDigit n ≠ hyphen := by
  decide

theorem length_hex (bytes : List UInt8) : (bytes.flatMap hexByte).length = bytes.length * 2 := by
  induction bytes with
  | nil => rfl
  | cons b bytes ih =>
    rw [List.flatMap_cons, List.length_append, ih, List.length_cons]
    simp only [hexByte, List.length_cons, List.length_nil]
    omega

theorem hyphen_not_mem_hex (bytes : List UInt8) : ∀ u ∈ bytes.flatMap hexByte, u ≠ hyphen := by
  intro u hu
  obtain ⟨b, _, hu⟩ := List.mem_flatMap.mp hu
  have hb := b.toNat_lt
  simp only [hexByte, List.mem_cons, List.not_mem_nil, or_false] at hu
  rcases hu with rfl | rfl
  · exact hexDigit_ne_hyphen _ (by omega)
  · exact hexDigit_ne_hyphen _ (by omega)

/-- Two digits a byte. -/
theorem slice_hex : ∀ {bytes : List UInt8} {index : Nat} (h : index < bytes.length),
    slice (bytes.flatMap hexByte) (index * 2) (index * 2 + 2) = hexByte bytes[index]
  | b :: bytes, 0, _ => rfl
  | b :: bytes, index + 1, h => by
    have ih := @slice_hex bytes index (Nat.lt_of_succ_lt_succ h)
    have htwo : ∀ (x y : UInt16) (s : JsString) (n : Nat), slice (x :: y :: s) ((n + 1) * 2) ((n + 1) * 2 + 2) =
        slice s (n * 2) (n * 2 + 2) := by
      intro x y s n
      unfold slice
      rw [show (n + 1) * 2 + 2 = n * 2 + 2 + 1 + 1 by omega, show (n + 1) * 2 = n * 2 + 1 + 1 by omega]
      rfl
    rw [List.flatMap_cons, hexByte, List.cons_append, List.cons_append, List.nil_append, htwo, ih]
    rfl

theorem take_append_slice (s : JsString) {start stop : Nat} (h : start ≤ stop) :
    s.take start ++ slice s start stop = s.take stop := by
  unfold slice
  rw [List.drop_take]
  conv_rhs => rw [← Nat.add_sub_cancel' h, List.take_add]

theorem filter_slice {s : JsString} (hs : ∀ u ∈ s, u ≠ hyphen) (start stop : Nat) :
    (slice s start stop).filter (fun u => u ≠ hyphen) = slice s start stop := by
  refine List.filter_eq_self.mpr fun u hu => decide_eq_true (hs u ?_)
  exact List.mem_of_mem_take (List.mem_of_mem_drop hu)

/-- Without its hyphens the text of a UUID is its digits. -/
theorem compact_bytesToUuid {bytes : List UInt8} (h : bytes.length = 16) :
    (bytesToUuid bytes).filter (fun u => u ≠ hyphen) = bytes.flatMap hexByte := by
  have hlen : (bytes.flatMap hexByte).length = 32 := by rw [length_hex, h]
  have hfilter := filter_slice (hyphen_not_mem_hex bytes)
  have hhyphen : [hyphen].filter (fun u => u ≠ hyphen) = [] := by decide
  have hzero : slice (bytes.flatMap hexByte) 0 8 = (bytes.flatMap hexByte).take 8 := rfl
  unfold bytesToUuid
  simp only [List.filter_append, hfilter, hhyphen, List.append_nil]
  rw [hzero, take_append_slice _ (by decide), take_append_slice _ (by decide), take_append_slice _ (by decide),
    take_append_slice _ (by decide), List.take_of_length_le (by omega)]

/-- **The text of a UUID stands for that UUID.** -/
theorem uuidToBytes_bytesToUuid {bytes : List UInt8} (h : bytes.length = 16) :
    uuidToBytes (bytesToUuid bytes) = bytes := by
  have hmap : uuidToBytes (bytesToUuid bytes) = (List.range 16).map fun index =>
      UInt8.ofNat ((parseInt16 (slice (bytes.flatMap hexByte) (index * 2) (index * 2 + 2))).getD 0) := by
    unfold uuidToBytes
    simp only [compact_bytesToUuid h]
  rw [hmap]
  apply List.ext_getElem
  · rw [List.length_map, List.length_range, h]
  · intro index hindex hindex'
    rw [List.getElem_map, List.getElem_range, slice_hex hindex', parseInt16_hexByte, Option.getD_some,
      UInt8.ofNat_toNat]

/-! ## Messages as the worker holds them -/

inductive JsReason
  | normal
  | serverGone
  | clientGone
  | stuck
  | relayShutdown
  | rejected (message : JsString)
  deriving DecidableEq

inductive JsMessage
  | serverRegister (serverId : JsString)
  | serverRegisterOk
  | serverRegisterErr (reason : JsString)
  | serverHeartbeat
  | clientConnect (serverId : JsString)
  | pairInbound (pairId : JsString)
  | pairOpen (pairId : JsString)
  | pairClose (pairId : JsString) (reason : JsReason)
  | dataForward (pairId : JsString) (bytes : List UInt8)
  deriving DecidableEq

/-- The sixteen bytes that `encodeUuid` writes. -/
def uuidOf (uuid : JsString) : Uuid := ⟨uuidToBytes uuid, length_uuidToBytes uuid⟩

/-- The text whose UTF-8 the `TextEncoder` writes. -/
def textOf (value : JsString) : String := String.ofList (Utf16.decode value)

def JsReason.lower : JsReason → CloseReason
  | .normal => .normal
  | .serverGone => .serverGone
  | .clientGone => .clientGone
  | .stuck => .stuck
  | .relayShutdown => .relayShutdown
  | .rejected message => .rejected (textOf message)

def JsMessage.lower : JsMessage → RelayMessage
  | .serverRegister serverId => .serverRegister ⟨uuidOf serverId⟩
  | .serverRegisterOk => .serverRegisterOk
  | .serverRegisterErr reason => .serverRegisterErr (textOf reason)
  | .serverHeartbeat => .serverHeartbeat
  | .clientConnect serverId => .clientConnect ⟨uuidOf serverId⟩
  | .pairInbound pairId => .pairInbound ⟨uuidOf pairId⟩
  | .pairOpen pairId => .pairOpen ⟨uuidOf pairId⟩
  | .pairClose pairId reason => .pairClose ⟨uuidOf pairId⟩ reason.lower
  | .dataForward pairId bytes => .dataForward ⟨uuidOf pairId⟩ bytes

def jsReason : CloseReason → JsReason
  | .normal => .normal
  | .serverGone => .serverGone
  | .clientGone => .clientGone
  | .stuck => .stuck
  | .relayShutdown => .relayShutdown
  | .rejected message => .rejected (Utf16.encode message)

/-- What `decodeRelay` returns: `bytesToUuid` of the identifiers, and decoded texts. -/
def jsMessage : RelayMessage → JsMessage
  | .serverRegister serverId => .serverRegister (bytesToUuid serverId.uuid.bytes)
  | .serverRegisterOk => .serverRegisterOk
  | .serverRegisterErr reason => .serverRegisterErr (Utf16.encode reason)
  | .serverHeartbeat => .serverHeartbeat
  | .clientConnect serverId => .clientConnect (bytesToUuid serverId.uuid.bytes)
  | .pairInbound pairId => .pairInbound (bytesToUuid pairId.uuid.bytes)
  | .pairOpen pairId => .pairOpen (bytesToUuid pairId.uuid.bytes)
  | .pairClose pairId reason => .pairClose (bytesToUuid pairId.uuid.bytes) (jsReason reason)
  | .dataForward pairId bytes => .dataForward (bytesToUuid pairId.uuid.bytes) bytes

def JsMessage.encodeRelay (message : JsMessage) : Except String (List UInt8) := Worker.encodeRelay message.lower

def JsMessage.decodeRelay (bytes : List UInt8) : Except String JsMessage := (Worker.decodeRelay bytes).map jsMessage

/-- The text of a UUID: lower-case, with hyphens. -/
def IsUuid (s : JsString) : Prop := ∃ u : Uuid, s = bytesToUuid u.bytes

/-- A text: no surrogate without its partner. -/
def IsText (s : JsString) : Prop := ∃ text : String, s = Utf16.encode text

/-- Identifiers are texts of UUIDs, and texts are well formed. -/
def JsMessage.Canonical : JsMessage → Prop
  | .serverRegister id | .clientConnect id | .pairInbound id | .pairOpen id | .dataForward id _ => IsUuid id
  | .pairClose id (.rejected message) => IsUuid id ∧ IsText message
  | .pairClose id _ => IsUuid id
  | .serverRegisterErr reason => IsText reason
  | .serverRegisterOk | .serverHeartbeat => True

theorem uuidOf_bytesToUuid (u : Uuid) : uuidOf (bytesToUuid u.bytes) = u := by
  obtain ⟨bytes, h⟩ := u
  unfold uuidOf
  simp only [uuidToBytes_bytesToUuid h]

theorem textOf_encode (s : String) : textOf (Utf16.encode s) = s := by
  unfold textOf
  rw [Utf16.decode_encode, String.ofList_toList]

/-- An identifier comes back as it was if it is the text of a UUID. -/
theorem bytesToUuid_uuidOf {s : JsString} : bytesToUuid (uuidOf s).bytes = s ↔ IsUuid s := by
  constructor
  · intro h
    exact ⟨uuidOf s, h.symm⟩
  · rintro ⟨u, rfl⟩
    rw [uuidOf_bytesToUuid]

theorem encode_textOf {s : JsString} : Utf16.encode (textOf s) = s ↔ IsText s := by
  constructor
  · intro h
    exact ⟨textOf s, h.symm⟩
  · rintro ⟨text, rfl⟩
    rw [textOf_encode]

theorem jsMessage_lower (m : JsMessage) : jsMessage m.lower = m ↔ m.Canonical := by
  cases m with
  | pairClose id reason =>
    cases reason with
    | rejected message =>
      simp only [JsMessage.lower, JsReason.lower, jsMessage, jsReason, JsMessage.pairClose.injEq, JsReason.rejected.injEq,
        bytesToUuid_uuidOf, encode_textOf, JsMessage.Canonical]
    | _ =>
      simp only [JsMessage.lower, JsReason.lower, jsMessage, jsReason, JsMessage.pairClose.injEq, bytesToUuid_uuidOf,
        JsMessage.Canonical, and_true]
  | serverRegisterErr reason =>
    simp only [JsMessage.lower, jsMessage, JsMessage.serverRegisterErr.injEq, encode_textOf, JsMessage.Canonical]
  | serverRegisterOk => simp only [JsMessage.lower, jsMessage, JsMessage.Canonical]
  | serverHeartbeat => simp only [JsMessage.lower, jsMessage, JsMessage.Canonical]
  | serverRegister id =>
    simp only [JsMessage.lower, jsMessage, JsMessage.serverRegister.injEq, bytesToUuid_uuidOf, JsMessage.Canonical]
  | clientConnect id =>
    simp only [JsMessage.lower, jsMessage, JsMessage.clientConnect.injEq, bytesToUuid_uuidOf, JsMessage.Canonical]
  | pairInbound id =>
    simp only [JsMessage.lower, jsMessage, JsMessage.pairInbound.injEq, bytesToUuid_uuidOf, JsMessage.Canonical]
  | pairOpen id =>
    simp only [JsMessage.lower, jsMessage, JsMessage.pairOpen.injEq, bytesToUuid_uuidOf, JsMessage.Canonical]
  | dataForward id bytes =>
    simp only [JsMessage.lower, jsMessage, JsMessage.dataForward.injEq, bytesToUuid_uuidOf, JsMessage.Canonical, and_true]

theorem jsReason_injective {r r' : CloseReason} (h : jsReason r = jsReason r') : r = r' := by
  cases r <;> cases r' <;> simp only [jsReason, reduceCtorEq, JsReason.rejected.injEq] at h ⊢
  rw [Utf16.encode_injective h]

theorem bytesToUuid_injective {u v : Uuid} (h : bytesToUuid u.bytes = bytesToUuid v.bytes) : u = v := by
  have hu := uuidOf_bytesToUuid u
  rw [h, uuidOf_bytesToUuid] at hu
  exact hu.symm

theorem jsMessage_injective {m m' : RelayMessage} (h : jsMessage m = jsMessage m') : m = m' := by
  have hlower : ∀ m : RelayMessage, (jsMessage m).lower = m := by
    intro m
    cases m with
    | pairClose id reason =>
      cases reason <;> simp only [jsMessage, jsReason, JsMessage.lower, JsReason.lower, uuidOf_bytesToUuid, textOf_encode]
    | _ => simp only [jsMessage, JsMessage.lower, uuidOf_bytesToUuid, textOf_encode]
  rw [← hlower m, h, hlower]

/-! ## From the worker to Rust -/

/-- The message without what the worker does not look at. -/
def message : RelayWire → RelayMessage
  | .ctrl (.serverRegister serverId _ _) => .serverRegister serverId
  | .ctrl .serverRegisterOk => .serverRegisterOk
  | .ctrl (.serverRegisterErr reason) => .serverRegisterErr reason
  | .ctrl .serverHeartbeat => .serverHeartbeat
  | .ctrl (.clientConnect serverId) => .clientConnect serverId
  | .ctrl (.pairInbound pairId) => .pairInbound pairId
  | .ctrl (.pairOpen pairId) => .pairOpen pairId
  | .ctrl (.pairClose pairId reason) => .pairClose pairId reason
  | .data (.forward pairId bytes) => .dataForward pairId bytes

theorem encodeVarint_eq_ok {n : Nat} {bytes : List UInt8} :
    encodeVarint n = .ok bytes ↔ n ≤ maxSafeInteger ∧ bytes = Wire.putVarint n := by
  unfold encodeVarint
  constructor
  · intro h
    split at h
    · cases h
    · next hn =>
      cases h
      exact ⟨Nat.le_of_not_lt hn, rfl⟩
  · rintro ⟨hn, rfl⟩
    rw [if_neg (Nat.not_lt.mpr hn)]

theorem encodeByteArray_eq_ok {run bytes : List UInt8} :
    encodeByteArray run = .ok bytes ↔ run.length ≤ maxSafeInteger ∧ bytes = Wire.putBytes run := by
  unfold encodeByteArray
  rw [Wire.bind_eq_ok]
  constructor
  · rintro ⟨length, hlength, h⟩
    obtain ⟨hle, rfl⟩ := encodeVarint_eq_ok.mp hlength
    cases h
    exact ⟨hle, rfl⟩
  · rintro ⟨hle, rfl⟩
    exact ⟨_, encodeVarint_eq_ok.mpr ⟨hle, rfl⟩, rfl⟩

theorem encodeUuid_eq_ok {u : Uuid} {bytes : List UInt8} : encodeUuid u = .ok bytes ↔ bytes = u.put := by
  unfold encodeUuid
  rw [encodeByteArray_eq_ok, u.length_eq]
  constructor
  · rintro ⟨_, rfl⟩
    rfl
  · rintro rfl
    exact ⟨by decide, rfl⟩

theorem encodePairCloseReason_eq_ok {reason : CloseReason} {bytes : List UInt8}
    (h : encodePairCloseReason reason = .ok bytes) (pairId : PairId) :
    RelayWire.Within (2 ^ 53) (.ctrl (.pairClose pairId reason)) ∧ bytes = reason.put := by
  cases reason with
  | rejected message =>
    simp only [encodePairCloseReason, Wire.bind_eq_ok] at h
    obtain ⟨tag, htag, text, htext, h⟩ := h
    obtain ⟨_, rfl⟩ := encodeVarint_eq_ok.mp htag
    obtain ⟨hle, rfl⟩ := encodeByteArray_eq_ok.mp htext
    cases h
    exact ⟨Nat.lt_succ_of_le hle, rfl⟩
  | _ => exact ⟨trivial, (encodeVarint_eq_ok.mp h).2⟩

/-- **What the worker encodes is the encoding of a relay message**, with a length each that fits. -/
theorem encodeRelay_eq_ok {m : RelayMessage} {bytes : List UInt8} (h : encodeRelay m = .ok bytes) :
    ∃ w : RelayWire, message w = m ∧ w.Within (2 ^ 53) ∧ bytes = w.encode := by
  cases m with
  | serverRegister | serverHeartbeat | clientConnect => cases h
  | serverRegisterOk =>
    simp only [encodeRelay, Wire.bind_eq_ok] at h
    obtain ⟨kind, hkind, h⟩ := h
    obtain ⟨_, rfl⟩ := encodeVarint_eq_ok.mp hkind
    cases h
    exact ⟨.ctrl .serverRegisterOk, rfl, trivial, rfl⟩
  | serverRegisterErr reason =>
    simp only [encodeRelay, Wire.bind_eq_ok] at h
    obtain ⟨kind, hkind, text, htext, h⟩ := h
    obtain ⟨_, rfl⟩ := encodeVarint_eq_ok.mp hkind
    obtain ⟨hle, rfl⟩ := encodeByteArray_eq_ok.mp htext
    cases h
    exact ⟨.ctrl (.serverRegisterErr reason), rfl, Nat.lt_succ_of_le hle, rfl⟩
  | pairInbound pairId =>
    simp only [encodeRelay, Wire.bind_eq_ok] at h
    obtain ⟨kind, hkind, uuid, huuid, h⟩ := h
    obtain ⟨_, rfl⟩ := encodeVarint_eq_ok.mp hkind
    obtain rfl := encodeUuid_eq_ok.mp huuid
    cases h
    exact ⟨.ctrl (.pairInbound pairId), rfl, trivial, rfl⟩
  | pairOpen pairId =>
    simp only [encodeRelay, Wire.bind_eq_ok] at h
    obtain ⟨kind, hkind, uuid, huuid, h⟩ := h
    obtain ⟨_, rfl⟩ := encodeVarint_eq_ok.mp hkind
    obtain rfl := encodeUuid_eq_ok.mp huuid
    cases h
    exact ⟨.ctrl (.pairOpen pairId), rfl, trivial, rfl⟩
  | pairClose pairId reason =>
    simp only [encodeRelay, Wire.bind_eq_ok] at h
    obtain ⟨kind, hkind, uuid, huuid, why, hwhy, h⟩ := h
    obtain ⟨_, rfl⟩ := encodeVarint_eq_ok.mp hkind
    obtain rfl := encodeUuid_eq_ok.mp huuid
    obtain ⟨hwithin, rfl⟩ := encodePairCloseReason_eq_ok hwhy pairId
    cases h
    exact ⟨.ctrl (.pairClose pairId reason), rfl, hwithin, rfl⟩
  | dataForward pairId payload =>
    simp only [encodeRelay, Wire.bind_eq_ok] at h
    obtain ⟨kind, hkind, uuid, huuid, run, hrun, h⟩ := h
    obtain ⟨_, rfl⟩ := encodeVarint_eq_ok.mp hkind
    obtain rfl := encodeUuid_eq_ok.mp huuid
    obtain ⟨hle, rfl⟩ := encodeByteArray_eq_ok.mp hrun
    cases h
    exact ⟨.data (.forward pairId payload), rfl, Nat.lt_succ_of_le hle, rfl⟩

/-! ## From Rust to the worker -/

/-- The text of a message. -/
def RelayMessage.text : RelayMessage → Option String
  | .serverRegisterErr reason => some reason
  | .pairClose _ (.rejected message) => some message
  | _ => none

def RelayMessage.mapText (f : String → String) : RelayMessage → RelayMessage
  | .serverRegisterErr reason => .serverRegisterErr (f reason)
  | .pairClose pairId (.rejected message) => .pairClose pairId (.rejected (f message))
  | m => m

/-- The text of the message begins with a byte order mark. -/
def RelayMessage.Marked (m : RelayMessage) : Prop := ∃ s, m.text = some s ∧ s.toList.head? = some '\ufeff'

theorem mapText_eq_self {f : String → String} {m : RelayMessage} :
    m.mapText f = m ↔ ∀ s, m.text = some s → f s = s := by
  cases m with
  | serverRegisterErr reason => simp [RelayMessage.mapText, RelayMessage.text]
  | pairClose pairId reason => cases reason <;> simp [RelayMessage.mapText, RelayMessage.text]
  | _ => simp [RelayMessage.mapText, RelayMessage.text]

theorem textDecoder_eq_self {s : String} :
    Utf8.textDecoder (Utf8.encode s) = s ↔ s.toList.head? ≠ some '\ufeff' := by
  rw [Utf8.textDecoder_encode]
  constructor
  · intro h hmark
    rw [if_pos hmark] at h
    have hlen := congrArg (fun t => t.toList.length) h
    obtain ⟨cs, hcs⟩ := List.head?_eq_some_iff.mp hmark
    simp only [String.toList_ofList, hcs, List.tail_cons, List.length_cons] at hlen
    omega
  · intro h
    rw [if_neg h]

theorem readVarint_putVarint {n : Nat} (h : n < 2 ^ 56) (rest : List UInt8) :
    readVarint (Wire.putVarint n ++ rest) = .ok (n, rest) :=
  readVarint_eq_ok.mpr ⟨Wire.putVarint n, rfl, Wire.spells_putVarint (by decide) (by omega)⟩

theorem readByteArray_putBytes {run : List UInt8} (h : run.length < 2 ^ 56) (rest : List UInt8) :
    readByteArray (Wire.putBytes run ++ rest) = .ok (run, rest) :=
  readByteArray_eq_ok.mpr ⟨Wire.putVarint run.length, rfl, Wire.spells_putVarint (by decide) (by omega)⟩

theorem readUuid_put (u : Uuid) (rest : List UInt8) : readUuid (u.put ++ rest) = .ok (u, rest) := by
  have hlen : u.bytes.length < 2 ^ 56 := by
    rw [u.length_eq]
    decide
  unfold readUuid Uuid.put Postcard.putBytes
  rw [readByteArray_putBytes hlen]
  simp [bind, Except.bind, Uuid.fromSlice_eq_some.mpr rfl]

theorem readString_putStr {s : String} (h : (Utf8.encode s).length < 2 ^ 56) (rest : List UInt8) :
    readString (Postcard.putStr s ++ rest) = .ok (Utf8.textDecoder (Utf8.encode s), rest) := by
  have hbytes := readByteArray_putBytes h rest
  unfold readString Postcard.putStr Postcard.putBytes
  unfold Utf8.encode at hbytes
  rw [hbytes]
  rfl

theorem readReason_put {pairId : PairId} {reason : PairCloseReason}
    (h : RelayWire.Within (2 ^ 56) (.ctrl (.pairClose pairId reason))) (rest : List UInt8) :
    ∃ why, readReason (reason.put ++ rest) = .ok (why, rest) ∧ RelayMessage.pairClose pairId why =
      (RelayMessage.pairClose pairId reason).mapText fun s => Utf8.textDecoder (Utf8.encode s) := by
  unfold readReason
  cases reason with
  | rejected message =>
    refine ⟨.rejected (Utf8.textDecoder (Utf8.encode message)), ?_, rfl⟩
    rw [PairCloseReason.put, List.append_assoc, Postcard.putTag, readVarint_putVarint (by decide)]
    simp only [bind, Except.bind]
    rw [readString_putStr h]
  | _ =>
    refine ⟨_, ?_, rfl⟩
    rw [PairCloseReason.put, Postcard.putTag, readVarint_putVarint (by decide)]
    rfl

/-- **What the worker makes of an encoding from Rust**: the message, with its text as the `TextDecoder` gives it. -/
theorem decodeRelay_encode {w : RelayWire} (h : w.Within (2 ^ 56)) :
    decodeRelay w.encode = .ok ((message w).mapText fun s => Utf8.textDecoder (Utf8.encode s)) := by
  have hdata : relayDiscData ≠ relayDiscCtrl := by decide
  cases w with
  | ctrl ctrl =>
    simp only [RelayWire.encode, encodeRelayCtrl, decodeRelay, if_pos]
    unfold decodeCtrl
    cases ctrl with
    | serverRegister serverId serverPubkey signature =>
      have hsignature := readByteArray_putBytes h.2 []
      rw [List.append_nil] at hsignature
      simp only [RelayCtrl.put, List.append_assoc, Postcard.putTag, Postcard.putBytes]
      rw [readVarint_putVarint (by decide)]
      simp only [bind, Except.bind]
      rw [readUuid_put]
      simp only
      rw [readByteArray_putBytes h.1]
      simp only
      rw [hsignature]
      rfl
    | serverRegisterErr reason =>
      have hreason := readString_putStr h []
      rw [List.append_nil] at hreason
      simp only [RelayCtrl.put, Postcard.putTag]
      rw [readVarint_putVarint (by decide)]
      simp only [bind, Except.bind]
      rw [hreason]
      rfl
    | pairClose pairId reason =>
      obtain ⟨why, hread, hwhy⟩ := readReason_put h []
      rw [List.append_nil] at hread
      simp only [RelayCtrl.put, List.append_assoc, Postcard.putTag]
      rw [readVarint_putVarint (by decide)]
      simp only [bind, Except.bind]
      rw [readUuid_put]
      simp only
      rw [hread]
      simp only [message]
      rw [← hwhy]
    | serverRegisterOk | serverHeartbeat =>
      have hkind := fun n (hn : n < 2 ^ 56) => readVarint_putVarint hn []
      simp only [List.append_nil] at hkind
      rw [RelayCtrl.put, Postcard.putTag, hkind _ (by decide)]
      rfl
    | clientConnect id | pairInbound id | pairOpen id =>
      have hid := readUuid_put id.uuid []
      rw [List.append_nil] at hid
      rw [RelayCtrl.put, Postcard.putTag, readVarint_putVarint (by decide)]
      simp only [bind, Except.bind]
      rw [hid]
      rfl
  | data data =>
    obtain ⟨pairId, bytes⟩ := data
    have hbytes := readByteArray_putBytes h []
    rw [List.append_nil] at hbytes
    simp only [RelayWire.encode, encodeRelayData, decodeRelay, if_neg hdata, if_pos]
    unfold decodeData
    simp only [RelayData.put, List.append_assoc, Postcard.putTag, Postcard.putBytes]
    rw [readVarint_putVarint (by decide)]
    simp only [bind, Except.bind, ne_eq, not_true_eq_false, if_false]
    rw [readUuid_put]
    simp only
    rw [hbytes]
    rfl

theorem within_mono {w : RelayWire} {n m : Nat} (h : w.Within n) (hnm : n ≤ m) : w.Within m := by
  cases w with
  | ctrl ctrl =>
    cases ctrl with
    | serverRegister => exact ⟨Nat.lt_of_lt_of_le h.1 hnm, Nat.lt_of_lt_of_le h.2 hnm⟩
    | serverRegisterErr => exact Nat.lt_of_lt_of_le h hnm
    | pairClose pairId reason =>
      cases reason with
      | rejected => exact Nat.lt_of_lt_of_le h hnm
      | _ => trivial
    | _ => trivial
  | data data => exact Nat.lt_of_lt_of_le h hnm

/-! ## Both directions -/

/-- **Which messages come through between the two codecs.** What the worker encodes decodes in Rust, and it is the
same message exactly if its identifiers are texts of UUIDs and its texts are well formed. What Rust encodes decodes in
the worker, and it is the same message exactly if its text does not begin with a byte order mark. -/
theorem codecs_interoperate (m : JsMessage) (w : RelayWire) :
    (∀ bytes, JsMessage.encodeRelay m = .ok bytes →
      ∃ w, CliPocket.decodeRelay bytes = .ok w ∧ (jsMessage (message w) = m ↔ m.Canonical)) ∧
    (w.Within (2 ^ 49) →
      ∃ m, JsMessage.decodeRelay w.encode = .ok m ∧ (m = jsMessage (message w) ↔ ¬(message w).Marked)) := by
  refine ⟨?_, ?_⟩
  · intro bytes h
    obtain ⟨w, hw, hwithin, rfl⟩ := encodeRelay_eq_ok h
    refine ⟨w, CliPocket.decodeRelay_encode (within_mono hwithin (by decide)), ?_⟩
    rw [hw]
    exact jsMessage_lower m
  · intro hwithin
    unfold JsMessage.decodeRelay
    rw [decodeRelay_encode (within_mono hwithin (by decide))]
    refine ⟨_, rfl, ?_⟩
    constructor
    · rintro h ⟨s, hs, hmark⟩
      exact textDecoder_eq_self.mp (mapText_eq_self.mp (jsMessage_injective h) s hs) hmark
    · intro h
      rw [mapText_eq_self.mpr]
      intro s hs
      exact textDecoder_eq_self.mpr fun hmark => h ⟨s, hs, hmark⟩

theorem codecs_interoperate_sample :
    (∃ w, CliPocket.decodeRelay (encodeRelayData (.forward ⟨.splat 7⟩ [1, 2])) = .ok w ∧
      jsMessage (message w) = .dataForward (bytesToUuid (Uuid.splat 7).bytes) [1, 2]) ∧
    JsMessage.decodeRelay (encodeRelayCtrl (.serverRegisterErr "busy")) =
      .ok (.serverRegisterErr (Utf16.encode "busy")) := by
  obtain ⟨hto, hfrom⟩ := codecs_interoperate (.dataForward (bytesToUuid (Uuid.splat 7).bytes) [1, 2])
    (.ctrl (.serverRegisterErr "busy"))
  refine ⟨?_, ?_⟩
  · obtain ⟨w, hw, h⟩ := hto (encodeRelayData (.forward ⟨.splat 7⟩ [1, 2])) (by decide +kernel)
    exact ⟨w, hw, h.mpr ⟨.splat 7, rfl⟩⟩
  · obtain ⟨m, hm, h⟩ := hfrom (show (Utf8.encode "busy").length < 2 ^ 49 by decide)
    have hplain : m = .serverRegisterErr (Utf16.encode "busy") := by
      refine h.mpr ?_
      rintro ⟨s, hs, hmark⟩
      cases hs
      revert hmark
      decide
    rw [← hplain]
    exact hm

/-- **A text that is changed on the way**: the byte order mark at its front is gone. -/
theorem mark_is_lost :
    ∃ w : RelayWire, w.Within (2 ^ 49) ∧ ∀ m, JsMessage.decodeRelay w.encode = .ok m → m ≠ jsMessage (message w) := by
  refine ⟨.ctrl (.serverRegisterErr "\ufeffbusy"), show (Utf8.encode _).length < 2 ^ 49 by decide, ?_⟩
  intro m hm
  have hgone : JsMessage.decodeRelay (RelayWire.ctrl (.serverRegisterErr "\ufeffbusy")).encode =
      .ok (.serverRegisterErr (Utf16.encode "busy")) := by
    decide +kernel
  rw [hgone] at hm
  cases hm
  decide

end Worker

end CliPocket
