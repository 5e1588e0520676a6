import CliPocket.Proto.Relay

/-!
# The codec of the Cloudflare relay

The worker has a codec of its own, in TypeScript. An exception is an error with its message; numbers are exact, which
differs from the worker's doubles only from 2^53 on, where a kind is unknown and a length exceeds every frame.

- `decodeRelay_eq_pairClose`: **the byte strings that decode as `PairClose`.** Any tag from 5 on is `Rejected`, and
  its text need not be well formed.
-/

namespace CliPocket

namespace Worker

abbrev CloseReason := PairCloseReason

inductive RelayMessage
  | serverRegister (serverId : ServerId)
  | serverRegisterOk
  | serverRegisterErr (reason : String)
  | serverHeartbeat
  | clientConnect (serverId : ServerId)
  | pairInbound (pairId : PairId)
  | pairOpen (pairId : PairId)
  | pairClose (pairId : PairId) (reason : CloseReason)
  | dataForward (pairId : PairId) (bytes : List UInt8)
  deriving DecidableEq

def RelayMessage.kind : RelayMessage → String
  | .serverRegister _ => "ServerRegister"
  | .serverRegisterOk => "ServerRegisterOk"
  | .serverRegisterErr _ => "ServerRegisterErr"
  | .serverHeartbeat => "ServerHeartbeat"
  | .clientConnect _ => "ClientConnect"
  | .pairInbound _ => "PairInbound"
  | .pairOpen _ => "PairOpen"
  | .pairClose _ _ => "PairClose"
  | .dataForward _ _ => "DataForward"

/-! ## Writing -/

/-- `Number.MAX_SAFE_INTEGER`. -/
def maxSafeInteger : Nat := 2 ^ 53 - 1

def encodeVarint (value : Nat) : Except String (List UInt8) :=
  if maxSafeInteger < value then .error ("invalid varint value " ++ toString value) else .ok (Wire.putVarint value)

def encodeByteArray (bytes : List UInt8) : Except String (List UInt8) := do
  let length ← encodeVarint bytes.length
  .ok (length ++ bytes)

def encodeString (value : String) : Except String (List UInt8) :=
  encodeByteArray (value.toList.flatMap String.utf8EncodeChar)

def encodeUuid (uuid : Uuid) : Except String (List UInt8) := encodeByteArray uuid.bytes

def encodePairCloseReason : CloseReason → Except String (List UInt8)
  | .normal => encodeVarint 0
  | .serverGone => encodeVarint 1
  | .clientGone => encodeVarint 2
  | .stuck => encodeVarint 3
  | .relayShutdown => encodeVarint 4
  | .rejected message => do
    let tag ← encodeVarint 5
    let text ← encodeString message
    .ok (tag ++ text)

def encodeRelay : RelayMessage → Except String (List UInt8)
  | .serverRegisterOk => do
    let kind ← encodeVarint 1
    .ok (relayDiscCtrl :: kind)
  | .serverRegisterErr reason => do
    let kind ← encodeVarint 2
    let text ← encodeString reason
    .ok (relayDiscCtrl :: (kind ++ text))
  | .pairInbound pairId => do
    let kind ← encodeVarint 5
    let uuid ← encodeUuid pairId.uuid
    .ok (relayDiscCtrl :: (kind ++ uuid))
  | .pairOpen pairId => do
    let kind ← encodeVarint 6
    let uuid ← encodeUuid pairId.uuid
    .ok (relayDiscCtrl :: (kind ++ uuid))
  | .pairClose pairId reason => do
    let kind ← encodeVarint 7
    let uuid ← encodeUuid pairId.uuid
    let why ← encodePairCloseReason reason
    .ok (relayDiscCtrl :: (kind ++ uuid ++ why))
  | .dataForward pairId bytes => do
    let kind ← encodeVarint 0
    let uuid ← encodeUuid pairId.uuid
    let payload ← encodeByteArray bytes
    .ok (relayDiscData :: (kind ++ uuid ++ payload))
  | message => .error ("encoding " ++ message.kind ++ " is not supported")

/-! ## Reading -/

def faultMessage : Wire.Fault → String
  | .unexpectedEnd => "unexpected end of relay frame"
  | .overlong => "varint too large"

/-- `Cursor.readVarint`: eight bytes at most. -/
def readVarint (bytes : List UInt8) : Except String (Nat × List UInt8) :=
  (Wire.takeVarint 8 0x7f bytes).mapError faultMessage

def readByteArray (bytes : List UInt8) : Except String (List UInt8 × List UInt8) :=
  (Wire.takeBytes 8 0x7f bytes).mapError faultMessage

def readUuid (bytes : List UInt8) : Except String (Uuid × List UInt8) := do
  let (run, bytes) ← readByteArray bytes
  match Uuid.fromSlice run with
  | some u => .ok (u, bytes)
  | none => .error ("unexpected uuid length " ++ toString run.length)

def readString (bytes : List UInt8) : Except String (String × List UInt8) := do
  let (text, bytes) ← readByteArray bytes
  .ok (Utf8.textDecoder text, bytes)

def readReason (bytes : List UInt8) : Except String (CloseReason × List UInt8) := do
  let (tag, bytes) ← readVarint bytes
  match tag with
  | 0 => .ok (.normal, bytes)
  | 1 => .ok (.serverGone, bytes)
  | 2 => .ok (.clientGone, bytes)
  | 3 => .ok (.stuck, bytes)
  | 4 => .ok (.relayShutdown, bytes)
  | _ =>
    let (message, bytes) ← readString bytes
    .ok (.rejected message, bytes)

def decodeCtrl (bytes : List UInt8) : Except String RelayMessage := do
  let (kind, bytes) ← readVarint bytes
  match kind with
  | 0 =>
    let (serverId, bytes) ← readUuid bytes
    let (_, bytes) ← readByteArray bytes
    let (_, _) ← readByteArray bytes
    .ok (.serverRegister ⟨serverId⟩)
  | 1 => .ok .serverRegisterOk
  | 2 =>
    let (reason, _) ← readString bytes
    .ok (.serverRegisterErr reason)
  | 3 => .ok .serverHeartbeat
  | 4 =>
    let (serverId, _) ← readUuid bytes
    .ok (.clientConnect ⟨serverId⟩)
  | 5 =>
    let (pairId, _) ← readUuid bytes
    .ok (.pairInbound ⟨pairId⟩)
  | 6 =>
    let (pairId, _) ← readUuid bytes
    .ok (.pairOpen ⟨pairId⟩)
  | 7 =>
    let (pairId, bytes) ← readUuid bytes
    let (reason, _) ← readReason bytes
    .ok (.pairClose ⟨pairId⟩ reason)
  | _ => .error ("unknown relay control kind " ++ toString kind)

def decodeData (bytes : List UInt8) : Except String RelayMessage := do
  let (kind, bytes) ← readVarint bytes
  if kind ≠ 0 then .error ("unknown relay data kind " ++ toString kind)
  else
    let (pairId, bytes) ← readUuid bytes
    let (payload, _) ← readByteArray bytes
    .ok (.dataForward ⟨pairId⟩ payload)

def decodeRelay (bytes : List UInt8) : Except String RelayMessage :=
  match bytes with
  | [] => .error "unexpected end of relay frame"
  | discriminator :: rest =>
    if discriminator = relayDiscCtrl then decodeCtrl rest
    else if discriminator = relayDiscData then decodeData rest
    else .error ("unknown relay discriminator " ++ toString discriminator.toNat)

/-! ## The strings that close a pair -/

theorem readVarint_eq_ok {bytes rest : List UInt8} {n : Nat} :
    readVarint bytes = .ok (n, rest) ↔ ∃ tag, bytes = tag ++ rest ∧ Wire.Spells 8 0x7f tag n := by
  unfold readVarint
  rw [Wire.mapError_eq_ok]
  exact Wire.takeVarint_eq_ok

theorem readByteArray_eq_ok {bytes run rest : List UInt8} :
    readByteArray bytes = .ok (run, rest) ↔
      ∃ len, bytes = len ++ run ++ rest ∧ Wire.Spells 8 0x7f len run.length := by
  unfold readByteArray
  rw [Wire.mapError_eq_ok]
  exact Wire.takeBytes_eq_ok

theorem readUuid_eq_ok {bytes rest : List UInt8} {u : Uuid} :
    readUuid bytes = .ok (u, rest) ↔ ∃ len, bytes = len ++ u.bytes ++ rest ∧ Wire.Spells 8 0x7f len 16 := by
  unfold readUuid
  rw [Wire.bind_eq_ok]
  constructor
  · rintro ⟨⟨run, rest'⟩, hrun, h⟩
    obtain ⟨len, rfl, hlen⟩ := readByteArray_eq_ok.mp hrun
    simp only at h
    split at h
    · next hu =>
      cases h
      obtain rfl := Uuid.fromSlice_eq_some.mp hu
      exact ⟨len, rfl, u.length_eq ▸ hlen⟩
    · cases h
  · rintro ⟨len, rfl, hlen⟩
    refine ⟨(u.bytes, rest), readByteArray_eq_ok.mpr ⟨len, rfl, u.length_eq.symm ▸ hlen⟩, ?_⟩
    simp [Uuid.fromSlice_eq_some.mpr rfl]

/-- The spellings of a close reason that the worker reads. -/
inductive ReasonSpelled : List UInt8 → CloseReason → Prop
  | normal {tag : List UInt8} : Wire.Spells 8 0x7f tag 0 → ReasonSpelled tag .normal
  | serverGone {tag : List UInt8} : Wire.Spells 8 0x7f tag 1 → ReasonSpelled tag .serverGone
  | clientGone {tag : List UInt8} : Wire.Spells 8 0x7f tag 2 → ReasonSpelled tag .clientGone
  | stuck {tag : List UInt8} : Wire.Spells 8 0x7f tag 3 → ReasonSpelled tag .stuck
  | relayShutdown {tag : List UInt8} : Wire.Spells 8 0x7f tag 4 → ReasonSpelled tag .relayShutdown
  | rejected {n : Nat} {tag len text : List UInt8} : Wire.Spells 8 0x7f tag n → 5 ≤ n →
      Wire.Spells 8 0x7f len text.length → ReasonSpelled (tag ++ (len ++ text)) (.rejected (Utf8.textDecoder text))

theorem readReason_of_spelled {spelled : List UInt8} {reason : CloseReason} (h : ReasonSpelled spelled reason)
    (rest : List UInt8) : readReason (spelled ++ rest) = .ok (reason, rest) := by
  unfold readReason
  rw [Wire.bind_eq_ok]
  cases h with
  | normal h => exact ⟨_, readVarint_eq_ok.mpr ⟨_, rfl, h⟩, rfl⟩
  | serverGone h => exact ⟨_, readVarint_eq_ok.mpr ⟨_, rfl, h⟩, rfl⟩
  | clientGone h => exact ⟨_, readVarint_eq_ok.mpr ⟨_, rfl, h⟩, rfl⟩
  | stuck h => exact ⟨_, readVarint_eq_ok.mpr ⟨_, rfl, h⟩, rfl⟩
  | relayShutdown h => exact ⟨_, readVarint_eq_ok.mpr ⟨_, rfl, h⟩, rfl⟩
  | @rejected n tag len text h hn hlen =>
    refine ⟨_, readVarint_eq_ok.mpr ⟨tag, List.append_assoc tag (len ++ text) rest, h⟩, ?_⟩
    have hstr : readString (len ++ text ++ rest) = .ok (Utf8.textDecoder text, rest) :=
      Wire.bind_eq_ok.mpr ⟨_, readByteArray_eq_ok.mpr ⟨len, rfl, hlen⟩, rfl⟩
    simp only
    split
    case h_6 =>
      rw [hstr]
      rfl
    all_goals omega

theorem spelled_of_readReason {bytes rest : List UInt8} {reason : CloseReason}
    (h : readReason bytes = .ok (reason, rest)) :
    ∃ spelled, bytes = spelled ++ rest ∧ ReasonSpelled spelled reason := by
  unfold readReason at h
  obtain ⟨⟨n, bytes'⟩, hn, hmatch⟩ := Wire.bind_eq_ok.mp h
  obtain ⟨tag, rfl, htag⟩ := readVarint_eq_ok.mp hn
  simp only at hmatch
  clear h
  split at hmatch
  · cases hmatch
    exact ⟨tag, rfl, .normal htag⟩
  · cases hmatch
    exact ⟨tag, rfl, .serverGone htag⟩
  · cases hmatch
    exact ⟨tag, rfl, .clientGone htag⟩
  · cases hmatch
    exact ⟨tag, rfl, .stuck htag⟩
  · cases hmatch
    exact ⟨tag, rfl, .relayShutdown htag⟩
  · next h0 h1 h2 h3 h4 =>
    obtain ⟨⟨message, rest'⟩, hstr, hmatch⟩ := Wire.bind_eq_ok.mp hmatch
    cases hmatch
    obtain ⟨⟨text, rest''⟩, htext, hstr⟩ := Wire.bind_eq_ok.mp hstr
    cases hstr
    obtain ⟨len, rfl, hlen⟩ := readByteArray_eq_ok.mp htext
    have hn5 : 5 ≤ n := by
      by_contra hlt
      have : n = 0 ∨ n = 1 ∨ n = 2 ∨ n = 3 ∨ n = 4 := by omega
      rcases this with hn | hn | hn | hn | hn
      · exact h0 hn
      · exact h1 hn
      · exact h2 hn
      · exact h3 hn
      · exact h4 hn
    exact ⟨tag ++ (len ++ text), by simp only [List.append_assoc], .rejected htag hn5 hlen⟩

/-- The spellings of `PairClose` that the worker reads. -/
inductive SpellsPairClose (pairId : PairId) (reason : CloseReason) : List UInt8 → Prop
  | spelled {tag len why : List UInt8} (htag : Wire.Spells 8 0x7f tag 7) (hlen : Wire.Spells 8 0x7f len 16)
      (hwhy : ReasonSpelled why reason) :
      SpellsPairClose pairId reason (relayDiscCtrl :: (tag ++ (len ++ pairId.uuid.bytes ++ why)))

theorem decodeCtrl_eq_pairClose {bytes : List UInt8} {pairId : PairId} {reason : CloseReason} :
    decodeCtrl bytes = .ok (.pairClose pairId reason) ↔
      ∃ tag len why rest, bytes = tag ++ (len ++ pairId.uuid.bytes ++ (why ++ rest)) ∧ Wire.Spells 8 0x7f tag 7 ∧
        Wire.Spells 8 0x7f len 16 ∧ ReasonSpelled why reason := by
  unfold decodeCtrl
  rw [Wire.bind_eq_ok]
  constructor
  · rintro ⟨⟨n, bytes'⟩, hn, h⟩
    obtain ⟨tag, rfl, htag⟩ := readVarint_eq_ok.mp hn
    simp only at h
    split at h
    case h_8 =>
      obtain ⟨⟨u, bytes''⟩, hu, h⟩ := Wire.bind_eq_ok.mp h
      obtain ⟨⟨why', rest⟩, hread, h⟩ := Wire.bind_eq_ok.mp h
      cases h
      obtain ⟨len, rfl, hlen⟩ := readUuid_eq_ok.mp hu
      obtain ⟨why, rfl, hwhy⟩ := spelled_of_readReason hread
      exact ⟨tag, len, why, rest, rfl, htag, hlen, hwhy⟩
    all_goals
      simp only [Wire.bind_eq_ok, Except.ok.injEq, reduceCtorEq, and_false, exists_false] at h
  · rintro ⟨tag, len, why, rest, rfl, htag, hlen, hwhy⟩
    refine ⟨_, readVarint_eq_ok.mpr ⟨tag, rfl, htag⟩, ?_⟩
    refine Wire.bind_eq_ok.mpr ⟨_, readUuid_eq_ok.mpr ⟨len, rfl, hlen⟩, ?_⟩
    exact Wire.bind_eq_ok.mpr ⟨_, readReason_of_spelled hwhy rest, rfl⟩

/-- **A byte string decodes as `PairClose` exactly when a spelling of it stands at its front.** -/
theorem decodeRelay_eq_pairClose {bytes : List UInt8} {pairId : PairId} {reason : CloseReason} :
    decodeRelay bytes = .ok (.pairClose pairId reason) ↔
      ∃ spelled rest, bytes = spelled ++ rest ∧ SpellsPairClose pairId reason spelled := by
  cases bytes with
  | nil =>
    constructor
    · intro h
      cases h
    · rintro ⟨_, rest, h, hs⟩
      cases hs
      cases h
  | cons disc bytes =>
    by_cases hdisc : disc = relayDiscCtrl
    · subst hdisc
      simp only [decodeRelay, if_pos, decodeCtrl_eq_pairClose]
      constructor
      · rintro ⟨tag, len, why, rest, rfl, htag, hlen, hwhy⟩
        exact ⟨_, rest, by simp only [List.cons_append, List.append_assoc], .spelled htag hlen hwhy⟩
      · rintro ⟨_, rest, h, @⟨tag, len, why, htag, hlen, hwhy⟩⟩
        simp only [List.cons_append, List.append_assoc, List.cons.injEq, true_and] at h
        exact ⟨tag, len, why, rest, by rw [h, List.append_assoc], htag, hlen, hwhy⟩
    · constructor
      · intro h
        simp only [decodeRelay, if_neg hdisc] at h
        split at h
        · simp only [decodeData, Wire.bind_eq_ok] at h
          obtain ⟨_, _, h⟩ := h
          split at h
          · cases h
          · simp only [Wire.bind_eq_ok, Except.ok.injEq, reduceCtorEq, and_false, exists_false] at h
        · cases h
      · rintro ⟨_, rest, h, hs⟩
        cases hs
        cases h
        exact absurd rfl hdisc

end Worker

end CliPocket
