import CliPocket.Lib.Postcard
import CliPocket.Proto.Terminal

/-!
# Relay messages and their codec

`RelayCtrl` and `RelayData` with the postcard layout of the derived codecs, behind a discriminator byte.

- `decodeRelay_encode`: what has been encoded is decoded as the same message;
- `decodeRelay_eq_pairClose`: **the byte strings that decode as `PairClose`**, with any bytes after them.
-/

namespace CliPocket

inductive PairCloseReason
  | normal
  | serverGone
  | clientGone
  | stuck
  | relayShutdown
  | rejected (message : String)
  deriving DecidableEq

inductive RelayCtrl
  | serverRegister (serverId : ServerId) (serverPubkey signature : List UInt8)
  | serverRegisterOk
  | serverRegisterErr (reason : String)
  | serverHeartbeat
  | clientConnect (serverId : ServerId)
  | pairInbound (pairId : PairId)
  | pairOpen (pairId : PairId)
  | pairClose (pairId : PairId) (reason : PairCloseReason)
  deriving DecidableEq

inductive RelayData
  | forward (pairId : PairId) (bytes : List UInt8)
  deriving DecidableEq

def relayDiscCtrl : UInt8 := 0x01

def relayDiscData : UInt8 := 0x02

inductive CodecError
  | postcard (error : Postcard.Error)
  | empty
  | unknownDiscriminator (disc : UInt8)
  deriving DecidableEq

/-- `Display`. -/
def CodecError.toMessage : CodecError → String
  | .postcard error => "postcard: " ++ error.toMessage
  | .empty => "empty frame"
  | .unknownDiscriminator disc =>
    "unknown discriminator 0x" ++ String.ofList (Nat.toDigits 16 disc.toNat)

inductive RelayWire
  | ctrl (ctrl : RelayCtrl)
  | data (data : RelayData)
  deriving DecidableEq

/-! ## Encoding -/

def Uuid.put (u : Uuid) : List UInt8 := Postcard.putBytes u.bytes

def PairCloseReason.put : PairCloseReason → List UInt8
  | .normal => Postcard.putTag 0
  | .serverGone => Postcard.putTag 1
  | .clientGone => Postcard.putTag 2
  | .stuck => Postcard.putTag 3
  | .relayShutdown => Postcard.putTag 4
  | .rejected message => Postcard.putTag 5 ++ Postcard.putStr message

def RelayCtrl.put : RelayCtrl → List UInt8
  | .serverRegister serverId serverPubkey signature =>
    Postcard.putTag 0 ++ serverId.uuid.put ++ Postcard.putBytes serverPubkey ++ Postcard.putBytes signature
  | .serverRegisterOk => Postcard.putTag 1
  | .serverRegisterErr reason => Postcard.putTag 2 ++ Postcard.putStr reason
  | .serverHeartbeat => Postcard.putTag 3
  | .clientConnect serverId => Postcard.putTag 4 ++ serverId.uuid.put
  | .pairInbound pairId => Postcard.putTag 5 ++ pairId.uuid.put
  | .pairOpen pairId => Postcard.putTag 6 ++ pairId.uuid.put
  | .pairClose pairId reason => Postcard.putTag 7 ++ pairId.uuid.put ++ reason.put

def RelayData.put : RelayData → List UInt8
  | .forward pairId bytes => Postcard.putTag 0 ++ pairId.uuid.put ++ Postcard.putBytes bytes

def encodeRelayCtrl (ctrl : RelayCtrl) : List UInt8 := relayDiscCtrl :: ctrl.put

def encodeRelayData (data : RelayData) : List UInt8 := relayDiscData :: data.put

/-! ## Decoding -/

def Uuid.take (bytes : List UInt8) : Except Postcard.Error (Uuid × List UInt8) := do
  let (run, bytes) ← Postcard.takeBytes bytes
  match Uuid.fromSlice run with
  | some u => .ok (u, bytes)
  | none => .error .serdeDeCustom

def PairCloseReason.take (bytes : List UInt8) : Except Postcard.Error (PairCloseReason × List UInt8) := do
  let (tag, bytes) ← Postcard.takeTag bytes
  match tag with
  | 0 => .ok (.normal, bytes)
  | 1 => .ok (.serverGone, bytes)
  | 2 => .ok (.clientGone, bytes)
  | 3 => .ok (.stuck, bytes)
  | 4 => .ok (.relayShutdown, bytes)
  | 5 =>
    let (message, bytes) ← Postcard.takeStr bytes
    .ok (.rejected message, bytes)
  | _ => .error .serdeDeCustom

def RelayCtrl.take (bytes : List UInt8) : Except Postcard.Error (RelayCtrl × List UInt8) := do
  let (tag, bytes) ← Postcard.takeTag bytes
  match tag with
  | 0 =>
    let (serverId, bytes) ← Uuid.take bytes
    let (serverPubkey, bytes) ← Postcard.takeBytes bytes
    let (signature, bytes) ← Postcard.takeBytes bytes
    .ok (.serverRegister ⟨serverId⟩ serverPubkey signature, bytes)
  | 1 => .ok (.serverRegisterOk, bytes)
  | 2 =>
    let (reason, bytes) ← Postcard.takeStr bytes
    .ok (.serverRegisterErr reason, bytes)
  | 3 => .ok (.serverHeartbeat, bytes)
  | 4 =>
    let (serverId, bytes) ← Uuid.take bytes
    .ok (.clientConnect ⟨serverId⟩, bytes)
  | 5 =>
    let (pairId, bytes) ← Uuid.take bytes
    .ok (.pairInbound ⟨pairId⟩, bytes)
  | 6 =>
    let (pairId, bytes) ← Uuid.take bytes
    .ok (.pairOpen ⟨pairId⟩, bytes)
  | 7 =>
    let (pairId, bytes) ← Uuid.take bytes
    let (reason, bytes) ← PairCloseReason.take bytes
    .ok (.pairClose ⟨pairId⟩ reason, bytes)
  | _ => .error .serdeDeCustom

def RelayData.take (bytes : List UInt8) : Except Postcard.Error (RelayData × List UInt8) := do
  let (tag, bytes) ← Postcard.takeTag bytes
  match tag with
  | 0 =>
    let (pairId, bytes) ← Uuid.take bytes
    let (payload, bytes) ← Postcard.takeBytes bytes
    .ok (.forward ⟨pairId⟩ payload, bytes)
  | _ => .error .serdeDeCustom

def decodeRelay (bytes : List UInt8) : Except CodecError RelayWire :=
  match bytes with
  | [] => .error .empty
  | disc :: rest =>
    if disc = relayDiscCtrl then ((Postcard.fromBytes RelayCtrl.take rest).map .ctrl).mapError .postcard
    else if disc = relayDiscData then ((Postcard.fromBytes RelayData.take rest).map .data).mapError .postcard
    else .error (.unknownDiscriminator disc)

/-! ## Round trip -/

def RelayWire.encode : RelayWire → List UInt8
  | .ctrl message => encodeRelayCtrl message
  | .data message => encodeRelayData message

/-- Every byte string and every text in the message is shorter than `bound`. -/
def RelayWire.Within (bound : Nat) : RelayWire → Prop
  | .ctrl (.serverRegister _ serverPubkey signature) => serverPubkey.length < bound ∧ signature.length < bound
  | .ctrl (.serverRegisterErr reason) => (Utf8.encode reason).length < bound
  | .ctrl (.pairClose _ (.rejected message)) => (Utf8.encode message).length < bound
  | .ctrl _ => True
  | .data (.forward _ bytes) => bytes.length < bound

theorem Uuid.take_put (u : Uuid) (rest : List UInt8) : Uuid.take (u.put ++ rest) = .ok (u, rest) := by
  have hlen : u.bytes.length < 2 ^ 64 := by
    rw [u.length_eq]
    decide
  unfold Uuid.take Uuid.put
  rw [Postcard.takeBytes_putBytes hlen]
  simp [bind, Except.bind, Uuid.fromSlice_eq_some.mpr rfl]

/-- An identifier is read off the front. -/
theorem Uuid.put_append_inj {u w : Uuid} {rest rest' : List UInt8} (h : u.put ++ rest = w.put ++ rest') : u = w := by
  have htake := u.take_put rest
  rw [h, w.take_put] at htake
  cases htake
  rfl

theorem PairCloseReason.take_put {pairId : PairId} {reason : PairCloseReason}
    (h : RelayWire.Within (2 ^ 64) (.ctrl (.pairClose pairId reason))) (rest : List UInt8) :
    PairCloseReason.take (reason.put ++ rest) = .ok (reason, rest) := by
  unfold PairCloseReason.take
  cases reason with
  | rejected message =>
    rw [PairCloseReason.put, List.append_assoc, Postcard.takeTag_putTag (by decide)]
    simp only [bind, Except.bind]
    rw [Postcard.takeStr_putStr h]
  | _ =>
    rw [PairCloseReason.put, Postcard.takeTag_putTag (by decide)]
    rfl

theorem RelayCtrl.take_put {ctrl : RelayCtrl} (h : RelayWire.Within (2 ^ 64) (.ctrl ctrl)) (rest : List UInt8) :
    RelayCtrl.take (ctrl.put ++ rest) = .ok (ctrl, rest) := by
  unfold RelayCtrl.take
  cases ctrl with
  | serverRegister serverId serverPubkey signature =>
    simp only [RelayCtrl.put, List.append_assoc]
    rw [Postcard.takeTag_putTag (by decide)]
    simp only [bind, Except.bind]
    rw [Uuid.take_put]
    simp only
    rw [Postcard.takeBytes_putBytes h.1]
    simp only
    rw [Postcard.takeBytes_putBytes h.2]
  | serverRegisterErr reason =>
    simp only [RelayCtrl.put, List.append_assoc]
    rw [Postcard.takeTag_putTag (by decide)]
    simp only [bind, Except.bind]
    rw [Postcard.takeStr_putStr h]
  | pairClose pairId reason =>
    simp only [RelayCtrl.put, List.append_assoc]
    rw [Postcard.takeTag_putTag (by decide)]
    simp only [bind, Except.bind]
    rw [Uuid.take_put]
    simp only
    rw [PairCloseReason.take_put h]
  | serverRegisterOk | serverHeartbeat =>
    rw [RelayCtrl.put, Postcard.takeTag_putTag (by decide)]
    rfl
  | clientConnect id | pairInbound id | pairOpen id =>
    rw [RelayCtrl.put, List.append_assoc, Postcard.takeTag_putTag (by decide)]
    simp only [bind, Except.bind]
    rw [Uuid.take_put]

theorem RelayData.take_put {data : RelayData} (h : RelayWire.Within (2 ^ 64) (.data data)) (rest : List UInt8) :
    RelayData.take (data.put ++ rest) = .ok (data, rest) := by
  unfold RelayData.take
  obtain ⟨pairId, bytes⟩ := data
  simp only [RelayData.put, List.append_assoc]
  rw [Postcard.takeTag_putTag (by decide)]
  simp only [bind, Except.bind]
  rw [Uuid.take_put]
  simp only
  rw [Postcard.takeBytes_putBytes h]

/-- Frames that close different pairs differ. -/
theorem encodeRelayCtrl_pairClose_inj {p q : PairId} {reason reason' : PairCloseReason}
    (h : encodeRelayCtrl (.pairClose p reason) = encodeRelayCtrl (.pairClose q reason')) : p = q := by
  simp only [encodeRelayCtrl, RelayCtrl.put, List.append_assoc, List.cons.injEq, true_and] at h
  have huuid := Uuid.put_append_inj (List.append_cancel_left h)
  cases p
  cases q
  exact congrArg PairId.mk huuid

/-- So do frames that forward for different pairs. -/
theorem encodeRelayData_pairId {p q : PairId} {x y : List UInt8}
    (h : encodeRelayData (.forward p x) = encodeRelayData (.forward q y)) : p = q := by
  simp only [encodeRelayData, RelayData.put, List.append_assoc, List.cons.injEq, true_and] at h
  have huuid := Uuid.put_append_inj (List.append_cancel_left h)
  cases p
  cases q
  exact congrArg PairId.mk huuid

/-- What decodes an encoded `PairClose` finds the pair that it closes. -/
theorem pairId_of_decodeRelay {p q : PairId} {reason reason' : PairCloseReason}
    (h : decodeRelay (encodeRelayCtrl (.pairClose p reason)) = .ok (.ctrl (.pairClose q reason'))) : p = q := by
  simp only [encodeRelayCtrl, decodeRelay, if_pos, Wire.mapError_eq_ok] at h
  have hmap : Postcard.fromBytes RelayCtrl.take (RelayCtrl.pairClose p reason).put = .ok (.pairClose q reason') := by
    cases hf : Postcard.fromBytes RelayCtrl.take (RelayCtrl.pairClose p reason).put <;> simp_all [Except.map]
  obtain ⟨rest, htake⟩ := Postcard.fromBytes_eq_ok.mp hmap
  unfold RelayCtrl.take at htake
  rw [RelayCtrl.put, List.append_assoc, Postcard.takeTag_putTag (by decide)] at htake
  simp only [bind, Except.bind] at htake
  rw [Uuid.take_put] at htake
  simp only at htake
  split at htake
  · cases htake
  · cases htake
    rfl

/-- **What has been encoded is decoded as the same message.** -/
theorem decodeRelay_encode {message : RelayWire} (h : message.Within (2 ^ 64)) :
    decodeRelay message.encode = .ok message := by
  cases message with
  | ctrl ctrl =>
    have htake := RelayCtrl.take_put h []
    rw [List.append_nil] at htake
    simp only [RelayWire.encode, encodeRelayCtrl, decodeRelay, if_pos]
    rw [Postcard.fromBytes_eq_ok.mpr ⟨[], htake⟩]
    rfl
  | data data =>
    have htake := RelayData.take_put h []
    rw [List.append_nil] at htake
    simp only [RelayWire.encode, encodeRelayData, decodeRelay, if_neg (show relayDiscData ≠ relayDiscCtrl by decide),
      if_pos]
    rw [Postcard.fromBytes_eq_ok.mpr ⟨[], htake⟩]
    rfl

/-! ## The strings that close a pair -/

theorem Uuid.take_eq_ok {bytes rest : List UInt8} {u : Uuid} :
    Uuid.take bytes = .ok (u, rest) ↔ ∃ len, bytes = len ++ u.bytes ++ rest ∧ Wire.Spells 10 1 len 16 := by
  unfold Uuid.take
  rw [Wire.bind_eq_ok]
  constructor
  · rintro ⟨⟨run, rest'⟩, hrun, h⟩
    obtain ⟨len, rfl, hlen⟩ := Postcard.takeBytes_eq_ok.mp hrun
    simp only at h
    split at h
    · next hu =>
      cases h
      obtain rfl := Uuid.fromSlice_eq_some.mp hu
      exact ⟨len, rfl, u.length_eq ▸ hlen⟩
    · cases h
  · rintro ⟨len, rfl, hlen⟩
    refine ⟨(u.bytes, rest), Postcard.takeBytes_eq_ok.mpr ⟨len, rfl, u.length_eq.symm ▸ hlen⟩, ?_⟩
    simp [Uuid.fromSlice_eq_some.mpr rfl]

/-- A payload is no longer than its frame. -/
theorem length_le_of_decodeRelay {bytes payload : List UInt8} {pairId : PairId}
    (h : decodeRelay bytes = .ok (.data (.forward pairId payload))) : payload.length ≤ bytes.length := by
  cases bytes with
  | nil => cases h
  | cons disc bytes =>
    have hdata : Postcard.fromBytes RelayData.take bytes = .ok (.forward pairId payload) := by
      simp only [decodeRelay] at h
      split at h
      · rw [Wire.mapError_eq_ok] at h
        cases hf : Postcard.fromBytes RelayCtrl.take bytes <;> rw [hf] at h <;> cases h
      · split at h
        · rw [Wire.mapError_eq_ok] at h
          cases hf : Postcard.fromBytes RelayData.take bytes with
          | error err =>
            rw [hf] at h
            cases h
          | ok data =>
            rw [hf] at h
            cases h
            rfl
        · cases h
    obtain ⟨rest, htake⟩ := Postcard.fromBytes_eq_ok.mp hdata
    unfold RelayData.take at htake
    obtain ⟨⟨n, bytes'⟩, hn, htake⟩ := Wire.bind_eq_ok.mp htake
    obtain ⟨tag, rfl, _⟩ := Postcard.takeTag_eq_ok.mp hn
    cases n with
    | succ n => cases htake
    | zero =>
      obtain ⟨⟨uuid, bytes''⟩, huuid, htake⟩ := Wire.bind_eq_ok.mp htake
      obtain ⟨⟨payload', rest'⟩, hbytes, htake⟩ := Wire.bind_eq_ok.mp htake
      cases htake
      obtain ⟨len, rfl, _⟩ := Uuid.take_eq_ok.mp huuid
      obtain ⟨len', rfl, _⟩ := Postcard.takeBytes_eq_ok.mp hbytes
      simp only [List.length_cons, List.length_append]
      omega

/-- The spellings of a close reason. -/
inductive PairCloseReason.Spelled : List UInt8 → PairCloseReason → Prop
  | normal {tag : List UInt8} : Wire.Spells 5 15 tag 0 → Spelled tag .normal
  | serverGone {tag : List UInt8} : Wire.Spells 5 15 tag 1 → Spelled tag .serverGone
  | clientGone {tag : List UInt8} : Wire.Spells 5 15 tag 2 → Spelled tag .clientGone
  | stuck {tag : List UInt8} : Wire.Spells 5 15 tag 3 → Spelled tag .stuck
  | relayShutdown {tag : List UInt8} : Wire.Spells 5 15 tag 4 → Spelled tag .relayShutdown
  | rejected {tag len text : List UInt8} {message : String} : Wire.Spells 5 15 tag 5 →
      Wire.Spells 10 1 len text.length → Utf8.fromUtf8 text = some message →
      Spelled (tag ++ (len ++ text)) (.rejected message)

theorem PairCloseReason.take_of_spelled {spelled : List UInt8} {reason : PairCloseReason}
    (h : PairCloseReason.Spelled spelled reason) (rest : List UInt8) :
    PairCloseReason.take (spelled ++ rest) = .ok (reason, rest) := by
  unfold PairCloseReason.take
  rw [Wire.bind_eq_ok]
  cases h with
  | normal h => exact ⟨_, Postcard.takeTag_eq_ok.mpr ⟨_, rfl, h⟩, rfl⟩
  | serverGone h => exact ⟨_, Postcard.takeTag_eq_ok.mpr ⟨_, rfl, h⟩, rfl⟩
  | clientGone h => exact ⟨_, Postcard.takeTag_eq_ok.mpr ⟨_, rfl, h⟩, rfl⟩
  | stuck h => exact ⟨_, Postcard.takeTag_eq_ok.mpr ⟨_, rfl, h⟩, rfl⟩
  | relayShutdown h => exact ⟨_, Postcard.takeTag_eq_ok.mpr ⟨_, rfl, h⟩, rfl⟩
  | @rejected tag len text message h hlen htext =>
    refine ⟨_, Postcard.takeTag_eq_ok.mpr ⟨tag, List.append_assoc tag (len ++ text) rest, h⟩, ?_⟩
    exact Wire.bind_eq_ok.mpr ⟨_, Postcard.takeStr_eq_ok.mpr ⟨len, text, rfl, hlen, htext⟩, rfl⟩

theorem PairCloseReason.spelled_of_take {bytes rest : List UInt8} {reason : PairCloseReason}
    (h : PairCloseReason.take bytes = .ok (reason, rest)) :
    ∃ spelled, bytes = spelled ++ rest ∧ PairCloseReason.Spelled spelled reason := by
  unfold PairCloseReason.take at h
  obtain ⟨⟨n, bytes'⟩, hn, hmatch⟩ := Wire.bind_eq_ok.mp h
  obtain ⟨tag, rfl, htag⟩ := Postcard.takeTag_eq_ok.mp hn
  simp only at hmatch
  clear h
  split at hmatch
  · cases hmatch
    exact ⟨tag, rfl, .normal htag⟩
  · cases hmatch
    exact ⟨tag, rfl, .serverGone htag⟩
  · cases hmatch
    exact ⟨tag, rfl, .clientGone htag⟩
  · cases hmatch
    exact ⟨tag, rfl, .stuck htag⟩
  · cases hmatch
    exact ⟨tag, rfl, .relayShutdown htag⟩
  · obtain ⟨⟨message, rest'⟩, hstr, hmatch⟩ := Wire.bind_eq_ok.mp hmatch
    cases hmatch
    obtain ⟨len, text, rfl, hlen, htext⟩ := Postcard.takeStr_eq_ok.mp hstr
    exact ⟨tag ++ (len ++ text), by simp only [List.append_assoc], .rejected htag hlen htext⟩
  · cases hmatch

/-- The spellings of `PairClose`: discriminator, tag, UUID behind its length, reason. -/
inductive SpellsPairClose (pairId : PairId) (reason : PairCloseReason) : List UInt8 → Prop
  | spelled {tag len why : List UInt8} (htag : Wire.Spells 5 15 tag 7) (hlen : Wire.Spells 10 1 len 16)
      (hwhy : PairCloseReason.Spelled why reason) :
      SpellsPairClose pairId reason (relayDiscCtrl :: (tag ++ (len ++ pairId.uuid.bytes ++ why)))

theorem RelayCtrl.take_eq_pairClose {bytes rest : List UInt8} {pairId : PairId} {reason : PairCloseReason} :
    RelayCtrl.take bytes = .ok (.pairClose pairId reason, rest) ↔
      ∃ tag len why, bytes = tag ++ (len ++ pairId.uuid.bytes ++ (why ++ rest)) ∧ Wire.Spells 5 15 tag 7 ∧
        Wire.Spells 10 1 len 16 ∧ PairCloseReason.Spelled why reason := by
  unfold RelayCtrl.take
  rw [Wire.bind_eq_ok]
  constructor
  · rintro ⟨⟨n, bytes'⟩, hn, h⟩
    obtain ⟨tag, rfl, htag⟩ := Postcard.takeTag_eq_ok.mp hn
    simp only at h
    split at h
    case h_8 =>
      obtain ⟨⟨u, bytes''⟩, hu, h⟩ := Wire.bind_eq_ok.mp h
      obtain ⟨⟨why', rest'⟩, htake, h⟩ := Wire.bind_eq_ok.mp h
      cases h
      obtain ⟨len, rfl, hlen⟩ := Uuid.take_eq_ok.mp hu
      obtain ⟨why, rfl, hwhy⟩ := PairCloseReason.spelled_of_take htake
      exact ⟨tag, len, why, rfl, htag, hlen, hwhy⟩
    all_goals
      simp only [Wire.bind_eq_ok, Except.ok.injEq, Prod.mk.injEq, reduceCtorEq, false_and, and_false, exists_false] at h
  · rintro ⟨tag, len, why, rfl, htag, hlen, hwhy⟩
    refine ⟨_, Postcard.takeTag_eq_ok.mpr ⟨tag, rfl, htag⟩, ?_⟩
    refine Wire.bind_eq_ok.mpr ⟨_, Uuid.take_eq_ok.mpr ⟨len, rfl, hlen⟩, ?_⟩
    exact Wire.bind_eq_ok.mpr ⟨_, PairCloseReason.take_of_spelled hwhy rest, rfl⟩

/-- **A byte string decodes as `PairClose` exactly when a spelling of it stands at its front.** -/
theorem decodeRelay_eq_pairClose {bytes : List UInt8} {pairId : PairId} {reason : PairCloseReason} :
    decodeRelay bytes = .ok (.ctrl (.pairClose pairId reason)) ↔
      ∃ spelled rest, bytes = spelled ++ rest ∧ SpellsPairClose pairId reason spelled := by
  cases bytes with
  | nil =>
    constructor
    · intro h
      cases h
    · rintro ⟨_, rest, h, hs⟩
      cases hs
      cases h
  | cons disc bytes =>
    by_cases hdisc : disc = relayDiscCtrl
    · subst hdisc
      simp only [decodeRelay, if_pos, Wire.mapError_eq_ok]
      constructor
      · intro h
        have hmap : Postcard.fromBytes RelayCtrl.take bytes = .ok (.pairClose pairId reason) := by
          cases hf : Postcard.fromBytes RelayCtrl.take bytes <;> simp_all [Except.map]
        obtain ⟨rest, ht⟩ := Postcard.fromBytes_eq_ok.mp hmap
        obtain ⟨tag, len, why, rfl, htag, hlen, hwhy⟩ := RelayCtrl.take_eq_pairClose.mp ht
        exact ⟨_, rest, by simp only [List.cons_append, List.append_assoc], .spelled htag hlen hwhy⟩
      · rintro ⟨_, rest, h, @⟨tag, len, why, htag, hlen, hwhy⟩⟩
        simp only [List.cons_append, List.append_assoc, List.cons.injEq, true_and] at h
        subst h
        have htake : RelayCtrl.take (tag ++ (len ++ (pairId.uuid.bytes ++ (why ++ rest)))) =
            .ok (.pairClose pairId reason, rest) :=
          RelayCtrl.take_eq_pairClose.mpr ⟨tag, len, why, by simp only [List.append_assoc], htag, hlen, hwhy⟩
        rw [Postcard.fromBytes_eq_ok.mpr ⟨rest, htake⟩]
        rfl
    · constructor
      · intro h
        simp only [decodeRelay, if_neg hdisc] at h
        split at h
        · rw [Wire.mapError_eq_ok] at h
          cases hf : Postcard.fromBytes RelayData.take bytes <;> simp_all [Except.map]
        · cases h
      · rintro ⟨_, rest, h, hs⟩
        cases hs
        cases h
        exact absurd rfl hdisc

end CliPocket
