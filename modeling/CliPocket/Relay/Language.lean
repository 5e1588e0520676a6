import CliPocket.Relay.Interop

/-!
# The languages of the two relay decoders

Both decoders read the same fields in the same order. `layout` reads them too, with no limit on how a number is
spelled and no opinion on texts; each decoder is `layout` with its own limits.

- `decodeRelay_iff_layout`, `rustDecode_iff_layout`: what each decoder accepts, and what it returns;
- `decoders_agree_iff`: **on which byte strings the two agree.**
-/

namespace CliPocket

open Wire (Varint)

namespace Worker

/-! ## Layouts -/

/-- A message but for its text, which is still bytes. -/
inductive Shape
  | plain (m : RelayMessage)
  | registerErr (text : List UInt8)
  | rejected (pairId : PairId) (tag : Nat) (text : List UInt8)
  deriving DecidableEq

/-- What is read from a frame: the numbers that stand for kinds, those that are lengths, and the message. -/
structure Layout where
  tags : List Varint
  lengths : List Varint
  shape : Shape
  deriving DecidableEq

def scanUuid (bytes : List UInt8) : Option (Varint × Uuid × List UInt8) := do
  let (length, run, bytes) ← Wire.scanBytes bytes
  let uuid ← Uuid.fromSlice run
  some (length, uuid, bytes)

def scanReason (pairId : PairId) (bytes : List UInt8) : Option Layout := do
  let (tag, bytes) ← Wire.scanVarint bytes
  match tag.value with
  | 0 => some ⟨[tag], [], .plain (.pairClose pairId .normal)⟩
  | 1 => some ⟨[tag], [], .plain (.pairClose pairId .serverGone)⟩
  | 2 => some ⟨[tag], [], .plain (.pairClose pairId .clientGone)⟩
  | 3 => some ⟨[tag], [], .plain (.pairClose pairId .stuck)⟩
  | 4 => some ⟨[tag], [], .plain (.pairClose pairId .relayShutdown)⟩
  | n =>
    let (length, text, _) ← Wire.scanBytes bytes
    some ⟨[tag], [length], .rejected pairId n text⟩

def scanCtrl (bytes : List UInt8) : Option Layout := do
  let (kind, bytes) ← Wire.scanVarint bytes
  match kind.value with
  | 0 =>
    let (uuidLength, serverId, bytes) ← scanUuid bytes
    let (keyLength, _, bytes) ← Wire.scanBytes bytes
    let (signatureLength, _, _) ← Wire.scanBytes bytes
    some ⟨[kind], [uuidLength, keyLength, signatureLength], .plain (.serverRegister ⟨serverId⟩)⟩
  | 1 => some ⟨[kind], [], .plain .serverRegisterOk⟩
  | 2 =>
    let (length, text, _) ← Wire.scanBytes bytes
    some ⟨[kind], [length], .registerErr text⟩
  | 3 => some ⟨[kind], [], .plain .serverHeartbeat⟩
  | 4 =>
    let (length, serverId, _) ← scanUuid bytes
    some ⟨[kind], [length], .plain (.clientConnect ⟨serverId⟩)⟩
  | 5 =>
    let (length, pairId, _) ← scanUuid bytes
    some ⟨[kind], [length], .plain (.pairInbound ⟨pairId⟩)⟩
  | 6 =>
    let (length, pairId, _) ← scanUuid bytes
    some ⟨[kind], [length], .plain (.pairOpen ⟨pairId⟩)⟩
  | 7 =>
    let (length, pairId, bytes) ← scanUuid bytes
    let why ← scanReason ⟨pairId⟩ bytes
    some ⟨kind :: why.tags, length :: why.lengths, why.shape⟩
  | _ => none

def scanData (bytes : List UInt8) : Option Layout := do
  let (kind, bytes) ← Wire.scanVarint bytes
  if kind.value ≠ 0 then none
  else
    let (uuidLength, pairId, bytes) ← scanUuid bytes
    let (length, payload, _) ← Wire.scanBytes bytes
    some ⟨[kind], [uuidLength, length], .plain (.dataForward ⟨pairId⟩ payload)⟩

def layout (bytes : List UInt8) : Option Layout :=
  match bytes with
  | [] => none
  | discriminator :: rest =>
    if discriminator = relayDiscCtrl then scanCtrl rest
    else if discriminator = relayDiscData then scanData rest
    else none

/-! ## The first tag -/

theorem scanReason_tag {pairId : PairId} {bytes : List UInt8} {l : Layout} (h : scanReason pairId bytes = some l) :
    ∃ v rest, Wire.scanVarint bytes = some (v, rest) ∧ v ∈ l.tags := by
  obtain ⟨⟨v, rest⟩, hv, h⟩ := Option.bind_eq_some_iff.mp h
  refine ⟨v, rest, hv, ?_⟩
  dsimp only at h
  split at h
  · cases h
    exact List.mem_cons_self
  · cases h
    exact List.mem_cons_self
  · cases h
    exact List.mem_cons_self
  · cases h
    exact List.mem_cons_self
  · cases h
    exact List.mem_cons_self
  · obtain ⟨_, _, h⟩ := Option.bind_eq_some_iff.mp h
    cases h
    exact List.mem_cons_self

theorem scanCtrl_tag {bytes : List UInt8} {l : Layout} (h : scanCtrl bytes = some l) :
    ∃ v rest, Wire.scanVarint bytes = some (v, rest) ∧ v ∈ l.tags := by
  obtain ⟨⟨v, rest⟩, hv, h⟩ := Option.bind_eq_some_iff.mp h
  refine ⟨v, rest, hv, ?_⟩
  dsimp only at h
  split at h
  · obtain ⟨_, _, h⟩ := Option.bind_eq_some_iff.mp h
    obtain ⟨_, _, h⟩ := Option.bind_eq_some_iff.mp h
    obtain ⟨_, _, h⟩ := Option.bind_eq_some_iff.mp h
    cases h
    exact List.mem_cons_self
  · cases h
    exact List.mem_cons_self
  · obtain ⟨_, _, h⟩ := Option.bind_eq_some_iff.mp h
    cases h
    exact List.mem_cons_self
  · cases h
    exact List.mem_cons_self
  · obtain ⟨_, _, h⟩ := Option.bind_eq_some_iff.mp h
    cases h
    exact List.mem_cons_self
  · obtain ⟨_, _, h⟩ := Option.bind_eq_some_iff.mp h
    cases h
    exact List.mem_cons_self
  · obtain ⟨_, _, h⟩ := Option.bind_eq_some_iff.mp h
    cases h
    exact List.mem_cons_self
  · obtain ⟨_, _, h⟩ := Option.bind_eq_some_iff.mp h
    obtain ⟨_, _, h⟩ := Option.bind_eq_some_iff.mp h
    cases h
    exact List.mem_cons_self
  · cases h

theorem scanData_tag {bytes : List UInt8} {l : Layout} (h : scanData bytes = some l) :
    ∃ v rest, Wire.scanVarint bytes = some (v, rest) ∧ v ∈ l.tags := by
  obtain ⟨⟨v, rest⟩, hv, h⟩ := Option.bind_eq_some_iff.mp h
  refine ⟨v, rest, hv, ?_⟩
  dsimp only at h
  split at h
  · cases h
  · obtain ⟨_, _, h⟩ := Option.bind_eq_some_iff.mp h
    obtain ⟨_, _, h⟩ := Option.bind_eq_some_iff.mp h
    cases h
    exact List.mem_cons_self

/-! ## The worker -/

/-- The worker's limit on every number: eight bytes. -/
def Layout.Eight (l : Layout) : Prop := (∀ v ∈ l.tags, v.size ≤ 8) ∧ ∀ v ∈ l.lengths, v.size ≤ 8

/-- What the worker makes of it. -/
def Shape.lossy : Shape → RelayMessage
  | .plain m => m
  | .registerErr text => .serverRegisterErr (Utf8.textDecoder text)
  | .rejected pairId _ text => .pairClose pairId (.rejected (Utf8.textDecoder text))

theorem scanVarint_value_lt : ∀ {bytes rest : List UInt8} {v : Varint}, Wire.scanVarint bytes = some (v, rest) →
    v.value < 2 ^ (7 * v.size)
  | [], _, _, h => by cases h
  | b :: bytes, rest, v, h => by
    unfold Wire.scanVarint at h
    split at h
    · next hb =>
      cases h
      simpa using hb
    · have hb := b.toNat_lt
      obtain ⟨⟨w, rest'⟩, hw, h⟩ := Option.map_eq_some_iff.mp h
      cases h
      have ih := scanVarint_value_lt hw
      have hpow : 2 ^ (7 * (w.size + 1)) = 128 * 2 ^ (7 * w.size) := by rw [Nat.mul_add, Nat.pow_add, Nat.mul_comm]
      simp only [hpow]
      omega

/-- Eight bytes are all the worker asks of a number. -/
theorem eight_bytes {bytes rest : List UInt8} {v : Varint} (h : Wire.scanVarint bytes = some (v, rest)) :
    v.size ≤ 7 + 1 ∧ v.value < (0x7f + 1) * 2 ^ (7 * 7) ↔ v.size ≤ 8 := by
  constructor
  · exact fun hlimit => hlimit.1
  · intro hsize
    have hpow : 2 ^ (7 * v.size) ≤ 2 ^ (7 * 8) := Nat.pow_le_pow_right (by decide) (by omega)
    exact ⟨hsize, Nat.lt_of_lt_of_le (scanVarint_value_lt h) hpow⟩

theorem readVarint_iff {bytes rest : List UInt8} {n : Nat} :
    readVarint bytes = .ok (n, rest) ↔ ∃ v, Wire.scanVarint bytes = some (v, rest) ∧ v.value = n ∧ v.size ≤ 8 := by
  unfold readVarint
  rw [Wire.mapError_eq_ok, Wire.takeVarint_iff_scan (by decide)]
  constructor
  · rintro ⟨v, hv, rfl, hlimit⟩
    exact ⟨v, hv, rfl, (eight_bytes hv).mp hlimit⟩
  · rintro ⟨v, hv, rfl, hsize⟩
    exact ⟨v, hv, rfl, (eight_bytes hv).mpr hsize⟩

theorem readByteArray_iff {bytes run rest : List UInt8} :
    readByteArray bytes = .ok (run, rest) ↔ ∃ v, Wire.scanBytes bytes = some (v, run, rest) ∧ v.size ≤ 8 := by
  unfold readByteArray
  rw [Wire.mapError_eq_ok, Wire.takeBytes_iff_scan (by decide)]
  have hscan : ∀ v, Wire.scanBytes bytes = some (v, run, rest) → ∃ rest', Wire.scanVarint bytes = some (v, rest') := by
    intro v hv
    obtain ⟨⟨w, rest'⟩, hw, hv⟩ := Option.bind_eq_some_iff.mp hv
    simp only at hv
    split at hv
    · cases hv
      exact ⟨rest', hw⟩
    · cases hv
  constructor
  · rintro ⟨v, hv, hlimit⟩
    obtain ⟨_, hw⟩ := hscan v hv
    exact ⟨v, hv, (eight_bytes hw).mp hlimit⟩
  · rintro ⟨v, hv, hsize⟩
    obtain ⟨_, hw⟩ := hscan v hv
    exact ⟨v, hv, (eight_bytes hw).mpr hsize⟩

theorem readUuid_iff {bytes rest : List UInt8} {u : Uuid} :
    readUuid bytes = .ok (u, rest) ↔ ∃ v, scanUuid bytes = some (v, u, rest) ∧ v.size ≤ 8 := by
  unfold readUuid scanUuid
  rw [Wire.bind_eq_ok]
  constructor
  · rintro ⟨⟨run, rest'⟩, hrun, h⟩
    obtain ⟨v, hv, hsize⟩ := readByteArray_iff.mp hrun
    simp only at h
    split at h
    · next hu =>
      cases h
      refine ⟨v, ?_, hsize⟩
      simp [hv, hu]
    · cases h
  · rintro ⟨v, hv, hsize⟩
    obtain ⟨⟨w, run, rest'⟩, hw, hv⟩ := Option.bind_eq_some_iff.mp hv
    obtain ⟨uuid, hu, hv⟩ := Option.bind_eq_some_iff.mp hv
    cases hv
    refine ⟨(run, rest), readByteArray_iff.mpr ⟨v, hw, hsize⟩, ?_⟩
    simp [hu]

theorem readString_iff {bytes rest : List UInt8} {s : String} :
    readString bytes = .ok (s, rest) ↔
      ∃ v text, Wire.scanBytes bytes = some (v, text, rest) ∧ v.size ≤ 8 ∧ Utf8.textDecoder text = s := by
  unfold readString
  rw [Wire.bind_eq_ok]
  constructor
  · rintro ⟨⟨text, rest'⟩, htext, h⟩
    cases h
    obtain ⟨v, hv, hsize⟩ := readByteArray_iff.mp htext
    exact ⟨v, text, hv, hsize, rfl⟩
  · rintro ⟨v, text, hv, hsize, rfl⟩
    exact ⟨(text, rest), readByteArray_iff.mpr ⟨v, hv, hsize⟩, rfl⟩

theorem readVarint_cases (bytes : List UInt8) :
    (Wire.scanVarint bytes = none ∧ ∀ p, readVarint bytes ≠ .ok p) ∨
    ∃ v rest, Wire.scanVarint bytes = some (v, rest) ∧
      (v.size ≤ 8 ∧ readVarint bytes = .ok (v.value, rest) ∨ ¬v.size ≤ 8 ∧ ∀ p, readVarint bytes ≠ .ok p) := by
  cases hv : Wire.scanVarint bytes with
  | none =>
    refine .inl ⟨rfl, fun p hp => ?_⟩
    obtain ⟨v, hv', _⟩ := readVarint_iff.mp hp
    rw [hv] at hv'
    cases hv'
  | some p =>
    obtain ⟨v, rest⟩ := p
    refine .inr ⟨v, rest, rfl, ?_⟩
    by_cases hsize : v.size ≤ 8
    · exact .inl ⟨hsize, readVarint_iff.mpr ⟨v, hv, rfl, hsize⟩⟩
    · refine .inr ⟨hsize, fun p hp => ?_⟩
      obtain ⟨w, hw, _, hsize'⟩ := readVarint_iff.mp hp
      rw [hv] at hw
      cases hw
      exact hsize hsize'

/-- The tags of a reason. -/
theorem reasonTag_cases (value : Nat) :
    (value = 0 ∨ value = 1 ∨ value = 2 ∨ value = 3 ∨ value = 4) ∨ ∃ n, value = n + 5 := by
  by_cases h : 5 ≤ value
  · exact .inr ⟨value - 5, by omega⟩
  · omega

/-- The tags of a control message: those with nothing behind them, those with fields, a reason's and others. -/
theorem ctrlTag_cases (value : Nat) : (value = 1 ∨ value = 3) ∨
    (value = 0 ∨ value = 2 ∨ value = 4 ∨ value = 5 ∨ value = 6) ∨ value = 7 ∨ ∃ n, value = n + 8 := by
  by_cases h : 8 ≤ value
  · exact .inr (.inr (.inr ⟨value - 8, by omega⟩))
  · omega

theorem readReason_iff {bytes : List UInt8} {pairId : PairId} {m : RelayMessage} :
    (∃ reason rest, readReason bytes = .ok (reason, rest) ∧ .pairClose pairId reason = m) ↔
      ∃ l, scanReason pairId bytes = some l ∧ l.Eight ∧ l.shape.lossy = m := by
  unfold readReason scanReason
  obtain ⟨hv, hread⟩ | ⟨⟨size, value⟩, rest, hv, ⟨hsize, hread⟩ | ⟨hsize, hread⟩⟩ := readVarint_cases bytes
  · simp [hv, Wire.bind_fail hread]
  · rw [hv, hread, Wire.ok_bind, Option.bind_eq_bind, Option.bind_some]
    obtain htag | ⟨n, rfl⟩ := reasonTag_cases value
    · rcases htag with rfl | rfl | rfl | rfl | rfl <;> simp [Layout.Eight, hsize, Shape.lossy]
    · simp only [Option.bind_eq_bind, Option.bind_eq_some_iff]
      simp [Wire.bind_eq_ok, readString_iff, Layout.Eight, hsize, Shape.lossy]
      grind
  · refine iff_of_false ?_ ?_
    · rintro ⟨reason, rest', hreason, -⟩
      exact (Wire.bind_fail hread _ _).mp hreason
    · rintro ⟨l, hl, hlimits, -⟩
      obtain ⟨v, rest', hv', hmem⟩ := scanReason_tag hl
      cases hv.symm.trans hv'
      exact hsize (hlimits.1 _ hmem)

theorem decodeCtrl_iff {bytes : List UInt8} {m : RelayMessage} :
    decodeCtrl bytes = .ok m ↔ ∃ l, scanCtrl bytes = some l ∧ l.Eight ∧ l.shape.lossy = m := by
  unfold decodeCtrl scanCtrl
  obtain ⟨hv, hread⟩ | ⟨⟨size, value⟩, rest, hv, ⟨hsize, hread⟩ | ⟨hsize, hread⟩⟩ := readVarint_cases bytes
  · simp [hv, Wire.bind_fail hread]
  · rw [hv, hread, Wire.ok_bind, Option.bind_eq_bind, Option.bind_some]
    obtain hempty | hfields | rfl | ⟨n, rfl⟩ := ctrlTag_cases value
    · rcases hempty with rfl | rfl <;> simp [Layout.Eight, hsize, Shape.lossy]
    · rcases hfields with rfl | rfl | rfl | rfl | rfl
      · simp only [Option.bind_eq_bind, Option.bind_eq_some_iff, Wire.bind_eq_ok, Prod.exists, Option.some.injEq,
          Except.ok.injEq, readUuid_iff, readByteArray_iff]
        constructor
        · rintro ⟨u, rest, ⟨v, hu, hv⟩, key, rest', ⟨w, hkey, hw⟩, signature, rest'', ⟨x, hsignature, hx⟩, rfl⟩
          exact ⟨_, ⟨v, u, rest, hu, w, key, rest', hkey, x, signature, rest'', hsignature, rfl⟩,
            ⟨List.forall_mem_singleton.mpr hsize, List.forall_mem_cons.mpr ⟨hv, List.forall_mem_cons.mpr
              ⟨hw, List.forall_mem_singleton.mpr hx⟩⟩⟩, rfl⟩
        · rintro ⟨_, ⟨v, u, rest, hu, w, key, rest', hkey, x, signature, rest'', hsignature, rfl⟩, ⟨-, hlengths⟩, rfl⟩
          obtain ⟨hv, hlengths⟩ := List.forall_mem_cons.mp hlengths
          obtain ⟨hw, hlengths⟩ := List.forall_mem_cons.mp hlengths
          have hx := List.forall_mem_singleton.mp hlengths
          exact ⟨u, rest, ⟨v, hu, hv⟩, key, rest', ⟨w, hkey, hw⟩, signature, rest'', ⟨x, hsignature, hx⟩, rfl⟩
      all_goals
        simp only [Option.bind_eq_bind, Option.bind_eq_some_iff, Wire.bind_eq_ok, Prod.exists, Option.some.injEq,
          Except.ok.injEq, readUuid_iff, readString_iff]
        grind [Layout.Eight, Shape.lossy]
    · have hreason := fun p rest => @readReason_iff rest p m
      change (readUuid rest >>= fun p => readReason p.2 >>= fun q => .ok (.pairClose ⟨p.1⟩ q.1)) = .ok m ↔ _
      simp only [Option.bind_eq_bind, Option.bind_eq_some_iff, Prod.exists, Option.some.injEq,
        Wire.bind_eq_ok, readUuid_iff, Except.ok.injEq]
      constructor
      · rintro ⟨u, rest, ⟨v, hv, hsize'⟩, reason, rest', hr, rfl⟩
        obtain ⟨l, hl, ⟨htags, hlengths⟩, hm⟩ := (hreason _ _).mp ⟨reason, rest', hr, rfl⟩
        exact ⟨_, ⟨v, u, rest, hv, l, hl, rfl⟩, ⟨List.forall_mem_cons.mpr ⟨hsize, htags⟩,
          List.forall_mem_cons.mpr ⟨hsize', hlengths⟩⟩, hm⟩
      · rintro ⟨_, ⟨v, u, rest, hv, l, hl, rfl⟩, ⟨htags, hlengths⟩, hm⟩
        obtain ⟨_, htags⟩ := List.forall_mem_cons.mp htags
        obtain ⟨hsize', hlengths⟩ := List.forall_mem_cons.mp hlengths
        obtain ⟨reason, rest', hr, rfl⟩ := (hreason _ _).mpr ⟨l, hl, ⟨htags, hlengths⟩, hm⟩
        exact ⟨u, rest, ⟨v, hv, hsize'⟩, reason, rest', hr, rfl⟩
    · simp
  · refine iff_of_false ?_ ?_
    · exact (Wire.bind_fail hread _ _).mp
    · rintro ⟨l, hl, hlimits, -⟩
      obtain ⟨v, rest', hv', hmem⟩ := scanCtrl_tag hl
      cases hv.symm.trans hv'
      exact hsize (hlimits.1 _ hmem)

theorem decodeData_iff {bytes : List UInt8} {m : RelayMessage} :
    decodeData bytes = .ok m ↔ ∃ l, scanData bytes = some l ∧ l.Eight ∧ l.shape.lossy = m := by
  unfold decodeData scanData
  obtain ⟨hv, hread⟩ | ⟨⟨size, value⟩, rest, hv, ⟨hsize, hread⟩ | ⟨hsize, hread⟩⟩ := readVarint_cases bytes
  · simp [hv, Wire.bind_fail hread]
  · rw [hv, hread, Wire.ok_bind, Option.bind_eq_bind, Option.bind_some]
    by_cases hkind : value = 0
    · simp [Wire.bind_eq_ok, Option.bind_eq_some_iff, readByteArray_iff, readUuid_iff, Layout.Eight, hsize, Shape.lossy,
        hkind]
      grind
    · simp [hkind]
  · refine iff_of_false ?_ ?_
    · exact (Wire.bind_fail hread _ _).mp
    · rintro ⟨l, hl, hlimits, -⟩
      obtain ⟨v, rest', hv', hmem⟩ := scanData_tag hl
      cases hv.symm.trans hv'
      exact hsize (hlimits.1 _ hmem)

/-- **What the worker accepts**: frames that are laid out as a message, each number in at most eight bytes. -/
theorem decodeRelay_iff_layout {bytes : List UInt8} {m : RelayMessage} :
    decodeRelay bytes = .ok m ↔ ∃ l, layout bytes = some l ∧ l.Eight ∧ l.shape.lossy = m := by
  cases bytes with
  | nil => simp [decodeRelay, layout]
  | cons discriminator rest =>
    unfold decodeRelay layout
    simp only
    split
    · exact decodeCtrl_iff
    · split
      · exact decodeData_iff
      · simp

/-! ## Rust -/

def IsU32 (v : Varint) : Prop := v.size ≤ 5 ∧ v.value < 2 ^ 32

def IsUsize (v : Varint) : Prop := v.size ≤ 10 ∧ v.value < 2 ^ 64

/-- Postcard's limits: a tag is a `u32`, a length a `usize`. -/
def Layout.Narrow (l : Layout) : Prop := (∀ v ∈ l.tags, IsU32 v) ∧ ∀ v ∈ l.lengths, IsUsize v

/-- What Rust makes of it; `none` where the text is not UTF-8 or the tag of a reason is unknown. -/
def Shape.strict : Shape → Option RelayMessage
  | .plain m => some m
  | .registerErr text => (Utf8.fromUtf8 text).map .serverRegisterErr
  | .rejected pairId tag text =>
    if tag = 5 then (Utf8.fromUtf8 text).map fun message => .pairClose pairId (.rejected message) else none

theorem takeTag_iff {bytes rest : List UInt8} {n : Nat} :
    Postcard.takeTag bytes = .ok (n, rest) ↔
      ∃ v, Wire.scanVarint bytes = some (v, rest) ∧ v.value = n ∧ IsU32 v := by
  unfold Postcard.takeTag
  rw [Wire.mapError_eq_ok, Wire.takeVarint_iff_scan (by decide)]
  constructor
  · rintro ⟨v, hv, rfl, hsize, hlt⟩
    exact ⟨v, hv, rfl, hsize, hlt⟩
  · rintro ⟨v, hv, rfl, hsize, hlt⟩
    exact ⟨v, hv, rfl, hsize, hlt⟩

theorem takeBytes_iff {bytes run rest : List UInt8} :
    Postcard.takeBytes bytes = .ok (run, rest) ↔
      ∃ v, Wire.scanBytes bytes = some (v, run, rest) ∧ IsUsize v := by
  unfold Postcard.takeBytes
  rw [Wire.mapError_eq_ok, Wire.takeBytes_iff_scan (by decide)]
  exact Iff.rfl

theorem takeStr_iff {bytes rest : List UInt8} {s : String} :
    Postcard.takeStr bytes = .ok (s, rest) ↔
      ∃ v text, Wire.scanBytes bytes = some (v, text, rest) ∧ IsUsize v ∧
        Utf8.fromUtf8 text = some s := by
  unfold Postcard.takeStr
  rw [Wire.bind_eq_ok]
  constructor
  · rintro ⟨⟨text, rest'⟩, htext, h⟩
    obtain ⟨v, hv, hlimit⟩ := takeBytes_iff.mp htext
    simp only at h
    split at h
    · next hs =>
      cases h
      exact ⟨v, text, hv, hlimit, hs⟩
    · cases h
  · rintro ⟨v, text, hv, hlimit, hs⟩
    refine ⟨(text, rest), takeBytes_iff.mpr ⟨v, hv, hlimit⟩, ?_⟩
    simp [hs]

theorem takeUuid_iff {bytes rest : List UInt8} {u : Uuid} :
    Uuid.take bytes = .ok (u, rest) ↔ ∃ v, scanUuid bytes = some (v, u, rest) ∧ IsUsize v := by
  unfold Uuid.take scanUuid
  rw [Wire.bind_eq_ok]
  constructor
  · rintro ⟨⟨run, rest'⟩, hrun, h⟩
    obtain ⟨v, hv, hlimit⟩ := takeBytes_iff.mp hrun
    simp only at h
    split at h
    · next hu =>
      cases h
      refine ⟨v, ?_, hlimit⟩
      simp [hv, hu]
    · cases h
  · rintro ⟨v, hv, hlimit⟩
    obtain ⟨⟨w, run, rest'⟩, hw, hv⟩ := Option.bind_eq_some_iff.mp hv
    obtain ⟨uuid, hu, hv⟩ := Option.bind_eq_some_iff.mp hv
    cases hv
    refine ⟨(run, rest), takeBytes_iff.mpr ⟨v, hw, hlimit⟩, ?_⟩
    simp [hu]

theorem takeTag_cases (bytes : List UInt8) :
    (Wire.scanVarint bytes = none ∧ ∀ p, Postcard.takeTag bytes ≠ .ok p) ∨
    ∃ v rest, Wire.scanVarint bytes = some (v, rest) ∧
      (IsU32 v ∧ Postcard.takeTag bytes = .ok (v.value, rest) ∨
        ¬IsU32 v ∧ ∀ p, Postcard.takeTag bytes ≠ .ok p) := by
  cases hv : Wire.scanVarint bytes with
  | none =>
    refine .inl ⟨rfl, fun p hp => ?_⟩
    obtain ⟨v, hv', _⟩ := takeTag_iff.mp hp
    rw [hv] at hv'
    cases hv'
  | some p =>
    obtain ⟨v, rest⟩ := p
    refine .inr ⟨v, rest, rfl, ?_⟩
    by_cases hlimit : IsU32 v
    · exact .inl ⟨hlimit, takeTag_iff.mpr ⟨v, hv, rfl, hlimit⟩⟩
    · refine .inr ⟨hlimit, fun p hp => ?_⟩
      obtain ⟨w, hw, _, hlimit'⟩ := takeTag_iff.mp hp
      rw [hv] at hw
      cases hw
      exact hlimit hlimit'

theorem takeReason_iff {bytes : List UInt8} {pairId : PairId} {m : RelayMessage} :
    (∃ reason rest, PairCloseReason.take bytes = .ok (reason, rest) ∧ .pairClose pairId reason = m) ↔
      ∃ l, scanReason pairId bytes = some l ∧ l.Narrow ∧ l.shape.strict = some m := by
  unfold PairCloseReason.take scanReason
  obtain ⟨hv, hread⟩ | ⟨⟨size, value⟩, rest, hv, ⟨hlimit, hread⟩ | ⟨hlimit, hread⟩⟩ := takeTag_cases bytes
  · simp [hv, Wire.bind_fail hread]
  · rw [hv, hread, Wire.ok_bind, Option.bind_eq_bind, Option.bind_some]
    obtain htag | ⟨n, rfl⟩ := reasonTag_cases value
    · rcases htag with rfl | rfl | rfl | rfl | rfl <;> simp [Layout.Narrow, Shape.strict, hlimit]
    · rcases n with _ | n
      · simp [Wire.bind_eq_ok, takeStr_iff, Layout.Narrow, Shape.strict, Option.bind_eq_some_iff, hlimit]
        grind
      · simp [Shape.strict, Option.bind_eq_some_iff]
  · refine iff_of_false ?_ ?_
    · rintro ⟨reason, rest', hreason, -⟩
      exact (Wire.bind_fail hread _ _).mp hreason
    · rintro ⟨l, hl, hlimits, -⟩
      obtain ⟨v, rest', hv', hmem⟩ := scanReason_tag hl
      cases hv.symm.trans hv'
      exact hlimit (hlimits.1 _ hmem)

theorem takeCtrl_iff {bytes : List UInt8} {m : RelayMessage} :
    (∃ ctrl rest, RelayCtrl.take bytes = .ok (ctrl, rest) ∧ message (.ctrl ctrl) = m) ↔
      ∃ l, scanCtrl bytes = some l ∧ l.Narrow ∧ l.shape.strict = some m := by
  unfold RelayCtrl.take scanCtrl
  obtain ⟨hv, hread⟩ | ⟨⟨size, value⟩, rest, hv, ⟨hlimit, hread⟩ | ⟨hlimit, hread⟩⟩ := takeTag_cases bytes
  · simp [hv, Wire.bind_fail hread]
  · rw [hv, hread, Wire.ok_bind, Option.bind_eq_bind, Option.bind_some]
    obtain hempty | hfields | rfl | ⟨n, rfl⟩ := ctrlTag_cases value
    · rcases hempty with rfl | rfl <;> simp [Layout.Narrow, hlimit, Shape.strict, message]
    · rcases hfields with rfl | rfl | rfl | rfl | rfl
      · simp only [Option.bind_eq_bind, Option.bind_eq_some_iff, Wire.bind_eq_ok, Prod.exists, Option.some.injEq,
          Except.ok.injEq, Prod.mk.injEq, takeUuid_iff, takeBytes_iff]
        constructor
        · rintro ⟨_, _, ⟨u, rest, ⟨v, hu, hv⟩, key, rest', ⟨w, hkey, hw⟩, signature, rest'', ⟨x, hsignature, hx⟩, rfl,
            rfl⟩, rfl⟩
          exact ⟨_, ⟨v, u, rest, hu, w, key, rest', hkey, x, signature, rest'', hsignature, rfl⟩,
            ⟨List.forall_mem_singleton.mpr hlimit, List.forall_mem_cons.mpr ⟨hv, List.forall_mem_cons.mpr
              ⟨hw, List.forall_mem_singleton.mpr hx⟩⟩⟩, rfl⟩
        · rintro ⟨_, ⟨v, u, rest, hu, w, key, rest', hkey, x, signature, rest'', hsignature, rfl⟩, ⟨-, hlengths⟩, hm⟩
          obtain ⟨hv, hlengths⟩ := List.forall_mem_cons.mp hlengths
          obtain ⟨hw, hlengths⟩ := List.forall_mem_cons.mp hlengths
          have hx := List.forall_mem_singleton.mp hlengths
          exact ⟨_, _, ⟨u, rest, ⟨v, hu, hv⟩, key, rest', ⟨w, hkey, hw⟩, signature, rest'', ⟨x, hsignature, hx⟩, rfl,
            rfl⟩, Option.some.inj hm⟩
      · simp [Wire.bind_eq_ok, Option.bind_eq_some_iff, takeStr_iff, Layout.Narrow, hlimit, Shape.strict, message]
        grind
      all_goals
        simp only [Option.bind_eq_bind, Option.bind_eq_some_iff, Wire.bind_eq_ok, Prod.exists, Option.some.injEq,
          Except.ok.injEq, Prod.mk.injEq, takeUuid_iff]
        grind [Layout.Narrow, Shape.strict, message]
    · have hreason := fun p rest => @takeReason_iff rest p m
      change (∃ ctrl rest', (Uuid.take rest >>= fun p => PairCloseReason.take p.2 >>= fun q =>
        .ok (.pairClose ⟨p.1⟩ q.1, q.2)) = .ok (ctrl, rest') ∧ message (.ctrl ctrl) = m) ↔ _
      simp only [Option.bind_eq_bind, Option.bind_eq_some_iff, Prod.exists, Option.some.injEq,
        Wire.bind_eq_ok, takeUuid_iff, Except.ok.injEq, Prod.mk.injEq]
      constructor
      · rintro ⟨_, _, ⟨u, rest, ⟨v, hv, hlimit'⟩, reason, rest', hr, rfl, rfl⟩, rfl⟩
        obtain ⟨l, hl, ⟨htags, hlengths⟩, hm⟩ := (hreason _ _).mp ⟨reason, rest', hr, rfl⟩
        exact ⟨_, ⟨v, u, rest, hv, l, hl, rfl⟩, ⟨List.forall_mem_cons.mpr ⟨hlimit, htags⟩,
          List.forall_mem_cons.mpr ⟨hlimit', hlengths⟩⟩, hm⟩
      · rintro ⟨_, ⟨v, u, rest, hv, l, hl, rfl⟩, ⟨htags, hlengths⟩, hm⟩
        obtain ⟨_, htags⟩ := List.forall_mem_cons.mp htags
        obtain ⟨hlimit', hlengths⟩ := List.forall_mem_cons.mp hlengths
        obtain ⟨reason, rest', hr, rfl⟩ := (hreason _ _).mpr ⟨l, hl, ⟨htags, hlengths⟩, hm⟩
        exact ⟨_, _, ⟨u, rest, ⟨v, hv, hlimit'⟩, reason, rest', hr, rfl, rfl⟩, rfl⟩
    · simp
  · refine iff_of_false ?_ ?_
    · rintro ⟨ctrl, rest', hctrl, -⟩
      exact (Wire.bind_fail hread _ _).mp hctrl
    · rintro ⟨l, hl, hlimits, -⟩
      obtain ⟨v, rest', hv', hmem⟩ := scanCtrl_tag hl
      cases hv.symm.trans hv'
      exact hlimit (hlimits.1 _ hmem)

theorem takeData_iff {bytes : List UInt8} {m : RelayMessage} :
    (∃ data rest, RelayData.take bytes = .ok (data, rest) ∧ message (.data data) = m) ↔
      ∃ l, scanData bytes = some l ∧ l.Narrow ∧ l.shape.strict = some m := by
  unfold RelayData.take scanData
  obtain ⟨hv, hread⟩ | ⟨⟨size, value⟩, rest, hv, ⟨hlimit, hread⟩ | ⟨hlimit, hread⟩⟩ := takeTag_cases bytes
  · simp [hv, Wire.bind_fail hread]
  · rw [hv, hread, Wire.ok_bind, Option.bind_eq_bind, Option.bind_some]
    by_cases hkind : value = 0
    · subst hkind
      simp [Wire.bind_eq_ok, Option.bind_eq_some_iff, takeBytes_iff, takeUuid_iff, Layout.Narrow, hlimit, Shape.strict,
        message]
      grind
    · simp [hkind]
  · refine iff_of_false ?_ ?_
    · rintro ⟨data, rest', hdata, -⟩
      exact (Wire.bind_fail hread _ _).mp hdata
    · rintro ⟨l, hl, hlimits, -⟩
      obtain ⟨v, rest', hv', hmem⟩ := scanData_tag hl
      cases hv.symm.trans hv'
      exact hlimit (hlimits.1 _ hmem)

theorem map_eq_ok {ε α β : Type} {x : Except ε α} {f : α → β} {b : β} : x.map f = .ok b ↔ ∃ a, x = .ok a ∧ f a = b := by
  cases x <;> simp [Except.map]

/-- **What Rust accepts**: frames that are laid out as a message, within postcard's limits and with a text that is
UTF-8. -/
theorem rustDecode_iff_layout {bytes : List UInt8} {m : RelayMessage} :
    (∃ w, CliPocket.decodeRelay bytes = .ok w ∧ message w = m) ↔
      ∃ l, layout bytes = some l ∧ l.Narrow ∧ l.shape.strict = some m := by
  cases bytes with
  | nil => simp [CliPocket.decodeRelay, layout]
  | cons discriminator rest =>
    unfold CliPocket.decodeRelay layout
    simp only
    split
    · rw [← takeCtrl_iff]
      simp only [Wire.mapError_eq_ok, map_eq_ok, Postcard.fromBytes_eq_ok]
      constructor
      · rintro ⟨_, ⟨ctrl, ⟨rest', h⟩, rfl⟩, hm⟩
        exact ⟨ctrl, rest', h, hm⟩
      · rintro ⟨ctrl, rest', h, hm⟩
        exact ⟨_, ⟨ctrl, ⟨rest', h⟩, rfl⟩, hm⟩
    · split
      · rw [← takeData_iff]
        simp only [Wire.mapError_eq_ok, map_eq_ok, Postcard.fromBytes_eq_ok]
        constructor
        · rintro ⟨_, ⟨data, ⟨rest', h⟩, rfl⟩, hm⟩
          exact ⟨data, rest', h, hm⟩
        · rintro ⟨data, rest', h, hm⟩
          exact ⟨_, ⟨data, ⟨rest', h⟩, rfl⟩, hm⟩
      · simp

/-! ## Where the two agree -/

/-- The text is UTF-8, and the tag of a reason is a known one. -/
def Shape.WellFormed : Shape → Prop
  | .plain _ => True
  | .registerErr text => (Utf8.fromUtf8 text).isSome
  | .rejected _ tag text => tag = 5 ∧ (Utf8.fromUtf8 text).isSome

instance (s : Shape) : Decidable s.WellFormed := by
  cases s <;> unfold Shape.WellFormed <;> infer_instance

/-- The text is UTF-8 and begins with a byte order mark. -/
def Shape.Marked : Shape → Prop
  | .plain _ => False
  | .registerErr text | .rejected _ _ text => ∃ s, Utf8.fromUtf8 text = some s ∧ s.toList.head? = some '\ufeff'

/-- The worker's limits and the text's form coincide with what Rust asks, and the text has no byte order mark that the
worker would drop. -/
def Layout.Common (l : Layout) : Prop :=
  (l.Eight ↔ l.Narrow ∧ l.shape.WellFormed) ∧ (l.Eight → ¬l.shape.Marked)

theorem textDecoder_of_fromUtf8 {text : List UInt8} {s : String} (h : Utf8.fromUtf8 text = some s) :
    Utf8.textDecoder text = s ↔ s.toList.head? ≠ some '\ufeff' := by
  have hsame : Utf8.textDecoder text = Utf8.textDecoder (Utf8.encode s) := by
    rw [Utf8.textDecoder_encode, Utf8.textDecoder_of_decode (Utf8.decode_of_fromUtf8 h)]
  rw [hsame]
  exact textDecoder_eq_self

theorem strict_isSome {s : Shape} : (∃ m, s.strict = some m) ↔ s.WellFormed := by
  cases s with
  | plain m => simp [Shape.strict, Shape.WellFormed]
  | registerErr text => simp [Shape.strict, Shape.WellFormed, Option.isSome_iff_exists]
  | rejected pairId tag text =>
    by_cases htag : tag = 5 <;> simp [Shape.strict, Shape.WellFormed, Option.isSome_iff_exists, htag]

/-- The two readings of a well-formed text differ by a byte order mark only. -/
theorem strict_eq_lossy {s : Shape} (h : s.WellFormed) : s.strict = some s.lossy ↔ ¬s.Marked := by
  cases s with
  | plain m => simp [Shape.strict, Shape.lossy, Shape.Marked]
  | registerErr text =>
    obtain ⟨t, ht⟩ := Option.isSome_iff_exists.mp h
    have hsame := textDecoder_of_fromUtf8 ht
    rw [eq_comm] at hsame
    simp [Shape.strict, Shape.lossy, Shape.Marked, ht, hsame]
  | rejected pairId tag text =>
    obtain ⟨rfl, hsome⟩ := h
    obtain ⟨t, ht⟩ := Option.isSome_iff_exists.mp hsome
    have hsame := textDecoder_of_fromUtf8 ht
    rw [eq_comm] at hsame
    simp [Shape.strict, Shape.lossy, Shape.Marked, ht, hsame]

/-- **On which byte strings the two decoders agree**: those that are not laid out as a message, and those where the
worker's limits come to the same as Rust's limits and form, with no byte order mark at the front of the text. -/
theorem decoders_agree_iff (bytes : List UInt8) :
    (∀ m, decodeRelay bytes = .ok m ↔ ∃ w, CliPocket.decodeRelay bytes = .ok w ∧ message w = m) ↔
      ∀ l, layout bytes = some l → l.Common := by
  simp only [decodeRelay_iff_layout, rustDecode_iff_layout]
  cases hl : layout bytes with
  | none => simp
  | some l =>
    simp only [Option.some.injEq, exists_eq_left', forall_eq']
    constructor
    · intro h
      have hlossy : l.Eight → l.Narrow ∧ l.shape.strict = some l.shape.lossy := fun height => (h _).mp ⟨height, rfl⟩
      refine ⟨⟨fun height => ?_, ?_⟩, fun height => ?_⟩
      · exact ⟨(hlossy height).1, strict_isSome.mp ⟨_, (hlossy height).2⟩⟩
      · rintro ⟨hnarrow, hform⟩
        obtain ⟨m, hm⟩ := strict_isSome.mpr hform
        exact ((h m).mpr ⟨hnarrow, hm⟩).1
      · exact (strict_eq_lossy (strict_isSome.mp ⟨_, (hlossy height).2⟩)).mp (hlossy height).2
    · rintro ⟨hlimits, hmark⟩ m
      constructor
      · rintro ⟨height, rfl⟩
        obtain ⟨hnarrow, hform⟩ := hlimits.mp height
        exact ⟨hnarrow, (strict_eq_lossy hform).mpr (hmark height)⟩
      · rintro ⟨hnarrow, hm⟩
        have hform := strict_isSome.mp ⟨m, hm⟩
        have height := hlimits.mpr ⟨hnarrow, hform⟩
        rw [(strict_eq_lossy hform).mpr (hmark height)] at hm
        exact ⟨height, Option.some.inj hm⟩

/-- **A frame that the worker takes and Rust does not**: the tag of its reason is 6. -/
theorem unknown_reason_is_taken :
    (∃ m, decodeRelay ([relayDiscCtrl, 7, 16] ++ (Uuid.splat 1).bytes ++ [6, 0]) = .ok m) ∧
      ∀ w, CliPocket.decodeRelay ([relayDiscCtrl, 7, 16] ++ (Uuid.splat 1).bytes ++ [6, 0]) ≠ .ok w := by
  refine ⟨⟨.pairClose ⟨.splat 1⟩ (.rejected ""), by decide +kernel⟩, ?_⟩
  intro w h
  have herror : CliPocket.decodeRelay ([relayDiscCtrl, 7, 16] ++ (Uuid.splat 1).bytes ++ [6, 0]) =
      .error (.postcard .serdeDeCustom) := by
    decide +kernel
  rw [herror] at h
  cases h

end Worker

end CliPocket
