import Mathlib.Algebra.Order.Ring.Int
import Mathlib.Data.List.Basic

/-!
# Reading bytes off the front

What binary formats share: a number of seven-bit groups, least group first, every byte but the last with its top
bit set; a run of bytes; a run of bytes behind its length. A reader returns what it read and the bytes after it.

- `Spells k last bytes v`: the numbers a reader of at most `k` bytes accepts, where a `k`-th byte is at most `last`;
- `takeVarint_eq_ok`, `takeN_eq_ok`, `takeBytes_eq_ok`: each reader accepts its grammar, whatever follows;
- `spells_putVarint`, `takeBytes_putBytes`: the writers keep to it, and what they wrote is what is read;
- `takeVarint_iff_scan`, `takeBytes_iff_scan`: a reader with limits is one without, and the limits.
-/

namespace Wire

/-- Why a reader stops. -/
inductive Fault
  | unexpectedEnd
  | overlong
  deriving DecidableEq

/-! ## Results one after the other -/

variable {α β : Type}

theorem bind_eq_ok {ε : Type*} {x : Except ε α} {f : α → Except ε β} {b : β} :
    (x >>= f) = .ok b ↔ ∃ a, x = .ok a ∧ f a = .ok b := by
  cases x with
  | error e => simp [bind, Except.bind]
  | ok a => simp [bind, Except.bind]

theorem ok_bind {ε : Type*} (a : α) (f : α → Except ε β) : (Except.ok a >>= f) = f a := rfl

/-- Nothing follows what has failed. -/
theorem bind_fail {ε : Type*} {x : Except ε α} (h : ∀ a, x ≠ .ok a) (f : α → Except ε β) (b : β) :
    (x >>= f) = .ok b ↔ False := by
  rw [bind_eq_ok]
  constructor
  · rintro ⟨a, ha, _⟩
    exact h a ha
  · exact False.elim

@[simp] theorem mapError_eq_ok {ε ε' : Type*} {x : Except ε α} {f : ε → ε'} {a : α} : x.mapError f = .ok a ↔ x = .ok a := by
  cases x <;> simp [Except.mapError]

/-! ## Numbers -/

/-- The bytes of `n`, with `fuel` for as many. -/
def varintBytes : Nat → Nat → List UInt8
  | 0, _ => []
  | fuel + 1, n => if n < 0x80 then [n.toUInt8] else (n % 0x80 + 0x80).toUInt8 :: varintBytes fuel (n / 0x80)

/-- The shortest spelling of `n`. -/
def putVarint (n : Nat) : List UInt8 := varintBytes (n + 1) n

theorem length_varintBytes_le : ∀ {fuel n k : Nat}, n < 2 ^ (7 * k) → 0 < k → (varintBytes fuel n).length ≤ k
  | 0, _, _, _, _ => Nat.zero_le _
  | _ + 1, _, 0, _, hk => absurd hk (Nat.lt_irrefl 0)
  | fuel + 1, n, k + 1, h, _ => by
    unfold varintBytes
    split
    · exact Nat.succ_le_succ (Nat.zero_le k)
    · next hn =>
      have hpow : n < 128 * 2 ^ (7 * k) := by
        rw [Nat.mul_add, Nat.pow_add] at h
        omega
      have hk : 0 < k := by
        rcases Nat.eq_zero_or_pos k with rfl | hk
        · exact absurd hpow (by omega)
        · exact hk
      exact Nat.succ_le_succ (length_varintBytes_le (Nat.div_lt_of_lt_mul hpow) hk)

/-- Seven bits a byte. -/
theorem length_putVarint_le {n k : Nat} (h : n < 2 ^ (7 * k)) (hk : 0 < k) : (putVarint n).length ≤ k :=
  length_varintBytes_le h hk

theorem length_varintBytes_mono : ∀ {fuel m n : Nat}, m ≤ n →
    (varintBytes fuel m).length ≤ (varintBytes fuel n).length
  | 0, _, _, _ => Nat.le_refl _
  | fuel + 1, m, n, h => by
    unfold varintBytes
    split
    · split
      · exact Nat.le_refl _
      · exact Nat.succ_le_succ (Nat.zero_le _)
    · rw [if_neg (by omega)]
      exact Nat.succ_le_succ (length_varintBytes_mono (Nat.div_le_div_right h))

/-- A number of at most `k` bytes; a `k`-th byte is at most `last`. -/
def takeVarint : Nat → Nat → List UInt8 → Except Fault (Nat × List UInt8)
  | 0, _, _ => .error .overlong
  | _ + 1, _, [] => .error .unexpectedEnd
  | k + 1, last, b :: rest =>
    if b.toNat < 0x80 then if k = 0 ∧ last < b.toNat then .error .overlong else .ok (b.toNat, rest)
    else do
      let (v, rest) ← takeVarint k last rest
      .ok (b.toNat - 0x80 + 0x80 * v, rest)

/-- What `takeVarint k last` accepts, and the number it stands for. -/
inductive Spells : Nat → Nat → List UInt8 → Nat → Prop
  | last {k last : Nat} {b : UInt8} (hb : b.toNat < 0x80) (hlast : k = 0 → b.toNat ≤ last) :
      Spells (k + 1) last [b] b.toNat
  | more {k last v : Nat} {b : UInt8} {bytes : List UInt8} (hb : 0x80 ≤ b.toNat) (h : Spells k last bytes v) :
      Spells (k + 1) last (b :: bytes) (b.toNat - 0x80 + 0x80 * v)

theorem takeVarint_of_spells {k last v : Nat} {bytes : List UInt8} (h : Spells k last bytes v) (rest : List UInt8) :
    takeVarint k last (bytes ++ rest) = .ok (v, rest) := by
  induction h with
  | last hb hlast =>
    simp only [List.cons_append, List.nil_append, takeVarint]
    rw [if_pos hb, if_neg]
    rintro ⟨hk, hlt⟩
    have := hlast hk
    omega
  | more hb _ ih =>
    simp only [List.cons_append, takeVarint]
    rw [if_neg (by omega), ih]
    rfl

theorem spells_of_takeVarint : ∀ {k last v : Nat} {bytes rest : List UInt8},
    takeVarint k last bytes = .ok (v, rest) → ∃ spelled, bytes = spelled ++ rest ∧ Spells k last spelled v
  | 0, _, _, _, _, h => by cases h
  | _ + 1, _, _, [], _, h => by cases h
  | k + 1, last, v, b :: bytes, rest, h => by
    simp only [takeVarint] at h
    by_cases hb : b.toNat < 0x80
    · rw [if_pos hb] at h
      split at h
      · cases h
      · next hlast =>
        cases h
        exact ⟨[b], rfl, .last hb fun hk => by omega⟩
    · rw [if_neg hb] at h
      obtain ⟨⟨w, rest'⟩, hw, h⟩ := bind_eq_ok.mp h
      cases h
      obtain ⟨spelled, rfl, hs⟩ := spells_of_takeVarint hw
      exact ⟨b :: spelled, rfl, .more (by omega) hs⟩

/-- **A number is read exactly where the bytes spell one.** -/
theorem takeVarint_eq_ok {k last v : Nat} {bytes rest : List UInt8} :
    takeVarint k last bytes = .ok (v, rest) ↔ ∃ spelled, bytes = spelled ++ rest ∧ Spells k last spelled v := by
  constructor
  · exact spells_of_takeVarint
  · rintro ⟨spelled, rfl, h⟩
    exact takeVarint_of_spells h rest

theorem spells_varintBytes {last : Nat} (hlast : last ≤ 0x7f) : ∀ {fuel n k : Nat}, n < fuel →
    n < (last + 1) * 2 ^ (7 * k) → Spells (k + 1) last (varintBytes fuel n) n
  | 0, _, _, hfuel, _ => absurd hfuel (Nat.not_lt_zero _)
  | fuel + 1, n, k, hfuel, hn => by
    unfold varintBytes
    by_cases hsmall : n < 0x80
    · have hb : (n.toUInt8).toNat = n := UInt8.toNat_ofNat_of_lt' (Nat.lt_trans hsmall (by decide))
      rw [if_pos hsmall]
      have hs : Spells (k + 1) last [n.toUInt8] (n.toUInt8).toNat := by
        refine .last (by omega) fun hk => ?_
        subst hk
        omega
      rwa [hb] at hs
    · have hb : ((n % 0x80 + 0x80).toUInt8).toNat = n % 0x80 + 0x80 :=
        UInt8.toNat_ofNat_of_lt' (show n % 0x80 + 0x80 < 256 by omega)
      rw [if_neg hsmall]
      cases k with
      | zero => omega
      | succ k =>
        have hdiv : n / 0x80 < (last + 1) * 2 ^ (7 * k) := by
          rw [Nat.mul_add, Nat.pow_add, ← Nat.mul_assoc] at hn
          exact Nat.div_lt_of_lt_mul (by omega)
        have hs : Spells (k + 1 + 1) last ((n % 0x80 + 0x80).toUInt8 :: varintBytes fuel (n / 0x80)) _ :=
          .more (by omega) (spells_varintBytes hlast (by omega) hdiv)
        rwa [hb, show n % 0x80 + 0x80 - 0x80 + 0x80 * (n / 0x80) = n by omega] at hs

/-- **The shortest spelling is a spelling**, up to the greatest number of its length. -/
theorem spells_putVarint {last n k : Nat} (hlast : last ≤ 0x7f) (hn : n < (last + 1) * 2 ^ (7 * k)) :
    Spells (k + 1) last (putVarint n) n := spells_varintBytes hlast (Nat.lt_succ_self n) hn

/-- What is read where the shortest spelling of a number stands is that number. -/
theorem spells_varintBytes_inj {last : Nat} : ∀ {fuel n k v : Nat} {rest spelled rest' : List UInt8}, n < fuel →
    varintBytes fuel n ++ rest = spelled ++ rest' → Spells k last spelled v → v = n ∧ rest' = rest
  | 0, _, _, _, _, _, _, hfuel, _, _ => absurd hfuel (Nat.not_lt_zero _)
  | fuel + 1, n, k, v, rest, spelled, rest', hfuel, he, hs => by
    unfold varintBytes at he
    by_cases hsmall : n < 0x80
    · have hb : (n.toUInt8).toNat = n := UInt8.toNat_ofNat_of_lt' (Nat.lt_trans hsmall (by decide))
      rw [if_pos hsmall] at he
      cases hs with
      | last hlt _ =>
        simp only [List.cons_append, List.nil_append, List.cons.injEq] at he
        obtain ⟨rfl, rfl⟩ := he
        exact ⟨hb, rfl⟩
      | more hge _ =>
        simp only [List.cons_append, List.nil_append, List.cons.injEq] at he
        obtain ⟨rfl, _⟩ := he
        omega
    · have hb : ((n % 0x80 + 0x80).toUInt8).toNat = n % 0x80 + 0x80 :=
        UInt8.toNat_ofNat_of_lt' (show n % 0x80 + 0x80 < 256 by omega)
      rw [if_neg hsmall] at he
      cases hs with
      | last hlt _ =>
        simp only [List.cons_append, List.cons.injEq] at he
        obtain ⟨rfl, _⟩ := he
        omega
      | more hge hs' =>
        simp only [List.cons_append, List.cons.injEq] at he
        obtain ⟨rfl, he⟩ := he
        obtain ⟨rfl, rfl⟩ := spells_varintBytes_inj (by omega) he hs'
        exact ⟨by omega, rfl⟩

theorem takeVarint_putVarint {k last n v : Nat} {rest rest' : List UInt8}
    (h : takeVarint k last (putVarint n ++ rest) = .ok (v, rest')) : v = n ∧ rest' = rest := by
  obtain ⟨spelled, he, hs⟩ := takeVarint_eq_ok.mp h
  exact spells_varintBytes_inj (Nat.lt_succ_self n) he hs

/-! ## Runs of bytes -/

/-- The next `n` bytes. -/
def takeN (n : Nat) (bytes : List UInt8) : Except Fault (List UInt8 × List UInt8) :=
  if n ≤ bytes.length then .ok (bytes.take n, bytes.drop n) else .error .unexpectedEnd

theorem takeN_eq_ok {n : Nat} {bytes run rest : List UInt8} :
    takeN n bytes = .ok (run, rest) ↔ bytes = run ++ rest ∧ run.length = n := by
  unfold takeN
  constructor
  · intro h
    split at h
    · next hn =>
      cases h
      exact ⟨(List.take_append_drop n bytes).symm, List.length_take_of_le hn⟩
    · cases h
  · rintro ⟨rfl, rfl⟩
    simp

/-- A run of bytes behind its length, a number of at most `k` bytes. -/
def takeBytes (k last : Nat) (bytes : List UInt8) : Except Fault (List UInt8 × List UInt8) := do
  let (n, bytes) ← takeVarint k last bytes
  takeN n bytes

def putBytes (run : List UInt8) : List UInt8 := putVarint run.length ++ run

theorem takeBytes_eq_ok {k last : Nat} {bytes run rest : List UInt8} :
    takeBytes k last bytes = .ok (run, rest) ↔
      ∃ len, bytes = len ++ run ++ rest ∧ Spells k last len run.length := by
  unfold takeBytes
  rw [bind_eq_ok]
  constructor
  · rintro ⟨⟨n, bytes'⟩, hn, hrun⟩
    obtain ⟨len, rfl, hlen⟩ := takeVarint_eq_ok.mp hn
    obtain ⟨rfl, rfl⟩ := takeN_eq_ok.mp hrun
    exact ⟨len, by rw [List.append_assoc], hlen⟩
  · rintro ⟨len, rfl, hlen⟩
    refine ⟨(run.length, run ++ rest), ?_, takeN_eq_ok.mpr ⟨rfl, rfl⟩⟩
    rw [List.append_assoc]
    exact takeVarint_of_spells hlen _

/-- What is read where a run has been written is that run. -/
theorem takeBytes_putBytes {k last : Nat} {run run' rest rest' : List UInt8}
    (h : takeBytes k last (putBytes run ++ rest) = .ok (run', rest')) : run' = run ∧ rest' = rest := by
  unfold takeBytes putBytes at h
  obtain ⟨⟨n, bytes⟩, hn, hrun⟩ := bind_eq_ok.mp h
  rw [List.append_assoc] at hn
  obtain ⟨rfl, rfl⟩ := takeVarint_putVarint hn
  obtain ⟨he, hlen⟩ := takeN_eq_ok.mp hrun
  obtain ⟨rfl, rfl⟩ := List.append_inj he hlen.symm
  exact ⟨rfl, rfl⟩

/-! ## Without limits -/

/-- A number of any length: how many bytes spell it, and what it is. -/
structure Varint where
  size : Nat
  value : Nat
  deriving DecidableEq

def scanVarint : List UInt8 → Option (Varint × List UInt8)
  | [] => none
  | b :: rest =>
    if b.toNat < 0x80 then some (⟨1, b.toNat⟩, rest)
    else (scanVarint rest).map fun (v, rest) => (⟨v.size + 1, b.toNat - 0x80 + 0x80 * v.value⟩, rest)

theorem scanVarint_size_pos : ∀ {bytes rest : List UInt8} {v : Varint}, scanVarint bytes = some (v, rest) → 0 < v.size
  | [], _, _, h => by cases h
  | b :: bytes, rest, v, h => by
    unfold scanVarint at h
    split at h
    · cases h
      exact Nat.one_pos
    · obtain ⟨⟨w, rest'⟩, _, h⟩ := Option.map_eq_some_iff.mp h
      cases h
      exact Nat.succ_pos _

/-- **The limits of a reader**: how many bytes there may be, and how large the number may be. -/
theorem takeVarint_iff_scan {last : Nat} (hlast : last ≤ 0x7f) : ∀ {k n : Nat} {bytes rest : List UInt8},
    takeVarint (k + 1) last bytes = .ok (n, rest) ↔
      ∃ v, scanVarint bytes = some (v, rest) ∧ v.value = n ∧ v.size ≤ k + 1 ∧ n < (last + 1) * 2 ^ (7 * k)
  | k, n, [], rest => by simp [takeVarint, scanVarint]
  | k, n, b :: bytes, rest => by
    have hb := b.toNat_lt
    unfold takeVarint scanVarint
    by_cases hsmall : b.toNat < 0x80
    · rw [if_pos hsmall, if_pos hsmall]
      constructor
      · intro h
        split at h
        · cases h
        · next hlimit =>
          cases h
          refine ⟨_, rfl, rfl, by simp only; omega, ?_⟩
          rcases Nat.eq_zero_or_pos k with rfl | hk
          · omega
          · have hpow : 2 ^ 7 ≤ 2 ^ (7 * k) := Nat.pow_le_pow_right (by decide) (by omega)
            exact Nat.lt_of_lt_of_le (Nat.lt_of_lt_of_le hsmall hpow) (Nat.le_mul_of_pos_left _ (Nat.succ_pos last))
      · rintro ⟨v, hv, rfl, _, hlt⟩
        cases hv
        rw [if_neg]
        rintro ⟨rfl, hlt'⟩
        simp only at hlt
        omega
    · rw [if_neg hsmall, if_neg hsmall]
      cases k with
      | zero =>
        constructor
        · intro h
          cases h
        · rintro ⟨v, hv, _, hsize, _⟩
          obtain ⟨⟨w, rest'⟩, hw, hv⟩ := Option.map_eq_some_iff.mp hv
          cases hv
          have := scanVarint_size_pos hw
          simp only at hsize
          omega
      | succ k =>
        have hpow : 2 ^ (7 * (k + 1)) = 128 * 2 ^ (7 * k) := by
          rw [Nat.mul_add, Nat.pow_add, Nat.mul_comm]
        rw [bind_eq_ok]
        constructor
        · rintro ⟨⟨w, rest'⟩, hw, h⟩
          cases h
          obtain ⟨v, hv, rfl, hsize, hlt⟩ := (takeVarint_iff_scan hlast).mp hw
          refine ⟨_, Option.map_eq_some_iff.mpr ⟨(v, rest), hv, rfl⟩, rfl, Nat.succ_le_succ hsize, ?_⟩
          rw [hpow, Nat.mul_left_comm]
          omega
        · rintro ⟨v, hv, rfl, hsize, hlt⟩
          obtain ⟨⟨w, rest'⟩, hw, hv⟩ := Option.map_eq_some_iff.mp hv
          cases hv
          refine ⟨(w.value, rest), (takeVarint_iff_scan hlast).mpr ⟨w, hw, rfl, Nat.le_of_succ_le_succ hsize, ?_⟩, rfl⟩
          rw [hpow, Nat.mul_left_comm] at hlt
          simp only at hlt
          omega

/-- A run of bytes behind a length of any spelling. -/
def scanBytes (bytes : List UInt8) : Option (Varint × List UInt8 × List UInt8) := do
  let (length, bytes) ← scanVarint bytes
  if length.value ≤ bytes.length then some (length, bytes.take length.value, bytes.drop length.value) else none

theorem takeBytes_iff_scan {last : Nat} (hlast : last ≤ 0x7f) {k : Nat} {bytes run rest : List UInt8} :
    takeBytes (k + 1) last bytes = .ok (run, rest) ↔
      ∃ v, scanBytes bytes = some (v, run, rest) ∧ v.size ≤ k + 1 ∧ v.value < (last + 1) * 2 ^ (7 * k) := by
  unfold takeBytes scanBytes takeN
  rw [bind_eq_ok]
  constructor
  · rintro ⟨⟨n, bytes'⟩, hn, h⟩
    obtain ⟨v, hv, rfl, hsize, hlt⟩ := (takeVarint_iff_scan hlast).mp hn
    refine ⟨v, Option.bind_eq_some_iff.mpr ⟨_, hv, ?_⟩, hsize, hlt⟩
    simp only at h ⊢
    split at h
    · next hle =>
      cases h
      rw [if_pos hle]
    · cases h
  · rintro ⟨v, hv, hsize, hlt⟩
    obtain ⟨⟨w, bytes'⟩, hw, hv⟩ := Option.bind_eq_some_iff.mp hv
    simp only at hv
    split at hv
    · next hle =>
      cases hv
      refine ⟨(v.value, bytes'), (takeVarint_iff_scan hlast).mpr ⟨v, hw, rfl, hsize, hlt⟩, ?_⟩
      simp only
      rw [if_pos hle]
    · cases hv

end Wire
