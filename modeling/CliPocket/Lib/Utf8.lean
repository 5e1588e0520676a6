import Mathlib.Algebra.Order.Ring.Int
import Mathlib.Data.List.Basic

/-!
# UTF-8 decoding

One decoder for both uses of malformed text: it gives a character or a fault for each maximal piece of the input, a
byte that does not continue a character is looked at again as the first of the next one.

- `fromUtf8`: strict, `none` where there is a fault;
- `textDecoder`: lossy, U+FFFD for each fault, and a byte order mark at the front is dropped;
- `fromUtf8_encode`, `textDecoder_encode`: what they make of the bytes of a text.
-/

namespace Utf8

/-- A character under way: the bytes it still needs, the bounds of the next one, the bits so far. -/
structure Pending where
  needed : Nat
  lower : Nat := 0x80
  upper : Nat := 0xbf
  codePoint : Nat
  deriving DecidableEq

/-- What the first byte of a character says. -/
inductive Lead
  | char (c : Char)
  | pending (p : Pending)
  | fault

def lead (b : Nat) : Lead :=
  if b ≤ 0x7f then .char (Char.ofNat b)
  else if 0xc2 ≤ b ∧ b ≤ 0xdf then .pending { needed := 1, codePoint := b % 0x20 }
  else if 0xe0 ≤ b ∧ b ≤ 0xef then
    .pending {
      needed := 2
      lower := if b = 0xe0 then 0xa0 else 0x80
      upper := if b = 0xed then 0x9f else 0xbf
      codePoint := b % 0x10 }
  else if 0xf0 ≤ b ∧ b ≤ 0xf4 then
    .pending {
      needed := 3
      lower := if b = 0xf0 then 0x90 else 0x80
      upper := if b = 0xf4 then 0x8f else 0xbf
      codePoint := b % 8 }
  else .fault

/-- The characters and faults (`none`) of `bytes`. -/
def decode : Option Pending → List UInt8 → List (Option Char)
  | none, [] => []
  | some _, [] => [none]
  | none, b :: rest =>
    match lead b.toNat with
    | .char c => some c :: decode none rest
    | .pending p => decode (some p) rest
    | .fault => none :: decode none rest
  | some p, b :: rest =>
    if p.lower ≤ b.toNat ∧ b.toNat ≤ p.upper then
      let codePoint := p.codePoint * 0x40 + b.toNat % 0x40
      if p.needed = 1 then some (Char.ofNat codePoint) :: decode none rest
      else decode (some { needed := p.needed - 1, codePoint }) rest
    else
      match lead b.toNat with
      | .char c => none :: some c :: decode none rest
      | .pending p => none :: decode (some p) rest
      | .fault => none :: none :: decode none rest

/-- `String::from_utf8`. -/
def fromUtf8 (bytes : List UInt8) : Option String := ((decode none bytes).mapM id).map String.ofList

/-- `TextDecoder.decode`. -/
def textDecoder (bytes : List UInt8) : String :=
  match (decode none bytes).map (·.getD '\ufffd') with
  | '\ufeff' :: cs => String.ofList cs
  | cs => String.ofList cs

example : fromUtf8 [0x68, 0xc3, 0xa9] = some "hé" := by decide

example : fromUtf8 [0xed, 0xa0, 0x80] = none := by decide

/-! ## What an encoder has written -/

theorem decode_lead {b : UInt8} {p : Pending} (h : lead b.toNat = .pending p) (rest : List UInt8) :
    decode none (b :: rest) = decode (some p) rest := by
  conv_lhs => unfold decode
  rw [h]

theorem decode_cont {p : Pending} {b : UInt8} (h : p.lower ≤ b.toNat ∧ b.toNat ≤ p.upper) (hmore : p.needed ≠ 1)
    (rest : List UInt8) : decode (some p) (b :: rest) =
      decode (some { needed := p.needed - 1, codePoint := p.codePoint * 0x40 + b.toNat % 0x40 }) rest := by
  conv_lhs => unfold decode
  rw [if_pos h, if_neg hmore]

theorem decode_last {p : Pending} {b : UInt8} (h : p.lower ≤ b.toNat ∧ b.toNat ≤ p.upper) (hlast : p.needed = 1)
    (rest : List UInt8) :
    decode (some p) (b :: rest) = some (Char.ofNat (p.codePoint * 0x40 + b.toNat % 0x40)) :: decode none rest := by
  conv_lhs => unfold decode
  rw [if_pos h, if_pos hlast]

theorem toNat_byte {n : Nat} (h : n < 256) : (UInt8.ofNat n).toNat = n := UInt8.toNat_ofNat_of_lt' h

theorem decode_one {v : Nat} (h : v ≤ 0x7f) (rest : List UInt8) :
    decode none (UInt8.ofNat v :: rest) = some (Char.ofNat v) :: decode none rest := by
  conv_lhs => unfold decode
  rw [toNat_byte (by omega), lead, if_pos h]

theorem decode_two {v : Nat} (h : 0x7f < v) (h' : v ≤ 0x7ff) (rest : List UInt8) :
    decode none (UInt8.ofNat (v / 64 % 0x20 + 0xc0) :: UInt8.ofNat (v % 0x40 + 0x80) :: rest) =
      some (Char.ofNat v) :: decode none rest := by
  have hlead : lead (v / 64 % 0x20 + 0xc0) = .pending { needed := 1, codePoint := v / 64 } := by
    rw [lead, if_neg (by omega), if_pos (by omega), show (v / 64 % 0x20 + 0xc0) % 0x20 = v / 64 by omega]
  rw [decode_lead (p := { needed := 1, codePoint := v / 64 }) (by rw [toNat_byte (by omega), hlead]),
    decode_last (by rw [toNat_byte (by omega)]; dsimp only; omega) rfl, toNat_byte (by omega)]
  dsimp only
  rw [show v / 64 * 0x40 + (v % 0x40 + 0x80) % 0x40 = v by omega]

theorem decode_three {v : Nat} (h : 0x7ff < v) (h' : v ≤ 0xffff) (hvalid : v < 0xd800 ∨ 0xdfff < v)
    (rest : List UInt8) :
    decode none (UInt8.ofNat (v / 4096 % 0x10 + 0xe0) :: UInt8.ofNat (v / 64 % 0x40 + 0x80) ::
      UInt8.ofNat (v % 0x40 + 0x80) :: rest) = some (Char.ofNat v) :: decode none rest := by
  have hlead : lead (v / 4096 % 0x10 + 0xe0) = .pending {
      needed := 2
      lower := if v / 4096 = 0 then 0xa0 else 0x80
      upper := if v / 4096 = 0xd then 0x9f else 0xbf
      codePoint := v / 4096 } := by
    rw [lead, if_neg (by omega), if_neg (by omega), if_pos (by omega)]
    simp only [show (v / 4096 % 0x10 + 0xe0) % 0x10 = v / 4096 by omega,
      show v / 4096 % 0x10 + 0xe0 = 0xe0 ↔ v / 4096 = 0 by omega,
      show v / 4096 % 0x10 + 0xe0 = 0xed ↔ v / 4096 = 0xd by omega]
  rw [decode_lead (by rw [toNat_byte (by omega), hlead]),
    decode_cont (by rw [toNat_byte (by omega)]; dsimp only; split <;> split <;> omega) (of_decide_eq_true rfl),
    toNat_byte (by omega),
    decode_last (by rw [toNat_byte (by omega)]; dsimp only; omega) rfl, toNat_byte (by omega)]
  dsimp only
  rw [show (v / 4096 * 0x40 + (v / 64 % 0x40 + 0x80) % 0x40) * 0x40 + (v % 0x40 + 0x80) % 0x40 = v by omega]

theorem decode_four {v : Nat} (h : 0xffff < v) (h' : v < 0x110000) (rest : List UInt8) :
    decode none (UInt8.ofNat (v / 262144 % 0x08 + 0xf0) :: UInt8.ofNat (v / 4096 % 0x40 + 0x80) ::
      UInt8.ofNat (v / 64 % 0x40 + 0x80) :: UInt8.ofNat (v % 0x40 + 0x80) :: rest) =
      some (Char.ofNat v) :: decode none rest := by
  have hlead : lead (v / 262144 % 0x08 + 0xf0) = .pending {
      needed := 3
      lower := if v / 262144 = 0 then 0x90 else 0x80
      upper := if v / 262144 = 4 then 0x8f else 0xbf
      codePoint := v / 262144 } := by
    rw [lead, if_neg (by omega), if_neg (by omega), if_neg (by omega), if_pos (by omega)]
    simp only [show (v / 262144 % 0x08 + 0xf0) % 8 = v / 262144 by omega,
      show v / 262144 % 0x08 + 0xf0 = 0xf0 ↔ v / 262144 = 0 by omega,
      show v / 262144 % 0x08 + 0xf0 = 0xf4 ↔ v / 262144 = 4 by omega]
  rw [decode_lead (by rw [toNat_byte (by omega), hlead]),
    decode_cont (by rw [toNat_byte (by omega)]; dsimp only; split <;> split <;> omega) (of_decide_eq_true rfl),
    toNat_byte (by omega),
    decode_cont (by rw [toNat_byte (by omega)]; dsimp only; omega) (of_decide_eq_true rfl), toNat_byte (by omega),
    decode_last (by rw [toNat_byte (by omega)]; dsimp only; omega) rfl, toNat_byte (by omega)]
  dsimp only
  rw [show ((v / 262144 * 0x40 + (v / 4096 % 0x40 + 0x80) % 0x40) * 0x40 + (v / 64 % 0x40 + 0x80) % 0x40) * 0x40 +
    (v % 0x40 + 0x80) % 0x40 = v by omega]

/-- A character's own bytes are read as that character. -/
theorem decode_utf8EncodeChar (c : Char) (rest : List UInt8) :
    decode none (String.utf8EncodeChar c ++ rest) = some c :: decode none rest := by
  have hvalid : c.val.toNat < 0xd800 ∨ 0xdfff < c.val.toNat ∧ c.val.toNat < 0x110000 := c.valid
  have hc : Char.ofNat c.val.toNat = c := Char.ofNat_toNat c
  unfold String.utf8EncodeChar
  simp only
  split
  · next h => exact (decode_one h rest).trans (by rw [hc])
  · next h =>
    split
    · next h' => exact (decode_two (by omega) h' rest).trans (by rw [hc])
    · next h' =>
      split
      · next h'' => exact (decode_three (by omega) h'' (by omega) rest).trans (by rw [hc])
      · exact (decode_four (by omega) (by omega) rest).trans (by rw [hc])

/-- The bytes of a text. -/
def encode (s : String) : List UInt8 := s.toList.flatMap String.utf8EncodeChar

theorem decode_flatMap : ∀ cs : List Char, decode none (cs.flatMap String.utf8EncodeChar) = cs.map some
  | [] => rfl
  | c :: cs => by rw [List.flatMap_cons, decode_utf8EncodeChar, decode_flatMap cs, List.map_cons]

/-- **The strict decoder reads back every text.** -/
theorem fromUtf8_encode (s : String) : fromUtf8 (encode s) = some s := by
  unfold fromUtf8 encode
  rw [decode_flatMap]
  have hm : (s.toList.map some).mapM id = some s.toList := by
    generalize s.toList = cs
    induction cs with
    | nil => rfl
    | cons c cs ih =>
      rw [List.map_cons, List.mapM_cons, ih]
      rfl
  rw [hm, Option.map_some, String.ofList_toList]

theorem mapM_id_eq_some : ∀ {l : List (Option Char)} {cs : List Char}, l.mapM id = some cs → l = cs.map some
  | [], _, h => by
    cases h
    rfl
  | x :: l, cs, h => by
    rw [List.mapM_cons] at h
    obtain ⟨c, hx, h⟩ := Option.bind_eq_some_iff.mp h
    obtain ⟨cs', hl, h⟩ := Option.bind_eq_some_iff.mp h
    cases h
    rw [List.map_cons, ← mapM_id_eq_some hl, ← hx]
    rfl

/-- There is no fault in what the strict decoder takes. -/
theorem decode_of_fromUtf8 {bytes : List UInt8} {s : String} (h : fromUtf8 bytes = some s) :
    decode none bytes = s.toList.map some := by
  obtain ⟨cs, hcs, rfl⟩ := Option.map_eq_some_iff.mp h
  rw [String.toList_ofList]
  exact mapM_id_eq_some hcs

/-- Without a fault the lossy decoder changes a byte order mark at the front, and nothing else. -/
theorem textDecoder_of_decode {bytes : List UInt8} {s : String} (h : decode none bytes = s.toList.map some) :
    textDecoder bytes = if s.toList.head? = some '\ufeff' then String.ofList s.toList.tail else s := by
  have hm : (s.toList.map some).map (·.getD '\ufffd') = s.toList := by
    rw [List.map_map]
    exact List.map_id _
  unfold textDecoder
  rw [h, hm]
  split
  · next cs h =>
    rw [h]
    rfl
  · next cs h =>
    rw [if_neg, String.ofList_toList]
    intro hhead
    obtain ⟨cs, hcs⟩ := List.head?_eq_some_iff.mp hhead
    exact h cs hcs

/-- The lossy decoder reads a text back but for a byte order mark at its front. -/
theorem textDecoder_encode (s : String) :
    textDecoder (encode s) = if s.toList.head? = some '\ufeff' then String.ofList s.toList.tail else s :=
  textDecoder_of_decode (decode_flatMap s.toList)

end Utf8
