import Mathlib.Data.List.Basic

/-!
# UTF-16

Texts as sequences of code units, which need not be well formed.

- `decode`: the characters of a sequence, U+FFFD for each surrogate without its partner;
- `decode_encode`, `encode_injective`: the units of a text are read back as that text.
-/

namespace Utf16

/-- The code units of a character: itself, or a pair of surrogates. -/
def encodeChar (c : Char) : List UInt16 :=
  let v := c.val.toNat
  if v < 0x10000 then [UInt16.ofNat v]
  else [UInt16.ofNat (0xd800 + (v - 0x10000) / 0x400), UInt16.ofNat (0xdc00 + (v - 0x10000) % 0x400)]

def encode (s : String) : List UInt16 := s.toList.flatMap encodeChar

def isLead (u : Nat) : Prop := 0xd800 ≤ u ∧ u < 0xdc00

def isTrail (u : Nat) : Prop := 0xdc00 ≤ u ∧ u < 0xe000

instance (u : Nat) : Decidable (isLead u) := inferInstanceAs (Decidable (_ ∧ _))

instance (u : Nat) : Decidable (isTrail u) := inferInstanceAs (Decidable (_ ∧ _))

/-- The character of a unit that stands alone. -/
def single (u : Nat) : Char := if isLead u ∨ isTrail u then '\ufffd' else Char.ofNat u

def decode : List UInt16 → List Char
  | [] => []
  | [u] => [single u.toNat]
  | u :: v :: rest =>
    if isLead u.toNat ∧ isTrail v.toNat then
      Char.ofNat (0x10000 + (u.toNat - 0xd800) * 0x400 + (v.toNat - 0xdc00)) :: decode rest
    else single u.toNat :: decode (v :: rest)

theorem toNat_unit {n : Nat} (h : n < 65536) : (UInt16.ofNat n).toNat = n := UInt16.toNat_ofNat_of_lt' h

theorem decode_single {u : UInt16} (h : ¬isLead u.toNat) (rest : List UInt16) :
    decode (u :: rest) = single u.toNat :: decode rest := by
  cases rest with
  | nil => rfl
  | cons v rest =>
    conv_lhs => unfold decode
    rw [if_neg fun hlead => h hlead.1]

theorem decode_pair {u v : UInt16} (hu : isLead u.toNat) (hv : isTrail v.toNat) (rest : List UInt16) :
    decode (u :: v :: rest) =
      Char.ofNat (0x10000 + (u.toNat - 0xd800) * 0x400 + (v.toNat - 0xdc00)) :: decode rest := by
  conv_lhs => unfold decode
  rw [if_pos ⟨hu, hv⟩]

/-- A character's own units are read as that character. -/
theorem decode_encodeChar (c : Char) (rest : List UInt16) : decode (encodeChar c ++ rest) = c :: decode rest := by
  have hvalid : c.val.toNat < 0xd800 ∨ 0xdfff < c.val.toNat ∧ c.val.toNat < 0x110000 := c.valid
  have hc : Char.ofNat c.val.toNat = c := Char.ofNat_toNat c
  unfold encodeChar
  generalize c.val.toNat = v at hvalid hc ⊢
  simp only
  split
  · next hsmall =>
    have hu : (UInt16.ofNat v).toNat = v := toNat_unit hsmall
    have hlead : ¬isLead (UInt16.ofNat v).toNat := by
      unfold isLead
      omega
    rw [List.cons_append, List.nil_append, decode_single hlead, hu, single, if_neg, hc]
    unfold isLead isTrail
    omega
  · next hbig =>
    have hu : (UInt16.ofNat (0xd800 + (v - 0x10000) / 0x400)).toNat = 0xd800 + (v - 0x10000) / 0x400 :=
      toNat_unit (by omega)
    have hv : (UInt16.ofNat (0xdc00 + (v - 0x10000) % 0x400)).toNat = 0xdc00 + (v - 0x10000) % 0x400 :=
      toNat_unit (by omega)
    have hlead : isLead (UInt16.ofNat (0xd800 + (v - 0x10000) / 0x400)).toNat := by
      unfold isLead
      omega
    have htrail : isTrail (UInt16.ofNat (0xdc00 + (v - 0x10000) % 0x400)).toNat := by
      unfold isTrail
      omega
    have hsum : 0x10000 + (0xd800 + (v - 0x10000) / 0x400 - 0xd800) * 0x400 +
        (0xdc00 + (v - 0x10000) % 0x400 - 0xdc00) = v := by omega
    rw [List.cons_append, List.cons_append, List.nil_append, decode_pair hlead htrail, hu, hv, hsum, hc]

theorem decode_flatMap (cs : List Char) : decode (cs.flatMap encodeChar) = cs := by
  induction cs with
  | nil => rfl
  | cons c cs ih => rw [List.flatMap_cons, decode_encodeChar, ih]

/-- **The units of a text are read back as its characters.** -/
theorem decode_encode (s : String) : decode (encode s) = s.toList := decode_flatMap s.toList

theorem encode_injective {s t : String} (h : encode s = encode t) : s = t := by
  have hs := decode_encode s
  rw [h, decode_encode] at hs
  exact (String.toList_injective hs).symm

end Utf16
