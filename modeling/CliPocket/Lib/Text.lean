import Mathlib.Algebra.Order.Ring.Int
import Mathlib.Data.List.Basic

/-!
# Text as strings of characters and bytes

The standard library's `trim` (Unicode white space) and the `hex` crate's decoder (UTF-8 bytes, upper or lower case).

- `trim_eq_self`: text without white space is its own trimming;
- `not_whitespace_of_hexDecode`: text that decodes has none, so decoding and trimming commute where decoding works
  (`trim_eq_self_of_hexDecode`).
-/

namespace Text

/-! ## White space -/

/-- `White_Space`, as `char::is_whitespace` has it. -/
def whitespace : List Char :=
  ['\t', '\n', '\x0b', '\x0c', '\r', ' ', '\u0085', '\u00a0', '\u1680', '\u2000', '\u2001', '\u2002', '\u2003', '\u2004',
    '\u2005', '\u2006', '\u2007', '\u2008', '\u2009', '\u200a', '\u2028', '\u2029', '\u202f', '\u205f', '\u3000']

def isWhitespace (c : Char) : Bool := c ∈ whitespace

/-- Characters off the end as long as they satisfy `p`. -/
def dropEndWhile (p : Char → Bool) (cs : List Char) : List Char := (cs.reverse.dropWhile p).reverse

def trimChars (cs : List Char) : List Char := dropEndWhile isWhitespace (cs.dropWhile isWhitespace)

/-- `str::trim`. -/
def trim (s : String) : String := String.ofList (trimChars s.toList)

/-- `str::trim_end_matches` for one character. -/
def trimEndMatches (c : Char) (s : String) : String := String.ofList (dropEndWhile (· == c) s.toList)

theorem dropWhile_eq_self {p : Char → Bool} : ∀ {cs : List Char}, (∀ c ∈ cs, p c = false) → cs.dropWhile p = cs
  | [], _ => rfl
  | c :: cs, h => by rw [List.dropWhile_cons, h c List.mem_cons_self, if_neg Bool.false_ne_true]

theorem trim_eq_self {s : String} (h : ∀ c ∈ s.toList, isWhitespace c = false) : trim s = s := by
  have hrev : ∀ c ∈ s.toList.reverse, isWhitespace c = false := fun c hc => h c (List.mem_reverse.mp hc)
  unfold trim trimChars dropEndWhile
  rw [dropWhile_eq_self h, dropWhile_eq_self hrev, List.reverse_reverse, String.ofList_toList]

/-! ## Hexadecimal -/

inductive FromHexError
  | invalidHexCharacter (c : Char) (index : Nat)
  | oddLength
  deriving DecidableEq

/-- `Display`. -/
def FromHexError.toMessage : FromHexError → String
  | .invalidHexCharacter c index => "Invalid character " ++ c.quote ++ " at position " ++ toString index
  | .oddLength => "Odd number of digits"

/-- The value of a hexadecimal digit. -/
def hexVal (b : UInt8) : Option Nat :=
  let n := b.toNat
  if 0x30 ≤ n ∧ n ≤ 0x39 then some (n - 0x30)
  else if 0x41 ≤ n ∧ n ≤ 0x46 then some (n - 0x41 + 10)
  else if 0x61 ≤ n ∧ n ≤ 0x66 then some (n - 0x61 + 10)
  else none

def hexDigit (b : UInt8) (index : Nat) : Except FromHexError Nat :=
  match hexVal b with
  | some v => .ok v
  | none => .error (.invalidHexCharacter (Char.ofNat b.toNat) index)

/-- The digits two by two, from the digit at `index` on. -/
def hexPairs : List UInt8 → Nat → Except FromHexError (List UInt8)
  | hi :: lo :: rest, index => do
    let h ← hexDigit hi index
    let l ← hexDigit lo (index + 1)
    let bytes ← hexPairs rest (index + 2)
    .ok ((h * 16 + l).toUInt8 :: bytes)
  | _, _ => .ok []

def utf8 (s : String) : List UInt8 := s.toList.flatMap String.utf8EncodeChar

/-- `hex::decode`. -/
def hexDecode (s : String) : Except FromHexError (List UInt8) :=
  if (utf8 s).length % 2 ≠ 0 then .error .oddLength else hexPairs (utf8 s) 0

/-- `hex::encode`. -/
def hexEncode (bytes : List UInt8) : String :=
  String.ofList (bytes.flatMap fun b => [Nat.digitChar (b.toNat / 16), Nat.digitChar (b.toNat % 16)])

theorem hexDigit_eq_ok {b : UInt8} {index v : Nat} (h : hexDigit b index = .ok v) : hexVal b = some v := by
  unfold hexDigit at h
  split at h
  · next hv =>
    cases h
    exact hv
  · cases h

/-- Bytes that decode are digits, but for an odd one at the end. -/
theorem isSome_hexVal_of_hexPairs : ∀ {bytes : List UInt8} {index : Nat} {out : List UInt8}, bytes.length % 2 = 0 →
    hexPairs bytes index = .ok out → ∀ b ∈ bytes, (hexVal b).isSome = true
  | [], _, _, _, _, _, hb => by cases hb
  | [_], _, _, hlen, _, _, _ => by simp at hlen
  | hi :: lo :: rest, index, out, hlen, h, b, hb => by
    unfold hexPairs at h
    cases hh : hexDigit hi index with
    | error e => simp [hh, bind, Except.bind] at h
    | ok vh =>
      cases hl : hexDigit lo (index + 1) with
      | error e => simp [hh, hl, bind, Except.bind] at h
      | ok vl =>
        cases hr : hexPairs rest (index + 2) with
        | error e => simp [hh, hl, hr, bind, Except.bind] at h
        | ok bytes =>
          have hlen' : rest.length % 2 = 0 := by
            simp only [List.length_cons] at hlen
            omega
          rcases List.mem_cons.mp hb with rfl | hb
          · rw [hexDigit_eq_ok hh]
            rfl
          rcases List.mem_cons.mp hb with rfl | hb
          · rw [hexDigit_eq_ok hl]
            rfl
          · exact isSome_hexVal_of_hexPairs hlen' hr b hb

/-- No white space is written with hexadecimal digits. -/
theorem whitespace_not_hex : ∀ c ∈ whitespace, ∃ b ∈ String.utf8EncodeChar c, hexVal b = none := by
  have hall : (whitespace.all fun c => (String.utf8EncodeChar c).any fun b => (hexVal b).isNone) = true := by rfl
  intro c hc
  obtain ⟨b, hb, hnone⟩ := List.any_eq_true.mp (List.all_eq_true.mp hall c hc)
  exact ⟨b, hb, Option.isNone_iff_eq_none.mp hnone⟩

/-- **Text that decodes has no white space.** -/
theorem not_whitespace_of_hexDecode {s : String} {out : List UInt8} (h : hexDecode s = .ok out) :
    ∀ c ∈ s.toList, isWhitespace c = false := by
  unfold hexDecode at h
  split at h
  · cases h
  · next hlen =>
    intro c hc
    by_contra hw
    have hmem : c ∈ whitespace := by simpa [isWhitespace] using hw
    obtain ⟨b, hb, hnone⟩ := whitespace_not_hex c hmem
    have hsome := isSome_hexVal_of_hexPairs (by omega) h b (List.mem_flatMap.mpr ⟨c, hc, hb⟩)
    rw [hnone] at hsome
    cases hsome

theorem trim_eq_self_of_hexDecode {s : String} {out : List UInt8} (h : hexDecode s = .ok out) : trim s = s :=
  trim_eq_self (not_whitespace_of_hexDecode h)

end Text
