import Mathlib.Algebra.Order.Ring.Int
import Mathlib.Data.UInt

/-!
# Base64

The standard alphabet with canonical padding, over lists of characters.

- `encode`: four characters for three bytes, with `=` for what is missing in the last group;
- `decode`: strict, also about the bits that the last group leaves over (`decode_encode`).
-/

namespace Base64

def alphabet : List Char := "ABCDEFGHIJKLMNOPQRSTUVWXYZabcdefghijklmnopqrstuvwxyz0123456789+/".toList

/-- The character of six bits. -/
def symbol (n : Nat) : Char := alphabet.getD n '='

/-- The six bits of a character. -/
def value (c : Char) : Option Nat := alphabet.idxOf? c

def encode : List UInt8 → List Char
  | [] => []
  | [a] => [symbol (a.toNat / 4), symbol (a.toNat % 4 * 16), '=', '=']
  | [a, b] =>
    [symbol (a.toNat / 4), symbol (a.toNat % 4 * 16 + b.toNat / 16), symbol (b.toNat % 16 * 4), '=']
  | a :: b :: c :: bytes =>
    symbol (a.toNat / 4) :: symbol (a.toNat % 4 * 16 + b.toNat / 16) ::
      symbol (b.toNat % 16 * 4 + c.toNat / 64) :: symbol (c.toNat % 64) :: encode bytes

/-- One group; the last one may have padding. -/
def decodeGroup (w x y z : Char) (last : Bool) : Option (List UInt8) := do
  let w ← value w
  let x ← value x
  let a := UInt8.ofNat (w * 4 + x / 16)
  if last ∧ y = '=' ∧ z = '=' then
    if x % 16 = 0 then some [a] else none
  else do
    let y ← value y
    let b := UInt8.ofNat (x % 16 * 16 + y / 4)
    if last ∧ z = '=' then
      if y % 4 = 0 then some [a, b] else none
    else do
      let z ← value z
      some [a, b, UInt8.ofNat (y % 4 * 64 + z)]

def decode : List Char → Option (List UInt8)
  | [] => some []
  | w :: x :: y :: z :: rest => do
    let group ← decodeGroup w x y z rest.isEmpty
    let bytes ← decode rest
    some (group ++ bytes)
  | _ => none

theorem symbol_spec : ∀ n < 64, value (symbol n) = some n ∧ symbol n ≠ '=' := by decide

theorem value_symbol {n : Nat} (h : n < 64) : value (symbol n) = some n := (symbol_spec n h).1

theorem symbol_ne_pad {n : Nat} (h : n < 64) : symbol n ≠ '=' := (symbol_spec n h).2

theorem ofNat_eq {n : Nat} {a : UInt8} (h : n = a.toNat) : UInt8.ofNat n = a := by
  rw [h]
  exact UInt8.ofNat_toNat

/-- A whole group. -/
theorem decodeGroup_three (a b c : UInt8) (last : Bool) :
    decodeGroup (symbol (a.toNat / 4)) (symbol (a.toNat % 4 * 16 + b.toNat / 16))
      (symbol (b.toNat % 16 * 4 + c.toNat / 64)) (symbol (c.toNat % 64)) last = some [a, b, c] := by
  have ha := a.toNat_lt
  have hb := b.toNat_lt
  have hc := c.toNat_lt
  unfold decodeGroup
  rw [value_symbol (by omega), value_symbol (by omega), value_symbol (by omega), value_symbol (by omega)]
  have hpad := @symbol_ne_pad (c.toNat % 64) (by omega)
  simp only [hpad, and_false, if_false, Option.bind_eq_bind, Option.bind_some]
  rw [ofNat_eq (a := a) (by omega), ofNat_eq (a := b) (by omega), ofNat_eq (a := c) (by omega)]

/-- A group with one character of padding. -/
theorem decodeGroup_two (a b : UInt8) : decodeGroup (symbol (a.toNat / 4))
    (symbol (a.toNat % 4 * 16 + b.toNat / 16)) (symbol (b.toNat % 16 * 4)) '=' true = some [a, b] := by
  have ha := a.toNat_lt
  have hb := b.toNat_lt
  unfold decodeGroup
  rw [value_symbol (by omega), value_symbol (by omega), value_symbol (by omega)]
  have hpad := @symbol_ne_pad (b.toNat % 16 * 4) (by omega)
  simp only [hpad, false_and, and_false, if_false, Option.bind_eq_bind, Option.bind_some, and_self, if_true]
  rw [if_pos (by omega), ofNat_eq (a := a) (by omega), ofNat_eq (a := b) (by omega)]

/-- A group with two. -/
theorem decodeGroup_one (a : UInt8) :
    decodeGroup (symbol (a.toNat / 4)) (symbol (a.toNat % 4 * 16)) '=' '=' true = some [a] := by
  have ha := a.toNat_lt
  unfold decodeGroup
  rw [value_symbol (by omega), value_symbol (by omega)]
  simp only [Option.bind_eq_bind, Option.bind_some, and_self, if_true]
  rw [if_pos (by omega), ofNat_eq (a := a) (by omega)]
/-- **Reading what has been written.** -/
theorem decode_encode : ∀ bytes, decode (encode bytes) = some bytes
  | [] => rfl
  | [a] => by
    unfold encode decode
    rw [List.isEmpty_nil, decodeGroup_one]
    rfl
  | [a, b] => by
    unfold encode decode
    rw [List.isEmpty_nil, decodeGroup_two]
    rfl
  | a :: b :: c :: bytes => by
    unfold encode decode
    rw [decodeGroup_three, decode_encode bytes]
    rfl

end Base64
