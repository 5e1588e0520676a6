import Mathlib.Algebra.Order.Ring.Int
import Mathlib.Data.List.Basic

/-!
# Saturating unsigned arithmetic

Machine integers as natural numbers below a largest value. Subtraction on natural numbers saturates already.
-/

namespace Saturating

def u16Max : Nat := 65535

def u32Max : Nat := 4294967295

def u64Max : Nat := 18446744073709551615

/-- `saturating_add` for the integers up to `max`. -/
def add (max a b : Nat) : Nat := min (a + b) max

/-- `saturating_mul` for the integers up to `max`. -/
def mul (max a b : Nat) : Nat := min (a * b) max

theorem add_eq {max a b : Nat} (h : a + b ≤ max) : add max a b = a + b := Nat.min_eq_left h

theorem add_le (max a b : Nat) : add max a b ≤ max := Nat.min_le_right _ _

theorem mul_le (max a b : Nat) : mul max a b ≤ max := Nat.min_le_right _ _

/-- Adding one and taking it off again loses only the largest value. -/
theorem add_one_sub_one {max a : Nat} (h : a ≤ max) : add max a 1 - 1 = a ↔ a = 0 ∨ a < max := by
  unfold add
  omega

end Saturating
