import Mathlib.Algebra.Order.Ring.Int
import Mathlib.Data.List.Basic

/-!
# Machine integers that may overflow

Arithmetic whose operations give nothing where the result does not fit, as an overflow check stops the program.

- `fit`: a value in a range; `u128`, `i64`, `i128`: the ranges;
- `toU64`: a conversion that may fail.
-/

namespace Checked

/-- A value of the integers from `lo` to `hi`. -/
def fit (lo hi x : Int) : Option Int := if lo ≤ x ∧ x ≤ hi then some x else none

/-- What an operation on `u128` gives. -/
def u128 : Int → Option Int := fit 0 (2 ^ 128 - 1)

def i64 : Int → Option Int := fit (-2 ^ 63) (2 ^ 63 - 1)

def i128 : Int → Option Int := fit (-2 ^ 127) (2 ^ 127 - 1)

/-- `u64::try_from`. -/
def toU64 (x : Int) : Option UInt64 := if 0 ≤ x ∧ x < 2 ^ 64 then some (.ofNat x.toNat) else none

def u64Max : UInt64 := .ofNat (2 ^ 64 - 1)

@[simp] theorem toNat_u64Max : u64Max.toNat = 2 ^ 64 - 1 := rfl

theorem fit_eq {lo hi x : Int} (h : lo ≤ x) (h' : x ≤ hi) : fit lo hi x = some x := if_pos ⟨h, h'⟩

/-- A conversion that takes the largest value where it fails. -/
theorem toNat_toU64 {x : Int} (h : 0 ≤ x) : ((toU64 x).getD u64Max).toNat = min x.toNat (2 ^ 64 - 1) := by
  unfold toU64
  split
  · next hfits =>
    have hlt : x.toNat < 2 ^ 64 := by omega
    simp only [Option.getD_some, UInt64.toNat_ofNat_of_lt' hlt]
    omega
  · simp only [Option.getD_none, toNat_u64Max]
    omega

end Checked
