import Mathlib.Algebra.Order.Ring.Int
import Mathlib.Data.UInt
import Mathlib.Tactic.Ring

/-!
# Numbers as bytes, the high byte first

- `toBe width n`: the lowest `width` bytes of `n`;
- `ofBe bytes`: the number that bytes spell (`ofBe_toBe`);
- `slice_append`: the bytes at an offset.
-/

namespace BigEndian

/-- The lowest `width` bytes of `n`. -/
def toBe : Nat → Nat → List UInt8
  | 0, _ => []
  | width + 1, n => toBe width (n / 256) ++ [UInt8.ofNat n]

/-- The number that bytes spell. -/
def ofBe (bytes : List UInt8) : Nat := bytes.foldl (fun n b => 256 * n + b.toNat) 0

@[simp] theorem length_toBe : ∀ width n, (toBe width n).length = width
  | 0, _ => rfl
  | width + 1, n => by
    unfold toBe
    rw [List.length_append, length_toBe width (n / 256)]
    rfl

theorem ofBe_append_singleton (bytes : List UInt8) (b : UInt8) : ofBe (bytes ++ [b]) = 256 * ofBe bytes + b.toNat := by
  unfold ofBe
  rw [List.foldl_append]
  rfl

/-- Reading what has been written. -/
theorem ofBe_toBe : ∀ {width n : Nat}, n < 256 ^ width → ofBe (toBe width n) = n
  | 0, n, h => by
    have hzero : n = 0 := by simpa using h
    rw [hzero]
    rfl
  | width + 1, n, h => by
    have hhigh : n / 256 < 256 ^ width := Nat.div_lt_of_lt_mul (by rw [Nat.pow_succ] at h; omega)
    unfold toBe
    rw [ofBe_append_singleton, ofBe_toBe hhigh, UInt8.toNat_ofNat']
    have := Nat.div_add_mod n 256
    exact this

/-- The bytes at an offset. -/
theorem slice_append {α : Type*} {xs ys zs : List α} {i k : Nat} (hi : xs.length = i) (hk : ys.length = k) :
    ((xs ++ (ys ++ zs)).drop i).take k = ys := by
  rw [List.drop_left' hi, List.take_left' hk]

end BigEndian
