import Mathlib.Data.List.Basic

/-!
# Pieces of bounded size

`slice::chunks`: a list cut into pieces of a given size, the last one shorter.

- `chunksOf_flatten`, `mem_chunksOf`: the pieces make up the list; none is empty, none too long.
-/

namespace Chunks

variable {α : Type*}

/-- The fuel is the number of pieces at most. -/
def chunksFrom (size : Nat) : Nat → List α → List (List α)
  | 0, _ => []
  | _ + 1, [] => []
  | fuel + 1, x :: xs => (x :: xs).take size :: chunksFrom size fuel ((x :: xs).drop size)

def chunksOf (size : Nat) (xs : List α) : List (List α) := chunksFrom size xs.length xs

theorem chunksFrom_flatten {size : Nat} (hsize : 0 < size) :
    ∀ (fuel : Nat) (xs : List α), xs.length ≤ fuel → (chunksFrom size fuel xs).flatten = xs
  | 0, xs, h => (List.length_eq_zero_iff.mp (Nat.le_zero.mp h)).symm
  | _ + 1, [], _ => rfl
  | fuel + 1, x :: xs, h => by
    have hdrop : ((x :: xs).drop size).length ≤ fuel := by
      rw [List.length_drop]
      omega
    rw [chunksFrom, List.flatten_cons, chunksFrom_flatten hsize fuel _ hdrop, List.take_append_drop]

/-- **The pieces make up the list.** -/
theorem chunksOf_flatten {size : Nat} (hsize : 0 < size) (xs : List α) : (chunksOf size xs).flatten = xs :=
  chunksFrom_flatten hsize _ xs (Nat.le_refl _)

theorem mem_chunksFrom {size : Nat} (hsize : 0 < size) :
    ∀ (fuel : Nat) (xs : List α), ∀ piece ∈ chunksFrom size fuel xs, piece ≠ [] ∧ piece.length ≤ size
  | 0, _, _, h => absurd h List.not_mem_nil
  | _ + 1, [], _, h => absurd h List.not_mem_nil
  | fuel + 1, x :: xs, piece, h => by
    rcases List.mem_cons.mp h with rfl | h
    · refine ⟨?_, List.length_take_le _ _⟩
      obtain ⟨n, rfl⟩ := Nat.exists_eq_succ_of_ne_zero (Nat.ne_of_gt hsize)
      exact List.cons_ne_nil _ _
    · exact mem_chunksFrom hsize fuel _ piece h

/-- None of them is empty, and none too long. -/
theorem mem_chunksOf {size : Nat} (hsize : 0 < size) {xs piece : List α} (h : piece ∈ chunksOf size xs) :
    piece ≠ [] ∧ piece.length ≤ size := mem_chunksFrom hsize _ xs piece h

end Chunks
