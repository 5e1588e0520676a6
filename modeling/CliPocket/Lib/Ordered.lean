import Mathlib.Algebra.Order.Ring.Int
import Mathlib.Data.List.DropRight
import Mathlib.Order.Defs.LinearOrder

/-!
# Insertion into a list that is in order

An element goes behind the last one that is not later than it.

- `perm_insert`, `sorted_insert`: nothing is lost, and the list stays in order;
- `insert_append`: what is not later than the element is not touched.
-/

namespace Ordered

variable {α : Type*} {β : Type*} [LinearOrder β]

/-- The elements that are later than `a` go behind it. -/
def insert (key : α → β) (a : α) (l : List α) : List α :=
  l.rdropWhile (fun b => decide (key a < key b)) ++ [a] ++ l.rtakeWhile (fun b => decide (key a < key b))

variable {key : α → β} {a : α}

/-- An element that is later stays at the end. -/
theorem insert_concat_of_lt {b : α} (h : key a < key b) (l : List α) : insert key a (l ++ [b]) = insert key a l ++ [b] := by
  unfold insert
  rw [List.rdropWhile_concat_pos (fun b => decide (key a < key b)) l b (decide_eq_true h),
    List.rtakeWhile_concat_pos (fun b => decide (key a < key b)) l b (decide_eq_true h)]
  exact (List.append_assoc _ _ _).symm

theorem insert_concat_of_le {b : α} (h : key b ≤ key a) (l : List α) : insert key a (l ++ [b]) = l ++ [b] ++ [a] := by
  have hlater : ¬decide (key a < key b) = true := by simpa using h
  unfold insert
  rw [List.rdropWhile_concat_neg (fun b => decide (key a < key b)) l b hlater,
    List.rtakeWhile_concat_neg (fun b => decide (key a < key b)) l b hlater, List.append_nil]

/-- Nothing is lost. -/
theorem perm_insert {l : List α} : (insert key a l).Perm (a :: l) := by
  unfold insert
  rw [List.append_assoc]
  refine List.perm_middle.trans (List.Perm.cons _ ?_)
  exact .of_eq List.rdropWhile_append_rtakeWhile

theorem mem_insert {b : α} {l : List α} : b ∈ insert key a l ↔ b = a ∨ b ∈ l := by
  rw [perm_insert.mem_iff, List.mem_cons]

/-- The list stays in order. -/
theorem sorted_insert {l : List α} (h : l.Pairwise (key · ≤ key ·)) : (insert key a l).Pairwise (key · ≤ key ·) := by
  induction l using List.reverseRecOn with
  | nil => exact List.pairwise_singleton _ _
  | append_singleton l b ih =>
    obtain ⟨hl, -, hb⟩ := List.pairwise_append.mp h
    have hlast : ∀ c ∈ l, key c ≤ key b := fun c hc => hb c hc b (List.mem_singleton.mpr rfl)
    by_cases hlt : key a < key b
    · rw [insert_concat_of_lt hlt, List.pairwise_append]
      refine ⟨ih hl, List.pairwise_singleton _ _, ?_⟩
      intro c hc d hd
      rw [List.mem_singleton.mp hd]
      rcases mem_insert.mp hc with rfl | hc
      · exact le_of_lt hlt
      · exact hlast c hc
    · have hle := le_of_not_gt hlt
      rw [insert_concat_of_le hle, List.pairwise_append]
      refine ⟨h, List.pairwise_singleton _ _, ?_⟩
      intro c hc d hd
      rw [List.mem_singleton.mp hd]
      rcases List.mem_append.mp hc with hc | hc
      · exact le_trans (hlast c hc) hle
      · rw [List.mem_singleton.mp hc]
        exact hle

/-- What is not later than the element is not touched. -/
theorem insert_append {before l : List α} (h : ∀ b ∈ before, key b ≤ key a) :
    insert key a (before ++ l) = before ++ insert key a l := by
  induction l using List.reverseRecOn with
  | nil =>
    rw [List.append_nil]
    induction before using List.reverseRecOn with
    | nil => rfl
    | append_singleton before b _ =>
      exact insert_concat_of_le (h b (List.mem_append_right _ (List.mem_singleton.mpr rfl))) before
  | append_singleton l b ih =>
    rw [← List.append_assoc]
    by_cases hlt : key a < key b
    · rw [insert_concat_of_lt hlt, insert_concat_of_lt hlt, ih, List.append_assoc]
    · have hle := le_of_not_gt hlt
      rw [insert_concat_of_le hle, insert_concat_of_le hle]
      simp only [List.append_assoc]

end Ordered
