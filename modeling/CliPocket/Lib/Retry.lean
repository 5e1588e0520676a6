import Mathlib.Algebra.BigOperators.Group.List.Basic
import Mathlib.Algebra.Order.Ring.Int
import Mathlib.Data.Nat.Basic

/-!
# Retry loops

A loop that reads an atomic value, computes the next one and swaps them if the value is still what has been read; else
it goes on with what it has seen. Other loops go on in between.

- `attempt`: one turn; `attempt_swapped`: **a swap is one update of the value as it is**;
- `sum_set`: what a party's change makes of a sum over all parties.
-/

namespace Retry

variable {α : Type*} [DecidableEq α]

/-- What a turn of a loop comes to. -/
inductive Attempt (α : Type*)
  /-- The loop ends without a swap. -/
  | stopped
  | swapped (next : α)
  /-- The value is another one, or the swap has failed for no reason. -/
  | again (observed : α)

/-- A turn of a loop that has read `current`, on an atomic that is `cell`. -/
def attempt (body : α → Option α) (cell current : α) (spurious : Bool) : Attempt α :=
  match body current with
  | none => .stopped
  | some next => if cell = current ∧ spurious = false then .swapped next else .again cell

variable {body : α → Option α} {cell current next observed : α} {spurious : Bool}

theorem attempt_swapped (h : attempt body cell current spurious = .swapped next) :
    cell = current ∧ body cell = some next := by
  unfold attempt at h
  split at h
  · cases h
  · next hnext =>
    split at h
    · next hsame =>
      cases h
      exact ⟨hsame.1, hsame.1 ▸ hnext⟩
    · cases h

theorem attempt_stopped (h : attempt body cell current spurious = .stopped) : body current = none := by
  unfold attempt at h
  split at h
  · assumption
  · split at h <;> cases h

/-- **What is read again is the value as it is.** -/
theorem attempt_again (h : attempt body cell current spurious = .again observed) : observed = cell := by
  unfold attempt at h
  split at h
  · cases h
  · split at h
    · cases h
    · cases h
      rfl

/-! ## Parties -/

/-- One of the parties changes. -/
theorem sum_set {β : Type*} (f : β → Nat) : ∀ {l : List β} {i : Nat} {a : β} (b : β), l[i]? = some a →
    ((l.set i b).map f).sum + f a = (l.map f).sum + f b
  | [], _, _, _, h => by simp at h
  | x :: l, 0, a, b, h => by
    simp at h
    subst h
    simp
    omega
  | x :: l, i + 1, a, b, h => by
    have hrest := sum_set f (l := l) b (by simpa using h)
    simp only [List.set_cons_succ, List.map_cons, List.sum_cons]
    omega

theorem le_sum {β : Type*} (f : β → Nat) : ∀ {l : List β} {i : Nat} {a : β}, l[i]? = some a → f a ≤ (l.map f).sum
  | [], _, _, h => by simp at h
  | x :: l, 0, a, h => by
    simp at h
    simp [h]
  | x :: l, i + 1, a, h => by
    have hrest := le_sum f (l := l) (by simpa using h)
    simp
    omega

end Retry
