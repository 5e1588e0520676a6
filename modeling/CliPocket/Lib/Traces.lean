import Mathlib.Data.List.Basic

/-!
# What lies between two marks of a trace

- `Spaced mark good events`: between two consecutive marks there is something good;
- `Spaced.mark_good`, `Spaced.skip`: traces that are spaced, from their ends;
- `not_spaced_of_adjacent`: two marks side by side.
-/

namespace Traces

variable {α : Type*} {mark good : α → Prop}

/-- Between two marks without a third one between them there is something good. -/
def Spaced (mark good : α → Prop) (events : List α) : Prop :=
  ∀ before a between b after, events = before ++ a :: (between ++ b :: after) → mark a → mark b →
    (∀ e ∈ between, ¬mark e) → ∃ e ∈ between, good e

theorem spaced_singleton (a : α) : Spaced mark good [a] := by
  intro before b between c after h
  have := congrArg List.length h
  simp only [List.length_cons, List.length_append, List.length_nil] at this
  omega

/-- What is no mark stands between no two of them at the front. -/
theorem Spaced.skip {a : α} {events : List α} (ha : ¬mark a) (h : Spaced mark good events) :
    Spaced mark good (a :: events) := by
  intro before b between c after heq hb
  cases before with
  | nil =>
    cases heq
    exact absurd hb ha
  | cons _ before =>
    cases heq
    exact h before b between c after rfl hb

/-- A mark, and something good before the next one. -/
theorem Spaced.mark_good {a e : α} {events : List α} (he : ¬mark e) (hgood : good e) (h : Spaced mark good events) :
    Spaced mark good (a :: e :: events) := by
  intro before b between c after heq hb hc hbetween
  cases before with
  | nil =>
    cases between with
    | nil =>
      cases heq
      exact absurd hc he
    | cons _ between =>
      cases heq
      exact ⟨e, List.mem_cons_self, hgood⟩
  | cons _ before => exact (h.skip he) before b between c after (List.cons.inj heq).2 hb hc hbetween

/-- Two marks side by side. -/
theorem not_spaced_of_adjacent {before after : List α} {a b : α} (ha : mark a) (hb : mark b) :
    ¬Spaced mark good (before ++ a :: b :: after) := by
  intro h
  obtain ⟨e, he, _⟩ := h before a [] b after rfl ha hb (fun e he => by cases he)
  cases he

end Traces
