import Mathlib.Data.List.Basic

/-!
# Coalescing neighbours of a list

A queue whose neighbours may be joined: `join a b` is what `a` and the `b` behind it make together, if they can be
joined.

- `Coalesces join xs ys`: `ys` is `xs` with some neighbours joined, in order (`refl`, `trans`, `append`);
- `Coalesces.filter`: the same of the elements that meet a condition which joining respects;
- `Coalesces.flatMap`: what the elements are made of is kept, in order;
- `joinFront join a xs`: the front joined with what follows, as long as it can be.
-/

namespace Coalesce

variable {α : Type*} {join : α → α → Option α}

/-- Some neighbours of a list are joined. -/
inductive Coalesces (join : α → α → Option α) : List α → List α → Prop
  | nil : Coalesces join [] []
  | keep (a : α) {xs ys : List α} : Coalesces join xs ys → Coalesces join (a :: xs) (a :: ys)
  | join {a b c : α} {xs ys : List α} : join a b = some c → Coalesces join xs (b :: ys) → Coalesces join (a :: xs) (c :: ys)

/-- Three neighbours can be joined from the right if they can be from the left. -/
def Associative (join : α → α → Option α) : Prop :=
  ∀ {a b c d e : α}, join a b = some c → join c d = some e → ∃ f, join b d = some f ∧ join a f = some e

namespace Coalesces

theorem refl : ∀ xs : List α, Coalesces join xs xs
  | [] => nil
  | x :: xs => keep x (refl xs)

theorem of_eq {xs ys : List α} (h : xs = ys) : Coalesces join xs ys := h ▸ refl xs

/-- Two neighbours in front. -/
theorem front {a b c : α} (h : join a b = some c) (xs : List α) : Coalesces join (a :: b :: xs) (c :: xs) :=
  .join h (refl _)

theorem append {xs ys vs ws : List α} (h : Coalesces join xs ys) (h' : Coalesces join vs ws) :
    Coalesces join (xs ++ vs) (ys ++ ws) := by
  induction h with
  | nil => exact h'
  | keep a _ ih => exact keep a ih
  | join hj _ ih => exact .join hj ih

theorem trans (hassoc : Associative join) {xs ys zs : List α} (h : Coalesces join xs ys) :
    Coalesces join ys zs → Coalesces join xs zs := by
  induction h generalizing zs with
  | nil => exact id
  | keep a _ ih =>
    intro h'
    cases h' with
    | keep _ h' => exact keep a (ih h')
    | join hj h' => exact .join hj (ih h')
  | join hj _ ih =>
    intro h'
    cases h' with
    | keep _ h' => exact .join hj (ih (keep _ h'))
    | join hj' h' =>
      obtain ⟨f, hbd, haf⟩ := hassoc hj hj'
      exact .join haf (ih (.join hbd h'))

/-- The elements that meet a condition, if joining respects it. -/
theorem filter {p : α → Bool} (hp : ∀ {a b c : α}, join a b = some c → p a = p c ∧ p b = p c) {xs ys : List α}
    (h : Coalesces join xs ys) : Coalesces join (xs.filter p) (ys.filter p) := by
  induction h with
  | nil => exact nil
  | keep a _ ih =>
    rw [List.filter_cons, List.filter_cons]
    split
    · exact keep a ih
    · exact ih
  | @join a b c xs ys hj _ ih =>
    obtain ⟨ha, hb⟩ := hp hj
    rw [List.filter_cons, hb] at ih
    rw [List.filter_cons, List.filter_cons, ha]
    split
    · next hc =>
      rw [if_pos hc] at ih
      exact .join hj ih
    · next hc =>
      rw [if_neg hc] at ih
      exact ih

/-- What the elements are made of. -/
theorem flatMap {β : Type*} {parts : α → List β}
    (hparts : ∀ {a b c : α}, join a b = some c → parts c = parts a ++ parts b) {xs ys : List α}
    (h : Coalesces join xs ys) : xs.flatMap parts = ys.flatMap parts := by
  induction h with
  | nil => rfl
  | keep a _ ih => rw [List.flatMap_cons, List.flatMap_cons, ih]
  | join hj _ ih => rw [List.flatMap_cons, List.flatMap_cons, ih, List.flatMap_cons, hparts hj, List.append_assoc]

end Coalesces

/-- The front is joined with what follows. -/
def joinFront (join : α → α → Option α) (front : α) : List α → List α
  | [] => [front]
  | next :: rest =>
    match join front next with
    | some joined => joinFront join joined rest
    | none => front :: next :: rest

theorem coalesces_joinFront (hassoc : Associative join) :
    ∀ (xs : List α) (front : α), Coalesces join (front :: xs) (joinFront join front xs)
  | [], front => Coalesces.refl [front]
  | next :: rest, front => by
    unfold joinFront
    cases hj : join front next with
    | none => exact Coalesces.refl _
    | some joined => exact (Coalesces.front hj rest).trans hassoc (coalesces_joinFront hassoc rest joined)

end Coalesce
