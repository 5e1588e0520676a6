import Mathlib.Algebra.Order.Ring.Int
import Mathlib.Data.List.Basic

/-!
# Runs of a step function

A system is a partial function `step : σ → ι → Option σ`: the label `ι` says which party moves and with what
input, `none` that the move is not enabled.

- `run step s is`: the state after the moves `is`;
- `Meets step C s is`: every move of the run is taken in a state that meets `C`;
- `run_invariant`: an invariant kept by the moves that meet `C` holds after every run that meets `C`;
- `run_balance`: what a run spends is covered by the level it starts from and by what its moves add;
- `Reachable step s₀ s` and its invariants (`Reachable.invariant`);
- `traced step emit`: the system beside a list of what its moves have done.
-/

namespace Steps

variable {σ : Type*} {ι : Type*}

/-- The state after the moves `is`, when each of them is enabled. -/
def run (step : σ → ι → Option σ) : σ → List ι → Option σ
  | s, [] => some s
  | s, i :: is => (step s i).bind fun t => run step t is

/-- Every move of the run is taken in a state that meets `C`. -/
def Meets (step : σ → ι → Option σ) (C : σ → ι → Prop) : σ → List ι → Prop
  | _, [] => True
  | s, i :: is => C s i ∧ match step s i with
    | some t => Meets step C t is
    | none => True

instance decidableMeets (step : σ → ι → Option σ) (C : σ → ι → Prop) [∀ s i, Decidable (C s i)] :
    ∀ s is, Decidable (Meets step C s is)
  | _, [] => isTrue trivial
  | s, i :: is => by
    unfold Meets
    cases step s i with
    | none => infer_instance
    | some t =>
      have := decidableMeets step C t is
      exact inferInstanceAs (Decidable (C s i ∧ Meets step C t is))

variable {step : σ → ι → Option σ} {C : σ → ι → Prop}

@[simp] theorem run_nil (s : σ) : run step s [] = some s := rfl

theorem run_cons (s : σ) (i : ι) (is : List ι) : run step s (i :: is) = (step s i).bind fun t => run step t is := rfl

/-- The first move of a run, and the rest of it. -/
theorem run_cons_some {s t : σ} {i : ι} {is : List ι} (h : run step s (i :: is) = some t) :
    ∃ m, step s i = some m ∧ run step m is = some t := by
  rw [run_cons] at h
  exact Option.bind_eq_some_iff.mp h

theorem run_append {js : List ι} : ∀ {is : List ι} {s t : σ}, run step s is = some t → run step s (is ++ js) = run step t js
  | [], s, t, h => by
    cases h
    rfl
  | i :: is, s, t, h => by
    obtain ⟨m, hm, hr⟩ := run_cons_some h
    rw [List.cons_append, run_cons, hm]
    exact run_append hr

/-- A run in two stretches. -/
theorem run_append_some {js : List ι} : ∀ {is : List ι} {s t : σ}, run step s (is ++ js) = some t →
    ∃ m, run step s is = some m ∧ run step m js = some t
  | [], s, _, h => ⟨s, rfl, h⟩
  | i :: is, s, t, h => by
    obtain ⟨m, hm, hr⟩ := run_cons_some h
    obtain ⟨n, hn, hr'⟩ := run_append_some hr
    refine ⟨n, ?_, hr'⟩
    rw [run_cons, hm]
    exact hn

/-- What the moves of a run spend is covered by the level at its start and by what they add. -/
theorem run_balance {level : σ → Nat} {spend gain : ι → Nat}
    (hstep : ∀ s i t, step s i = some t → level t + spend i ≤ level s + gain i) :
    ∀ {is : List ι} {s t : σ}, run step s is = some t → level t + (is.map spend).sum ≤ level s + (is.map gain).sum
  | [], s, t, h => by
    cases h
    exact Nat.le_refl _
  | i :: is, s, t, h => by
    obtain ⟨m, hm, hr⟩ := run_cons_some h
    have hfirst := hstep s i m hm
    have hrest := run_balance hstep hr
    simp only [List.map_cons, List.sum_cons]
    omega

theorem meets_cons_some {s m : σ} {i : ι} {is : List ι} (hs : step s i = some m) (h : Meets step C s (i :: is)) :
    C s i ∧ Meets step C m is := by
  unfold Meets at h
  rw [hs] at h
  exact h

/-- The first moves of a run that meets `C`. -/
theorem meets_prefix {js : List ι} : ∀ {is : List ι} {s : σ}, Meets step C s (is ++ js) → Meets step C s is
  | [], _, _ => trivial
  | i :: is, s, h => by
    rw [List.cons_append] at h
    unfold Meets at h ⊢
    refine ⟨h.1, ?_⟩
    have h' := h.2
    cases hs : step s i with
    | none => trivial
    | some t =>
      rw [hs] at h'
      exact meets_prefix h'

/-- The moves behind them. -/
theorem meets_suffix {js : List ι} : ∀ {is : List ι} {s t : σ}, Meets step C s (is ++ js) → run step s is = some t →
    Meets step C t js
  | [], s, t, h, hr => by
    cases hr
    exact h
  | i :: is, s, t, h, hr => by
    obtain ⟨m, hm, hr'⟩ := run_cons_some hr
    exact meets_suffix (meets_cons_some hm h).2 hr'

/-- **The invariant rule.** An invariant kept by every move that meets `C` holds at the end of every run that
meets `C`. -/
theorem run_invariant {I : σ → Prop} (hI : ∀ s i t, I s → C s i → step s i = some t → I t) :
    ∀ {is : List ι} {s t : σ}, Meets step C s is → run step s is = some t → I s → I t
  | [], s, t, _, hr, h => by
    cases hr
    exact h
  | i :: is, s, t, hm, hr, h => by
    obtain ⟨m, hs, hr'⟩ := run_cons_some hr
    obtain ⟨hc, hm'⟩ := meets_cons_some hs hm
    exact run_invariant hI hm' hr' (hI s i m h hc hs)

/-- A state that some run from `s₀` ends in. -/
def Reachable (step : σ → ι → Option σ) (s₀ s : σ) : Prop := ∃ is, run step s₀ is = some s

/-- No condition on the moves. -/
theorem meets_true : ∀ (is : List ι) (s : σ), Meets step (fun _ _ => True) s is
  | [], _ => trivial
  | i :: is, s => by
    unfold Meets
    cases step s i with
    | none => exact ⟨trivial, trivial⟩
    | some t => exact ⟨trivial, meets_true is t⟩

/-- A condition on the moves alone. -/
theorem meets_of_forall {P : ι → Prop} : ∀ {is : List ι} {s : σ}, (∀ i ∈ is, P i) → Meets step (fun _ i => P i) s is
  | [], _, _ => trivial
  | i :: is, s, h => by
    unfold Meets
    refine ⟨h i List.mem_cons_self, ?_⟩
    cases step s i with
    | none => trivial
    | some t => exact meets_of_forall fun j hj => h j (List.mem_cons_of_mem _ hj)

/-- An invariant kept by every move holds in every reachable state. -/
theorem Reachable.invariant {I : σ → Prop} {s₀ s : σ} (h : Reachable step s₀ s) (h₀ : I s₀)
    (hI : ∀ s i t, I s → step s i = some t → I t) : I s := by
  obtain ⟨is, hr⟩ := h
  exact run_invariant (C := fun _ _ => True) (fun s i t hs _ ht => hI s i t hs ht) (meets_true is s₀) hr h₀

/-! ## Traces -/

/-- A system beside what its moves have done, which `emit` reads off the state before the move. -/
def traced {ε : Type*} (step : σ → ι → Option σ) (emit : σ → ι → List ε) : σ × List ε → ι → Option (σ × List ε)
  | (s, h), i => (step s i).map fun t => (t, h ++ emit s i)

theorem traced_eq_some {ε : Type*} {emit : σ → ι → List ε} {s t : σ} {h h' : List ε} {i : ι} :
    traced step emit (s, h) i = some (t, h') ↔ step s i = some t ∧ h' = h ++ emit s i := by
  unfold traced
  rw [Option.map_eq_some_iff]
  constructor
  · rintro ⟨u, hu, he⟩
    cases he
    exact ⟨hu, rfl⟩
  · rintro ⟨hu, rfl⟩
    exact ⟨t, hu, rfl⟩

/-- A condition on the moves of a system is one on those of its trace. -/
theorem meets_traced {ε : Type*} {emit : σ → ι → List ε} : ∀ {is : List ι} {s : σ} {h : List ε}, Meets step C s is →
    Meets (traced step emit) (fun p i => C p.1 i) (s, h) is
  | [], _, _, _ => trivial
  | i :: is, s, h, hm => by
    unfold Meets at hm ⊢
    refine ⟨hm.1, ?_⟩
    have hrest := hm.2
    have htraced : traced step emit (s, h) i = (step s i).map fun t => (t, h ++ emit s i) := rfl
    rw [htraced]
    cases hs : step s i with
    | none => trivial
    | some t =>
      rw [hs] at hrest
      exact meets_traced hrest

end Steps
