import CliPocket.Lib.Steps

/-!
# Simulation

- `Simulates`: a step of the one system is no step, one step or several steps of the other;
- `Simulates.run`: **so is a run.**
-/

namespace Steps

variable {σ τ : Type*} {ι κ : Type*}

/-- What the steps that meet `C` do is done by `step'` too, as far as `R` tells. -/
def Simulates (step : σ → ι → Option σ) (C : σ → ι → Prop) (step' : τ → κ → Option τ) (R : σ → τ → Prop) : Prop :=
  ∀ s i s' t, R s t → C s i → step s i = some s' → ∃ js t', run step' t js = some t' ∧ R s' t'

/-- One more move. -/
theorem meets_cons {step : σ → ι → Option σ} {C : σ → ι → Prop} {s t : σ} {i : ι} {is : List ι} (hc : C s i)
    (hs : step s i = some t) (h : Meets step C t is) : Meets step C s (i :: is) := by
  unfold Meets
  rw [hs]
  exact ⟨hc, h⟩

namespace Simulates

variable {step : σ → ι → Option σ} {C : σ → ι → Prop} {step' : τ → κ → Option τ} {R : σ → τ → Prop}

theorem run (h : Simulates step C step' R) : ∀ {is : List ι} {s s' : σ} {t : τ}, R s t → Meets step C s is →
    Steps.run step s is = some s' → ∃ js t', Steps.run step' t js = some t' ∧ R s' t'
  | [], s, s', t, hR, _, hrun => by
    cases hrun
    exact ⟨[], t, rfl, hR⟩
  | i :: is, s, s', t, hR, hmeets, hrun => by
    obtain ⟨m, hm, hrest⟩ := run_cons_some hrun
    obtain ⟨hc, hmeets'⟩ := meets_cons_some hm hmeets
    obtain ⟨js, u, hjs, hRu⟩ := h s i m t hR hc hm
    obtain ⟨js', t', hjs', hR'⟩ := h.run hRu hmeets' hrest
    refine ⟨js ++ js', t', ?_, hR'⟩
    rw [run_append hjs]
    exact hjs'

end Simulates

end Steps
