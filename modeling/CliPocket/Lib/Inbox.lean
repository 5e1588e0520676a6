import Mathlib.Data.List.Basic

/-!
# Messages on their way

What a receiver will do with the messages in front of it, as a predicate transformer: `hear m K` is what must hold of
its state for it to take `m` and be left in a state with `K`.

- `Reads hear ms K`: the same for all the messages `ms`, in order;
- `reads_append`: messages that are sent go behind those on their way;
- `Reads.imp`, `Reads.sim`: what is known of the state in the end, and what is known of it at the start;
- `Reads.change`: what the messages mean to the receiver.
-/

namespace Inbox

variable {μ σ : Type*} {hear : μ → (σ → Prop) → σ → Prop}

def Reads (hear : μ → (σ → Prop) → σ → Prop) (ms : List μ) (K : σ → Prop) : σ → Prop := ms.foldr hear K

@[simp] theorem reads_nil (K : σ → Prop) : Reads hear [] K = K := rfl

@[simp] theorem reads_cons (m : μ) (ms : List μ) (K : σ → Prop) : Reads hear (m :: ms) K = hear m (Reads hear ms K) := rfl

/-- **Messages are sent.** -/
theorem reads_append (ms ns : List μ) (K : σ → Prop) : Reads hear (ms ++ ns) K = Reads hear ms (Reads hear ns K) :=
  List.foldr_append

theorem reads_concat (ms : List μ) (m : μ) (K : σ → Prop) : Reads hear (ms ++ [m]) K = Reads hear ms (hear m K) :=
  reads_append ms [m] K

/-- One message carries a relation between two receivers on. -/
def Carries (hear : μ → (σ → Prop) → σ → Prop) (R : σ → σ → Prop) : Prop :=
  ∀ m (K K' : σ → Prop), (∀ s t, R s t → K s → K' t) → ∀ s t, R s t → hear m K s → hear m K' t

/-- **Two receivers that are related** stay so. -/
theorem Reads.sim {R : σ → σ → Prop} (hR : Carries hear R) : ∀ {ms : List μ} {K K' : σ → Prop} {s t : σ},
    Reads hear ms K s → R s t → (∀ s t, R s t → K s → K' t) → Reads hear ms K' t
  | [], _, _, s, t, h, hst, hK => hK s t hst h
  | m :: ms, K, _, s, t, h, hst, hK =>
    hR m (Reads hear ms K) _ (fun _ _ hst' h' => Reads.sim hR h' hst' hK) s t hst h

/-- What is known in the end. -/
theorem Reads.imp (hear_imp : Carries hear Eq) {ms : List μ} {K K' : σ → Prop} {s : σ} (h : Reads hear ms K s)
    (hK : ∀ s, K s → K' s) : Reads hear ms K' s :=
  Reads.sim hear_imp h rfl fun s _ hst hs => hst ▸ hK s hs

/-- Another receiver, to which every message means no less. -/
theorem Reads.change {hear' : μ → (σ → Prop) → σ → Prop}
    (hchange : ∀ m (K K' : σ → Prop), (∀ s, K s → K' s) → ∀ s, hear m K s → hear' m K' s) :
    ∀ {ms : List μ} {K K' : σ → Prop} {s : σ}, Reads hear ms K s → (∀ s, K s → K' s) → Reads hear' ms K' s
  | [], _, _, s, h, hK => hK s h
  | m :: ms, K, K', s, h, hK =>
    hchange m (Reads hear ms K) (Reads hear' ms K') (fun _ h' => Reads.change hchange h' hK) s h

end Inbox
