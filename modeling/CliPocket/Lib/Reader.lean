import Mathlib.Data.List.Infix

/-!
# Readers

A reader takes a value off the front of its input, or fails.

- `Reads take used a`: `used` is read as `a`, whatever follows;
- `Takes take Q`: what is taken is read so whatever follows, and `Q` holds of it;
- `Lawful take put R`: a writer and its reader; `R` are the values that have a spelling;
- `Lawful.cut`, `Lawful.prefix_free`: **nothing that is cut short is read, and nothing written begins like another.**
-/

namespace Readers

/-- A reader of values of type `α` from a list of `β`. -/
abbrev Reader (ε β α : Type) := StateT (List β) (Except ε) α

variable {ε β α γ : Type}

/-! ## One after the other -/

section Bind

variable {x : Reader ε β α} {f : α → Reader ε β γ} {s t : List β} {a : α} {c : γ}

theorem bind_of_ok (h : x s = .ok (a, t)) : (x >>= f) s = f a t := by
  show (x s >>= fun p => f p.1 p.2) = f a t
  rw [h]
  rfl

theorem bind_eq_ok : (x >>= f) s = .ok (c, t) ↔ ∃ a u, x s = .ok (a, u) ∧ f a u = .ok (c, t) := by
  show (x s >>= fun p => f p.1 p.2) = .ok (c, t) ↔ _
  cases x s with
  | error e =>
    constructor
    · intro h
      cases h
    · rintro ⟨a, u, h, _⟩
      cases h
  | ok p =>
    obtain ⟨a, u⟩ := p
    constructor
    · intro h
      exact ⟨a, u, rfl, h⟩
    · rintro ⟨a', u', h, h'⟩
      cases h
      exact h'

end Bind

/-! ## What is read -/

def Reads (take : Reader ε β α) (used : List β) (a : α) : Prop := ∀ more, take (used ++ more) = .ok (a, more)

namespace Reads

variable {take : Reader ε β α} {f : α → Reader ε β γ} {used more : List β} {a b : α} {c : γ}

theorem pure (a : α) : Reads (Pure.pure a : Reader ε β α) [] a := fun _ => rfl

theorem bind (h : Reads take used a) (h' : Reads (f a) more c) : Reads (take >>= f) (used ++ more) c := by
  intro rest
  rw [List.append_assoc, bind_of_ok (h _)]
  exact h' rest

/-- The last value taken is the result. -/
theorem map {g : α → γ} (h : Reads take used a) : Reads (take >>= fun a => Pure.pure (g a)) used (g a) := by
  intro rest
  rw [bind_of_ok (h rest)]
  rfl

theorem nil (h : Reads take used a) : take used = .ok (a, []) := by
  have hread := h []
  rwa [List.append_nil] at hread

/-- **Nothing begins with what is read and is read as something else.** -/
theorem unique (h : Reads take used a) (h' : Reads take more b) (hbegins : used <+: more) : used = more ∧ a = b := by
  obtain ⟨rest, rfl⟩ := hbegins
  have heq := (h rest).symm.trans h'.nil
  cases heq
  exact ⟨(List.append_nil used).symm, rfl⟩

end Reads

/-! ## What is taken -/

def Takes (take : Reader ε β α) (Q : α → List β → Prop) : Prop :=
  ∀ s a rest, take s = .ok (a, rest) → ∃ used, s = used ++ rest ∧ Reads take used a ∧ Q a used

namespace Takes

variable {take : Reader ε β α} {f : α → Reader ε β γ} {Q Q' : α → List β → Prop} {P : γ → List β → Prop}

theorem pure {a : α} (h : Q a []) : Takes (Pure.pure a : Reader ε β α) Q := by
  intro s b rest hs
  cases hs
  exact ⟨[], rfl, Reads.pure a, h⟩

theorem throw (e : ε) : Takes (throw e : Reader ε β α) Q := by
  intro s a rest hs
  cases hs

/-- **The rule of sequences.** -/
theorem bind (h : Takes take Q) (h' : ∀ a used, Q a used → Takes (f a) fun c more => P c (used ++ more)) :
    Takes (take >>= f) P := by
  intro s c rest hs
  obtain ⟨a, u, ha, hc⟩ := bind_eq_ok.mp hs
  obtain ⟨used, rfl, hreads, hq⟩ := h s a u ha
  obtain ⟨more, rfl, hreads', hp⟩ := h' a used hq u c rest hc
  exact ⟨used ++ more, (List.append_assoc _ _ _).symm, hreads.bind hreads', hp⟩

theorem mono (h : Takes take Q) (hq : ∀ a used, Q a used → Q' a used) : Takes take Q' := by
  intro s a rest hs
  obtain ⟨used, hsplit, hreads, hused⟩ := h s a rest hs
  exact ⟨used, hsplit, hreads, hq a used hused⟩

/-- **What has been cut short is not read.** -/
theorem cut (h : Takes take Q) {used front : List β} {a : α} (hreads : Reads take used a) (hfront : front <+: used)
    (hne : front ≠ used) (p : α × List β) : take front ≠ .ok p := by
  obtain ⟨b, rest⟩ := p
  intro hp
  obtain ⟨used', rfl, hreads', _⟩ := h front b rest hp
  have hbegins : used' <+: used := (List.prefix_append used' rest).trans hfront
  obtain ⟨rfl, _⟩ := hreads'.unique hreads hbegins
  exact hne (hfront.eq_of_length_le (by rw [List.length_append]; omega))

end Takes

/-! ## Writers and readers -/

/-- A value that has a spelling is read back, and is spelt no shorter than it is written. -/
structure Lawful (take : Reader ε β α) (put : α → List β) (R : α → Prop) : Prop where
  reads : ∀ {a}, R a → Reads take (put a) a
  takes : Takes take fun a used => R a ∧ (put a).length ≤ used.length

namespace Lawful

variable {take : Reader ε β α} {put : α → List β} {R : α → Prop}

theorem prefix_free (h : Lawful take put R) {a b : α} (ha : R a) (hb : R b) (hbegins : put a <+: put b) : a = b :=
  ((h.reads ha).unique (h.reads hb) hbegins).2

/-- Another name for the values. -/
theorem congr {R' : α → Prop} (h : Lawful take put R) (hR : ∀ a, R a ↔ R' a) : Lawful take put R' where
  reads ha := h.reads ((hR _).mpr ha)
  takes := h.takes.mono fun a _ hq => ⟨(hR a).mp hq.1, hq.2⟩

end Lawful

/-! ## Many -/

/-- As many values as `n`. -/
def times (take : Reader ε β α) : Nat → Reader ε β (List α)
  | 0 => Pure.pure []
  | n + 1 => do
    let a ← take
    let as ← times take n
    Pure.pure (a :: as)

theorem Reads.times {take : Reader ε β α} {put : α → List β} : ∀ {as : List α}, (∀ a ∈ as, Reads take (put a) a) →
    Reads (times take as.length) (as.flatMap put) as
  | [], _ => Reads.pure []
  | a :: _, h => (h a List.mem_cons_self).bind (Reads.times fun b hb => h b (List.mem_cons_of_mem _ hb)).map

theorem Takes.times {take : Reader ε β α} {put : α → List β} {R : α → Prop}
    (h : Takes take fun a used => R a ∧ (put a).length ≤ used.length) : ∀ n : Nat,
    Takes (times take n) fun as used => as.length = n ∧ (∀ a ∈ as, R a) ∧ (as.flatMap put).length ≤ used.length
  | 0 => Takes.pure ⟨rfl, fun _ ha => absurd ha List.not_mem_nil, Nat.le_refl 0⟩
  | n + 1 => by
    refine h.bind fun a used ha => (Takes.times h n).bind fun _ more has => Takes.pure ?_
    refine ⟨congrArg (· + 1) has.1, List.forall_mem_cons.mpr ⟨ha.1, has.2.1⟩, ?_⟩
    have hfirst := ha.2
    have hrest := has.2.2
    simp only [List.flatMap_cons, List.length_append, List.length_nil]
    omega

end Readers
