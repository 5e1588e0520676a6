import Mathlib.Data.List.Nodup

/-!
# Writes that are not waited for

A place that is written to by tasks of their own: a write is issued, and lands, or is lost, when its task says so.

- `WriteBehind`: what is stored, and the writes that are in flight, with the number of each;
- `Tracks w a`: `a` is the value of the latest write, which has landed or is in flight;
- `Tracks.land`, `Tracks.lose`: **it stays so as long as no write overtakes a later one, and the latest is not lost.**
-/

structure WriteBehind (α : Type*) where
  stored : α
  /-- The number of the latest write. -/
  issued : Nat := 0
  /-- The greatest number of a write that has landed. -/
  landed : Nat := 0
  inFlight : List (Nat × α) := []

namespace WriteBehind

variable {α : Type*} {w : WriteBehind α} {a b : α} {n i : Nat}

def issue (w : WriteBehind α) (a : α) : WriteBehind α :=
  { w with issued := w.issued + 1, inFlight := w.inFlight ++ [(w.issued + 1, a)] }

/-- The write at `i` lands. -/
def land (w : WriteBehind α) (i : Nat) : Option (WriteBehind α) :=
  w.inFlight[i]?.map fun (n, a) => { w with stored := a, landed := max w.landed n, inFlight := w.inFlight.eraseIdx i }

/-- The write at `i` is lost. -/
def lose (w : WriteBehind α) (i : Nat) : Option (WriteBehind α) :=
  w.inFlight[i]?.map fun _ => { w with inFlight := w.inFlight.eraseIdx i }

/-- No later write has landed before the one at `i`. -/
def InOrder (w : WriteBehind α) (i : Nat) : Prop := ∀ p, w.inFlight[i]? = some p → w.landed < p.1

/-- There is a later write than the one at `i`. -/
def Superseded (w : WriteBehind α) (i : Nat) : Prop := ∀ p, w.inFlight[i]? = some p → p.1 < w.issued

instance (w : WriteBehind α) (i : Nat) : Decidable (w.InOrder i) := by
  unfold InOrder
  cases w.inFlight[i]? with
  | none => exact isTrue nofun
  | some p => exact decidable_of_iff (w.landed < p.1) ⟨fun h _ heq => Option.some.inj heq ▸ h, fun h => h p rfl⟩

instance (w : WriteBehind α) (i : Nat) : Decidable (w.Superseded i) := by
  unfold Superseded
  cases w.inFlight[i]? with
  | none => exact isTrue nofun
  | some p => exact decidable_of_iff (p.1 < w.issued) ⟨fun h _ heq => Option.some.inj heq ▸ h, fun h => h p rfl⟩

/-- The writes have numbers of their own, and none a number that has not been issued. -/
structure Numbered (w : WriteBehind α) : Prop where
  nodup : (w.inFlight.map Prod.fst).Nodup
  pos : ∀ p ∈ w.inFlight, 0 < p.1
  issued : ∀ p ∈ w.inFlight, p.1 ≤ w.issued

/-- The latest write is of `a`, and has landed or is in flight. -/
structure Tracks (w : WriteBehind α) (a : α) : Prop extends Numbered w where
  latest : (w.issued, a) ∈ w.inFlight ∨ (w.landed = w.issued ∧ w.stored = a)

theorem numbered_new (a : α) : Numbered { stored := a } where
  nodup := .nil
  pos _ h := by cases h
  issued _ h := by cases h

theorem tracks_new (a : α) : Tracks { stored := a } a := ⟨numbered_new a, .inr ⟨rfl, rfl⟩⟩

theorem Numbered.issue (h : Numbered w) (a : α) : Numbered (w.issue a) where
  nodup := by
    unfold WriteBehind.issue
    rw [List.map_append]
    refine List.nodup_append.mpr ⟨h.nodup, List.nodup_singleton _, ?_⟩
    intro n hn m hm
    obtain ⟨p, hp, rfl⟩ := List.mem_map.mp hn
    have hle := h.issued p hp
    cases List.mem_singleton.mp hm
    dsimp only
    omega
  pos p hp := by
    rcases List.mem_append.mp hp with hp | hp
    · exact h.pos p hp
    · cases List.mem_singleton.mp hp
      exact Nat.succ_pos _
  issued p hp := by
    rcases List.mem_append.mp hp with hp | hp
    · exact Nat.le_succ_of_le (h.issued p hp)
    · cases List.mem_singleton.mp hp
      exact Nat.le_refl _

/-- A write that is issued is the latest. -/
theorem Numbered.tracks_issue (h : Numbered w) (a : α) : Tracks (w.issue a) a :=
  ⟨h.issue a, .inl (List.mem_append_right _ (List.mem_singleton.mpr rfl))⟩

theorem Numbered.erase (h : Numbered w) (i landed : Nat) (a : α) :
    Numbered { w with stored := a, landed, inFlight := w.inFlight.eraseIdx i } where
  nodup := h.nodup.sublist ((List.eraseIdx_sublist w.inFlight i).map Prod.fst)
  pos p hp := h.pos p (List.mem_of_mem_eraseIdx hp)
  issued p hp := h.issued p (List.mem_of_mem_eraseIdx hp)

/-- Before the first write nothing is in flight. -/
theorem Numbered.inFlight_eq_nil (h : Numbered w) (hissued : w.issued = 0) : w.inFlight = [] := by
  refine List.eq_nil_iff_forall_not_mem.mpr ?_
  intro p hp
  have hpos := h.pos p hp
  have hle := h.issued p hp
  omega

/-- A write with another number is still in flight. -/
theorem mem_eraseIdx {l : List (Nat × α)} {p q : Nat × α} (hp : l[i]? = some p) (hq : q ∈ l) (hne : q.1 ≠ p.1) :
    q ∈ l.eraseIdx i := by
  obtain ⟨j, hj⟩ := List.mem_iff_getElem?.mp hq
  refine List.mem_eraseIdx_iff_getElem?.mpr ⟨j, ?_, hj⟩
  rintro rfl
  rw [hp] at hj
  cases hj
  exact hne rfl

/-- **Writes that land in order.** -/
theorem Tracks.land {v : WriteBehind α} (h : Tracks w a) (horder : w.InOrder i) (hv : w.land i = some v) : Tracks v a := by
  obtain ⟨⟨n, b⟩, hp, rfl⟩ := Option.map_eq_some_iff.mp hv
  have hn : n ≤ w.issued := h.issued _ (List.mem_of_getElem? hp)
  have hlanded : w.landed < n := horder _ hp
  refine ⟨h.toNumbered.erase i _ b, ?_⟩
  rcases h.latest with hmem | ⟨heq, _⟩
  · by_cases hlast : n = w.issued
    · right
      refine ⟨by dsimp only; omega, ?_⟩
      subst hlast
      exact congrArg Prod.snd (List.inj_on_of_nodup_map h.nodup (List.mem_of_getElem? hp) hmem rfl)
    · exact .inl (mem_eraseIdx hp hmem (Ne.symm hlast))
  · omega

/-- **Writes that are lost.** -/
theorem Tracks.lose {v : WriteBehind α} (h : Tracks w a) (hsuperseded : w.Superseded i) (hv : w.lose i = some v) :
    Tracks v a := by
  obtain ⟨⟨n, b⟩, hp, rfl⟩ := Option.map_eq_some_iff.mp hv
  have hn : n < w.issued := hsuperseded _ hp
  refine ⟨h.toNumbered.erase i _ w.stored, ?_⟩
  rcases h.latest with hmem | hlanded
  · exact .inl (mem_eraseIdx hp hmem (Nat.ne_of_gt hn))
  · exact .inr hlanded

/-- When nothing is in flight any more, the latest write is what is stored. -/
theorem Tracks.stored_eq (h : Tracks w a) (hquiet : w.inFlight = []) : w.stored = a := by
  rcases h.latest with hmem | ⟨_, hstored⟩
  · rw [hquiet] at hmem
    cases hmem
  · exact hstored

end WriteBehind
