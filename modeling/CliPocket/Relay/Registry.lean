import CliPocket.Lib.Steps
import CliPocket.Relay.Forward

/-!
# The registry of servers

`register`, `unregister` and the drop of a registration take the lock for as long as they run, so calls of several
threads come one after the other. A registration outlives its entry: its generation says whether the entry is its own.

- `Registrations.step`: calls, in any order, beside all registrations there have been;
- `Registrations.Matches`: entries are live registrations;
- `registry_routes`: **a server is routed to by its live registration alone**, as long as generations do not come again.
-/

namespace CliPocket

open Steps (run Reachable)

structure ServerSlot (Tx : Type) where
  serverId : ServerId
  tx : Tx

structure ServerRegistration where
  serverId : ServerId
  generation : UInt64
  deriving DecidableEq

namespace ServerRegistry

structure StoredServerSlot (Tx : Type) where
  slot : ServerSlot Tx
  generation : UInt64

end ServerRegistry

structure ServerRegistry (Tx : Type) where
  servers : AList fun _ : ServerId => ServerRegistry.StoredServerSlot Tx := ∅
  nextGeneration : UInt64 := 0

namespace ServerRegistry

variable {Tx : Type}

def register (r : ServerRegistry Tx) (slot : ServerSlot Tx) : RelayResult (ServerRegistry Tx × ServerRegistration) :=
  match r.servers.lookup slot.serverId with
  | some _ => .error (.protocol "duplicate server registration")
  | none =>
    let generation := r.nextGeneration
    .ok ({ servers := r.servers.insert slot.serverId { slot, generation }, nextGeneration := r.nextGeneration + 1 },
      { serverId := slot.serverId, generation })

def get (r : ServerRegistry Tx) (serverId : ServerId) : Option Tx :=
  (r.servers.lookup serverId).map fun stored => stored.slot.tx

/-- `ServerRegistration::unregister`: whether it was its entry, and what is left. -/
def unregister (r : ServerRegistry Tx) (registration : ServerRegistration) : Bool × ServerRegistry Tx :=
  let shouldRemove := (r.servers.lookup registration.serverId).any fun stored =>
    stored.generation == registration.generation
  (shouldRemove, if shouldRemove then { r with servers := r.servers.erase registration.serverId } else r)

end ServerRegistry

/-! ## Calls -/

/-- A registration that has been made. -/
structure Handle (Tx : Type) where
  registration : ServerRegistration
  tx : Tx
  /-- It has been unregistered or dropped. -/
  ended : Bool := false

/-- The entry of a registration. -/
def Handle.entry {Tx : Type} (h : Handle Tx) : ServerRegistry.StoredServerSlot Tx :=
  { slot := { serverId := h.registration.serverId, tx := h.tx }, generation := h.registration.generation }

/-- A registry and all registrations there have been. -/
structure Registrations (Tx : Type) where
  registry : ServerRegistry Tx := {}
  handles : List (Handle Tx) := []

inductive RegistryMove (Tx : Type)
  | register (slot : ServerSlot Tx)
  | unregister (i : Nat)
  /-- The drop of the registration calls `unregister`. -/
  | drop (i : Nat)

namespace Registrations

variable {Tx : Type} {s t : Registrations Tx} {id : ServerId} {i j : Nat} {h h' : Handle Tx}

/-- Registration `i` is given up. -/
def release (s : Registrations Tx) (i : Nat) : Option (Registrations Tx) :=
  s.handles[i]?.map fun h =>
    { registry := (s.registry.unregister h.registration).2, handles := s.handles.set i { h with ended := true } }

def step (s : Registrations Tx) : RegistryMove Tx → Option (Registrations Tx)
  | .register slot =>
    match s.registry.register slot with
    | .error _ => some s
    | .ok (registry, registration) => some { registry, handles := s.handles ++ [{ registration, tx := slot.tx }] }
  | .unregister i | .drop i => s.release i

/-- Registration `i` of `id` has succeeded, and has been neither unregistered nor dropped. -/
def Live (s : Registrations Tx) (id : ServerId) (i : Nat) (h : Handle Tx) : Prop :=
  s.handles[i]? = some h ∧ h.registration.serverId = id ∧ h.ended = false

/-- Generations are given out in order. -/
structure Counted (s : Registrations Tx) : Prop where
  generation : ∀ (i : Nat) (h : Handle Tx), s.handles[i]? = some h → h.registration.generation = .ofNat i
  next : s.registry.nextGeneration = .ofNat s.handles.length

/-- The entries are the live registrations. -/
structure Matches (s : Registrations Tx) : Prop where
  counted : s.Counted
  entries : ∀ id stored, s.registry.servers.lookup id = some stored ↔ ∃ i h, s.Live id i h ∧ stored = Handle.entry h

/-! ## The invariant -/

theorem ofNat_inj {i j : Nat} (hi : i < 2 ^ 64) (hj : j < 2 ^ 64) (h : UInt64.ofNat i = UInt64.ofNat j) : i = j := by
  have heq := congrArg UInt64.toNat h
  rwa [UInt64.toNat_ofNat_of_lt' hi, UInt64.toNat_ofNat_of_lt' hj] at heq

/-- **One generation, one registration.** -/
theorem Counted.inj (hc : s.Counted) (hroom : s.handles.length ≤ 2 ^ 64) (hi : s.handles[i]? = some h)
    (hj : s.handles[j]? = some h') (hsame : h.registration.generation = h'.registration.generation) : i = j := by
  have hilt := (List.getElem?_eq_some_iff.mp hi).1
  have hjlt := (List.getElem?_eq_some_iff.mp hj).1
  rw [hc.generation i h hi, hc.generation j h' hj] at hsame
  exact ofNat_inj (by omega) (by omega) hsame

/-- One server, one live registration. -/
theorem Matches.unique (hm : s.Matches) (hroom : s.handles.length ≤ 2 ^ 64) (hi : s.Live id i h) (hj : s.Live id j h') :
    i = j := by
  have hstored := (hm.entries id _).mpr ⟨i, h, hi, rfl⟩
  have hstored' := (hm.entries id _).mpr ⟨j, h', hj, rfl⟩
  have hsame := congrArg ServerRegistry.StoredServerSlot.generation (Option.some.inj (hstored.symm.trans hstored'))
  exact hm.counted.inj hroom hi.1 hj.1 hsame

/-- **What giving up a registration does**: a live one loses its entry, any other one loses nothing. -/
theorem Matches.unregister_eq (hm : s.Matches) (hroom : s.handles.length ≤ 2 ^ 64) (hi : s.handles[i]? = some h) :
    s.registry.unregister h.registration = (!h.ended,
      if h.ended then s.registry
      else { s.registry with servers := s.registry.servers.erase h.registration.serverId }) := by
  have hremove : ((s.registry.servers.lookup h.registration.serverId).any fun stored =>
      stored.generation == h.registration.generation) = !h.ended := by
    cases hended : h.ended with
    | false =>
      have hstored := (hm.entries _ _).mpr ⟨i, h, ⟨hi, rfl, hended⟩, rfl⟩
      simp [hstored, Handle.entry]
    | true =>
      cases hlookup : s.registry.servers.lookup h.registration.serverId with
      | none => rfl
      | some stored =>
        obtain ⟨j, h', hlive, rfl⟩ := (hm.entries _ _).mp hlookup
        have hother : h'.registration.generation ≠ h.registration.generation := by
          intro hsame
          cases hm.counted.inj hroom hlive.1 hi hsame
          cases hlive.1.symm.trans hi
          cases hended.symm.trans hlive.2.2
        simpa [Handle.entry] using hother
  unfold ServerRegistry.unregister
  simp only [hremove]
  cases h.ended <;> rfl

/-- What is live behind one more registration. -/
theorem live_concat {registry : ServerRegistry Tx} {new : Handle Tx} :
    Live { registry, handles := s.handles ++ [new] } id i h ↔
      s.Live id i h ∨ (i = s.handles.length ∧ h = new ∧ new.registration.serverId = id ∧ new.ended = false) := by
  unfold Live
  dsimp only
  rcases Nat.lt_or_ge i s.handles.length with hlt | hge
  · rw [List.getElem?_append_left hlt]
    constructor
    · exact .inl
    · rintro (hold | ⟨rfl, _⟩)
      · exact hold
      · exact absurd hlt (Nat.lt_irrefl _)
  · have hnone : s.handles[i]? = none := List.getElem?_eq_none hge
    rw [List.getElem?_append_right hge, hnone, List.getElem?_singleton]
    by_cases heq : i = s.handles.length
    · simp only [heq, Nat.sub_self, if_true, Option.some.injEq, reduceCtorEq, false_and, true_and, false_or]
      constructor
      · rintro ⟨rfl, hid, hended⟩
        exact ⟨rfl, hid, hended⟩
      · rintro ⟨rfl, hid, hended⟩
        exact ⟨rfl, hid, hended⟩
    · have hpos : i - s.handles.length ≠ 0 := by omega
      simp [hpos, heq]

/-- **A registration is made.** -/
theorem Matches.register (hm : s.Matches) {slot : ServerSlot Tx} {registry : ServerRegistry Tx}
    {registration : ServerRegistration} (hr : s.registry.register slot = .ok (registry, registration)) :
    Matches { registry, handles := s.handles ++ [{ registration, tx := slot.tx }] } := by
  unfold ServerRegistry.register at hr
  split at hr
  · cases hr
  · next hnone =>
    cases hr
    refine ⟨⟨?_, ?_⟩, ?_⟩
    · intro i h hi
      rcases Nat.lt_or_ge i s.handles.length with hlt | hge
      · rw [List.getElem?_append_left hlt] at hi
        exact hm.counted.generation i h hi
      · rw [List.getElem?_append_right hge, List.getElem?_singleton] at hi
        split at hi
        · cases hi
          have hlast : i = s.handles.length := by omega
          rw [hlast]
          exact hm.counted.next
        · cases hi
    · show s.registry.nextGeneration + 1 = _
      rw [hm.counted.next, List.length_append, UInt64.ofNat_add]
      rfl
    · intro id stored
      simp only [live_concat]
      by_cases hid : id = slot.serverId
      · subst hid
        rw [AList.lookup_insert, Option.some.injEq]
        constructor
        · rintro rfl
          exact ⟨_, _, .inr ⟨rfl, rfl, rfl, trivial⟩, rfl⟩
        · rintro ⟨i, h, hlive | ⟨_, rfl, _⟩, rfl⟩
          · have hstored := (hm.entries _ _).mpr ⟨i, h, hlive, rfl⟩
            cases hnone.symm.trans hstored
          · rfl
      · rw [AList.lookup_insert_ne hid, hm.entries]
        constructor
        · rintro ⟨i, h, hlive, rfl⟩
          exact ⟨i, h, .inl hlive, rfl⟩
        · rintro ⟨i, h, hlive | ⟨_, _, hsame, _⟩, rfl⟩
          · exact ⟨i, h, hlive, rfl⟩
          · exact absurd hsame.symm hid

/-- What is live when registration `i` has ended. -/
theorem live_set {registry : ServerRegistry Tx} (hi : s.handles[i]? = some h) :
    Live { registry, handles := s.handles.set i { h with ended := true } } id j h' ↔ s.Live id j h' ∧ j ≠ i := by
  unfold Live
  dsimp only
  by_cases hj : j = i
  · subst hj
    have hlt := (List.getElem?_eq_some_iff.mp hi).1
    rw [List.getElem?_set_self hlt]
    constructor
    · rintro ⟨⟨⟩, _, hended⟩
      cases hended
    · rintro ⟨_, hne⟩
      exact absurd rfl hne
  · rw [List.getElem?_set_ne (Ne.symm hj)]
    exact (and_iff_left hj).symm

/-- **A registration is given up.** -/
theorem Matches.release (hm : s.Matches) (hroom : s.handles.length ≤ 2 ^ 64) (hs : s.release i = some t) :
    t.Matches := by
  obtain ⟨h, hi, rfl⟩ := Option.map_eq_some_iff.mp hs
  rw [hm.unregister_eq hroom hi]
  refine ⟨⟨?_, ?_⟩, ?_⟩
  · intro j h' hj
    by_cases heq : j = i
    · subst heq
      rw [List.getElem?_set_self (List.getElem?_eq_some_iff.mp hi).1] at hj
      cases hj
      exact hm.counted.generation j h hi
    · rw [List.getElem?_set_ne (Ne.symm heq)] at hj
      exact hm.counted.generation j h' hj
  · dsimp only
    rw [List.length_set, ← hm.counted.next]
    split <;> rfl
  · intro id stored
    simp only [live_set hi]
    cases hended : h.ended with
    | true =>
      rw [if_pos rfl, hm.entries]
      constructor
      · rintro ⟨j, h', hlive, rfl⟩
        refine ⟨j, h', ⟨hlive, ?_⟩, rfl⟩
        rintro rfl
        cases hlive.1.symm.trans hi
        cases hended.symm.trans hlive.2.2
      · rintro ⟨j, h', ⟨hlive, _⟩, rfl⟩
        exact ⟨j, h', hlive, rfl⟩
    | false =>
      rw [if_neg Bool.false_ne_true]
      have hlive : s.Live h.registration.serverId i h := ⟨hi, rfl, hended⟩
      by_cases hid : id = h.registration.serverId
      · subst hid
        rw [AList.lookup_erase]
        constructor
        · rintro ⟨⟩
        · rintro ⟨j, h', ⟨hother, hne⟩, _⟩
          exact absurd (hm.unique hroom hother hlive) hne
      · rw [AList.lookup_erase_ne hid, hm.entries]
        constructor
        · rintro ⟨j, h', hother, rfl⟩
          refine ⟨j, h', ⟨hother, ?_⟩, rfl⟩
          rintro rfl
          cases hother.1.symm.trans hi
          exact hid hother.2.1.symm
        · rintro ⟨j, h', ⟨hother, _⟩, rfl⟩
          exact ⟨j, h', hother, rfl⟩

/-- Registrations are not forgotten. -/
theorem length_step {move : RegistryMove Tx} (hs : s.step move = some t) : s.handles.length ≤ t.handles.length := by
  have hrelease : ∀ i, s.release i = some t → s.handles.length ≤ t.handles.length := by
    intro i hs
    obtain ⟨h, _, rfl⟩ := Option.map_eq_some_iff.mp hs
    simp
  cases move with
  | register slot =>
    unfold step at hs
    dsimp only at hs
    split at hs
    · cases hs
      exact Nat.le_refl _
    · cases hs
      simp
  | unregister i => exact hrelease i hs
  | drop i => exact hrelease i hs

/-- **One call.** -/
theorem Matches.step (hm : s.Matches) (hroom : s.handles.length ≤ 2 ^ 64) {move : RegistryMove Tx}
    (hs : s.step move = some t) : t.Matches := by
  cases move with
  | register slot =>
    unfold Registrations.step at hs
    dsimp only at hs
    split at hs
    · cases hs
      exact hm
    · next hregister =>
      cases hs
      exact hm.register hregister
  | unregister i => exact hm.release hroom hs
  | drop i => exact hm.release hroom hs

/-- **A whole run.** -/
theorem matches_of_reachable (hs : Reachable step {} s) (hroom : s.handles.length ≤ 2 ^ 64) : s.Matches := by
  have hinvariant := hs.invariant (I := fun s => s.handles.length ≤ 2 ^ 64 → s.Matches) ?_ ?_
  · exact hinvariant hroom
  · intro _
    refine ⟨⟨fun i h hi => ?_, rfl⟩, fun id stored => ?_⟩
    · cases hi
    · rw [AList.lookup_empty]
      constructor
      · rintro ⟨⟩
      · rintro ⟨i, h, ⟨hi, _⟩, _⟩
        cases hi
  · intro s move t hs hstep hroom
    have hbefore := Nat.le_trans (length_step hstep) hroom
    exact (hs hbefore).step hbefore hstep

/-! ## Routing -/

/-- Each server is routed to by its live registration, and by no other. -/
structure Routes (s : Registrations Tx) : Prop where
  unique : ∀ id i j h h', s.Live id i h → s.Live id j h' → i = j
  get : ∀ id tx, s.registry.get id = some tx ↔ ∃ i h, s.Live id i h ∧ h.tx = tx
  register : ∀ slot, (∃ e, s.registry.register slot = .error e) ↔ ∃ i h, s.Live slot.serverId i h
  stale : ∀ (i : Nat) (h : Handle Tx), s.handles[i]? = some h → h.ended = true →
    s.registry.unregister h.registration = (false, s.registry)
  unregister : ∀ id i h, s.Live id i h → (s.registry.unregister h.registration).1 = true ∧
    (s.registry.unregister h.registration).2.get id = none ∧
    ∀ other, other ≠ id → (s.registry.unregister h.registration).2.get other = s.registry.get other

theorem Matches.get_iff (hm : s.Matches) {tx : Tx} :
    s.registry.get id = some tx ↔ ∃ i h, s.Live id i h ∧ h.tx = tx := by
  unfold ServerRegistry.get
  rw [Option.map_eq_some_iff]
  constructor
  · rintro ⟨stored, hstored, rfl⟩
    obtain ⟨i, h, hlive, rfl⟩ := (hm.entries _ _).mp hstored
    exact ⟨i, h, hlive, rfl⟩
  · rintro ⟨i, h, hlive, rfl⟩
    exact ⟨h.entry, (hm.entries _ _).mpr ⟨i, h, hlive, rfl⟩, rfl⟩

theorem Matches.register_iff (hm : s.Matches) {slot : ServerSlot Tx} :
    (∃ e, s.registry.register slot = .error e) ↔ ∃ i h, s.Live slot.serverId i h := by
  unfold ServerRegistry.register
  cases hlookup : s.registry.servers.lookup slot.serverId with
  | none =>
    constructor
    · rintro ⟨e, ⟨⟩⟩
    · rintro ⟨i, h, hlive⟩
      cases hlookup.symm.trans ((hm.entries _ _).mpr ⟨i, h, hlive, rfl⟩)
  | some stored =>
    obtain ⟨i, h, hlive, _⟩ := (hm.entries _ _).mp hlookup
    exact ⟨fun _ => ⟨i, h, hlive⟩, fun _ => ⟨_, rfl⟩⟩

/-- **The registry routes to the live registration alone**, in every run with no more registrations than there are
generations. -/
theorem registry_routes (hs : Reachable step {} s) (hroom : s.handles.length ≤ 2 ^ 64) : s.Routes := by
  have hm := matches_of_reachable hs hroom
  refine ⟨fun id i j h h' => hm.unique hroom, fun id tx => hm.get_iff, fun slot => hm.register_iff, ?_, ?_⟩
  · intro i h hi hended
    rw [hm.unregister_eq hroom hi, hended]
    rfl
  · rintro id i h ⟨hi, rfl, hended⟩
    rw [hm.unregister_eq hroom hi, hended]
    refine ⟨rfl, ?_, ?_⟩
    · simp [ServerRegistry.get]
    · intro other hother
      simp [ServerRegistry.get, AList.lookup_erase_ne hother]

/-- A registration is given up and made again, and the first one is dropped. -/
theorem registry_routes_sample : ∃ s, run step {} [.register ⟨⟨.splat 1⟩, 0⟩, .unregister 0, .register ⟨⟨.splat 1⟩, 1⟩,
    .drop 0] = some s ∧ s.registry.get ⟨.splat 1⟩ = some 1 ∧ s.Routes := by
  obtain ⟨s, hs, hget, hroom⟩ : ∃ s : Registrations Nat, run step {} [.register ⟨⟨.splat 1⟩, 0⟩, .unregister 0,
    .register ⟨⟨.splat 1⟩, 1⟩, .drop 0] = some s ∧ s.registry.get ⟨.splat 1⟩ = some 1 ∧ s.handles.length ≤ 2 ^ 64 :=
    ⟨_, rfl, rfl, by decide⟩
  exact ⟨s, hs, hget, registry_routes ⟨_, hs⟩ hroom⟩

end Registrations

end CliPocket
