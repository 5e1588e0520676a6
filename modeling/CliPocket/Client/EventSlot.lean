import CliPocket.Lib.Steps

/-!
# The event slot of the browser's client

`CliPocketClient` has its session in one slot and the receiver of its events in another. Calls overlap at every await:
`next_event` takes the receiver out for as long as it waits, and puts it back whatever is in the slot by then.

- `WasmClient.step`: the parts of the calls between their awaits, and what sessions do;
- `WasmClient.Orderly.step`: **one step**;
- `slot_is_current`: **the receiver is that of the session**, in every run in which no receiver is out when the slot is
  replaced.
-/

namespace CliPocket

open Steps (run Meets)

/-- A `connect` that has begun. -/
inductive ConnectPhase
  /-- It waits for the session before to shut down. -/
  | shuttingDown
  /-- It waits for the store and the identity. -/
  | preparing
  | over
  deriving DecidableEq

/-- A `next_event` that has found a receiver: that of a session. -/
inductive NextPhase
  /-- `left`: a `connect` or `close` has gone by since, and its session is not the current one. -/
  | waiting (session : Nat) (left : Bool)
  | over
  deriving DecidableEq

/-- The receiver that a call has. -/
def NextPhase.receiver : NextPhase → Option Nat
  | .waiting session _ => some session
  | .over => none

structure WasmSession (ε : Type) where
  queue : List ε := []
  /-- What it has sent, and what `next_event` has given of it. -/
  sent : List ε := []
  given : List ε := []
  ended : Bool := false

/-- The sessions are named by their places. -/
structure WasmClient (ε : Type) where
  inner : Option Nat := none
  events : Option Nat := none
  sessions : List (WasmSession ε) := []
  connects : List ConnectPhase := []
  nexts : List NextPhase := []
  /-- A call that has been left behind has put its receiver back. -/
  putBackStale : Bool := false

inductive WasmMove (ε : Type)
  /-- `connect` is called, with a config that can be read or not. -/
  | connect (valid : Bool)
  | shutDown (i : Nat) (valid : Bool)
  /-- The store and the identity are there, or one of them has failed. -/
  | ready (i : Nat) (ok : Bool)
  | close
  | nextEvent
  | resume (j : Nat)
  /-- Session `k` sends an event. -/
  | send (k : Nat) (event : ε)
  | finish (k : Nat)

namespace WasmClient

variable {ε : Type}

/-- Calls that wait for another session than the current one. -/
def leaveBehind (s : WasmClient ε) : WasmClient ε :=
  { s with
    nexts := s.nexts.map fun
      | .waiting session left => .waiting session (left || s.inner != some session)
      | .over => .over }

/-- `connect` behind the shutdown: the receiver goes, and the config is read. -/
def cleared (s : WasmClient ε) (valid : Bool) : WasmClient ε × ConnectPhase :=
  ({ s with events := none }.leaveBehind, if valid then .preparing else .over)

def connect (s : WasmClient ε) (valid : Bool) : WasmClient ε :=
  match s.inner with
  | some _ => { s with inner := none, connects := s.connects ++ [.shuttingDown] }
  | none =>
    let (t, phase) := s.cleared valid
    { t with connects := t.connects ++ [phase] }

def shutDown (s : WasmClient ε) (i : Nat) (valid : Bool) : Option (WasmClient ε) :=
  match s.connects[i]? with
  | some .shuttingDown =>
    let (t, phase) := s.cleared valid
    some { t with connects := t.connects.set i phase }
  | _ => none

def ready (s : WasmClient ε) (i : Nat) (ok : Bool) : Option (WasmClient ε) :=
  match s.connects[i]? with
  | some .preparing =>
    let s := { s with connects := s.connects.set i .over }
    if ok then
      let connected : WasmClient ε :=
        { s with
          inner := some s.sessions.length
          events := some s.sessions.length
          sessions := s.sessions ++ [({} : WasmSession ε)] }
      some connected.leaveBehind
    else some s
  | _ => none

def close (s : WasmClient ε) : WasmClient ε := { s with inner := none, events := none }.leaveBehind

/-- `next_event`; without a receiver it fails. -/
def nextEvent (s : WasmClient ε) : WasmClient ε :=
  match s.events with
  | some session => { s with events := none, nexts := s.nexts ++ [.waiting session false] }
  | none => s

/-- A `next_event` that waits has its event, or sees that there will be none; its receiver goes back. -/
def resume (s : WasmClient ε) (j : Nat) : Option (WasmClient ε) :=
  match s.nexts[j]? with
  | some (.waiting session left) =>
    let back := { s with
      events := some session
      nexts := s.nexts.set j .over
      putBackStale := s.putBackStale || (left && s.inner != some session) }
    match s.sessions[session]? with
    | some { queue := event :: queue, sent, given, ended } =>
      some { back with sessions := s.sessions.set session { queue, sent, given := given ++ [event], ended } }
    | some { queue := [], ended := true, .. } => some back
    | _ => none
  | _ => none

def send (s : WasmClient ε) (k : Nat) (event : ε) : Option (WasmClient ε) :=
  match s.sessions[k]? with
  | some session =>
    if session.ended then none
    else
      let session := { session with queue := session.queue ++ [event], sent := session.sent ++ [event] }
      some { s with sessions := s.sessions.set k session }
  | none => none

def finish (s : WasmClient ε) (k : Nat) : Option (WasmClient ε) :=
  s.sessions[k]?.map fun session => { s with sessions := s.sessions.set k { session with ended := true } }

def step (s : WasmClient ε) : WasmMove ε → Option (WasmClient ε)
  | .connect valid => some (s.connect valid)
  | .shutDown i valid => s.shutDown i valid
  | .ready i ok => s.ready i ok
  | .close => some s.close
  | .nextEvent => some s.nextEvent
  | .resume j => s.resume j
  | .send k event => s.send k event
  | .finish k => s.finish k

/-! ## Receivers -/

/-- The receivers that are out. -/
def out (s : WasmClient ε) : List Nat := s.nexts.filterMap NextPhase.receiver

/-- All receivers. -/
def receivers (s : WasmClient ε) : List Nat := s.events.toList ++ s.out

/-- No `connect` is under way. -/
def Resolved (s : WasmClient ε) : Prop := ∀ phase ∈ s.connects, phase = .over

/-- The slot and the calls that wait have the receiver of the current session and no other; no other one has been put back
behind a `connect` or `close`; and events of the session are given or wait in its receiver. -/
structure SlotIsCurrent (s : WasmClient ε) : Prop where
  receivers : s.Resolved → s.receivers = s.inner.toList
  stale : s.putBackStale = false
  held : ∀ k, s.inner = some k → s.receivers = [k]
  kept : ∀ session ∈ s.sessions, session.given ++ session.queue = session.sent

/-- No receiver is out when the slot is replaced or cleared, but for the one of a session that another `connect` has
installed while this one has shut down the session before; such a receiver is not cleared from the slot. -/
def Calm (s : WasmClient ε) : WasmMove ε → Prop
  | .connect _ => s.inner = none → s.out = []
  | .shutDown _ _ => s.out = s.inner.toList
  | .ready _ ok => ok → s.out = []
  | .close => s.out = []
  | .nextEvent | .resume _ | .send _ _ | .finish _ => True

instance (s : WasmClient ε) : (move : WasmMove ε) → Decidable (Calm s move)
  | .connect _ => inferInstanceAs (Decidable (s.inner = none → s.out = []))
  | .shutDown _ _ => inferInstanceAs (Decidable (s.out = s.inner.toList))
  | .ready _ ok => inferInstanceAs (Decidable (ok → s.out = []))
  | .close => inferInstanceAs (Decidable (s.out = []))
  | .nextEvent | .resume _ | .send _ _ | .finish _ => isTrue trivial

/-- **The invariant**: one receiver, that of the session; without a session none, unless a `connect` is about to clear the
slot. Calls have not been left behind. -/
structure Orderly (s : WasmClient ε) : Prop where
  current : ∀ k, s.inner = some k → s.receivers = [k]
  vacant : s.inner = none → .shuttingDown ∈ s.connects ∨ s.receivers = []
  beside : ∀ session, .waiting session true ∉ s.nexts
  stale : s.putBackStale = false
  kept : ∀ session ∈ s.sessions, session.given ++ session.queue = session.sent

section Orderly

variable {s t : WasmClient ε} {move : WasmMove ε}

/-- Where nothing is out, nothing is left behind. -/
theorem leaveBehind_eq (h : ∀ k ∈ s.out, s.inner = some k) : s.leaveBehind = s := by
  have hnexts : s.nexts.map (fun
      | .waiting session left => .waiting session (left || s.inner != some session)
      | .over => .over) = s.nexts := by
    conv_rhs => rw [← List.map_id s.nexts]
    apply List.map_congr_left
    intro phase hphase
    match phase, hphase with
    | .over, _ => rfl
    | .waiting session left, hphase =>
      have hinner := h session (List.mem_filterMap.mpr ⟨_, hphase, rfl⟩)
      simp [hinner]
  unfold leaveBehind
  rw [hnexts]

theorem out_concat {nexts : List NextPhase} {session : Nat} {left : Bool} :
    (nexts ++ [NextPhase.waiting session left]).filterMap NextPhase.receiver = nexts.filterMap NextPhase.receiver ++ [session] := by
  simp [NextPhase.receiver]

/-- A call that ends gives its receiver away. -/
theorem out_set : ∀ {nexts : List NextPhase} {j session : Nat} {left : Bool}, nexts[j]? = some (.waiting session left) →
    (nexts.filterMap NextPhase.receiver).Perm (session :: (nexts.set j .over).filterMap NextPhase.receiver)
  | [], _, _, _, h => by simp at h
  | phase :: nexts, 0, session, left, h => by
    simp at h
    subst h
    simp only [List.set_cons_zero, List.filterMap_cons, NextPhase.receiver]
    exact List.Perm.refl _
  | phase :: nexts, j + 1, session, left, h => by
    have hwaiting : nexts[j]? = some (.waiting session left) := by simpa using h
    have hrest := out_set hwaiting
    rw [List.set_cons_succ, List.filterMap_cons, List.filterMap_cons]
    cases phase.receiver with
    | none => exact hrest
    | some k => exact (hrest.cons k).trans (List.Perm.swap session k _)

theorem mem_set {nexts : List NextPhase} {j session : Nat} {left : Bool} (h : .waiting session left ∈ nexts.set j .over) :
    .waiting session left ∈ nexts := by
  rcases List.mem_or_eq_of_mem_set h with h | h
  · exact h
  · cases h

/-- The slot is cleared. -/
theorem cleared_eq {valid : Bool} (hout : s.out = s.inner.toList) : (s.cleared valid).1 = { s with events := none } := by
  apply leaveBehind_eq
  intro k hk
  replace hk : k ∈ s.out := hk
  rw [hout] at hk
  exact Option.mem_toList.mp hk

/-- There is no session, and nothing in the slot. -/
theorem Orderly.vacated (h : Orderly s) {connects : List ConnectPhase}
    (hvacant : .shuttingDown ∈ connects ∨ s.out = []) : Orderly { s with inner := none, events := none, connects } where
  current _ hk := by cases hk
  vacant _ := hvacant
  beside := h.beside
  stale := h.stale
  kept := h.kept

/-- The slot is cleared where the receiver of the session is out. -/
theorem Orderly.slotCleared (h : Orderly s) (hout : s.out = s.inner.toList) (connects : List ConnectPhase) :
    Orderly { s with events := none, connects } where
  current k hk := by
    show s.out = [k]
    rw [hout, show s.inner = some k from hk]
    rfl
  vacant hnone := by
    right
    show s.out = []
    rw [hout, show s.inner = none from hnone]
    rfl
  beside := h.beside
  stale := h.stale
  kept := h.kept

theorem mem_set_of_ne {connects : List ConnectPhase} {i : Nat} {phase : ConnectPhase}
    (hi : connects[i]? ≠ some .shuttingDown) (h : .shuttingDown ∈ connects) : .shuttingDown ∈ connects.set i phase := by
  obtain ⟨j, hj⟩ := List.mem_iff_getElem?.mp h
  refine List.mem_iff_getElem?.mpr ⟨j, ?_⟩
  rw [List.getElem?_set_ne]
  · exact hj
  · rintro rfl
    exact hi hj

/-- `connect` is called. -/
theorem Orderly.connect (h : Orderly s) (valid : Bool) (hc : s.Calm (.connect valid)) : (s.connect valid).Orderly := by
  unfold WasmClient.connect
  cases hinner : s.inner with
  | some k =>
    refine ⟨fun _ hk => (by cases hk), fun _ => .inl ?_, h.beside, h.stale, h.kept⟩
    simp
  | none =>
    have hout : s.out = s.inner.toList := by
      rw [hc hinner, hinner]
      rfl
    show Orderly { (s.cleared valid).1 with connects := (s.cleared valid).1.connects ++ [(s.cleared valid).2] }
    rw [cleared_eq hout]
    exact h.slotCleared hout _

/-- The session before has shut down. -/
theorem Orderly.shutDown (h : Orderly s) {i : Nat} {valid : Bool} (hc : s.Calm (.shutDown i valid))
    (hs : s.shutDown i valid = some t) : t.Orderly := by
  unfold WasmClient.shutDown at hs
  split at hs
  · injection hs with hs
    have hout : s.out = s.inner.toList := hc
    rw [← hs]
    show Orderly { (s.cleared valid).1 with connects := (s.cleared valid).1.connects.set i (s.cleared valid).2 }
    rw [cleared_eq hout]
    exact h.slotCleared hout _
  · cases hs

/-- The identity is there, or `connect` fails. -/
theorem Orderly.ready (h : Orderly s) {i : Nat} {ok : Bool} (hc : s.Calm (.ready i ok)) (hs : s.ready i ok = some t) :
    t.Orderly := by
  unfold WasmClient.ready at hs
  split at hs
  · next hi =>
    dsimp only at hs
    cases ok with
    | true =>
      cases hs
      have hout : s.out = [] := hc rfl
      rw [leaveBehind_eq]
      · refine ⟨?_, fun hnone => (by cases hnone), h.beside, h.stale, ?_⟩
        · rintro _ ⟨⟩
          show [s.sessions.length] ++ s.out = _
          rw [hout]
          rfl
        · intro session hsession
          rcases List.mem_append.mp hsession with hsession | hsession
          · exact h.kept session hsession
          · cases List.mem_singleton.mp hsession
            rfl
      · intro k hk
        replace hk : k ∈ s.out := hk
        rw [hout] at hk
        cases hk
    | false =>
      cases hs
      refine ⟨h.current, ?_, h.beside, h.stale, h.kept⟩
      intro hnone
      refine (h.vacant hnone).imp (fun hmem => mem_set_of_ne ?_ hmem) id
      rw [hi]
      nofun
  · cases hs

/-- A call takes the receiver out. -/
theorem Orderly.nextEvent (h : Orderly s) : s.nextEvent.Orderly := by
  unfold WasmClient.nextEvent
  cases hevents : s.events with
  | none => exact h
  | some session =>
    have hreceivers : s.receivers = session :: s.out := by
      simp [receivers, hevents]
    have hout : WasmClient.receivers { s with events := none, nexts := s.nexts ++ [.waiting session false] } =
        s.out ++ [session] := out_concat
    refine ⟨?_, ?_, ?_, h.stale, h.kept⟩
    · intro k hk
      have hcurrent := h.current k hk
      rw [hreceivers] at hcurrent
      obtain ⟨hsession, hnil⟩ := List.cons.inj hcurrent
      refine hout.trans ?_
      rw [hnil, hsession]
      rfl
    · intro hnone
      refine (h.vacant hnone).imp id fun hnil => ?_
      rw [hreceivers] at hnil
      cases hnil
    · intro k hk
      rcases List.mem_append.mp hk with hk | hk
      · exact h.beside k hk
      · cases List.mem_singleton.mp hk

/-- A call puts its receiver back. -/
theorem Orderly.putBack (h : Orderly s) {j session : Nat} {left : Bool}
    (hj : s.nexts[j]? = some (.waiting session left)) {sessions : List (WasmSession ε)}
    (hkept : ∀ session ∈ sessions, session.given ++ session.queue = session.sent) :
    Orderly { s with
      events := some session
      nexts := s.nexts.set j .over
      sessions
      putBackStale := s.putBackStale || (left && s.inner != some session) } := by
  have hperm := out_set hj
  have hmem : session ∈ s.out := hperm.symm.subset List.mem_cons_self
  refine ⟨?_, ?_, ?_, ?_, hkept⟩
  · intro k hk
    have hcurrent := h.current k hk
    have hout : s.out = [k] := by
      unfold receivers at hcurrent
      cases hevents : s.events with
      | none => simpa [hevents] using hcurrent
      | some other =>
        simp [hevents] at hcurrent
        rw [hcurrent.2] at hmem
        cases hmem
    have hnexts : (s.nexts.set j .over).filterMap NextPhase.receiver = [] ∧ session = k := by
      unfold out at hout
      rw [hout] at hperm
      obtain ⟨hsession, hnil⟩ := List.cons.inj (List.perm_singleton.mp hperm.symm)
      exact ⟨hnil, hsession⟩
    show [session] ++ (s.nexts.set j .over).filterMap NextPhase.receiver = [k]
    rw [hnexts.1, hnexts.2]
    rfl
  · intro hnone
    refine (h.vacant hnone).imp id fun hnil => ?_
    rw [(List.append_eq_nil_iff.mp hnil).2] at hmem
    cases hmem
  · intro k hk
    exact h.beside k (mem_set hk)
  · cases left with
    | false =>
      simpa using h.stale
    | true => exact absurd (List.mem_of_getElem? hj) (h.beside session)

/-- **One step.** -/
theorem Orderly.step (h : Orderly s) (hc : s.Calm move) (hs : s.step move = some t) : t.Orderly := by
  cases move with
  | connect valid =>
    cases hs
    exact h.connect valid hc
  | shutDown i valid => exact h.shutDown hc hs
  | ready i ok => exact h.ready hc hs
  | close =>
    cases hs
    have hout : s.out = [] := hc
    unfold WasmClient.close
    rw [leaveBehind_eq]
    · exact h.vacated (.inr hout)
    · intro k hk
      replace hk : k ∈ s.out := hk
      rw [hout] at hk
      cases hk
  | nextEvent =>
    cases hs
    exact h.nextEvent
  | resume j =>
    unfold WasmClient.step WasmClient.resume at hs
    dsimp only at hs
    split at hs
    · next session left hj =>
      split at hs
      · next event queue sent given ended hsession =>
        cases hs
        apply h.putBack hj
        intro other hother
        rcases List.mem_or_eq_of_mem_set hother with hother | rfl
        · exact h.kept other hother
        · have hkept := h.kept _ (List.mem_of_getElem? hsession)
          simpa using hkept
      · cases hs
        exact h.putBack hj h.kept
      · cases hs
    · cases hs
  | send k event =>
    unfold WasmClient.step WasmClient.send at hs
    dsimp only at hs
    split at hs
    · next session hsession =>
      split at hs
      · cases hs
      · cases hs
        refine ⟨h.current, h.vacant, h.beside, h.stale, ?_⟩
        intro other hother
        rcases List.mem_or_eq_of_mem_set hother with hother | rfl
        · exact h.kept other hother
        · have hkept := h.kept _ (List.mem_of_getElem? hsession)
          dsimp only
          rw [← hkept, List.append_assoc]
    · cases hs
  | finish k =>
    obtain ⟨session, hsession, rfl⟩ := Option.map_eq_some_iff.mp hs
    refine ⟨h.current, h.vacant, h.beside, h.stale, ?_⟩
    intro other hother
    rcases List.mem_or_eq_of_mem_set hother with hother | rfl
    · exact h.kept other hother
    · exact h.kept session (List.mem_of_getElem? hsession)

end Orderly

/-! ## Runs -/

theorem Orderly.slotIsCurrent {s : WasmClient ε} (h : s.Orderly) : s.SlotIsCurrent where
  receivers hresolved := by
    cases hinner : s.inner with
    | none =>
      rcases h.vacant hinner with hmem | hnil
      · cases hresolved _ hmem
      · exact hnil
    | some k => exact h.current k hinner
  stale := h.stale
  held := h.current
  kept := h.kept

/-- **The slot belongs to the current session**, in every run in which no receiver is out when the slot is replaced or
cleared. -/
theorem slot_is_current {s : WasmClient ε} {moves : List (WasmMove ε)} (hmeets : Meets step Calm {} moves)
    (hs : run step {} moves = some s) : s.SlotIsCurrent := by
  have hstart : Orderly ({} : WasmClient ε) :=
    ⟨fun _ hk => (by cases hk), fun _ => .inr rfl, fun _ hk => (by cases hk), rfl, fun _ hk => (by cases hk)⟩
  have horderly := Steps.run_invariant (I := Orderly) (fun _ _ _ h hc hstep => h.step hc hstep) hmeets hs hstart
  exact horderly.slotIsCurrent

/-- An event is waited for and given, then the client connects again. -/
theorem slot_is_current_sample : ∃ s : WasmClient Nat, run step {} [.connect true, .ready 0 true, .nextEvent, .send 0 7,
    .resume 0, .connect true, .shutDown 1 true, .ready 1 true] = some s ∧ s.events = some 1 ∧ s.SlotIsCurrent := by
  obtain ⟨s, hs, hevents⟩ : ∃ s : WasmClient Nat, run step {} [.connect true, .ready 0 true, .nextEvent, .send 0 7,
    .resume 0, .connect true, .shutDown 1 true, .ready 1 true] = some s ∧ s.events = some 1 := ⟨_, rfl, rfl⟩
  exact ⟨s, hs, hevents, slot_is_current (by decide) hs⟩

/-- An event is waited for while the client connects again: the receiver of the session before replaces the new one. -/
theorem stale_receiver_put_back : ¬∀ (moves : List (WasmMove Nat)) (s : WasmClient Nat), run step {} moves = some s →
    s.SlotIsCurrent := by
  intro h
  obtain ⟨s, hs, hinner, hevents⟩ : ∃ s : WasmClient Nat, run step {} [.connect true, .ready 0 true, .nextEvent,
    .connect true, .shutDown 1 true, .ready 1 true, .finish 0, .resume 0] = some s ∧ s.inner = some 1 ∧
      s.events = some 0 := ⟨_, rfl, rfl, rfl⟩
  have hheld := (h _ s hs).held 1 hinner
  simp [receivers, hevents] at hheld

end WasmClient

end CliPocket
