import CliPocket.App.Registry

/-!
# Promises of earlier activations

What waits is told apart by two generations, that of the connection and that of the activation. The second is counted
from `0` anew by every activation, so it tells no two activations apart.

- `Registry.resume_of_not_current`, `Registry.resume_fields`: what a continuation leaves alone;
- `Screen.unshared`: no call puts a connection into force on which something superseded waits;
- `Screen.stale_settlings`: **then what is superseded changes nothing**;
- `Screen.shared_settlings`: otherwise it acts as the latest activation.
-/

namespace CliPocket.App

open Steps (run Meets)

namespace Registry

variable {r r' : Registry} {c : Continuation} {decode : String → Except Thrown String}

/-! ## What a continuation leaves alone -/

/-- A continuation is the rest of one of the functions that wait. -/
theorem resume_cases {outcome : Outcome} {next : Option Await} (h : r.resume decode c outcome = some (r', next)) :
    (∃ result, outcome = .opened result ∧ r' = r.opened decode c result) ∨
      r.renders decode c outcome = none ∧
        (r' = r.openFinally c ∨ (∃ result, r' = (r.historyRead c result).1) ∨
          (∃ page result, r' = r.prepended c page result) ∨ (∃ result, r' = r.loaded c result) ∨
          r' = r.historyFinally c) := by
  unfold resume at h
  split at h
  · cases h
    exact .inl ⟨_, rfl, rfl⟩
  · cases h
    exact .inr ⟨rfl, .inl rfl⟩
  · cases h
    exact .inr ⟨rfl, .inr (.inl ⟨_, rfl⟩)⟩
  · cases h
    exact .inr ⟨rfl, .inr (.inr (.inl ⟨_, _, rfl⟩))⟩
  · cases h
    exact .inr ⟨rfl, .inr (.inr (.inr (.inl ⟨_, rfl⟩)))⟩
  · cases h
    exact .inr ⟨rfl, .inr (.inr (.inr (.inr rfl)))⟩
  · cases h

section NotCurrent

variable (hc : ¬ r.isCurrent c = true)
include hc

theorem openFailed_of_not_current (e : Thrown) : r.openFailed c e = r := if_neg hc

theorem opened_of_not_current (result : Except Thrown (Option OpenAckValue)) : r.opened decode c result = r := by
  cases result with
  | error e => exact openFailed_of_not_current hc e
  | ok attachAck => exact if_neg hc

theorem historyReturns_of_not_current : r.historyReturns c = r := if_neg hc

theorem historyFailed_returns_of_not_current (e : Thrown) : (r.historyFailed c e).historyReturns c = r := by
  rw [show r.historyFailed c e = r from if_neg hc]
  exact if_neg hc

theorem historyRead_of_not_current (result : Except Thrown TerminalHistoryPage) : (r.historyRead c result).1 = r := by
  cases result with
  | error e => exact historyFailed_returns_of_not_current hc e
  | ok page =>
    unfold historyRead
    rw [Bool.eq_false_iff.mpr hc]
    exact historyReturns_of_not_current hc

theorem prepended_of_not_current (page : TerminalHistoryPage) (result : Except Thrown Unit) :
    r.prepended c page result = r := by
  cases result with
  | error e => rfl
  | ok _ => exact if_neg hc

theorem loaded_of_not_current (result : Except Thrown Unit) : r.loaded c result = r := by
  cases result with
  | error e => exact historyFailed_returns_of_not_current hc e
  | ok _ => exact historyReturns_of_not_current hc

/-- **What is not current changes nothing.** -/
theorem resume_of_not_current {outcome : Outcome} {next : Option Await}
    (h : r.resume decode c outcome = some (r', next)) : r' = r := by
  obtain ⟨result, _, rfl⟩ | ⟨_, rfl | ⟨result, rfl⟩ | ⟨page, result, rfl⟩ | ⟨result, rfl⟩ | rfl⟩ := resume_cases h
  · exact opened_of_not_current hc result
  · exact if_neg hc
  · exact historyRead_of_not_current hc result
  · exact prepended_of_not_current hc page result
  · exact loaded_of_not_current hc result
  · exact if_neg hc

end NotCurrent

/-- What only a call changes. -/
structure SameActivation (r r' : Registry) : Prop where
  selected : r'.selectedTerminalId = r.selectedTerminalId
  connection : r'.connectionGeneration = r.connectionGeneration
  terminal : r'.state.terminalGeneration = r.state.terminalGeneration

theorem SameActivation.rfl : SameActivation r r := ⟨Eq.refl _, Eq.refl _, Eq.refl _⟩

theorem openFailed_same (r : Registry) (c : Continuation) (e : Thrown) : SameActivation r (r.openFailed c e) := by
  unfold openFailed
  split
  · exact ⟨rfl, rfl, rfl⟩
  · exact .rfl

theorem opened_same (r : Registry) (c : Continuation) (result : Except Thrown (Option OpenAckValue)) :
    SameActivation r (r.opened decode c result) := by
  cases result with
  | error e => exact openFailed_same r c e
  | ok attachAck =>
    unfold opened
    dsimp only
    split
    · split
      · exact openFailed_same r c _
      · split
        · obtain ⟨hs, hc, ht⟩ := openFailed_same (Registry.mk r.selectedTerminalId _ _ _ _) c _
          exact ⟨hs, hc, ht⟩
        · exact ⟨rfl, rfl, rfl⟩
    · exact .rfl

theorem historyFailed_same (r : Registry) (c : Continuation) (e : Thrown) : SameActivation r (r.historyFailed c e) := by
  unfold historyFailed
  split
  · exact ⟨rfl, rfl, rfl⟩
  · exact .rfl

theorem historyReturns_same (r : Registry) (c : Continuation) : SameActivation r (r.historyReturns c) := by
  unfold historyReturns
  split
  · exact ⟨rfl, rfl, rfl⟩
  · exact .rfl

theorem historyFailed_returns_same (r : Registry) (c : Continuation) (e : Thrown) :
    SameActivation r ((r.historyFailed c e).historyReturns c) := by
  have h := historyFailed_same r c e
  have h' := historyReturns_same (r.historyFailed c e) c
  exact ⟨h'.selected.trans h.selected, h'.connection.trans h.connection, h'.terminal.trans h.terminal⟩

theorem resume_same {outcome : Outcome} {next : Option Await} (h : r.resume decode c outcome = some (r', next)) :
    SameActivation r r' := by
  obtain ⟨result, _, rfl⟩ | ⟨_, rfl | ⟨result, rfl⟩ | ⟨page, result, rfl⟩ | ⟨result, rfl⟩ | rfl⟩ := resume_cases h
  · exact opened_same _ _ _
  · unfold openFinally
    split
    · exact ⟨rfl, rfl, rfl⟩
    · exact .rfl
  · unfold historyRead
    split
    · exact historyFailed_returns_same _ _ _
    · split
      · split
        · exact ⟨rfl, rfl, rfl⟩
        · exact ⟨rfl, rfl, rfl⟩
      · exact historyReturns_same _ _
  · unfold prepended
    split
    · exact .rfl
    · split
      · exact ⟨rfl, rfl, rfl⟩
      · exact .rfl
  · unfold loaded
    split
    · exact historyFailed_returns_same _ _ _
    · exact historyReturns_same _ _
  · unfold historyFinally
    split
    · exact ⟨rfl, rfl, rfl⟩
    · exact .rfl

end Registry

namespace Screen

variable {s t : Screen} {decode : String → Except Thrown String}

/-- Output for the registry changes neither its activation nor its phase. -/
theorem applyOutput_same (r : Registry) (terminalId : String) (seq : Nat) (chunk : String) (g : Nat) :
    Registry.SameActivation r (r.applyOutput terminalId seq chunk g) ∧
      (r.applyOutput terminalId seq chunk g).state.phase = r.state.phase := by
  unfold Registry.applyOutput
  split
  · split
    · exact ⟨⟨rfl, rfl, rfl⟩, rfl⟩
    · exact ⟨⟨rfl, rfl, rfl⟩, rfl⟩
    · exact ⟨⟨rfl, rfl, rfl⟩, rfl⟩
  · exact ⟨.rfl, rfl⟩

/-! ## The activation something belongs to -/

/-- The latest activation is over; `disconnecting` says whether a disconnect ends it. -/
def isOver (disconnecting : Bool) (s : Screen) : Bool :=
  s.ended = some .removed || disconnecting && s.ended = some .disconnected

/-- What waits is no longer of the latest activation. -/
def superseded (disconnecting : Bool) (s : Screen) (c : Continuation) : Bool :=
  c.activation ≠ s.activations || s.isOver disconnecting

/-- Nothing waits that was started on the connection. -/
def idleOn (s : Screen) (connectionGeneration : Nat) : Bool :=
  s.pending.all fun c => c.connectionGeneration ≠ some connectionGeneration

/-- Nothing that is superseded already waits on it. -/
def settledOn (disconnecting : Bool) (s : Screen) (connectionGeneration : Nat) : Bool :=
  s.pending.all fun c => c.connectionGeneration ≠ some connectionGeneration || !s.superseded disconnecting c

/-- No call puts a connection into force on which something waits that it supersedes, or that is superseded. -/
def unshared (disconnecting : Bool) (s : Screen) : Move → Bool
  | .setSelectedTerminal terminalId =>
    s.registry.selectedTerminalId = terminalId || terminalId.isNone || s.registry.connectionGeneration.all s.idleOn
  | .retryActive => s.registry.selectedTerminalId.isNone || s.registry.connectionGeneration.all s.idleOn
  | .connect connectionGeneration =>
    if s.registry.selectedTerminalId.isSome then s.idleOn connectionGeneration
    else s.registry.state.terminalGeneration = 0 || s.settledOn disconnecting connectionGeneration
  | .disconnect connectionGeneration =>
    if disconnecting then s.idleOn connectionGeneration else s.settledOn disconnecting connectionGeneration
  | _ => true

/-- What is superseded is never taken for the latest activation. -/
structure Owned (disconnecting : Bool) (s : Screen) : Prop where
  numbered : s.registry.state.terminalGeneration = 0 ∧ s.registry.state.phase = .idle ∨
    s.registry.state.terminalGeneration = 1
  started : ∀ c ∈ s.pending, c.terminalGeneration = 1
  recent : ∀ c ∈ s.pending, c.activation ≤ s.activations
  apart : ∀ c ∈ s.pending, s.superseded disconnecting c = true →
    s.registry.connectionGeneration = c.connectionGeneration → s.registry.state.terminalGeneration = 0
  closed : s.isOver disconnecting = true → s.registry.state.phase ≠ .ready

variable {disconnecting : Bool}

theorem owned_new : Owned disconnecting {} :=
  ⟨.inl ⟨rfl, rfl⟩, nofun, nofun, nofun, fun h => by cases disconnecting <;> cases h⟩

/-! ## The steps keep the promises apart -/

theorem activate_eq {terminalId : String} {g : Nat} (hs : s.registry.selectedTerminalId = some terminalId)
    (hc : s.registry.connectionGeneration = some g) :
    ∃ await, s.activateSelectedTerminal.pending = s.pending ++ [⟨await, terminalId, some g, 1, s.activations + 1⟩] ∧
      s.activateSelectedTerminal.activations = s.activations + 1 ∧ s.activateSelectedTerminal.ended = none ∧
      s.activateSelectedTerminal.received = s.received ∧ s.activateSelectedTerminal.rendered = none ∧
      s.activateSelectedTerminal.registry = { s.registry with
        state := { createState with phase := .opening, terminalGeneration := 1, pendingOpen := some s.promises }
        controller := s.registry.controller ++ [.reset, .setActiveTerminal terminalId] } := by
  unfold activateSelectedTerminal
  rw [hs, hc]
  exact ⟨_, rfl, rfl, rfl, rfl, rfl, rfl⟩

/-- Without a terminal or a connection nothing is activated. -/
theorem activate_none (h : s.registry.selectedTerminalId = none ∨ s.registry.connectionGeneration = none) :
    s.activateSelectedTerminal = s := by
  unfold activateSelectedTerminal
  split
  · next hs hc =>
    rcases h with h | h
    · rw [h] at hs
      cases hs
    · rw [h] at hc
      cases hc
  · rfl

theorem isOver_of_ended (h : s.ended = none) : s.isOver disconnecting = false := by
  unfold isOver
  rw [h]
  simp

theorem owned_activate {terminalId : String} {g : Nat} (hstarted : ∀ c ∈ s.pending, c.terminalGeneration = 1)
    (hrecent : ∀ c ∈ s.pending, c.activation ≤ s.activations)
    (hs : s.registry.selectedTerminalId = some terminalId) (hc : s.registry.connectionGeneration = some g)
    (hidle : s.idleOn g = true) : Owned disconnecting s.activateSelectedTerminal := by
  obtain ⟨await, hpending, hactivations, hended, _, _, hregistry⟩ := activate_eq hs hc
  refine ⟨?_, ?_, ?_, ?_, ?_⟩
  · rw [hregistry]
    exact .inr rfl
  · intro c h
    rw [hpending] at h
    rcases List.mem_append.mp h with h | h
    · exact hstarted c h
    · cases List.mem_singleton.mp h
      rfl
  · intro c h
    rw [hpending] at h
    rw [hactivations]
    rcases List.mem_append.mp h with h | h
    · exact Nat.le_succ_of_le (hrecent c h)
    · cases List.mem_singleton.mp h
      exact Nat.le_refl _
  · intro c h hsuperseded hconnection
    rw [hpending] at h
    rcases List.mem_append.mp h with h | h
    · rw [hregistry] at hconnection
      have hne := List.all_eq_true.mp hidle c h
      exact absurd (hc ▸ hconnection).symm (of_decide_eq_true hne)
    · cases List.mem_singleton.mp h
      unfold superseded at hsuperseded
      rw [isOver_of_ended hended, hactivations] at hsuperseded
      simp at hsuperseded
  · intro h
    rw [isOver_of_ended hended] at h
    cases h

/-- An activation, when there is something to activate. -/
theorem owned_activateSelected (hstarted : ∀ c ∈ s.pending, c.terminalGeneration = 1)
    (hrecent : ∀ c ∈ s.pending, c.activation ≤ s.activations)
    (hkeep : s.registry.selectedTerminalId = none ∨ s.registry.connectionGeneration = none → Owned disconnecting s)
    (hidle : ∀ terminalId g, s.registry.selectedTerminalId = some terminalId → s.registry.connectionGeneration = some g →
      s.idleOn g = true) : Owned disconnecting s.activateSelectedTerminal := by
  cases hs : s.registry.selectedTerminalId with
  | none =>
    rw [activate_none (.inl hs)]
    exact hkeep (.inl hs)
  | some terminalId =>
    cases hc : s.registry.connectionGeneration with
    | none =>
      rw [activate_none (.inr hc)]
      exact hkeep (.inr hc)
    | some g => exact owned_activate hstarted hrecent hs hc (hidle terminalId g hs hc)

/-- What waits behind a continuation that has gone on. -/
theorem settle_cases {i : Nat} {outcome : Outcome} (h : s.settle decode i outcome = some t) :
    ∃ c next, s.pending[i]? = some c ∧ s.registry.resume decode c outcome = some (t.registry, next) ∧
      (∀ c' ∈ t.pending, ∃ c ∈ s.pending, c'.connectionGeneration = c.connectionGeneration ∧
        c'.terminalGeneration = c.terminalGeneration ∧ c'.activation = c.activation) ∧
      t.activations = s.activations ∧ t.ended = s.ended ∧ t.received = s.received ∧
      t.rendered = (s.registry.renders decode c outcome).or s.rendered := by
  obtain ⟨c, hc, h⟩ := Option.bind_eq_some_iff.mp h
  obtain ⟨⟨registry, next⟩, hr, rfl⟩ := Option.map_eq_some_iff.mp h
  refine ⟨c, next, hc, hr, ?_, rfl, rfl, rfl, rfl⟩
  intro c' hc'
  cases next with
  | none => exact ⟨c', List.mem_of_mem_eraseIdx hc', rfl, rfl, rfl⟩
  | some await =>
    rcases List.mem_or_eq_of_mem_set hc' with hc' | rfl
    · exact ⟨c', hc', rfl, rfl, rfl⟩
    · exact ⟨c, List.mem_of_getElem? hc, rfl, rfl, rfl⟩

/-- What is superseded is not current. -/
theorem Owned.not_current (h : Owned disconnecting s) {c : Continuation} (hc : c ∈ s.pending)
    (hsuperseded : s.superseded disconnecting c = true) : ¬ s.registry.isCurrent c = true := by
  intro hcurrent
  unfold Registry.isCurrent at hcurrent
  rw [Bool.and_eq_true, decide_eq_true_eq, decide_eq_true_eq] at hcurrent
  have h0 := h.apart c hc hsuperseded hcurrent.1
  rw [hcurrent.2, h.started c hc] at h0
  cases h0

/-- Of the same activation, or superseded both. -/
theorem superseded_congr {c c' : Continuation} (hactivations : t.activations = s.activations) (hended : t.ended = s.ended)
    (hc : c'.activation = c.activation) : t.superseded disconnecting c' = s.superseded disconnecting c := by
  unfold superseded isOver
  rw [hactivations, hended, hc]

theorem owned_settle (h : Owned disconnecting s) {i : Nat} {outcome : Outcome} (hs : s.settle decode i outcome = some t) :
    Owned disconnecting t := by
  obtain ⟨c, next, hc, hr, hpending, hactivations, hended, _⟩ := settle_cases hs
  have hmem := List.mem_of_getElem? hc
  have hsame := Registry.resume_same hr
  have hover : t.isOver disconnecting = s.isOver disconnecting := by
    unfold isOver
    rw [hended]
  refine ⟨?_, ?_, ?_, ?_, ?_⟩
  · by_cases hcurrent : s.registry.isCurrent c = true
    · refine .inr ?_
      unfold Registry.isCurrent at hcurrent
      rw [Bool.and_eq_true, decide_eq_true_eq, decide_eq_true_eq] at hcurrent
      rw [hsame.terminal, hcurrent.2, h.started c hmem]
    · rw [Registry.resume_of_not_current hcurrent hr]
      exact h.numbered
  · intro c' hc'
    obtain ⟨c₀, h₀, _, ht, _⟩ := hpending c' hc'
    rw [ht]
    exact h.started c₀ h₀
  · intro c' hc'
    obtain ⟨c₀, h₀, _, _, ha⟩ := hpending c' hc'
    rw [ha, hactivations]
    exact h.recent c₀ h₀
  · intro c' hc' hsuperseded hconnection
    obtain ⟨c₀, h₀, hg, _, ha⟩ := hpending c' hc'
    rw [superseded_congr hactivations hended ha] at hsuperseded
    rw [hsame.terminal]
    exact h.apart c₀ h₀ hsuperseded (by rw [← hsame.connection, hconnection, hg])
  · intro hclosed
    rw [hover] at hclosed
    have hsuperseded : s.superseded disconnecting c = true := by
      unfold superseded
      rw [hclosed, Bool.or_true]
    rw [Registry.resume_of_not_current (h.not_current hmem hsuperseded) hr]
    exact h.closed hclosed

/-- The registry's fields that the invariant looks at are as they were. -/
theorem Owned.of_registry (h : Owned disconnecting s) {registry : Registry} {received : List (String × BufferedLiveOutput)}
    (hsame : Registry.SameActivation s.registry registry) (hphase : registry.state.phase = s.registry.state.phase) :
    Owned disconnecting { s with registry, received } := by
  refine ⟨?_, h.started, h.recent, ?_, ?_⟩
  · rw [hsame.terminal, hphase]
    exact h.numbered
  · intro c hc hsuperseded hconnection
    rw [hsame.terminal]
    exact h.apart c hc hsuperseded (hsame.connection ▸ hconnection)
  · intro hclosed
    rw [hphase]
    exact h.closed hclosed

theorem owned_loadOlderHistory (h : Owned disconnecting s) : Owned disconnecting s.loadOlderHistoryActive := by
  unfold loadOlderHistoryActive
  split
  · split
    · next hready =>
      have hphase : s.registry.state.phase = .ready := by
        simp only [Bool.and_eq_true, decide_eq_true_eq] at hready
        exact hready.1.1.1.2
      have hone : s.registry.state.terminalGeneration = 1 := by
        rcases h.numbered with ⟨_, hidle⟩ | hone
        · rw [hidle] at hphase
          cases hphase
        · exact hone
      have hopen : s.isOver disconnecting = false := Bool.eq_false_iff.mpr fun hover => h.closed hover hphase
      refine ⟨.inr hone, ?_, ?_, ?_, fun hover => ?_⟩
      · intro c hc
        rcases List.mem_append.mp hc with hc | hc
        · exact h.started c hc
        · cases List.mem_singleton.mp hc
          exact hone
      · intro c hc
        rcases List.mem_append.mp hc with hc | hc
        · exact h.recent c hc
        · cases List.mem_singleton.mp hc
          exact Nat.le_refl _
      · intro c hc hsuperseded hconnection
        rcases List.mem_append.mp hc with hc | hc
        · exact h.apart c hc hsuperseded hconnection
        · cases List.mem_singleton.mp hc
          have hsuperseded : (decide (s.activations ≠ s.activations) || s.isOver disconnecting) = true := hsuperseded
          rw [hopen] at hsuperseded
          simp at hsuperseded
      · nofun
    · exact h
  · exact h

theorem mem_idleOn {g : Nat} (h : s.idleOn g = true) {c : Continuation} (hc : c ∈ s.pending) :
    c.connectionGeneration ≠ some g := of_decide_eq_true (List.all_eq_true.mp h c hc)

theorem mem_settledOn {g : Nat} (h : s.settledOn disconnecting g = true) {c : Continuation} (hc : c ∈ s.pending)
    (hsuperseded : s.superseded disconnecting c = true) : c.connectionGeneration ≠ some g := by
  have h := List.all_eq_true.mp h c hc
  rw [hsuperseded, Bool.not_true, Bool.or_false] at h
  exact of_decide_eq_true h

theorem owned_step {move : Move} (h : Owned disconnecting s) (hmove : s.unshared disconnecting move = true)
    (hs : s.step decode move = some t) : Owned disconnecting t := by
  cases move with
  | attach session =>
    cases hs
    exact ⟨h.numbered, h.started, h.recent, h.apart, h.closed⟩
  | setSelectedTerminal terminalId =>
    unfold step at hs
    dsimp only at hs
    split at hs
    · cases hs
      exact h
    · next hne =>
      cases hs
      refine owned_activateSelected h.started h.recent (fun _ => ⟨h.numbered, h.started, h.recent, h.apart, h.closed⟩) ?_
      intro id g hid hg
      cases hid
      unfold unshared at hmove
      dsimp only at hmove
      rw [decide_eq_false hne, show s.registry.connectionGeneration = some g from hg] at hmove
      exact hmove
  | connect g =>
    cases hs
    unfold unshared at hmove
    dsimp only at hmove
    refine owned_activateSelected h.started h.recent (fun hnone => ⟨h.numbered, h.started, h.recent, ?_, h.closed⟩) ?_
    · intro c hc hsuperseded hconnection
      rcases hnone with hnone | hnone
      · rw [show s.registry.selectedTerminalId = none from hnone] at hmove
        rcases (Bool.or_eq_true _ _).mp hmove with hzero | hsettled
        · exact of_decide_eq_true hzero
        · exact absurd hconnection.symm (mem_settledOn hsettled hc hsuperseded)
      · cases hnone
    · intro id g' hid hg
      cases hg
      rw [show s.registry.selectedTerminalId = some id from hid] at hmove
      exact hmove
  | disconnect g =>
    cases hs
    refine ⟨.inr rfl, h.started, h.recent, ?_, nofun⟩
    intro c hc hsuperseded hconnection
    refine absurd hconnection.symm ?_
    unfold unshared at hmove
    cases disconnecting with
    | true => exact mem_idleOn hmove hc
    | false =>
      refine mem_settledOn hmove hc ?_
      unfold superseded isOver at hsuperseded ⊢
      revert hsuperseded
      cases s.ended with
      | none => simp
      | some e => simp
  | removeTerminal terminalId =>
    unfold step at hs
    dsimp only at hs
    split at hs
    · next hsel =>
      cases hs
      unfold Registry.removeTerminal
      rw [if_pos hsel]
      exact ⟨.inl ⟨rfl, rfl⟩, h.started, h.recent, fun _ _ _ _ => rfl, nofun⟩
    · cases hs
      exact h
  | retryActive =>
    cases hs
    refine owned_activateSelected h.started h.recent (fun _ => h) ?_
    intro id g hid hg
    unfold unshared at hmove
    dsimp only at hmove
    rw [hid, hg] at hmove
    exact hmove
  | loadOlderHistoryActive =>
    cases hs
    exact owned_loadOlderHistory h
  | applyOutput terminalId seq chunk g =>
    cases hs
    obtain ⟨hsame, hphase⟩ := applyOutput_same s.registry terminalId seq chunk g
    exact h.of_registry hsame hphase
  | settle i outcome => exact owned_settle h hs

/-! ## Results -/

/-- **Promises of earlier activations.** When no call of a run puts a connection into force on which something
superseded waits, then what is superseded changes neither the registry nor the controller when it settles, whether a
disconnect ends an activation or not. -/
theorem stale_settlings (decode : String → Except Thrown String) (disconnecting : Bool) {is : List Move}
    (hm : Meets (step decode) (fun s move => s.unshared disconnecting move = true) {} is)
    (hr : run (step decode) {} is = some s) {i : Nat} {outcome : Outcome} {c : Continuation}
    (hc : s.pending[i]? = some c) (hsuperseded : s.superseded disconnecting c = true)
    (hs : s.step decode (.settle i outcome) = some t) : t.registry = s.registry := by
  have howned : Owned disconnecting s :=
    Steps.run_invariant (fun _ _ _ h hmove hs => owned_step h hmove hs) hm hr owned_new
  obtain ⟨c', next, hc', hresume, _⟩ := settle_cases hs
  cases hc.symm.trans hc'
  exact Registry.resume_of_not_current (howned.not_current (List.mem_of_getElem? hc) hsuperseded) hresume

/-- A connection is attached, and its terminal opened; then the opening is tried again. -/
def retrying : List Move := [.attach true, .setSelectedTerminal (some "1"), .connect 1, .retryActive]

/-- The answer to `openTerminal`. -/
def answering (startSeq endSeq : Nat) (renderBytesB64 : String) : Outcome :=
  .opened (.ok (some ⟨some (some "1"), some startSeq, some endSeq, some renderBytesB64, some false⟩))

theorem stale_settlings_sample : ∃ s t c,
    run (step .ok) {} [.attach true, .setSelectedTerminal (some "1"), .connect 1, .connect 2] = some s ∧
      s.pending[0]? = some c ∧ s.superseded true c = true ∧ s.step .ok (.settle 0 (answering 0 0 "")) = some t ∧
      t.registry = s.registry := by
  have hm : Meets (step .ok) (fun s move => s.unshared true move = true) {}
      [.attach true, .setSelectedTerminal (some "1"), .connect 1, .connect 2] := by decide
  have hsettle : ∀ s t c, run (step .ok) {} [.attach true, .setSelectedTerminal (some "1"), .connect 1, .connect 2] = some s →
      s.pending[0]? = some c → s.superseded true c = true → s.step .ok (.settle 0 (answering 0 0 "")) = some t →
      t.registry = s.registry := fun _ _ _ hr hc hsuperseded hs => stale_settlings .ok true hm hr hc hsuperseded hs
  exact ⟨_, _, _, rfl, rfl, rfl, rfl, hsettle _ _ _ rfl rfl rfl rfl⟩

/-- The answer to the first opening is rendered as that of the second. -/
theorem stale_answer_is_rendered : ∃ s t c,
    run (step .ok) {} retrying = some s ∧ s.pending[0]? = some c ∧ s.superseded false c = true ∧
      s.step .ok (.settle 0 (answering 0 0 "")) = some t ∧
      s.registry.state.phase = .opening ∧ t.registry.state.phase = .ready ∧
      t.registry.controller = s.registry.controller ++ [.renderSnapshot "1" "" 0] :=
  ⟨_, _, _, rfl, rfl, rfl, rfl, rfl, rfl, rfl⟩

/-! ## The condition is exact -/

/-- What waits on the connection of a new activation is taken for it. -/
theorem activate_shares {terminalId : String} {g : Nat} {c : Continuation} (hs : s.registry.selectedTerminalId = some terminalId)
    (hc : s.registry.connectionGeneration = some g) (hmem : c ∈ s.pending) (hg : c.connectionGeneration = some g)
    (hone : c.terminalGeneration = 1) (hle : c.activation ≤ s.activations) :
    ∃ c ∈ s.activateSelectedTerminal.pending, s.activateSelectedTerminal.superseded disconnecting c = true ∧
      s.activateSelectedTerminal.registry.isCurrent c = true := by
  obtain ⟨await, hpending, hactivations, _, _, _, hregistry⟩ := activate_eq hs hc
  refine ⟨c, ?_, ?_, ?_⟩
  · rw [hpending]
    exact List.mem_append_left _ hmem
  · unfold superseded
    rw [hactivations, decide_eq_true (Nat.ne_of_lt (Nat.lt_succ_of_le hle))]
    rfl
  · unfold Registry.isCurrent
    rw [hregistry, hg, hone]
    dsimp only
    rw [hc]
    simp

theorem exists_of_idleOn {g : Nat} (h : s.idleOn g = false) : ∃ c ∈ s.pending, c.connectionGeneration = some g := by
  unfold idleOn at h
  obtain ⟨c, hc, hg⟩ := List.all_eq_false.mp h
  exact ⟨c, hc, by simpa using hg⟩

theorem exists_of_settledOn {g : Nat} (h : s.settledOn disconnecting g = false) :
    ∃ c ∈ s.pending, c.connectionGeneration = some g ∧ s.superseded disconnecting c = true := by
  unfold settledOn at h
  obtain ⟨c, hc, hg⟩ := List.all_eq_false.mp h
  exact ⟨c, hc, by simpa using hg⟩

/-- The first call that puts such a connection into force leaves something superseded that is taken for the latest
activation. -/
theorem shared_settlings {move : Move} (h : Owned disconnecting s) (hmove : s.unshared disconnecting move = false)
    (hs : s.step decode move = some t) :
    ∃ c ∈ t.pending, t.superseded disconnecting c = true ∧ t.registry.isCurrent c = true := by
  cases move with
  | setSelectedTerminal terminalId =>
    unfold unshared at hmove
    simp only [Bool.or_eq_false_iff, decide_eq_false_iff_not] at hmove
    obtain ⟨⟨hne, hsome⟩, hall⟩ := hmove
    cases terminalId with
    | none => cases hsome
    | some terminalId =>
      cases hg : s.registry.connectionGeneration with
      | none =>
        rw [hg] at hall
        cases hall
      | some g =>
        rw [hg] at hall
        obtain ⟨c, hc, hcg⟩ := exists_of_idleOn hall
        unfold step at hs
        dsimp only at hs
        rw [if_neg hne] at hs
        cases hs
        exact @activate_shares _ _ terminalId g c rfl hg hc hcg (h.started c hc) (h.recent c hc)
  | connect g =>
    cases hs
    unfold unshared at hmove
    dsimp only at hmove
    cases hsel : s.registry.selectedTerminalId with
    | none =>
      rw [hsel] at hmove
      simp only [Option.isSome_none, Bool.false_eq_true, if_false, Bool.or_eq_false_iff, decide_eq_false_iff_not] at hmove
      obtain ⟨c, hc, hcg, hsuperseded⟩ := exists_of_settledOn hmove.2
      have hone := h.numbered.resolve_left fun hzero => hmove.1 hzero.1
      have hkeep := activate_none (s := { s with registry := { s.registry with connectionGeneration := some g } }) (.inl hsel)
      rw [hkeep]
      refine ⟨c, hc, hsuperseded, ?_⟩
      unfold Registry.isCurrent
      dsimp only
      rw [hcg, hone, h.started c hc]
      simp
    | some terminalId =>
      rw [hsel] at hmove
      obtain ⟨c, hc, hcg⟩ := exists_of_idleOn hmove
      exact activate_shares (s := { s with registry := { s.registry with connectionGeneration := some g } }) hsel rfl hc hcg
        (h.started c hc) (h.recent c hc)
  | disconnect g =>
    cases hs
    have hcurrent : ∀ c ∈ s.pending, c.connectionGeneration = some g →
        (s.registry.disconnect g).isCurrent c = true := by
      intro c hc hcg
      unfold Registry.isCurrent Registry.disconnect
      rw [hcg, h.started c hc]
      simp [createState]
    unfold unshared at hmove
    cases disconnecting with
    | true =>
      obtain ⟨c, hc, hcg⟩ := exists_of_idleOn hmove
      refine ⟨c, hc, ?_, hcurrent c hc hcg⟩
      unfold superseded isOver
      cases s.ended with
      | none => simp
      | some e => cases e <;> simp
    | false =>
      obtain ⟨c, hc, hcg, hsuperseded⟩ := exists_of_settledOn hmove
      refine ⟨c, hc, ?_, hcurrent c hc hcg⟩
      unfold superseded isOver at hsuperseded ⊢
      revert hsuperseded
      cases s.ended with
      | none => simp
      | some e => simp
  | retryActive =>
    cases hs
    unfold unshared at hmove
    simp only [Bool.or_eq_false_iff] at hmove
    cases hsel : s.registry.selectedTerminalId with
    | none =>
      rw [hsel] at hmove
      cases hmove.1
    | some terminalId =>
      cases hg : s.registry.connectionGeneration with
      | none =>
        rw [hg] at hmove
        cases hmove.2
      | some g =>
        rw [hg] at hmove
        obtain ⟨c, hc, hcg⟩ := exists_of_idleOn hmove.2
        exact activate_shares hsel hg hc hcg (h.started c hc) (h.recent c hc)
  | attach | removeTerminal | loadOlderHistoryActive | applyOutput | settle => cases hmove

end Screen

end CliPocket.App
