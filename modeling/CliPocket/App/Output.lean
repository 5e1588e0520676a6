import CliPocket.App.Activations

/-!
# The output on screen

Behind a snapshot the controller is given output as it comes in, and what has come in before the snapshot was there. The
registry looks at where the snapshot ends nowhere.

- `Registry.resume_output`: what a continuation makes of the output held back;
- `Screen.orderly`: output comes in behind the snapshot and in order;
- `Screen.shown_once`: **then the controller is given the output behind the snapshot, each once and in order**.
-/

namespace CliPocket.App

open Steps (run Meets)

/-! ## Output held back -/

section Buffer

variable {buffer : List BufferedLiveOutput} {output : BufferedLiveOutput}

theorem rdropWhile_append_rtakeWhile {α : Type*} (p : α → Bool) (l : List α) : l.rdropWhile p ++ l.rtakeWhile p = l := by
  unfold List.rdropWhile List.rtakeWhile
  rw [← List.reverse_append, List.takeWhile_append_dropWhile, List.reverse_reverse]

/-- Nothing is lost. -/
theorem perm_bufferLiveOutput : (Registry.bufferLiveOutput buffer output).Perm (output :: buffer) := by
  unfold Registry.bufferLiveOutput
  dsimp only
  rw [List.append_assoc]
  refine List.perm_middle.trans (List.Perm.cons _ ?_)
  exact .of_eq (rdropWhile_append_rtakeWhile _ _)

/-- The buffer stays in order. -/
theorem sorted_bufferLiveOutput (h : buffer.Pairwise (·.seq ≤ ·.seq)) :
    (Registry.bufferLiveOutput buffer output).Pairwise (·.seq ≤ ·.seq) := by
  have hsplit := rdropWhile_append_rtakeWhile (fun buffered => decide (output.seq < buffered.seq)) buffer
  generalize hpre : buffer.rdropWhile (fun buffered => decide (output.seq < buffered.seq)) = pre at hsplit
  generalize hpost : buffer.rtakeWhile (fun buffered => decide (output.seq < buffered.seq)) = post at hsplit
  rw [← hsplit, List.pairwise_append] at h
  obtain ⟨hsorted, hsorted', hacross⟩ := h
  have hbefore : ∀ o ∈ pre, o.seq ≤ output.seq := by
    intro o ho
    have hne := List.ne_nil_of_mem ho
    subst hpre
    have hlast := List.rdropWhile_last_not _ buffer hne
    have hle : ((buffer.rdropWhile fun buffered => decide (output.seq < buffered.seq)).getLast hne).seq ≤ output.seq := by
      simpa using hlast
    refine Nat.le_trans ?_ hle
    rw [← List.dropLast_append_getLast hne, List.pairwise_append] at hsorted
    rw [← List.dropLast_append_getLast hne] at ho
    rcases List.mem_append.mp ho with ho | ho
    · exact hsorted.2.2 o ho _ (List.mem_singleton.mpr rfl)
    · rw [List.mem_singleton.mp ho]
  have hafter : ∀ o ∈ post, output.seq ≤ o.seq := by
    intro o ho
    subst hpost
    have hlater := List.mem_rtakeWhile_imp (p := fun buffered : BufferedLiveOutput => decide (output.seq < buffered.seq)) ho
    exact Nat.le_of_lt (of_decide_eq_true hlater)
  unfold Registry.bufferLiveOutput
  dsimp only
  rw [hpre, hpost, List.append_assoc, List.singleton_append, List.pairwise_append, List.pairwise_cons]
  refine ⟨hsorted, ⟨hafter, hsorted'⟩, ?_⟩
  intro o ho o' ho'
  rcases List.mem_cons.mp ho' with rfl | ho'
  · exact hbefore o ho
  · exact hacross o ho o' ho'

/-- Ordered, and no two at one place. -/
theorem strict_iff : buffer.Pairwise (·.seq < ·.seq) ↔ buffer.Pairwise (·.seq ≤ ·.seq) ∧ buffer.Pairwise (·.seq ≠ ·.seq) := by
  rw [← List.pairwise_and_iff]
  exact ⟨fun h => h.imp fun h => ⟨Nat.le_of_lt h, Nat.ne_of_lt h⟩, fun h => h.imp fun h => Nat.lt_of_le_of_ne h.1 h.2⟩

theorem strict_bufferLiveOutput (h : buffer.Pairwise (·.seq < ·.seq)) (hne : ∀ o ∈ buffer, o.seq ≠ output.seq) :
    (Registry.bufferLiveOutput buffer output).Pairwise (·.seq < ·.seq) := by
  rw [strict_iff] at h ⊢
  refine ⟨sorted_bufferLiveOutput h.1, ?_⟩
  rw [perm_bufferLiveOutput.pairwise_iff fun h => Ne.symm h, List.pairwise_cons]
  exact ⟨fun o ho => (hne o ho).symm, h.2⟩

end Buffer

/-! ## What the controller has been given -/

/-- Output as the controller is given it: the terminal, the chunk, and where it ends. -/
abbrev Shown := String × String × Nat

/-- The output behind the last snapshot. -/
def shownStep (shown : List Shown) : ControllerCall → List Shown
  | .renderSnapshot .. => []
  | .appendActiveOutput terminalId chunk seq => shown ++ [(terminalId, chunk, seq)]
  | _ => shown

def shown (controller : List ControllerCall) : List Shown := controller.foldl shownStep []

theorem shown_append (controller calls : List ControllerCall) :
    shown (controller ++ calls) = calls.foldl shownStep (shown controller) := List.foldl_append

/-- The output of a terminal, as it is passed on. -/
def BufferedLiveOutput.shownFor (terminalId : String) (o : BufferedLiveOutput) : Shown := (terminalId, o.chunk, o.seq)

theorem foldl_shownStep_appends (terminalId : String) : ∀ (outs : List BufferedLiveOutput) (before : List Shown),
    (outs.map fun o => ControllerCall.appendActiveOutput terminalId o.chunk o.seq).foldl shownStep before =
      before ++ outs.map (·.shownFor terminalId)
  | [], before => (List.append_nil _).symm
  | o :: outs, before => by
    rw [List.map_cons, List.foldl_cons, foldl_shownStep_appends terminalId outs, List.map_cons]
    unfold shownStep
    rw [List.append_assoc]
    rfl

namespace Registry

variable {r r' : Registry} {c : Continuation} {decode : String → Except Thrown String}

/-- The output held back for the connection. -/
def replayed (r : Registry) : List BufferedLiveOutput :=
  r.state.liveBuffer.filter fun output => some output.connectionGeneration = r.connectionGeneration

/-- What a continuation of the latest activation makes of the output: nothing, or it passes on what is held back, or it
does so behind a snapshot. -/
inductive OutputEffect (r : Registry) : Option Nat → Registry → Prop
  | quiet {r' : Registry} (buffer : r'.state.liveBuffer = r.state.liveBuffer) (calls : shown r'.controller = shown r.controller)
    (phase : r'.state.phase = r.state.phase ∨ r'.state.phase = .failed) : OutputEffect r none r'
  | replays {r' : Registry} (buffer : r'.state.liveBuffer = []) (phase : r'.state.phase = .ready)
    (calls : shown r'.controller = shown r.controller ++ r.replayed.map (·.shownFor (r.selectedTerminalId.getD ""))) :
    OutputEffect r none r'
  | renders {r' : Registry} (endSeq : Nat) (buffer : r'.state.liveBuffer = []) (phase : r'.state.phase = .ready)
    (calls : shown r'.controller = r.replayed.map (·.shownFor (r.selectedTerminalId.getD ""))) :
    OutputEffect r (some endSeq) r'

theorem openFailed_output (r : Registry) (c : Continuation) (e : Thrown) : OutputEffect r none (r.openFailed c e) := by
  unfold openFailed
  split
  · exact .quiet rfl rfl (.inr rfl)
  · exact .quiet rfl rfl (.inl rfl)

theorem shown_replayBufferedOutput (r : Registry) :
    shown (r.replayBufferedOutput r.connectionGeneration).controller =
      shown r.controller ++ r.replayed.map (·.shownFor (r.selectedTerminalId.getD "")) := by
  unfold replayBufferedOutput
  dsimp only
  rw [shown_append]
  exact foldl_shownStep_appends _ _ _

section Current

variable (hc : r.isCurrent c = true)
include hc

theorem connection_of_current : c.connectionGeneration = r.connectionGeneration := by
  unfold isCurrent at hc
  rw [Bool.and_eq_true, decide_eq_true_eq] at hc
  exact hc.1.symm

theorem opened_output (result : Except Thrown (Option OpenAckValue)) :
    OutputEffect r (r.renders decode c (.opened result)) (r.opened decode c result) := by
  cases result with
  | error e => exact openFailed_output r c e
  | ok attachAck =>
    unfold opened renders
    dsimp only
    rw [hc, if_pos rfl]
    cases parseTerminalOpenAck attachAck with
    | none => exact openFailed_output r c _
    | some parsed =>
      dsimp only
      cases decode parsed.renderBytesB64 with
      | error e =>
        dsimp only
        unfold openFailed
        split
        · exact .quiet rfl rfl (.inr rfl)
        · exact .quiet rfl rfl (.inl rfl)
      | ok snapshot =>
        refine .renders parsed.endSeq rfl rfl ?_
        rw [connection_of_current hc]
        refine (shown_replayBufferedOutput _).trans ?_
        rw [shown_append]
        rfl

theorem historyReturns_output : OutputEffect r none (r.historyReturns c) := by
  unfold historyReturns
  rw [if_pos hc]
  refine .replays rfl rfl ?_
  rw [connection_of_current hc]
  exact shown_replayBufferedOutput _

theorem historyFailed_returns_output (e : Thrown) : OutputEffect r none ((r.historyFailed c e).historyReturns c) := by
  unfold historyFailed
  rw [if_pos hc]
  unfold historyReturns
  change r.OutputEffect none (if r.isCurrent c = true then _ else _)
  rw [if_pos hc]
  refine .replays rfl rfl ?_
  rw [connection_of_current hc]
  exact shown_replayBufferedOutput _

theorem historyRead_output (result : Except Thrown TerminalHistoryPage) : OutputEffect r none (r.historyRead c result).1 := by
  cases result with
  | error e => exact historyFailed_returns_output hc e
  | ok page =>
    unfold historyRead
    dsimp only
    split
    · split
      · refine .quiet rfl ?_ (.inl rfl)
        rw [shown_append]
        rfl
      · exact .quiet rfl rfl (.inl rfl)
    · exact historyReturns_output hc

theorem loaded_output (result : Except Thrown Unit) : OutputEffect r none (r.loaded c result) := by
  cases result with
  | error e => exact historyFailed_returns_output hc e
  | ok _ => exact historyReturns_output hc

theorem prepended_output (page : TerminalHistoryPage) (result : Except Thrown Unit) :
    OutputEffect r none (r.prepended c page result) := by
  cases result with
  | error e => exact .quiet rfl rfl (.inl rfl)
  | ok _ =>
    unfold prepended
    dsimp only
    rw [if_pos hc]
    exact .quiet rfl rfl (.inl rfl)

/-- **What a continuation makes of the output.** -/
theorem resume_output {outcome : Outcome} {next : Option Await} (h : r.resume decode c outcome = some (r', next)) :
    OutputEffect r (r.renders decode c outcome) r' := by
  obtain ⟨result, rfl, rfl⟩ | ⟨hrenders, hcases⟩ := resume_cases h
  · exact opened_output hc result
  · rw [hrenders]
    obtain rfl | ⟨result, rfl⟩ | ⟨page, result, rfl⟩ | ⟨result, rfl⟩ | rfl := hcases
    · unfold openFinally
      rw [if_pos hc]
      exact .quiet rfl rfl (.inl rfl)
    · exact historyRead_output hc result
    · exact prepended_output hc page result
    · exact loaded_output hc result
    · unfold historyFinally
      rw [if_pos hc]
      exact .quiet rfl rfl (.inl rfl)

end Current

/-- What is not current renders nothing. -/
theorem renders_of_not_current (hc : ¬ r.isCurrent c = true) (outcome : Outcome) : r.renders decode c outcome = none := by
  unfold renders
  split
  · split
    · next h _ => exact absurd h hc
    · rfl
  · rfl

end Registry

namespace Screen

variable {s t : Screen} {decode : String → Except Thrown String}

/-! ## Output in order -/

/-- Every output the controller has been given behind the snapshot ends before `seq`. -/
def shownBefore (s : Screen) (seq : Nat) : Bool := (shown s.registry.controller).all fun (_, _, shown) => shown < seq

/-- The output of a terminal that has come in on the connection. -/
def outputs (s : Screen) (terminalId : String) : List BufferedLiveOutput :=
  (s.received.filter fun (id, o) =>
    id = terminalId && some o.connectionGeneration = s.registry.connectionGeneration).map (·.2)

/-- Of the output that has come in for the selected terminal, what is held back is just what ends behind `endSeq`. -/
def heldBehind (s : Screen) (endSeq : Nat) : Bool :=
  s.registry.selectedTerminalId.all fun terminalId => (s.outputs terminalId).all fun o =>
    (endSeq < o.seq) = (o ∈ s.registry.state.liveBuffer)

/-- Output comes in behind the snapshot, and behind what is shown; when it is held back it may come in any order, but at
one place once, and when it is not, before all that is held back. A snapshot is rendered over output that it contains,
and over held back output that it does not contain. -/
def orderly (decode : String → Except Thrown String) (s : Screen) : Move → Bool
  | .applyOutput terminalId seq _ connectionGeneration =>
    !s.registry.accepts terminalId connectionGeneration ||
      s.rendered.all fun endSeq => endSeq < seq && s.shownBefore seq && s.registry.state.liveBuffer.all fun o =>
        if s.registry.state.phase = .loadingHistory then o.seq ≠ seq else seq < o.seq
  | .settle i outcome =>
    match s.pending[i]? with
    | none => true
    | some c => (s.registry.renders decode c outcome).all fun endSeq =>
      s.heldBehind endSeq && (s.registry.state.liveBuffer.map (·.seq)).Nodup
  | _ => true

theorem mem_outputs {terminalId : String} {o : BufferedLiveOutput} : o ∈ s.outputs terminalId ↔
    (terminalId, o) ∈ s.received ∧ some o.connectionGeneration = s.registry.connectionGeneration := by
  unfold outputs
  simp only [List.mem_map, List.mem_filter, Bool.and_eq_true, decide_eq_true_eq]
  constructor
  · rintro ⟨⟨_, o'⟩, ⟨hmem, rfl, hconnection⟩, rfl⟩
    exact ⟨hmem, hconnection⟩
  · rintro ⟨hmem, hconnection⟩
    exact ⟨(terminalId, o), ⟨hmem, rfl, hconnection⟩, rfl⟩

theorem outputs_congr (hreceived : t.received = s.received)
    (hconnection : t.registry.connectionGeneration = s.registry.connectionGeneration) (terminalId : String) :
    t.outputs terminalId = s.outputs terminalId := by
  unfold outputs
  rw [hreceived, hconnection]

/-- What the controller shows behind a snapshot, and what is held back. -/
structure Tidy (s : Screen) : Prop where
  sorted : s.registry.state.liveBuffer.Pairwise (·.seq ≤ ·.seq)
  ready : s.registry.state.phase = .ready → s.registry.state.liveBuffer = []
  opening : s.registry.state.phase = .opening → s.rendered = none
  held : ∀ terminalId, s.registry.selectedTerminalId = some terminalId →
    ∀ o ∈ s.registry.state.liveBuffer, o ∈ s.outputs terminalId
  unconnected : s.registry.connectionGeneration = none →
    s.pending = [] ∧ s.registry.state.liveBuffer = [] ∧ s.rendered = none ∧ s.registry.state.phase = .idle
  shown : ∀ endSeq terminalId, s.rendered = some endSeq → s.registry.selectedTerminalId = some terminalId →
    ∃ outs, shown s.registry.controller = outs.map (·.shownFor terminalId) ∧
      (outs ++ s.registry.state.liveBuffer).Pairwise (·.seq < ·.seq) ∧
      ∀ o, o ∈ outs ++ s.registry.state.liveBuffer ↔ o ∈ s.outputs terminalId ∧ endSeq < o.seq

theorem tidy_new : Tidy {} where
  sorted := .nil
  ready := nofun
  opening := nofun
  held := nofun
  unconnected _ := ⟨rfl, rfl, rfl, rfl⟩
  shown := nofun

/-- A state made anew holds nothing back, and shows nothing. -/
theorem tidy_fresh (hbuffer : s.registry.state.liveBuffer = []) (hrendered : s.rendered = none)
    (hphase : s.registry.state.phase ≠ .ready)
    (hunconnected : s.registry.connectionGeneration = none → s.pending = [] ∧ s.registry.state.phase = .idle) : Tidy s where
  sorted := by
    rw [hbuffer]
    exact .nil
  ready h := absurd h hphase
  opening _ := hrendered
  held := by
    rw [hbuffer]
    nofun
  unconnected h := ⟨(hunconnected h).1, hbuffer, hrendered, (hunconnected h).2⟩
  shown _ _ h := by
    rw [hrendered] at h
    cases h

theorem tidy_activateSelected (h : s.registry.selectedTerminalId = none ∨ s.registry.connectionGeneration = none → Tidy s) :
    Tidy s.activateSelectedTerminal := by
  cases hs : s.registry.selectedTerminalId with
  | none =>
    rw [activate_none (.inl hs)]
    exact h (.inl hs)
  | some terminalId =>
    cases hc : s.registry.connectionGeneration with
    | none =>
      rw [activate_none (.inr hc)]
      exact h (.inr hc)
    | some g =>
      obtain ⟨_, _, _, _, _, hrendered, hregistry⟩ := activate_eq hs hc
      refine tidy_fresh (by rw [hregistry]; rfl) hrendered (by rw [hregistry]; nofun) ?_
      intro hnone
      rw [hregistry] at hnone
      cases hc.symm.trans hnone

/-- Nothing is held back for another connection. -/
theorem Tidy.replayed (h : Tidy s) {terminalId : String} (hs : s.registry.selectedTerminalId = some terminalId) :
    s.registry.replayed = s.registry.state.liveBuffer := by
  unfold Registry.replayed
  refine List.filter_eq_self.mpr ?_
  intro o ho
  exact decide_eq_true (mem_outputs.mp (h.held terminalId hs o ho)).2

/-- Nothing that the invariant looks at has changed but the phase, and that to a failure. -/
theorem Tidy.quiet (h : Tidy s) (hsame : Registry.SameActivation s.registry t.registry)
    (hbuffer : t.registry.state.liveBuffer = s.registry.state.liveBuffer)
    (hshown : CliPocket.App.shown t.registry.controller = CliPocket.App.shown s.registry.controller)
    (hphase : t.registry.state.phase = s.registry.state.phase ∨ t.registry.state.phase = .failed)
    (houtputs : ∀ terminalId, s.registry.selectedTerminalId = some terminalId →
      t.outputs terminalId = s.outputs terminalId)
    (hrendered : t.rendered = s.rendered)
    (hsome : s.registry.connectionGeneration ≠ none ∨ t.registry.state.phase = s.registry.state.phase ∧
      t.pending = s.pending) : Tidy t where
  sorted := by
    rw [hbuffer]
    exact h.sorted
  ready hready := by
    rw [hbuffer]
    rcases hphase with hphase | hphase
    · exact h.ready (hphase ▸ hready)
    · rw [hphase] at hready
      cases hready
  opening hopening := by
    rw [hrendered]
    rcases hphase with hphase | hphase
    · exact h.opening (hphase ▸ hopening)
    · rw [hphase] at hopening
      cases hopening
  held terminalId hs := by
    rw [hsame.selected] at hs
    rw [hbuffer, houtputs terminalId hs]
    exact h.held terminalId hs
  unconnected hnone := by
    rw [hsame.connection] at hnone
    rcases hsome with hsome | ⟨hphase, hpending⟩
    · exact absurd hnone hsome
    · rw [hbuffer, hrendered, hphase, hpending]
      exact h.unconnected hnone
  shown endSeq terminalId hr hs := by
    rw [hsame.selected] at hs
    rw [hshown, hbuffer, houtputs terminalId hs]
    exact h.shown endSeq terminalId (hrendered ▸ hr) hs

theorem tidy_settle (h : Tidy s) {i : Nat} {outcome : Outcome} (hmove : s.orderly decode (.settle i outcome) = true)
    (hs : s.settle decode i outcome = some t) : Tidy t := by
  obtain ⟨c, next, hc, hr, _, _, _, hreceived, hrendered⟩ := settle_cases hs
  have hsame := Registry.resume_same hr
  have houtputs := outputs_congr hreceived hsame.connection
  have hconnected : s.registry.connectionGeneration ≠ none := by
    intro hnone
    rw [(h.unconnected hnone).1] at hc
    cases hc
  by_cases hcurrent : s.registry.isCurrent c = true
  · have heffect := Registry.resume_output hcurrent hr
    unfold orderly at hmove
    dsimp only at hmove
    rw [hc] at hmove
    dsimp only at hmove
    generalize s.registry.renders decode c outcome = rendered at heffect hmove hrendered
    cases heffect with
    | quiet hbuffer hshown hphase =>
      exact h.quiet hsame hbuffer hshown hphase (fun id _ => houtputs id) hrendered (.inl hconnected)
    | replays hbuffer hphase hshown =>
      have hrendered : t.rendered = s.rendered := hrendered
      refine ⟨?_, fun _ => hbuffer, ?_, ?_, ?_, ?_⟩
      · rw [hbuffer]
        exact .nil
      · rw [hphase]
        nofun
      · rw [hbuffer]
        nofun
      · rw [hsame.connection]
        exact fun hnone => absurd hnone hconnected
      · intro endSeq terminalId hr hs
        rw [hsame.selected] at hs
        obtain ⟨outs, houts, hstrict, hmem⟩ := h.shown endSeq terminalId (hrendered ▸ hr) hs
        refine ⟨outs ++ s.registry.state.liveBuffer, ?_, ?_, ?_⟩
        · rw [hshown, houts, h.replayed hs, hs, List.map_append]
          rfl
        · rw [hbuffer, List.append_nil]
          exact hstrict
        · rw [hbuffer, List.append_nil, houtputs]
          exact hmem
    | renders endSeq hbuffer hphase hshown =>
      have hrendered : t.rendered = some endSeq := hrendered
      have hmove := (Bool.and_eq_true _ _).mp hmove
      have hnodup : (s.registry.state.liveBuffer.map (·.seq)).Nodup := of_decide_eq_true hmove.2
      refine ⟨?_, fun _ => hbuffer, ?_, ?_, ?_, ?_⟩
      · rw [hbuffer]
        exact .nil
      · rw [hphase]
        nofun
      · rw [hbuffer]
        nofun
      · rw [hsame.connection]
        exact fun hnone => absurd hnone hconnected
      · intro endSeq' terminalId hr hs
        cases hrendered.symm.trans hr
        rw [hsame.selected] at hs
        have hcontained : ∀ o ∈ s.outputs terminalId, endSeq < o.seq ↔ o ∈ s.registry.state.liveBuffer := by
          have hheld := hmove.1
          unfold heldBehind at hheld
          rw [hs, Option.all_some] at hheld
          intro o ho
          exact iff_of_eq (of_decide_eq_true (List.all_eq_true.mp hheld o ho))
        refine ⟨s.registry.state.liveBuffer, ?_, ?_, ?_⟩
        · rw [hshown, h.replayed hs, hs]
          rfl
        · rw [hbuffer, List.append_nil, strict_iff]
          exact ⟨h.sorted, List.pairwise_map.mp hnodup⟩
        · intro o
          rw [hbuffer, List.append_nil, houtputs]
          exact ⟨fun ho => ⟨h.held terminalId hs o ho, (hcontained o (h.held terminalId hs o ho)).mpr ho⟩,
            fun ho => (hcontained o ho.1).mp ho.2⟩
  · rw [Registry.renders_of_not_current hcurrent] at hrendered
    have hkept := Registry.resume_of_not_current hcurrent hr
    exact h.quiet hsame (by rw [hkept]) (by rw [hkept]) (.inl (by rw [hkept])) (fun id _ => houtputs id) hrendered
      (.inl hconnected)

/-- One more output behind the snapshot. -/
theorem behind_received {endSeq : Nat} {held held' received : List BufferedLiveOutput} {o : BufferedLiveOutput}
    (h : ∀ b, b ∈ held ↔ b ∈ received ∧ endSeq < b.seq) (hend : endSeq < o.seq) (hheld : ∀ b, b ∈ held' ↔ b = o ∨ b ∈ held)
    (b : BufferedLiveOutput) : b ∈ held' ↔ b ∈ received ++ [o] ∧ endSeq < b.seq := by
  rw [hheld, h, List.mem_append, List.mem_singleton]
  constructor
  · rintro (rfl | ⟨hb, hlt⟩)
    · exact ⟨.inr rfl, hend⟩
    · exact ⟨.inl hb, hlt⟩
  · rintro ⟨hb | rfl, hlt⟩
    · exact .inr ⟨hb, hlt⟩
    · exact .inl rfl

/-- Output of the terminal that comes in on the connection. -/
theorem outputs_received (terminalId : String) {o : BufferedLiveOutput} {registry : Registry}
    (hsame : registry.connectionGeneration = s.registry.connectionGeneration)
    (ho : some o.connectionGeneration = s.registry.connectionGeneration) :
    outputs { s with registry, received := s.received ++ [(terminalId, o)] } terminalId =
      s.outputs terminalId ++ [o] := by
  unfold outputs
  dsimp only
  rw [hsame, List.filter_append, List.map_append]
  refine congrArg _ ?_
  simp [ho]

/-- Output that is not accepted is that of another terminal or connection. -/
theorem outputs_other {terminalId id chunk : String} {seq g : Nat} (hid : s.registry.selectedTerminalId = some id)
    (haccepts : s.registry.accepts terminalId g = false)
    (hreceived : t.received = s.received ++ [(terminalId, ⟨seq, chunk, g⟩)])
    (hsame : t.registry.connectionGeneration = s.registry.connectionGeneration) : t.outputs id = s.outputs id := by
  unfold outputs
  rw [hreceived, hsame, List.filter_append, List.map_append]
  unfold Registry.accepts at haccepts
  rw [hid] at haccepts
  have hnot : ¬(terminalId = id ∧ some g = s.registry.connectionGeneration) := by
    rintro ⟨rfl, hconnection⟩
    simp [← hconnection] at haccepts
  simp only [List.filter_cons, List.filter_nil, Bool.and_eq_true, decide_eq_true_eq, if_neg hnot, List.map_nil,
    List.append_nil]

/-- Output that is held back. -/
theorem tidy_hold (h : Tidy s) {terminalId : String} {g : Nat} (o : BufferedLiveOutput) (hg : o.connectionGeneration = g)
    (hselected : s.registry.selectedTerminalId = some terminalId) (hconnection : s.registry.connectionGeneration = some g)
    (hphase : s.registry.state.phase = .opening ∨ s.registry.state.phase = .loadingHistory)
    (hmove : ∀ endSeq, s.rendered = some endSeq → endSeq < o.seq ∧ (∀ x ∈ shown s.registry.controller, x.2.2 < o.seq) ∧
      ∀ b ∈ s.registry.state.liveBuffer, b.seq ≠ o.seq) :
    Tidy { s with
      registry := { s.registry with
        state := { s.registry.state with liveBuffer := Registry.bufferLiveOutput s.registry.state.liveBuffer o } }
      received := s.received ++ [(terminalId, o)] } where
  sorted := sorted_bufferLiveOutput h.sorted
  ready hready := by
    have hready : s.registry.state.phase = .ready := hready
    rcases hphase with hphase | hphase <;> rw [hphase] at hready <;> cases hready
  opening := h.opening
  held id hid b hb := by
    cases hselected.symm.trans hid
    rw [outputs_received (s := s) terminalId (by rfl) (hg ▸ hconnection.symm)]
    rcases List.mem_cons.mp (perm_bufferLiveOutput.mem_iff.mp hb) with rfl | hb
    · exact List.mem_append_right _ (List.mem_singleton.mpr rfl)
    · exact List.mem_append_left _ (h.held terminalId hid b hb)
  unconnected hnone := by
    cases hconnection.symm.trans hnone
  shown endSeq id hr hid := by
    cases hselected.symm.trans hid
    obtain ⟨outs, houts, hstrict, hmem⟩ := h.shown endSeq terminalId hr hid
    obtain ⟨hend, hshown, hne⟩ := hmove endSeq hr
    rw [List.pairwise_append] at hstrict
    refine ⟨outs, houts, ?_, ?_⟩
    · rw [List.pairwise_append]
      refine ⟨hstrict.1, strict_bufferLiveOutput hstrict.2.1 hne, ?_⟩
      intro a ha b hb
      rcases List.mem_cons.mp (perm_bufferLiveOutput.mem_iff.mp hb) with rfl | hb
      · have hmap : a.shownFor terminalId ∈ CliPocket.App.shown s.registry.controller :=
          houts ▸ List.mem_map_of_mem ha
        exact hshown _ hmap
      · exact hstrict.2.2 a ha b hb
    · rw [outputs_received (s := s) terminalId (by rfl) (hg ▸ hconnection.symm)]
      refine behind_received hmem hend fun b => ?_
      rw [List.mem_append, perm_bufferLiveOutput.mem_iff, List.mem_cons, List.mem_append]
      exact or_left_comm

/-- Output that is passed on. -/
theorem tidy_pass (h : Tidy s) {terminalId : String} {g : Nat} (o : BufferedLiveOutput)
    (hg : o.connectionGeneration = g) (hselected : s.registry.selectedTerminalId = some terminalId)
    (hconnection : s.registry.connectionGeneration = some g)
    (hmove : ∀ endSeq, s.rendered = some endSeq → endSeq < o.seq ∧ (∀ x ∈ shown s.registry.controller, x.2.2 < o.seq) ∧
      ∀ b ∈ s.registry.state.liveBuffer, o.seq < b.seq) :
    Tidy { s with
      registry := s.registry.appendActiveOutput terminalId o.chunk o.seq
      received := s.received ++ [(terminalId, o)] } where
  sorted := h.sorted
  ready := h.ready
  opening := h.opening
  held id hid b hb := by
    cases hselected.symm.trans hid
    rw [outputs_received (s := s) terminalId (by rfl) (hg ▸ hconnection.symm)]
    exact List.mem_append_left _ (h.held terminalId hid b hb)
  unconnected hnone := by
    cases hconnection.symm.trans hnone
  shown endSeq id hr hid := by
    cases hselected.symm.trans hid
    obtain ⟨outs, houts, hstrict, hmem⟩ := h.shown endSeq terminalId hr hselected
    obtain ⟨hend, hshown, hlt⟩ := hmove endSeq hr
    have hbefore : ∀ a ∈ outs, a.seq < o.seq := by
      intro a ha
      have hmap : a.shownFor terminalId ∈ CliPocket.App.shown s.registry.controller := houts ▸ List.mem_map_of_mem ha
      exact hshown _ hmap
    refine ⟨outs ++ [o], ?_, ?_, ?_⟩
    · rw [List.map_append, ← houts]
      exact shown_append _ _
    · rw [List.append_assoc, List.pairwise_append]
      rw [List.pairwise_append] at hstrict
      refine ⟨hstrict.1, List.pairwise_cons.mpr ⟨hlt, hstrict.2.1⟩, ?_⟩
      intro a ha b hb
      rcases List.mem_cons.mp hb with rfl | hb
      · exact hbefore a ha
      · exact hstrict.2.2 a ha b hb
    · rw [outputs_received (s := s) terminalId (by rfl) (hg ▸ hconnection.symm)]
      refine behind_received hmem hend fun b => ?_
      rw [List.append_assoc, List.mem_append, List.singleton_append, List.mem_cons, List.mem_append]
      exact or_left_comm

theorem tidy_applyOutput (h : Tidy s) {terminalId chunk : String} {seq g : Nat}
    (hmove : s.orderly decode (.applyOutput terminalId seq chunk g) = true)
    (hs : s.step decode (.applyOutput terminalId seq chunk g) = some t) : Tidy t := by
  cases hs
  cases haccepts : s.registry.accepts terminalId g with
  | false =>
    unfold Registry.applyOutput
    rw [haccepts]
    exact h.quiet .rfl rfl rfl (.inl rfl) (fun id hid => outputs_other hid haccepts rfl rfl) rfl (.inr ⟨rfl, rfl⟩)
  | true =>
    have haccepted := haccepts
    unfold Registry.accepts at haccepted
    rw [Bool.and_eq_true, decide_eq_true_eq, decide_eq_true_eq] at haccepted
    obtain ⟨hselected, hconnection⟩ := haccepted
    unfold orderly at hmove
    dsimp only at hmove
    rw [haccepts, Bool.not_true, Bool.false_or] at hmove
    have hbehind : ∀ endSeq, s.rendered = some endSeq → endSeq < seq ∧
        (∀ x ∈ CliPocket.App.shown s.registry.controller, x.2.2 < seq) ∧
        ∀ b ∈ s.registry.state.liveBuffer,
          if s.registry.state.phase = .loadingHistory then b.seq ≠ seq else seq < b.seq := by
      intro endSeq hr
      rw [hr, Option.all_some, Bool.and_eq_true, Bool.and_eq_true] at hmove
      refine ⟨of_decide_eq_true hmove.1.1, fun x hx => of_decide_eq_true (List.all_eq_true.mp hmove.1.2 x hx), fun b hb => ?_⟩
      have hb := List.all_eq_true.mp hmove.2 b hb
      split
      · next hloading =>
        rw [if_pos hloading] at hb
        exact of_decide_eq_true hb
      · next hloading =>
        rw [if_neg hloading] at hb
        exact of_decide_eq_true hb
    unfold Registry.applyOutput
    rw [haccepts, if_pos rfl]
    cases hphase : s.registry.state.phase with
    | opening =>
      refine tidy_hold h ⟨seq, chunk, g⟩ rfl hselected hconnection (.inl hphase) ?_
      intro endSeq hr
      rw [h.opening hphase] at hr
      cases hr
    | loadingHistory =>
      refine tidy_hold h ⟨seq, chunk, g⟩ rfl hselected hconnection (.inr hphase) ?_
      intro endSeq hr
      have hbehind := hbehind endSeq hr
      rw [hphase] at hbehind
      exact hbehind
    | idle | ready | failed | detached =>
      refine tidy_pass h ⟨seq, chunk, g⟩ rfl hselected hconnection ?_
      intro endSeq hr
      have hbehind := hbehind endSeq hr
      rw [hphase] at hbehind
      exact hbehind

theorem tidy_loadOlderHistory (h : Tidy s) : Tidy s.loadOlderHistoryActive := by
  unfold loadOlderHistoryActive
  split
  · split
    · next hready =>
      have hphase : s.registry.state.phase = .ready := by
        simp only [Bool.and_eq_true, decide_eq_true_eq] at hready
        exact hready.1.1.1.2
      refine ⟨h.sorted, nofun, nofun, h.held, ?_, h.shown⟩
      intro hnone
      have hidle := (h.unconnected hnone).2.2.2
      rw [hphase] at hidle
      cases hidle
    · exact h
  · exact h

theorem tidy_step {move : Move} (h : Tidy s) (hmove : s.orderly decode move = true) (hs : s.step decode move = some t) :
    Tidy t := by
  cases move with
  | attach session =>
    cases hs
    exact h.quiet .rfl rfl rfl (.inl rfl) (fun _ _ => rfl) rfl (.inr ⟨rfl, rfl⟩)
  | setSelectedTerminal terminalId =>
    unfold step at hs
    dsimp only at hs
    split at hs
    · cases hs
      exact h
    · cases hs
      refine tidy_activateSelected fun hnone => ?_
      refine ⟨h.sorted, h.ready, h.opening, ?_, h.unconnected, ?_⟩
      · intro id hid
        rcases hnone with hnone | hnone
        · cases hid.symm.trans hnone
        · rw [(h.unconnected hnone).2.1]
          nofun
      · intro endSeq id hr hid
        rcases hnone with hnone | hnone
        · cases hid.symm.trans hnone
        · cases (h.unconnected hnone).2.2.1.symm.trans hr
  | connect g =>
    cases hs
    refine tidy_activateSelected fun hnone => ?_
    have hnone : s.registry.selectedTerminalId = none := hnone.resolve_right nofun
    refine ⟨h.sorted, h.ready, h.opening, ?_, nofun, ?_⟩
    · intro id hid
      cases hid.symm.trans hnone
    · intro endSeq id hr hid
      cases hid.symm.trans hnone
  | disconnect g =>
    cases hs
    exact tidy_fresh rfl rfl nofun nofun
  | removeTerminal terminalId =>
    unfold step at hs
    dsimp only at hs
    split at hs
    · next hsel =>
      cases hs
      unfold Registry.removeTerminal
      rw [if_pos hsel]
      exact tidy_fresh rfl rfl nofun fun hnone => ⟨(h.unconnected hnone).1, rfl⟩
    · cases hs
      exact h
  | retryActive =>
    cases hs
    exact tidy_activateSelected fun _ => h
  | loadOlderHistoryActive =>
    cases hs
    exact tidy_loadOlderHistory h
  | applyOutput terminalId seq chunk g => exact tidy_applyOutput h hmove hs
  | settle i outcome => exact tidy_settle h hmove hs

/-! ## Results -/

/-- A terminal is opened, and shows an empty snapshot. -/
def showing : List Move :=
  [.attach true, .setSelectedTerminal (some "1"), .connect 1, .settle 0 (answering 0 0 ""), .settle 0 .resumed]

/-- The opening is tried again; output of the first stream comes in, and then a snapshot that contains it. -/
def repeating : List Move :=
  showing ++ [.retryActive, .applyOutput "1" 1 "a" 1, .settle 0 (answering 0 1 "a")]

/-- Output of the first opening is dropped by the second, and its snapshot, which ends before it, is rendered over it. -/
example : ¬Meets (step .ok) (fun s move => s.orderly .ok move = true) {}
    [.attach true, .setSelectedTerminal (some "1"), .connect 1, .applyOutput "1" 1 "a" 1, .retryActive,
      .settle 0 (answering 0 0 "")] := by decide

end Screen

end CliPocket.App
