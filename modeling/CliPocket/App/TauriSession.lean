import CliPocket.App.Connections

/-!
# The session behind the Tauri bridge

Each run of `ConnectionController` has an actor of its own in the front end; behind the bridge there is one session for
all of them. A command reaches it some time after the call, and the calls do not keep their order on the way.

- `TauriSessions.step`: moves of the front end, and what `handle_command` does with `Connect` and `Shutdown`;
- `HoldsLatest`: the native session is the one of the latest run, once that has been connected;
- `native_session_is_latest`: **so it is in every run in which no command of an older run is handled behind the
  `Connect` of the latest one.**
-/

namespace CliPocket.App

/-- `ActorState`, whose three fields are set and taken together: the run that its session is for. -/
structure TauriSessions where
  controller : ConnectionController := {}
  session : Option Nat := none
  /-- The runs whose `Connect` has been handled. -/
  connects : List Nat := []
  /-- The actors whose `Shutdown` has been handled. -/
  shutdowns : List Nat := []
  /-- The runs whose session has ended by itself. -/
  ended : List Nat := []

namespace TauriSessions

inductive Move
  | ui (move : ConnectionController.Move)
  | handleConnect (run : Nat)
  | handleShutdown (actor : Nat)
  | eventsEnded

/-- The actor whose `close` is awaited. -/
def awaited (start : StartRun) : Option Nat :=
  match start with
  | .closing actor => actor
  | _ => none

/-- A promise settles when its command has been answered: `connect` succeeds if it has been handled, `close` settles
when it has been. -/
def Answers (s : TauriSessions) : ConnectionController.Move → Prop
  | .closeSettled i => ∀ run ∈ s.controller.runs[i]?, ∀ actor ∈ awaited run.start, actor ∈ s.shutdowns
  | .connectSettled i (.ok ()) => i ∈ s.connects
  | .connectSettled i (.error _) => i ∉ s.connects
  | _ => True

instance (s : TauriSessions) (move : ConnectionController.Move) : Decidable (s.Answers move) := by
  unfold Answers
  split <;> infer_instance

def step (s : TauriSessions) : Move → Option TauriSessions
  | .ui move => if s.Answers move then (s.controller.step move).map fun controller => { s with controller } else none
  | .handleConnect i =>
    if (s.controller.runs[i]?.any fun run => run.start = .connecting) ∧ i ∉ s.connects then
      some { s with session := some i, connects := s.connects ++ [i] }
    else none
  | .handleShutdown actor =>
    if actor ∈ s.controller.closeCalls ∧ actor ∉ s.shutdowns then
      some { s with session := none, shutdowns := s.shutdowns ++ [actor] }
    else none
  | .eventsEnded => some { s with session := none, ended := s.ended ++ s.session.toList }

/-- The latest run, when no disconnect has been requested behind it. -/
def latest (s : TauriSessions) : Option Nat :=
  if s.controller.disconnected ∨ s.controller.runs = [] then none else some (s.controller.runs.length - 1)

/-- Once the latest run has been connected, the session is its own, if it has not ended by itself. -/
def HoldsLatest (s : TauriSessions) : Prop :=
  ∀ i ∈ s.latest, i ∈ s.connects → s.session = some i ∨ i ∈ s.ended

/-- No call is pending. -/
def Settled (s : TauriSessions) : Prop :=
  (∀ run ∈ s.controller.runs, run.start = .returned) ∧ ∀ actor ∈ s.controller.closeCalls, actor ∈ s.shutdowns

instance (s : TauriSessions) : Decidable s.Settled :=
  inferInstanceAs (Decidable ((∀ run ∈ s.controller.runs, run.start = .returned) ∧
    ∀ actor ∈ s.controller.closeCalls, actor ∈ s.shutdowns))

/-- What is handled is of the latest run, or comes before the `Connect` of that. -/
def InOrder (s : TauriSessions) : Move → Prop
  | .handleConnect i | .handleShutdown i => ∀ j ∈ s.latest, i = j ∨ j ∉ s.connects
  | _ => True

end TauriSessions

/-! ## The runs of the front end -/

namespace ConnectionController

variable {c d : ConnectionController} {i : Nat} {f : ConnectionRun → ConnectionRun} {run : ConnectionRun}

/-- The latest run is current while it is being started, and its actor is closed only when a disconnect has been
requested. -/
structure Ordered (c : ConnectionController) : Prop where
  below : ∀ actor ∈ c.closeCalls, actor < c.runs.length
  closed : ∀ actor ∈ c.closeCalls, actor + 1 = c.runs.length → c.disconnected = true
  current : ∀ (i : Nat) (run : ConnectionRun), c.runs[i]? = some run → run.start ≠ .returned →
    i + 1 = c.runs.length → c.disconnected = false → c.isCurrent i = true
  consuming : ∀ (i : Nat) (run : ConnectionRun), c.runs[i]? = some run → run.consuming = true → run.start = .returned
  session : ∀ (i : Nat) (run : ConnectionRun) (actor : Nat), c.runs[i]? = some run → run.session = some actor → actor = i

theorem ordered_new : Ordered {} where
  below actor h := by cases h
  closed actor h := by cases h
  current i run h := by cases h
  consuming i run h := by cases h
  session i run actor h := by cases h

theorem Ordered.updateRun (h : c.Ordered) (hclosed : ∀ run, (f run).closed = run.closed)
    (hsession : ∀ run actor, (f run).session = some actor → run.session = some actor ∨ actor = i)
    (hstart : ∀ run, c.runs[i]? = some run → (f run).start ≠ .returned → run.start ≠ .returned)
    (hconsuming : ∀ run, c.runs[i]? = some run → (f run).consuming = true → (f run).start = .returned) :
    (c.updateRun i f).Ordered where
  below actor hactor := by
    rw [length_updateRun]
    exact h.below actor hactor
  closed actor hactor := by
    rw [length_updateRun]
    exact h.closed actor hactor
  current j run hrun hne := by
    rw [length_updateRun, isCurrent_updateRun hclosed]
    rcases updateRun_cases hrun with ⟨_, hold⟩ | ⟨old, rfl, hold, rfl⟩
    · exact h.current j run hold hne
    · exact h.current j old hold (hstart old hold hne)
  consuming j run hrun hcons := by
    rcases updateRun_cases hrun with ⟨_, hold⟩ | ⟨old, rfl, hold, rfl⟩
    · exact h.consuming j run hold hcons
    · exact hconsuming old hold hcons
  session j run actor hrun hactor := by
    rcases updateRun_cases hrun with ⟨_, hold⟩ | ⟨old, rfl, hold, rfl⟩
    · exact h.session j run actor hold hactor
    · rcases hsession old actor hactor with hsame | heq
      · exact h.session j old actor hold hsame
      · exact heq

theorem Ordered.congr (h : c.Ordered) (hruns : d.runs = c.runs) (hactive : d.activeRun = c.activeRun)
    (hcalls : d.closeCalls = c.closeCalls) (hdisc : d.disconnected = c.disconnected) : d.Ordered where
  below := by
    rw [hcalls, hruns]
    exact h.below
  closed := by
    rw [hcalls, hruns, hdisc]
    exact h.closed
  current i run := by
    have hcurrent : d.isCurrent i = c.isCurrent i := by
      unfold isCurrent
      rw [hactive, hruns]
    rw [hruns, hdisc, hcurrent]
    exact h.current i run
  consuming := by
    rw [hruns]
    exact h.consuming
  session := by
    rw [hruns]
    exact h.session

/-- `closeRun` leaves how far the runs have come, and closes an actor of an old run. -/
theorem Ordered.closeRun (h : c.Ordered) (upd : Bool) :
    (c.closeRun c.activeRun upd).1.runs.length = c.runs.length ∧
      (∀ actor ∈ (c.closeRun c.activeRun upd).1.closeCalls, actor < c.runs.length) ∧
      ∀ (j : Nat) (r : ConnectionRun), (c.closeRun c.activeRun upd).1.runs[j]? = some r →
        ∃ old, c.runs[j]? = some old ∧ r.start = old.start ∧ r.consuming = old.consuming ∧
          ∀ actor, r.session = some actor → old.session = some actor := by
  rcases c.closeRun_cases upd with ⟨heq, _⟩ | ⟨i, run, _, hrun, hruns, _, _, hcalls⟩
  · rw [heq]
    exact ⟨rfl, h.below, fun j r hr => ⟨r, hr, rfl, rfl, fun _ hs => hs⟩⟩
  · rw [hruns, hcalls]
    refine ⟨length_updateRun .., fun actor hactor => ?_, fun j r hr => ?_⟩
    · rcases List.mem_append.mp hactor with hold | hnew
      · exact h.below actor hold
      · rw [h.session i run actor hrun (Option.mem_toList.mp hnew)]
        exact (List.getElem?_eq_some_iff.mp hrun).1
    · rcases updateRun_cases hr with ⟨_, hold⟩ | ⟨old, rfl, hold, rfl⟩
      · exact ⟨r, hold, rfl, rfl, fun _ hs => hs⟩
      · exact ⟨old, hold, rfl, rfl, fun _ hs => (nomatch hs)⟩

theorem Ordered.startRun (h : c.Ordered) (serverId : String) : (c.startRun serverId).Ordered := by
  obtain ⟨hlength, hbelow, hruns⟩ := h.closeRun false
  have hlength' : (c.startRun serverId).runs.length = c.runs.length + 1 := by
    unfold ConnectionController.startRun
    rw [List.length_append, hlength]
    rfl
  -- a run of the list is an old one, or the new one
  have hcases : ∀ (j : Nat) (r : ConnectionRun), (c.startRun serverId).runs[j]? = some r →
      (j < c.runs.length ∧ (c.closeRun c.activeRun false).1.runs[j]? = some r) ∨
        (j = c.runs.length ∧ r.closed = false ∧ r.consuming = false ∧ r.session = none) := by
    intro j r hr
    unfold ConnectionController.startRun at hr
    dsimp only at hr
    rw [List.getElem?_append, hlength] at hr
    split at hr
    · next hj => exact .inl ⟨hj, hr⟩
    · next hj =>
      rw [List.getElem?_singleton] at hr
      split at hr
      · next hz =>
        cases hr
        exact .inr ⟨by omega, rfl, rfl, rfl⟩
      · cases hr
  constructor
  · intro actor hactor
    have := hbelow actor hactor
    omega
  · intro actor hactor heq
    have := hbelow actor hactor
    omega
  · intro j r hr _ heq _
    rcases hcases j r hr with ⟨hj, _⟩ | ⟨hj, hopen, _⟩
    · omega
    · unfold isCurrent
      rw [hr]
      subst hj
      simp [ConnectionController.startRun, hopen]
  · intro j r hr hcons
    rcases hcases j r hr with ⟨_, hold⟩ | ⟨_, _, hnew, _⟩
    · obtain ⟨old, hrun, hstart, hsame, _⟩ := hruns j r hold
      rw [hstart]
      exact h.consuming j old hrun (hsame ▸ hcons)
    · rw [hnew] at hcons
      cases hcons
  · intro j r actor hr hsession
    rcases hcases j r hr with ⟨_, hold⟩ | ⟨_, _, _, hnew⟩
    · obtain ⟨old, hrun, _, _, hsame⟩ := hruns j r hold
      exact h.session j old actor hrun (hsame actor hsession)
    · rw [hnew] at hsession
      cases hsession

theorem Ordered.disconnect (h : c.Ordered) (upd : Bool) : (c.disconnect upd).Ordered := by
  obtain ⟨hlength, hbelow, hruns⟩ := h.closeRun upd
  constructor
  · intro actor hactor
    exact (hbelow actor hactor).trans_eq hlength.symm
  · intro _ _ _
    rfl
  · intro j r _ _ _ hdisc
    cases hdisc
  · intro j r hr hcons
    obtain ⟨old, hrun, hstart, hsame, _⟩ := hruns j r hr
    rw [hstart]
    exact h.consuming j old hrun (hsame ▸ hcons)
  · intro j r actor hr hsession
    obtain ⟨old, hrun, _, _, hsame⟩ := hruns j r hr
    exact h.session j old actor hrun (hsame actor hsession)

/-- A run that has been started is ended. -/
theorem Ordered.finishRun (h : c.Ordered) {update : WorkspaceState → WorkspaceState}
    (hreturned : ∀ run, c.runs[i]? = some run → run.start = .returned) : (c.finishRun i update).Ordered := by
  unfold ConnectionController.finishRun
  split
  · next hcurrent =>
    have hactive := (active_of_isCurrent hcurrent).1
    have hcases : ∀ (j : Nat) (r : ConnectionRun), (c.updateRun i fun r => { r with closed := true, session := none }).runs[j]? = some r →
        ∃ old, c.runs[j]? = some old ∧ r.start = old.start ∧ r.consuming = old.consuming ∧
          ∀ actor, r.session = some actor → old.session = some actor := by
      intro j r hr
      rcases updateRun_cases hr with ⟨_, hold⟩ | ⟨old, rfl, hold, rfl⟩
      · exact ⟨r, hold, rfl, rfl, fun _ hs => hs⟩
      · exact ⟨old, hold, rfl, rfl, fun _ hs => (nomatch hs)⟩
    constructor
    · intro actor hactor
      exact (h.below actor hactor).trans_eq (length_updateRun ..).symm
    · intro actor hactor heq
      exact h.closed actor hactor (heq.trans (length_updateRun ..))
    · intro j r hr hne heq hdisc
      obtain ⟨old, hrun, hstart, _⟩ := hcases j r hr
      rw [hstart] at hne
      have hj := h.current j old hrun hne (heq.trans (length_updateRun ..)) hdisc
      cases Option.some.inj ((active_of_isCurrent hj).1.symm.trans hactive)
      exact absurd (hreturned old hrun) hne
    · intro j r hr hcons
      obtain ⟨old, hrun, hstart, hsame, _⟩ := hcases j r hr
      rw [hstart]
      exact h.consuming j old hrun (hsame ▸ hcons)
    · intro j r actor hr hsession
      obtain ⟨old, hrun, _, _, hsame⟩ := hcases j r hr
      exact h.session j old actor hrun (hsame actor hsession)
  · exact h

theorem Ordered.closeSettled (h : c.Ordered) {serverId : String} {awaited : Option Nat}
    (hrun : c.runs[i]? = some run) (hstart : run.start = .closing awaited) : (c.closeSettled i serverId).Ordered := by
  have hne : ∀ r, c.runs[i]? = some r → r.start ≠ .returned := by
    intro r hr
    cases hr.symm.trans hrun
    simp [hstart]
  have hmoved : ∀ start, (c.updateRun i fun r => { r with start }).Ordered :=
    fun start => h.updateRun (fun _ => rfl) (fun _ _ hs => .inl hs) (fun r hr _ => hne r hr)
      (fun r hr hcons => absurd (h.consuming i r hr hcons) (hne r hr))
  unfold ConnectionController.closeSettled
  split
  · exact (hmoved .connecting).congr rfl rfl rfl rfl
  · exact hmoved .returned

/-- The actor of a run that is not current is closed: that of the latest run only behind a disconnect. -/
theorem Ordered.connectSettled (h : c.Ordered) {result : Except String Unit} (hrun : c.runs[i]? = some run)
    (hstart : run.start = .connecting) : (c.connectSettled i result).Ordered := by
  have hfresh : i + 1 = c.runs.length → c.disconnected = false → c.isCurrent i = true :=
    h.current i run hrun (by simp [hstart])
  have hreturned : (c.updateRun i fun r => { r with start := .returned }).Ordered :=
    h.updateRun (fun _ => rfl) (fun _ _ hs => .inl hs) (fun _ _ hne => absurd rfl hne) (fun _ _ _ => rfl)
  have hcurrent : (c.updateRun i fun r => { r with start := .returned }).isCurrent i = c.isCurrent i :=
    isCurrent_updateRun (f := fun r => { r with start := .returned }) (fun _ => rfl) i
  have hlength : (c.updateRun i fun r => { r with start := .returned }).runs.length = c.runs.length :=
    length_updateRun ..
  have hsame : ∀ r, (c.updateRun i fun r => { r with start := .returned }).runs[i]? = some r →
      r.start = .returned := by
    intro r hr
    rcases updateRun_cases hr with ⟨hne, _⟩ | ⟨old, _, _, rfl⟩
    · exact absurd rfl hne
    · rfl
  unfold ConnectionController.connectSettled
  cases result with
  | error message => exact hreturned.finishRun hsame
  | ok =>
    dsimp only
    split
    · refine Ordered.updateRun (hreturned.congr rfl rfl rfl rfl) (fun _ => rfl) ?_ ?_ ?_
      · intro r actor hs
        exact .inr (Option.some.inj hs).symm
      · exact fun r _ hne => hne
      · exact fun r hr _ => hsame r hr
    · next hover =>
      have hover' : c.isCurrent i = false := by
        rw [← hcurrent]
        exact Bool.eq_false_iff.mpr hover
      constructor
      · intro actor hactor
        rcases List.mem_append.mp hactor with hold | hnew
        · exact hreturned.below actor hold
        · rw [List.mem_singleton.mp hnew]
          exact (List.getElem?_eq_some_iff.mp hrun).1.trans_eq hlength.symm
      · intro actor hactor heq
        rcases List.mem_append.mp hactor with hold | hnew
        · exact hreturned.closed actor hold heq
        · cases List.mem_singleton.mp hnew
          cases hdisc : c.disconnected with
          | true => exact hdisc
          | false =>
            rw [hfresh (heq.trans hlength) hdisc] at hover'
            cases hover'
      · exact hreturned.current
      · exact hreturned.consuming
      · exact hreturned.session

/-- The events of a run come once it has been started. -/
theorem Ordered.consumeEvent (h : c.Ordered) {event : ConnectionEvent} (hrun : c.runs[i]? = some run)
    (hcons : run.consuming = true) : (c.consumeEvent i event).Ordered := by
  have hreturned : ∀ r, c.runs[i]? = some r → r.start = .returned := by
    intro r hr
    cases hr.symm.trans hrun
    exact h.consuming i _ hr hcons
  unfold ConnectionController.consumeEvent
  split
  · unfold ConnectionController.handleEvent
    cases event with
    | connected => exact h.congr rfl rfl rfl rfl
    | disconnected willRetry reason =>
      dsimp only
      split
      · exact h.congr rfl rfl rfl rfl
      · split
        · exact h.finishRun hreturned
        · exact h.finishRun hreturned
    | error message => exact h.finishRun hreturned
    | other => exact h
  · exact h.updateRun (fun _ => rfl) (fun _ _ hs => .inl hs) (fun _ _ hne => hne) (fun _ _ hc => (nomatch hc))

theorem Ordered.streamOver (h : c.Ordered) {update : WorkspaceState → WorkspaceState} (hrun : c.runs[i]? = some run)
    (hcons : run.consuming = true) :
    ((c.updateRun i fun r => { r with consuming := false }).finishRun i update).Ordered := by
  have hkept : (c.updateRun i fun r => { r with consuming := false }).Ordered :=
    h.updateRun (fun _ => rfl) (fun _ _ hs => .inl hs) (fun _ _ hne => hne) (fun _ _ hc => (nomatch hc))
  refine hkept.finishRun fun r hr => ?_
  rcases updateRun_cases hr with ⟨hne, _⟩ | ⟨old, _, hold, rfl⟩
  · exact absurd rfl hne
  · have hsame : old = run := Option.some.inj (hold.symm.trans hrun)
    exact h.consuming i old hold (hsame ▸ hcons)

/-- Every move of the front end leaves its runs in order. -/
theorem Ordered.step {move : Move} (h : c.Ordered) (hstep : c.step move = some d) : d.Ordered := by
  unfold ConnectionController.step at hstep
  cases move with
  | connectServer serverId =>
    cases hstep
    unfold ConnectionController.connectServer
    split
    · exact h
    · exact h.startRun serverId
  | autoConnect serverId =>
    cases hstep
    exact h.startRun serverId
  | disconnect =>
    cases hstep
    exact h.disconnect true
  | shutdown =>
    cases hstep
    exact h.disconnect false
  | closeSettled i =>
    dsimp only at hstep
    split at hstep
    · next hrun =>
      cases hstep
      exact h.closeSettled hrun rfl
    · cases hstep
  | connectSettled i result =>
    dsimp only at hstep
    split at hstep
    · next hrun =>
      cases hstep
      exact h.connectSettled hrun rfl
    · cases hstep
  | event i event =>
    dsimp only at hstep
    split at hstep
    · next hrun =>
      cases hstep
      exact h.consumeEvent hrun rfl
    · cases hstep
  | streamEnded i =>
    dsimp only at hstep
    split at hstep
    · next hrun =>
      cases hstep
      exact h.streamOver hrun rfl
    · cases hstep
  | streamFailed i message =>
    dsimp only at hstep
    split at hstep
    · next hrun =>
      cases hstep
      exact h.streamOver hrun rfl
    · cases hstep

theorem finishRun_keeps (c : ConnectionController) (i : Nat) (update : WorkspaceState → WorkspaceState) :
    (c.finishRun i update).runs.length = c.runs.length ∧ (c.finishRun i update).disconnected = c.disconnected := by
  unfold ConnectionController.finishRun
  split
  · exact ⟨length_updateRun .., rfl⟩
  · exact ⟨rfl, rfl⟩

theorem consumeEvent_keeps (c : ConnectionController) (i : Nat) (event : ConnectionEvent) :
    (c.consumeEvent i event).runs.length = c.runs.length ∧
      (c.consumeEvent i event).disconnected = c.disconnected := by
  unfold ConnectionController.consumeEvent
  split
  · unfold ConnectionController.handleEvent
    cases event with
    | connected => exact ⟨rfl, rfl⟩
    | disconnected willRetry reason =>
      dsimp only
      split
      · exact ⟨rfl, rfl⟩
      · split
        · exact finishRun_keeps ..
        · exact finishRun_keeps ..
    | error message => exact finishRun_keeps ..
    | other => exact ⟨rfl, rfl⟩
  · exact ⟨length_updateRun .., rfl⟩

theorem connectSettled_keeps (c : ConnectionController) (i : Nat) (result : Except String Unit) :
    (c.connectSettled i result).runs.length = c.runs.length ∧
      (c.connectSettled i result).disconnected = c.disconnected := by
  unfold ConnectionController.connectSettled
  cases result with
  | error message =>
    obtain ⟨hlength, hdisc⟩ := finishRun_keeps (c.updateRun i fun r => { r with start := .returned }) i
      fun w => w.markConnectionFailed message
    exact ⟨hlength.trans (length_updateRun ..), hdisc⟩
  | ok =>
    dsimp only
    split
    · exact ⟨(length_updateRun ..).trans (length_updateRun ..), rfl⟩
    · exact ⟨length_updateRun .., rfl⟩

/-- A move leaves which run is the latest, or starts another one. -/
theorem Ordered.step_latest {move : Move} (h : c.Ordered) (hstep : c.step move = some d) :
    (d.runs.length = c.runs.length ∧ (d.disconnected = false → c.disconnected = false)) ∨
      d.runs.length = c.runs.length + 1 := by
  have hstart : ∀ serverId, (c.startRun serverId).runs.length = c.runs.length + 1 := by
    intro serverId
    unfold ConnectionController.startRun
    rw [List.length_append, (h.closeRun false).1]
    rfl
  have hsame : ∀ {e : ConnectionController}, e.runs.length = c.runs.length ∧ e.disconnected = c.disconnected →
      e.runs.length = c.runs.length ∧ (e.disconnected = false → c.disconnected = false) :=
    fun he => ⟨he.1, fun hdisc => he.2 ▸ hdisc⟩
  unfold ConnectionController.step at hstep
  cases move with
  | connectServer serverId =>
    cases hstep
    unfold ConnectionController.connectServer
    split
    · exact .inl ⟨rfl, id⟩
    · exact .inr (hstart serverId)
  | autoConnect serverId =>
    cases hstep
    exact .inr (hstart serverId)
  | disconnect =>
    cases hstep
    exact .inl ⟨(h.closeRun true).1, fun hdisc => (nomatch hdisc)⟩
  | shutdown =>
    cases hstep
    exact .inl ⟨(h.closeRun false).1, fun hdisc => (nomatch hdisc)⟩
  | closeSettled i =>
    dsimp only at hstep
    split at hstep
    · cases hstep
      unfold ConnectionController.closeSettled
      split
      · exact .inl ⟨length_updateRun .., id⟩
      · exact .inl ⟨length_updateRun .., id⟩
    · cases hstep
  | connectSettled i result =>
    dsimp only at hstep
    split at hstep
    · cases hstep
      exact .inl (hsame (connectSettled_keeps c i result))
    · cases hstep
  | event i event =>
    dsimp only at hstep
    split at hstep
    · cases hstep
      exact .inl (hsame (consumeEvent_keeps c i event))
    · cases hstep
  | streamEnded i =>
    dsimp only at hstep
    split at hstep
    · cases hstep
      obtain ⟨hlength, hdisc⟩ := finishRun_keeps (c.updateRun i fun r => { r with consuming := false }) i
        fun w => w.markDisconnected false (some "connection closed")
      exact .inl (hsame ⟨hlength.trans (length_updateRun ..), hdisc⟩)
    · cases hstep
  | streamFailed i message =>
    dsimp only at hstep
    split at hstep
    · cases hstep
      obtain ⟨hlength, hdisc⟩ := finishRun_keeps (c.updateRun i fun r => { r with consuming := false }) i
        fun w => w.markConnectionFailed message
      exact .inl (hsame ⟨hlength.trans (length_updateRun ..), hdisc⟩)
    · cases hstep

end ConnectionController

/-! ## The native session -/

namespace TauriSessions

variable {s t : TauriSessions} {i : Nat}

theorem mem_latest : i ∈ s.latest ↔ s.controller.disconnected = false ∧ i + 1 = s.controller.runs.length := by
  unfold latest
  cases hdisc : s.controller.disconnected with
  | true => simp
  | false =>
    cases hruns : s.controller.runs with
    | nil => simp
    | cons run runs =>
      simp only [Bool.false_eq_true, reduceCtorEq, or_self, if_false, Option.mem_some_iff, List.length_cons, true_and]
      omega

/-- The session is that of the latest run, once it has been connected. -/
structure Kept (s : TauriSessions) : Prop where
  ordered : s.controller.Ordered
  connects : ∀ i ∈ s.connects, i < s.controller.runs.length
  latest : s.HoldsLatest

theorem kept_new : Kept {} where
  ordered := ConnectionController.ordered_new
  connects i h := by cases h
  latest i h := by cases h

theorem Kept.ui {move : ConnectionController.Move} {d : ConnectionController} (h : s.Kept)
    (hstep : s.controller.step move = some d) : Kept { s with controller := d } where
  ordered := h.ordered.step hstep
  connects i hi := by
    have := h.connects i hi
    rcases h.ordered.step_latest hstep with ⟨hlength, _⟩ | hlength <;> exact (by dsimp only; omega)
  latest i hi hconnected := by
    obtain ⟨hdisc, hlatest⟩ := mem_latest.mp hi
    rcases h.ordered.step_latest hstep with ⟨hlength, hsame⟩ | hlength
    · exact h.latest i (mem_latest.mpr ⟨hsame hdisc, hlatest.trans hlength⟩) hconnected
    · -- the new run has not been connected
      have := h.connects i hconnected
      have hnew : i + 1 = s.controller.runs.length + 1 := hlatest.trans hlength
      omega

theorem Kept.handleConnect (h : s.Kept) (hin : s.InOrder (.handleConnect i)) (hrun : i < s.controller.runs.length) :
    Kept { s with session := some i, connects := s.connects ++ [i] } where
  ordered := h.ordered
  connects j hj := by
    rcases List.mem_append.mp hj with hold | hnew
    · exact h.connects j hold
    · rw [List.mem_singleton.mp hnew]
      exact hrun
  latest j hj hconnected := by
    rcases hin j hj with rfl | hnot
    · exact .inl rfl
    · rcases List.mem_append.mp hconnected with hold | hnew
      · exact absurd hold hnot
      · rw [List.mem_singleton.mp hnew]
        exact .inl rfl

/-- An actor of the latest run is closed behind a disconnect. -/
theorem Kept.handleShutdown {actor : Nat} (h : s.Kept) (hin : s.InOrder (.handleShutdown actor))
    (hclosed : actor ∈ s.controller.closeCalls) :
    Kept { s with session := none, shutdowns := s.shutdowns ++ [actor] } where
  ordered := h.ordered
  connects := h.connects
  latest j hj hconnected := by
    rcases hin j hj with rfl | hnot
    · obtain ⟨hdisc, hlatest⟩ := mem_latest.mp hj
      have := h.ordered.closed actor hclosed hlatest
      rw [show s.controller.disconnected = false from hdisc] at this
      cases this
    · exact absurd hconnected hnot

theorem Kept.eventsEnded (h : s.Kept) : Kept { s with session := none, ended := s.ended ++ s.session.toList } where
  ordered := h.ordered
  connects := h.connects
  latest j hj hconnected := by
    rcases h.latest j hj hconnected with hheld | hended
    · exact .inr (List.mem_append_right _ (by simp [hheld]))
    · exact .inr (List.mem_append_left _ hended)

theorem Kept.step {move : Move} (h : s.Kept) (hin : s.InOrder move) (hstep : s.step move = some t) : t.Kept := by
  unfold TauriSessions.step at hstep
  cases move with
  | ui move =>
    dsimp only at hstep
    split at hstep
    · obtain ⟨d, hd, rfl⟩ := Option.map_eq_some_iff.mp hstep
      exact h.ui hd
    · cases hstep
  | handleConnect i =>
    dsimp only at hstep
    split at hstep
    · next hcan =>
      cases hstep
      refine h.handleConnect hin ?_
      have hrun := hcan.1
      cases hget : s.controller.runs[i]? with
      | none =>
        rw [hget] at hrun
        cases hrun
      | some run => exact (List.getElem?_eq_some_iff.mp hget).1
    · cases hstep
  | handleShutdown actor =>
    dsimp only at hstep
    split at hstep
    · next hcan =>
      cases hstep
      exact h.handleShutdown hin hcan.1
    · cases hstep
  | eventsEnded =>
    cases hstep
    exact h.eventsEnded

/-- **In a run in which no command of an older run is handled behind the `Connect` of the latest one, the native session
is the one of the latest run, in every state after that `Connect`: no close of an older actor takes it away.** -/
theorem native_session_is_latest {moves : List Move} (hmeets : Steps.Meets step InOrder {} moves)
    (hrun : Steps.run step {} moves = some s) : s.HoldsLatest :=
  (Steps.run_invariant (I := Kept) (fun _ _ _ h hin hstep => h.step hin hstep) hmeets hrun kept_new).latest

instance (s : TauriSessions) (move : Move) : Decidable (s.InOrder move) := by
  unfold InOrder
  split <;> infer_instance

/-- A run that is replaced while it is connecting: its `Connect` and its `Shutdown` come before those of the next. -/
def replaced : List Move :=
  [.ui (.connectServer "desk"), .ui (.closeSettled 0), .handleConnect 0, .ui (.connectServer "laptop"),
    .ui (.connectSettled 0 (.ok ())), .handleShutdown 0, .ui (.closeSettled 1), .handleConnect 1,
    .ui (.connectSettled 1 (.ok ()))]

theorem native_session_is_latest_sample :
    ∃ s, Steps.run step {} replaced = some s ∧ s.Settled ∧ s.latest = some 1 ∧ s.HoldsLatest := by
  have hmeets : Steps.Meets step InOrder {} replaced := by decide +kernel
  exact ⟨_, rfl, by decide +kernel, by decide +kernel, native_session_is_latest hmeets rfl⟩

/-- Both runs connect; the promise of the older one settles late, its actor is closed, and that shuts down the session
of the newer one. -/
theorem late_close_ends_latest : ∃ s, Steps.run step {} [.ui (.connectServer "desk"), .ui (.closeSettled 0),
    .ui (.connectServer "laptop"), .ui (.closeSettled 1), .handleConnect 0, .handleConnect 1,
    .ui (.connectSettled 1 (.ok ())), .ui (.connectSettled 0 (.ok ())), .handleShutdown 0] = some s ∧
      s.Settled ∧ ¬s.HoldsLatest := by
  refine ⟨_, rfl, by decide +kernel, fun h => ?_⟩
  rcases h 1 (by decide +kernel) (by decide +kernel) with hheld | hended
  · cases hheld
  · cases hended

end TauriSessions

end CliPocket.App
