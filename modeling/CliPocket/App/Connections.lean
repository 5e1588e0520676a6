import CliPocket.App.Workspace
import CliPocket.Lib.Steps

/-!
# The connections of the front end

`ConnectionController`: the run that is active, the runs before it, and the sessions that they have been given. What it
does between two awaits is one move; promises settle and events come in any order.

- `ConnectionController.step`: calls of the user, promises that settle, and events;
- `Accounted`: every session that has been opened is that of the active run, or has been closed;
- `sessions_accounted`: **so it is in every run in which no active run is ended by its own events.**
-/

namespace CliPocket.App

/-- `startConnecting`. -/
def WorkspaceState.startConnecting (serverId : String) : WorkspaceState where
  connectionState := .connecting
  activeConnectionServerId := some serverId

/-- How far `startRun` has come with a run. -/
inductive StartRun
  /-- It awaits `closeRun`, and in it the `close` of an actor. -/
  | closing (awaited : Option Nat)
  | connecting
  | returned
  deriving DecidableEq

structure ConnectionRun where
  serverId : String
  /-- The actor that `connect` has returned, by the number of its run. -/
  session : Option Nat := none
  closed : Bool := false
  start : StartRun
  /-- `consumeEvents` awaits an event. -/
  consuming : Bool := false
  deriving DecidableEq

/-- What `handleEvent` tells apart. -/
inductive ConnectionEvent
  | connected
  | disconnected (willRetry : Bool) (reason : String)
  | error (message : String)
  | other

/-- The runs, in the order of their ids. -/
structure ConnectionController where
  runs : List ConnectionRun := []
  activeRun : Option Nat := none
  workspace : WorkspaceState := {}
  /-- The actors that `connect` has returned. -/
  opened : List Nat := []
  /-- The actors whose `close` has been called. -/
  closeCalls : List Nat := []
  /-- No run has been started since the last call of `disconnect` or `shutdown`. -/
  disconnected : Bool := true

namespace ConnectionController

inductive Move
  | connectServer (serverId : String)
  | autoConnect (serverId : String)
  | disconnect
  | shutdown
  | closeSettled (run : Nat)
  | connectSettled (run : Nat) (result : Except String Unit)
  | event (run : Nat) (event : ConnectionEvent)
  | streamEnded (run : Nat)
  | streamFailed (run : Nat) (message : String)

def updateRun (c : ConnectionController) (i : Nat) (f : ConnectionRun → ConnectionRun) : ConnectionController :=
  { c with runs := c.runs.modify i f }

def isCurrent (c : ConnectionController) (i : Nat) : Bool :=
  c.activeRun = some i && c.runs[i]?.any fun run => !run.closed

/-- `closeRun`, as far as the await, with the actor whose `close` is awaited. -/
def closeRun (c : ConnectionController) (run : Option Nat) (updateWorkspace : Bool) :
    ConnectionController × Option Nat :=
  match run.bind fun i => c.runs[i]?.map fun r => (i, r) with
  | none => (c, none)
  | some (i, r) =>
    if r.closed then (c, none)
    else
      let c := c.updateRun i fun r => { r with closed := true, session := none }
      let c := if updateWorkspace then { c with workspace := c.workspace.markDisconnected false none } else c
      ({ c with closeCalls := c.closeCalls ++ r.session.toList }, r.session)

/-- `finishRun`: the session is let go of. -/
def finishRun (c : ConnectionController) (i : Nat) (update : WorkspaceState → WorkspaceState) : ConnectionController :=
  if c.isCurrent i then
    { c.updateRun i fun r => { r with closed := true, session := none } with
      activeRun := none
      workspace := update c.workspace }
  else c

def failRun (c : ConnectionController) (i : Nat) (message : String) : ConnectionController :=
  c.finishRun i fun w => w.markConnectionFailed message

/-- `startRun`, as far as the await of `closeRun`. -/
def startRun (c : ConnectionController) (serverId : String) : ConnectionController :=
  let (closed, awaited) := c.closeRun c.activeRun false
  { closed with
    runs := closed.runs ++ [{ serverId, start := .closing awaited }]
    activeRun := some c.runs.length
    disconnected := false }

def connectServer (c : ConnectionController) (serverId : String) : ConnectionController :=
  if (c.activeRun.bind fun i => c.runs[i]?).any (fun run => run.serverId = serverId) ∧
      (c.workspace.connectionState = .connected ∨ c.workspace.connectionState = .connecting) then c
  else c.startRun serverId

def disconnect (c : ConnectionController) (updateWorkspace : Bool) : ConnectionController :=
  { (c.closeRun c.activeRun updateWorkspace).1 with activeRun := none, disconnected := true }

/-- `startRun` behind `closeRun`. -/
def closeSettled (c : ConnectionController) (i : Nat) (serverId : String) : ConnectionController :=
  if c.isCurrent i then
    { c.updateRun i fun r => { r with start := .connecting } with workspace := .startConnecting serverId }
  else c.updateRun i fun r => { r with start := .returned }

/-- `startRun` behind `connect`. -/
def connectSettled (c : ConnectionController) (i : Nat) (result : Except String Unit) : ConnectionController :=
  let c := c.updateRun i fun r => { r with start := .returned }
  match result with
  | .error message => c.failRun i message
  | .ok () =>
    let c := { c with opened := c.opened ++ [i] }
    if c.isCurrent i then c.updateRun i fun r => { r with session := some i, consuming := true }
    else { c with closeCalls := c.closeCalls ++ [i] }

/-- `handleEvent`, of a run that is current. -/
def handleEvent (c : ConnectionController) (i : Nat) : ConnectionEvent → ConnectionController
  | .connected => { c with workspace := c.workspace.markConnected }
  | .disconnected willRetry reason =>
    if willRetry then { c with workspace := c.workspace.markDisconnected true (some reason) }
    else if c.workspace.connectionState = .connecting then c.failRun i reason
    else c.finishRun i fun w => w.markDisconnected false (some reason)
  | .error message => c.failRun i message
  | .other => c

/-- `consumeEvents` goes on. -/
def consumeEvent (c : ConnectionController) (i : Nat) (event : ConnectionEvent) : ConnectionController :=
  if c.isCurrent i then c.handleEvent i event else c.updateRun i fun r => { r with consuming := false }

def step (c : ConnectionController) : Move → Option ConnectionController
  | .connectServer serverId => some (c.connectServer serverId)
  | .autoConnect serverId => some (c.startRun serverId)
  | .disconnect => some (c.disconnect true)
  | .shutdown => some (c.disconnect false)
  | .closeSettled i =>
    match c.runs[i]? with
    | some { serverId, start := .closing _, .. } => some (c.closeSettled i serverId)
    | _ => none
  | .connectSettled i result =>
    match c.runs[i]? with
    | some { start := .connecting, .. } => some (c.connectSettled i result)
    | _ => none
  | .event i event =>
    match c.runs[i]? with
    | some { consuming := true, .. } => some (c.consumeEvent i event)
    | _ => none
  | .streamEnded i =>
    match c.runs[i]? with
    | some { consuming := true, .. } =>
      some ((c.updateRun i fun r => { r with consuming := false }).finishRun i
        fun w => w.markDisconnected false (some "connection closed"))
    | _ => none
  | .streamFailed i message =>
    match c.runs[i]? with
    | some { consuming := true, .. } =>
      some ((c.updateRun i fun r => { r with consuming := false }).failRun i message)
    | _ => none

/-! ## What has to hold -/

/-- Every actor that `connect` has returned is the session of the active run, or has been closed. -/
def Accounted (c : ConnectionController) : Prop :=
  ∀ actor ∈ c.opened, (∃ i run, c.activeRun = some i ∧ c.runs[i]? = some run ∧ run.session = some actor) ∨
    actor ∈ c.closeCalls

/-- A move by which the events of a run end it. -/
def ends : Move → Option Nat
  | .event i (.disconnected false _) | .event i (.error _) | .streamEnded i | .streamFailed i _ => some i
  | _ => none

/-- No run is ended by its events while it is current. -/
def GoesOn (c : ConnectionController) (move : Move) : Prop := ∀ i ∈ ends move, c.isCurrent i = false

/-! ## What is kept -/

variable {c d : ConnectionController} {i : Nat} {f : ConnectionRun → ConnectionRun} {run : ConnectionRun}

/-- A session is that of its own run, which is active; and an actor is a session, or has been closed. -/
structure Tidy (c : ConnectionController) : Prop where
  session : ∀ i run actor, c.runs[i]? = some run → run.session = some actor →
    actor = i ∧ c.activeRun = some i ∧ run.closed = false ∧ run.start = .returned
  opened : ∀ actor ∈ c.opened, (∃ run, c.runs[actor]? = some run ∧ run.session = some actor) ∨ actor ∈ c.closeCalls

theorem Tidy.accounted (h : c.Tidy) : c.Accounted := by
  intro actor hactor
  rcases h.opened actor hactor with ⟨run, hrun, hsession⟩ | hclosed
  · exact .inl ⟨actor, run, (h.session actor run actor hrun hsession).2.1, hrun, hsession⟩
  · exact .inr hclosed

theorem tidy_new : Tidy {} where
  session i run actor h := by cases h
  opened actor h := by cases h

theorem runs_updateRun (c : ConnectionController) (i j : Nat) (f : ConnectionRun → ConnectionRun) :
    (c.updateRun i f).runs[j]? = if i = j then c.runs[j]?.map f else c.runs[j]? := by
  unfold updateRun
  rw [List.getElem?_modify]
  cases c.runs[j]? with
  | none => simp
  | some run => split <;> rfl

/-- A run of `updateRun` is an old one, or the one that has been changed. -/
theorem updateRun_cases {j : Nat} (h : (c.updateRun i f).runs[j]? = some run) :
    (j ≠ i ∧ c.runs[j]? = some run) ∨ ∃ old, j = i ∧ c.runs[i]? = some old ∧ run = f old := by
  rw [runs_updateRun] at h
  split at h
  · next heq =>
    subst heq
    obtain ⟨old, hold, rfl⟩ := Option.map_eq_some_iff.mp h
    exact .inr ⟨old, rfl, hold, rfl⟩
  · next hne => exact .inl ⟨fun heq => hne heq.symm, h⟩

theorem length_updateRun (c : ConnectionController) (i : Nat) (f : ConnectionRun → ConnectionRun) :
    (c.updateRun i f).runs.length = c.runs.length := List.length_modify ..

/-- A change that leaves the end of a run. -/
theorem isCurrent_updateRun (hclosed : ∀ run, (f run).closed = run.closed) (j : Nat) :
    (c.updateRun i f).isCurrent j = c.isCurrent j := by
  unfold isCurrent
  rw [runs_updateRun]
  change (decide (c.activeRun = some j) && _) = _
  split
  · cases c.runs[j]? with
    | none => rfl
    | some run =>
      simp only [Option.map_some, Option.any_some]
      rw [hclosed]
  · rfl

/-- A change that leaves session and end of a run. -/
theorem Tidy.updateRun (h : c.Tidy) (hsession : ∀ run, (f run).session = run.session)
    (hclosed : ∀ run, (f run).closed = run.closed)
    (hstart : ∀ run, c.runs[i]? = some run → (f run).start = run.start ∨ run.session = none) : (c.updateRun i f).Tidy where
  session j run actor hrun hactor := by
    rcases updateRun_cases hrun with ⟨_, hold⟩ | ⟨old, rfl, hold, rfl⟩
    · exact h.session j run actor hold hactor
    · rw [hsession] at hactor
      obtain ⟨rfl, hactive, hopen, hreturned⟩ := h.session j old actor hold hactor
      refine ⟨rfl, hactive, (hclosed old).trans hopen, ?_⟩
      rcases hstart old hold with hsame | hnone
      · rw [hsame, hreturned]
      · rw [hnone] at hactor
        cases hactor
  opened actor hactor := by
    rcases h.opened actor hactor with ⟨run, hrun, hheld⟩ | hcalled
    · by_cases heq : i = actor
      · refine .inl ⟨f run, ?_, (hsession run).trans hheld⟩
        rw [runs_updateRun, if_pos heq, hrun]
        rfl
      · refine .inl ⟨run, ?_, hheld⟩
        rw [runs_updateRun, if_neg heq, hrun]
    · exact .inr hcalled

theorem Tidy.congr (h : c.Tidy) (hruns : d.runs = c.runs) (hactive : d.activeRun = c.activeRun)
    (hopened : d.opened = c.opened) (hcalls : d.closeCalls = c.closeCalls) : d.Tidy where
  session i run actor := by
    rw [hruns, hactive]
    exact h.session i run actor
  opened actor := by
    rw [hopened, hruns, hcalls]
    exact h.opened actor

/-- No run has a session. -/
def Free (c : ConnectionController) : Prop := ∀ (i : Nat) (run : ConnectionRun), c.runs[i]? = some run → run.session = none

/-- Runs that are over have no session. -/
theorem Tidy.free (h : c.Tidy) (hover : ∀ i, c.isCurrent i = false) : c.Free := by
  intro i run hrun
  cases hsession : run.session with
  | none => rfl
  | some actor =>
    obtain ⟨rfl, hactive, hopen, _⟩ := h.session i run actor hrun hsession
    have hcurrent : c.isCurrent actor = true := by
      unfold isCurrent
      simp [hactive, hrun, hopen]
    rw [hover] at hcurrent
    cases hcurrent

/-- Only the active run is current. -/
theorem active_of_isCurrent (h : c.isCurrent i = true) : c.activeRun = some i ∧
    ∃ run, c.runs[i]? = some run ∧ run.closed = false := by
  unfold isCurrent at h
  obtain ⟨hactive, hopen⟩ := Bool.and_eq_true_iff.mp h
  refine ⟨of_decide_eq_true hactive, ?_⟩
  cases hrun : c.runs[i]? with
  | none => simp [hrun] at hopen
  | some run => exact ⟨run, rfl, by simpa [hrun] using hopen⟩

/-- What `closeRun` does. -/
theorem closeRun_cases (c : ConnectionController) (upd : Bool) :
    ((c.closeRun c.activeRun upd) = (c, none) ∧ ∀ i, c.isCurrent i = false) ∨
      ∃ i run, c.activeRun = some i ∧ c.runs[i]? = some run ∧
        (c.closeRun c.activeRun upd).1.runs = (c.updateRun i fun r => { r with closed := true, session := none }).runs ∧
        (c.closeRun c.activeRun upd).1.activeRun = c.activeRun ∧
        (c.closeRun c.activeRun upd).1.opened = c.opened ∧
        (c.closeRun c.activeRun upd).1.closeCalls = c.closeCalls ++ run.session.toList := by
  unfold closeRun isCurrent
  cases hactive : c.activeRun with
  | none => exact .inl ⟨rfl, fun i => by simp⟩
  | some i =>
    cases hrun : c.runs[i]? with
    | none => exact .inl ⟨by simp [hrun], fun j => by
        by_cases hij : i = j
        · subst hij
          simp [hrun]
        · simp [hij]⟩
    | some run =>
      simp only [Option.bind_some, hrun, Option.map_some]
      split
      · next hclosed =>
        refine .inl ⟨rfl, fun j => ?_⟩
        by_cases hij : i = j
        · subst hij
          simp [hrun, hclosed]
        · simp [hij]
      · exact .inr ⟨i, run, rfl, hrun, by split <;> rfl, by split <;> exact hactive, by split <;> rfl, by split <;> rfl⟩

/-- What `closeRun` leaves: no run with a session, as the actor of the active one has been closed. -/
theorem Tidy.closeRun (h : c.Tidy) (upd : Bool) :
    (c.closeRun c.activeRun upd).1.Tidy ∧ (c.closeRun c.activeRun upd).1.Free := by
  rcases c.closeRun_cases upd with ⟨heq, hover⟩ | ⟨i, run, hactive, hrun, hruns, hactive', hopened, hcalls⟩
  · rw [heq]
    exact ⟨h, h.free hover⟩
  · have hfree : (c.closeRun c.activeRun upd).1.Free := by
      intro j r hr
      rw [hruns] at hr
      rcases updateRun_cases hr with ⟨hne, hold⟩ | ⟨old, _, _, rfl⟩
      · cases hsession : r.session with
        | none => rfl
        | some actor =>
          have hj := (h.session j r actor hold hsession).2.1
          exact absurd (Option.some.inj (hj.symm.trans hactive)) hne
      · rfl
    refine ⟨⟨fun j r actor hr hsession => ?_, fun actor hactor => ?_⟩, hfree⟩
    · rw [hfree j r hr] at hsession
      cases hsession
    · rw [hopened] at hactor
      rw [hcalls]
      rcases h.opened actor hactor with ⟨r, hr, hheld⟩ | hcalled
      · obtain ⟨_, hj, _⟩ := h.session actor r actor hr hheld
        cases Option.some.inj (hj.symm.trans hactive)
        cases hr.symm.trans hrun
        exact .inr (List.mem_append_right _ (by simp [hheld]))
      · exact .inr (List.mem_append_left _ hcalled)

/-- A run may be left by one without a session. -/
theorem Tidy.of_free (h : c.Tidy) (hfree : c.Free) (hruns : ∀ (i : Nat) (run : ConnectionRun), d.runs[i]? = some run →
    run.session = none) (hopened : d.opened = c.opened) (hcalls : d.closeCalls = c.closeCalls) : d.Tidy where
  session i run actor hrun hsession := by
    rw [hruns i run hrun] at hsession
    cases hsession
  opened actor hactor := by
    rw [hopened] at hactor
    rw [hcalls]
    rcases h.opened actor hactor with ⟨run, hrun, hheld⟩ | hcalled
    · rw [hfree actor run hrun] at hheld
      cases hheld
    · exact .inr hcalled

theorem Tidy.startRun (h : c.Tidy) (serverId : String) : (c.startRun serverId).Tidy := by
  obtain ⟨htidy, hfree⟩ := h.closeRun false
  refine htidy.of_free hfree (fun i run hrun => ?_) rfl rfl
  unfold ConnectionController.startRun at hrun
  dsimp only at hrun
  rcases List.mem_append.mp (List.mem_of_getElem? hrun) with hold | hnew
  · obtain ⟨j, hj⟩ := List.mem_iff_getElem?.mp hold
    exact hfree j run hj
  · rw [List.mem_singleton.mp hnew]

theorem Tidy.disconnect (h : c.Tidy) (upd : Bool) : (c.disconnect upd).Tidy := by
  obtain ⟨htidy, hfree⟩ := h.closeRun upd
  exact htidy.of_free hfree hfree rfl rfl

/-- A run that has no session is ended. -/
theorem Tidy.finishRun (h : c.Tidy) {update : WorkspaceState → WorkspaceState}
    (hnone : c.isCurrent i = true → ∀ run, c.runs[i]? = some run → run.session = none) : (c.finishRun i update).Tidy := by
  unfold ConnectionController.finishRun
  split
  · next hcurrent =>
    have hactive := (active_of_isCurrent hcurrent).1
    have hfree : c.Free := by
      intro j run hrun
      cases hsession : run.session with
      | none => rfl
      | some actor =>
        have hj := (h.session j run actor hrun hsession).2.1
        cases Option.some.inj (hj.symm.trans hactive)
        rw [hnone hcurrent run hrun] at hsession
        cases hsession
    refine h.of_free hfree (fun j run hrun => ?_) rfl rfl
    rcases updateRun_cases (show (c.updateRun i _).runs[j]? = some run from hrun) with ⟨_, hold⟩ | ⟨old, _, _, rfl⟩
    · exact hfree j run hold
    · rfl
  · exact h

/-- `finishRun` and `failRun` leave it when the run is not current. -/
theorem finishRun_of_not_current {update : WorkspaceState → WorkspaceState} (h : c.isCurrent i = false) :
    c.finishRun i update = c := by
  unfold ConnectionController.finishRun
  rw [if_neg (by simp [h])]

theorem Tidy.closeSettled (h : c.Tidy) {serverId : String} {awaited : Option Nat}
    (hrun : c.runs[i]? = some run) (hstart : run.start = .closing awaited) : (c.closeSettled i serverId).Tidy := by
  have hnone : run.session = none := by
    cases hsession : run.session with
    | none => rfl
    | some actor =>
      have := (h.session i run actor hrun hsession).2.2.2
      rw [hstart] at this
      cases this
  have hsame : ∀ r, c.runs[i]? = some r → r.session = none := by
    intro r hr
    cases hr.symm.trans hrun
    exact hnone
  have hmoved : ∀ start, (c.updateRun i fun r => { r with start }).Tidy :=
    fun start => h.updateRun (fun _ => rfl) (fun _ => rfl) (fun r hr => .inr (hsame r hr))
  unfold ConnectionController.closeSettled
  split
  · exact (hmoved .connecting).congr rfl rfl rfl rfl
  · exact hmoved .returned

/-- A run whose start is under way has no session. -/
theorem Tidy.none_of_starting (h : c.Tidy) (hrun : c.runs[i]? = some run) (hstart : run.start ≠ .returned) :
    run.session = none := by
  cases hsession : run.session with
  | none => rfl
  | some actor => exact absurd (h.session i run actor hrun hsession).2.2.2 hstart

/-- The actor of a run that is current becomes its session, and that of another is closed. -/
theorem Tidy.connectSettled (h : c.Tidy) {result : Except String Unit} (hrun : c.runs[i]? = some run)
    (hstart : run.start = .connecting) : (c.connectSettled i result).Tidy := by
  have hnone : run.session = none := h.none_of_starting hrun (by simp [hstart])
  have hsame : ∀ r, c.runs[i]? = some r → r.session = none := by
    intro r hr
    cases hr.symm.trans hrun
    exact hnone
  have hreturned : (c.updateRun i fun r => { r with start := .returned }).Tidy :=
    h.updateRun (fun _ => rfl) (fun _ => rfl) (fun r hr => .inr (hsame r hr))
  unfold ConnectionController.connectSettled
  generalize hd : (c.updateRun i fun r => { r with start := .returned }) = d at hreturned
  have hrun' : d.runs[i]? = some { run with start := .returned } := by
    rw [← hd, runs_updateRun, if_pos rfl, hrun]
    rfl
  have hsame' : ∀ r, d.runs[i]? = some r → r.session = none ∧ r.start = .returned := by
    intro r hr
    cases hr.symm.trans hrun'
    exact ⟨hnone, rfl⟩
  cases result with
  | error message => exact hreturned.finishRun fun _ r hr => (hsame' r hr).1
  | ok =>
    dsimp only
    split
    · next hcurrent =>
      obtain ⟨hactive, r, hr, hopen⟩ := active_of_isCurrent hcurrent
      constructor
      · intro j r' actor hr' hsession
        rcases updateRun_cases hr' with ⟨_, hold⟩ | ⟨old, hj, hold, heq⟩
        · exact hreturned.session j r' actor hold hsession
        · cases hold.symm.trans hr
          subst hj heq
          cases hsession
          exact ⟨rfl, hactive, hopen, (hsame' _ hold).2⟩
      · intro actor hactor
        rcases List.mem_append.mp hactor with hold | hnew
        · rcases hreturned.opened actor hold with ⟨r', hr', hheld⟩ | hcalled
          · refine .inl ⟨r', ?_, hheld⟩
            rw [runs_updateRun, if_neg]
            · exact hr'
            · rintro rfl
              rw [(hsame' r' hr').1] at hheld
              cases hheld
          · exact .inr hcalled
        · cases List.mem_singleton.mp hnew
          refine .inl ⟨{ r with session := some i, consuming := true }, ?_, rfl⟩
          rw [runs_updateRun, if_pos rfl]
          dsimp only
          rw [hr]
          rfl
    · constructor
      · exact hreturned.session
      · intro actor hactor
        rcases List.mem_append.mp hactor with hold | hnew
        · rcases hreturned.opened actor hold with hheld | hcalled
          · exact .inl hheld
          · exact .inr (List.mem_append_left _ hcalled)
        · exact .inr (List.mem_append_right _ hnew)

/-- An event that does not end the run leaves the sessions. -/
theorem Tidy.consumeEvent (h : c.Tidy) {event : ConnectionEvent}
    (hgoes : c.GoesOn (.event i event)) : (c.consumeEvent i event).Tidy := by
  unfold ConnectionController.consumeEvent
  split
  · next hcurrent =>
    unfold ConnectionController.handleEvent
    cases event with
    | connected => exact h.congr rfl rfl rfl rfl
    | disconnected willRetry reason =>
      cases willRetry with
      | true => exact h.congr rfl rfl rfl rfl
      | false =>
        rw [hgoes i rfl] at hcurrent
        cases hcurrent
    | error message =>
      rw [hgoes i rfl] at hcurrent
      cases hcurrent
    | other => exact h
  · exact h.updateRun (fun _ => rfl) (fun _ => rfl) (fun _ _ => .inl rfl)

/-- Where no run is ended by its events, the end of a stream leaves the sessions. -/
theorem Tidy.streamOver (h : c.Tidy) {update : WorkspaceState → WorkspaceState} (hover : c.isCurrent i = false) :
    ((c.updateRun i fun r => { r with consuming := false }).finishRun i update).Tidy := by
  have hsame : (c.updateRun i fun r => { r with consuming := false }).isCurrent i = false :=
    (isCurrent_updateRun (f := fun r => { r with consuming := false }) (fun _ => rfl) i).trans hover
  rw [finishRun_of_not_current hsame]
  exact h.updateRun (fun _ => rfl) (fun _ => rfl) (fun _ _ => .inl rfl)

/-- A step leaves every actor a session, or closed. -/
theorem Tidy.step {move : Move} (h : c.Tidy) (hgoes : c.GoesOn move) (hstep : c.step move = some d) : d.Tidy := by
  unfold ConnectionController.step at hstep
  cases move with
  | connectServer serverId =>
    cases hstep
    unfold ConnectionController.connectServer
    split
    · exact h
    · exact h.startRun serverId
  | autoConnect serverId =>
    cases hstep
    exact h.startRun serverId
  | disconnect =>
    cases hstep
    exact h.disconnect true
  | shutdown =>
    cases hstep
    exact h.disconnect false
  | closeSettled i =>
    dsimp only at hstep
    split at hstep
    · next hrun =>
      cases hstep
      exact h.closeSettled hrun rfl
    · cases hstep
  | connectSettled i result =>
    dsimp only at hstep
    split at hstep
    · next hrun =>
      cases hstep
      exact h.connectSettled hrun rfl
    · cases hstep
  | event i event =>
    dsimp only at hstep
    split at hstep
    · cases hstep
      exact h.consumeEvent hgoes
    · cases hstep
  | streamEnded i =>
    dsimp only at hstep
    split at hstep
    · cases hstep
      exact h.streamOver (hgoes i rfl)
    · cases hstep
  | streamFailed i message =>
    dsimp only at hstep
    split at hstep
    · cases hstep
      exact h.streamOver (hgoes i rfl)
    · cases hstep

/-- **In a run in which no active run is ended by its own events, every session that has been opened is that of the
active run, or has been closed.** -/
theorem sessions_accounted {moves : List Move} (hmeets : Steps.Meets step GoesOn {} moves)
    (hrun : Steps.run step {} moves = some c) : c.Accounted :=
  (Steps.run_invariant (I := Tidy) (fun _ _ _ h hgoes hstep => h.step hgoes hstep) hmeets hrun tidy_new).accounted

instance (c : ConnectionController) (move : Move) : Decidable (c.GoesOn move) :=
  inferInstanceAs (Decidable (∀ i ∈ ends move, c.isCurrent i = false))

/-- Two connects that overlap: the one of the first run comes late, and is closed; that of the second one ends. -/
def overlapping : List Move :=
  [.connectServer "desk", .closeSettled 0, .connectServer "laptop", .closeSettled 1, .connectSettled 1 (.ok ()),
    .event 1 .connected, .connectSettled 0 (.ok ()), .event 1 (.disconnected true "lost"), .disconnect,
    .event 1 (.error "late")]

theorem sessions_accounted_sample : ∃ c, Steps.run step {} overlapping = some c ∧ c.Accounted := by
  have hruns : (Steps.run step {} overlapping).isSome = true := by decide +kernel
  obtain ⟨c, hc⟩ := Option.isSome_iff_exists.mp hruns
  exact ⟨c, hc, sessions_accounted (by decide +kernel) hc⟩

/-- An event ends the run, and its session is let go of without `close`. -/
theorem error_leaks_session : ∃ c, Steps.run step {} [.connectServer "desk", .closeSettled 0, .connectSettled 0 (.ok ()),
    .event 0 .connected, .event 0 (.error "server protocol error")] = some c ∧ ¬c.Accounted := by
  refine ⟨_, rfl, fun h => ?_⟩
  rcases h 0 (by decide) with ⟨i, run, hactive, _⟩ | hcalled
  · cases hactive
  · cases hcalled

end ConnectionController

end CliPocket.App
