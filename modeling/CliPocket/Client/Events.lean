import CliPocket.Client.Retry
import Mathlib.Computability.NFA

/-!
# What a session tells

The events of a session are words of an automaton. The application that follows it knows how far the session is.

- `Stage.after`: the events that may follow, and where they lead;
- `sessionEvents`: the automaton, over Mathlib's `NFA`;
- `WellTold`: its words, for the application that reads them;
- `Session.Follows`: a stage the events lead to, which is that of the phase;
- `events_follow`: **the events of every run are a word of the automaton**.
-/

namespace CliPocket

open Steps (run)

/-! ## The automaton -/

/-- Where the events leave the application. -/
inductive Stage
  | idle
  | connecting
  | live
  | waiting
  | finished
  deriving DecidableEq

/-- The stages that an event may lead to. -/
def Stage.after : Stage → ClientEvent → List Stage
  | .idle, .connecting | .waiting, .connecting => [.connecting]
  | .connecting, .connected _ _ => [.live]
  | .connecting, .disconnected true _ => [.waiting]
  -- an event frame of the daemon says the same, and the connection goes on
  | .live, .disconnected true _ => [.waiting, .live]
  | .connecting, .disconnected false _ | .live, .disconnected false _ => [.finished]
  | .live, .terminalCreated _ | .live, .terminalOutput _ _ _ | .live, .error _ => [.live]
  | _, _ => []

/-- **The words that a session can say.** -/
def sessionEvents : NFA ClientEvent Stage where
  step g event := {h | h ∈ g.after event}
  start := {.idle}
  accept := Set.univ

theorem eval_nil : Stage.idle ∈ sessionEvents.eval [] := rfl

theorem eval_append {g h : Stage} {events : List ClientEvent} {event : ClientEvent} (hg : g ∈ sessionEvents.eval events)
    (hh : h ∈ g.after event) : h ∈ sessionEvents.eval (events ++ [event]) := by
  rw [NFA.eval_append_singleton]
  exact NFA.mem_stepSet.mpr ⟨g, hg, hh⟩

/-- Nothing follows a final disconnect. -/
theorem after_finished (event : ClientEvent) : Stage.finished.after event = [] := by
  cases event <;> rfl

/-! ## Its words -/

/-- A word with an event in it. -/
theorem eval_split {g : Stage} {front back : List ClientEvent} {event : ClientEvent}
    (hg : g ∈ sessionEvents.eval (front ++ event :: back)) :
    ∃ h k, h ∈ sessionEvents.eval front ∧ k ∈ h.after event ∧ g ∈ sessionEvents.evalFrom {k} back := by
  unfold NFA.eval at hg
  rw [NFA.evalFrom_append, NFA.evalFrom_cons] at hg
  obtain ⟨k, hk, hback⟩ := NFA.mem_evalFrom_iff_exists.mp hg
  obtain ⟨h, hh, hstep⟩ := NFA.mem_stepSet.mp hk
  exact ⟨h, k, hh, hstep, hback⟩

/-- A word ends in the event that has led to its stage. -/
theorem eval_last {g : Stage} {events : List ClientEvent} (hg : g ∈ sessionEvents.eval events) :
    (events = [] ∧ g = .idle) ∨
      ∃ front event h, events = front ++ [event] ∧ h ∈ sessionEvents.eval front ∧ g ∈ h.after event := by
  induction events using List.reverseRecOn with
  | nil => exact .inl ⟨rfl, hg⟩
  | append_singleton front event _ =>
    obtain ⟨h, k, hh, hk, hback⟩ := eval_split hg
    cases hback
    exact .inr ⟨front, event, h, rfl, hh, hk⟩

theorem after_connecting {g : Stage} {event : ClientEvent} (h : Stage.connecting ∈ g.after event) :
    event = .connecting := by
  cases g <;> cases event <;> simp [Stage.after] at h ⊢
  all_goals
    next willRetry _ => cases willRetry <;> simp at h

theorem after_live {g : Stage} {event : ClientEvent} (h : Stage.live ∈ g.after event) :
    (∃ sessionId serverLabel, event = .connected sessionId serverLabel) ∨ (g = .live ∧ event ≠ .connecting) := by
  cases g <;> cases event <;> simp [Stage.after] at h ⊢
  next willRetry _ => cases willRetry <;> simp at h

/-- What only a connection has to tell. -/
def ClientEvent.ofTerminal : ClientEvent → Bool
  | .terminalCreated _ | .terminalOutput _ _ _ | .error _ => true
  | _ => false

theorem after_ofTerminal {g h : Stage} {event : ClientEvent} (hevent : event.ofTerminal = true)
    (hh : h ∈ g.after event) :
    g = .live := by
  cases g <;> cases event <;> simp [Stage.after, ClientEvent.ofTerminal] at hh hevent ⊢

/-- The words, for the application: a connection follows an attempt at once, what a terminal does is told within a
connection, and nothing is told behind a final disconnect. -/
structure WellTold (events : List ClientEvent) : Prop where
  connected : ∀ {front back sessionId serverLabel}, events = front ++ .connected sessionId serverLabel :: back →
    ∃ older, front = older ++ [.connecting]
  inside : ∀ {front back event}, events = front ++ event :: back → event.ofTerminal = true →
    ∃ older sessionId serverLabel newer, front = older ++ .connected sessionId serverLabel :: newer ∧
      ClientEvent.connecting ∉ newer
  final : ∀ {front back reason}, events = front ++ .disconnected false reason :: back → back = []

/-- A live connection has been announced since the last attempt. -/
theorem connected_of_live {events : List ClientEvent} (h : Stage.live ∈ sessionEvents.eval events) :
    ∃ older sessionId serverLabel newer, events = older ++ .connected sessionId serverLabel :: newer ∧
      ClientEvent.connecting ∉ newer := by
  induction events using List.reverseRecOn with
  | nil => cases h
  | append_singleton front event ih =>
    obtain ⟨g, k, hg, hk, hback⟩ := eval_split h
    cases hback
    rcases after_live hk with ⟨sessionId, serverLabel, rfl⟩ | ⟨rfl, hevent⟩
    · exact ⟨front, sessionId, serverLabel, [], rfl, List.not_mem_nil⟩
    · obtain ⟨older, sessionId, serverLabel, newer, rfl, hnewer⟩ := ih hg
      refine ⟨older, sessionId, serverLabel, newer ++ [event], by simp, ?_⟩
      simp [hnewer, Ne.symm hevent]

/-- **Every word of the automaton is well told.** -/
theorem wellTold_of_eval {g : Stage} {events : List ClientEvent} (hg : g ∈ sessionEvents.eval events) :
    WellTold events where
  connected {front back sessionId serverLabel} heq := by
    subst heq
    obtain ⟨h, k, hh, hk, _⟩ := eval_split hg
    have hconnecting : h = .connecting := by
      cases h <;> simp [Stage.after] at hk ⊢
    subst hconnecting
    rcases eval_last hh with ⟨_, hnone⟩ | ⟨older, event, j, rfl, _, hevent⟩
    · cases hnone
    · exact ⟨older, by rw [after_connecting hevent]⟩
  inside {front back event} heq hevent := by
    subst heq
    obtain ⟨h, k, hh, hk, _⟩ := eval_split hg
    have hlive := after_ofTerminal hevent hk
    subst hlive
    exact connected_of_live hh
  final {front back reason} heq := by
    subst heq
    obtain ⟨h, k, _, hk, hback⟩ := eval_split hg
    have hfinished : k = .finished := by
      cases h <;> simp [Stage.after] at hk <;> exact hk
    subst hfinished
    cases back with
    | nil => rfl
    | cons event back =>
      rw [NFA.evalFrom_cons, NFA.stepSet_singleton] at hback
      obtain ⟨j, hj, _⟩ := NFA.mem_evalFrom_iff_exists.mp hback
      have hnone : j ∈ Stage.finished.after event := hj
      rw [after_finished] at hnone
      cases hnone

/-- The stage of a phase. When the task has returned it depends on why. -/
def SessionPhase.stage : SessionPhase → Option Stage
  | .starting => some .idle
  | .announcing | .connecting | .setup _ | .closing false _ => some .connecting
  | .greeting | .connected _ | .closing true _ => some .live
  | .reporting true _ | .backingOff => some .waiting
  | .reporting false _ => some .finished
  | .ended => none

namespace Session

variable {s t u : Session} {c : Connection} {g : Stage}

/-- The stage is that of the session. A task that returns without having been asked has said so. -/
def Fits (s : Session) (g : Stage) : Prop :=
  match s.phase.stage with
  | some h => g = h
  | none => s.stopRequested = true ∨ g = .finished

theorem fits_of_stage (h : s.phase.stage = some g) : s.Fits g := by
  unfold Fits
  rw [h]

theorem stage_of_fits {h : Stage} (hs : s.Fits g) (hstage : s.phase.stage = some h) : g = h := by
  unfold Fits at hs
  rw [hstage] at hs
  exact hs

/-! ## One event at most -/

/-- From the stage `g` nothing is said, or one event that leads to the stage of `t`; attempts are announced. -/
def Says (s t : Session) (g : Stage) : Prop :=
  (t.events = s.events ∧ t.announcing = false ∧ t.Fits g) ∨
    ∃ event h, t.events = s.events ++ [event] ∧ h ∈ g.after event ∧ (event = .connecting ↔ t.announcing = true) ∧
      t.Fits h

theorem Says.of_eq (h : Says u t g) (he : u.events = s.events) : Says s t g := by
  unfold Says at h ⊢
  rw [he] at h
  exact h

/-- Nothing is said. -/
theorem says_silent (he : t.events = s.events) (hann : t.announcing = false) (hstage : t.phase.stage = some g) :
    Says s t g := .inl ⟨he, hann, fits_of_stage hstage⟩

/-- Stages in which a connection can end. -/
def Ends (g : Stage) : Prop := g = .connecting ∨ g = .live

theorem ends_connecting : Ends .connecting := .inl rfl

theorem ends_live : Ends .live := .inr rfl

theorem says_report (hg : Ends g) (willRetry checkStop : Bool) (reason : String) :
    Says s (s.report willRetry checkStop reason) g := by
  refine .inr ⟨.disconnected willRetry reason, if willRetry then .waiting else .finished, rfl, ?_, by simp [announcing,
    report], ?_⟩
  · rcases hg with rfl | rfl
    · cases willRetry <;> simp [Stage.after]
    · cases willRetry <;> simp [Stage.after]
  · apply fits_of_stage
    cases willRetry <;> rfl

theorem says_stop (hs : s.stopRequested = true) : Says s s.stop g := .inl ⟨rfl, rfl, .inl hs⟩

theorem says_finish (hg : Ends g) (reached : Bool) (outcome : Except ClientError Unit) :
    Says s (s.finish reached outcome) g := by
  unfold finish
  dsimp only
  split
  · next hstop => exact (says_stop hstop).of_eq rfl
  · split
    · exact (says_report hg _ _ _).of_eq rfl
    · exact (says_report hg _ _ _).of_eq rfl

theorem says_breakWith (hg : Ends g) (reached : Bool) (outcome : Except ClientError Unit) :
    Says s (s.breakWith reached outcome) g := (says_finish hg _ _).of_eq rfl

/-! ## A live connection -/

theorem says_startSend (s : Session) (c : Connection) (frame : FrameBody) (after : AfterSend) :
    Says s (s.startSend c frame after) .live := by
  unfold startSend
  split
  · exact says_finish ends_live _ _
  · next he =>
    obtain ⟨rfl, _⟩ := encrypt_eq_ok he
    exact says_silent rfl rfl rfl

theorem says_sendSessionCmd {cmd : SessionCommand} (h : s.sendSessionCmd c cmd = some t) : Says s t .live := by
  obtain ⟨⟨client, request⟩, _, rfl⟩ := Option.map_eq_some_iff.mp h
  exact (says_startSend _ _ _ _).of_eq rfl

theorem says_sendCmd (s : Session) (c : Connection) (cmd : TerminalCmd) : Says s (s.sendCmd c cmd) .live := by
  unfold sendCmd
  split
  · exact (says_startSend _ _ _ _).of_eq rfl
  · exact says_silent rfl rfl rfl

theorem says_turn {nowMs nonce : Nat} (h : s.turn c nowMs nonce = some t) : Says s t .live := by
  unfold turn at h
  dsimp only at h
  split at h
  · split at h
    · cases h
      exact says_finish ends_live _ _
    · next he =>
      obtain ⟨rfl, _⟩ := encrypt_eq_ok he
      cases h
      exact says_silent rfl rfl rfl
  · cases h
    exact says_silent rfl rfl rfl
  · split at h
    · exact says_sendSessionCmd h
    · split at h
      · cases h
        exact (says_sendCmd _ _ _).of_eq rfl
      · cases h
        exact says_silent rfl rfl rfl

/-- What a response has to tell is the terminal it has created. -/
theorem handleResponseFrame_emit {client client' : ClientConn} {response : ResponseFrame} {event : ClientEvent}
    (h : client.handleResponseFrame response = .ok (client', .emit event)) : ∃ info, event = .terminalCreated info := by
  unfold ClientConn.handleResponseFrame ClientConn.complete at h
  dsimp only at h
  split at h
  · cases hfail : client.failRequest response.id (.proto _) with
    | error e =>
      rw [hfail] at h
      cases h
    | ok c =>
      rw [hfail] at h
      cases h
  · split at h
    case h_2 =>
      split at h
      · cases h
        exact ⟨_, rfl⟩
      · cases h
    -- an open has its own checks, and so has a page
    case h_3 | h_4 =>
      split at h
      · split at h <;> cases h
      · cases h
    all_goals split at h <;> cases h

/-- What stream data have to tell is output. -/
theorem handleStreamDataFrame_emit {client client' : ClientConn} {stream : StreamDataFrame} {event : ClientEvent}
    (h : client.handleStreamDataFrame stream = .ok (client', .emit event)) :
    ∃ terminalId seq bytes, event = .terminalOutput terminalId seq bytes := by
  have haccept : ∀ {terminalId : TerminalId}, client.acceptOutput stream terminalId = (client', .emit event) →
      ∃ terminalId seq bytes, event = .terminalOutput terminalId seq bytes := by
    intro terminalId heq
    unfold ClientConn.acceptOutput at heq
    dsimp only at heq
    split at heq
    · cases heq
      exact ⟨_, _, _, rfl⟩
    · cases heq
  unfold ClientConn.handleStreamDataFrame at h
  split at h
  · split at h
    · cases h
    · split at h
      · cases h
      · split at h
        · split at h
          · cases h
          · split at h
            · cases h
            · exact haccept (Except.ok.inj h)
        · exact haccept (Except.ok.inj h)
  · cases h

/-- What a frame has to tell leaves the connection live. -/
theorem handleInboundFrame_emit {client client' : ClientConn} {frame : FrameBody} {event : ClientEvent}
    (h : client.handleInboundFrame frame = .ok (client', .emit event)) : Stage.live ∈ Stage.live.after event := by
  unfold ClientConn.handleInboundFrame at h
  split at h
  · obtain ⟨info, rfl⟩ := handleResponseFrame_emit h
    simp [Stage.after]
  · obtain ⟨terminalId, seq, bytes, rfl⟩ := handleStreamDataFrame_emit h
    simp [Stage.after]
  · next event =>
    obtain ⟨body⟩ := event
    cases body <;> cases h <;> simp [Stage.after]
  all_goals cases h

theorem ne_connecting {event : ClientEvent} {h : Stage} (hh : h ∈ g.after event) (hg : Ends g) : event ≠ .connecting :=
    by
  rintro rfl
  rcases hg with rfl | rfl
  · simp [Stage.after] at hh
  · simp [Stage.after] at hh

theorem says_act {action : Action} (h : ∀ event, action = .emit event → Stage.live ∈ Stage.live.after event) :
    Says s (s.act c action) .live := by
  cases action with
  | send frame => exact says_startSend _ _ _ _
  | emit event =>
    have hlive := h event rfl
    exact .inr ⟨event, .live, rfl, hlive, by simp [announcing, act, ne_connecting hlive ends_live], fits_of_stage rfl⟩
  | «return» result => exact says_breakWith ends_live _ _
  | none => exact says_silent rfl rfl rfl

theorem says_inbound (s : Session) (c : Connection) (frame : FrameBody) : Says s (s.inbound c frame) .live := by
  unfold inbound
  split
  · exact says_finish ends_live _ _
  · next client action heq =>
    refine (says_act fun event haction => ?_).of_eq rfl
    subst haction
    exact handleInboundFrame_emit heq

theorem says_pollRecv (s : Session) (c : Connection) (nowMs nonce : Nat) : Says s (s.pollRecv c nowMs nonce) .live := by
  unfold pollRecv
  dsimp only
  split
  · split
    · exact says_finish ends_live _ _
    · next he =>
      obtain ⟨rfl, _⟩ := encrypt_eq_ok he
      exact says_silent rfl rfl rfl
  · exact says_silent rfl rfl rfl
  · exact says_silent rfl rfl rfl

theorem says_recvMove {recv : RecvFuture} {move : ConnMove} (h : s.recvMove c recv move = some t) : Says s t .live := by
  unfold recvMove at h
  split at h
  all_goals cases h
  · apply says_pollRecv
  · exact says_silent rfl rfl rfl
  · exact (says_finish ends_live _ _).of_eq rfl
  · exact says_silent rfl rfl rfl
  · apply says_inbound
  · exact says_finish ends_live _ _
  · exact says_finish ends_live _ _
  · exact says_finish ends_live _ _

theorem says_selectStep {recv : RecvFuture} {move : ConnMove} (h : s.selectStep c recv move = some t) :
    Says s t .live := by
  unfold selectStep at h
  split at h
  · split at h
    · cases h
    · cases h
      exact (says_finish ends_live _ _).of_eq rfl
    · exact (says_sendSessionCmd h).of_eq rfl
  · split at h
    · cases h
      exact says_finish ends_live _ _
    · cases h
  · split at h
    · cases h
    · split at h
      · cases h
      · cases h
        exact says_silent rfl rfl rfl
      · cases h
        exact (says_sendCmd _ _ _).of_eq rfl
  · split at h
    · cases h
    · exact says_recvMove h

/-- **A live connection says what may follow in it, or its end.** -/
theorem says_connStep {move : ConnMove} (h : s.connStep move = some t) (hs : s.Fits g) : Says s t g := by
  unfold connStep at h
  split at h
  · next c hphase =>
    have hg : g = .live := stage_of_fits hs (by rw [hphase]; rfl)
    subst hg
    split at h
    · exact says_turn h
    · cases h
      split
      · exact says_silent rfl rfl rfl
      · exact says_silent rfl rfl rfl
      · exact says_silent rfl rfl rfl
    · cases h
      exact (says_finish ends_live _ _).of_eq rfl
    · cases h
      exact says_silent rfl rfl rfl
    · split at h
      · cases h
      · split at h
        all_goals cases h
        · exact says_silent rfl rfl rfl
        · exact says_silent rfl rfl rfl
    · cases h
      exact (says_sendCmd _ _ _).of_eq rfl
    · exact says_selectStep h
    · cases h
  · cases h

/-- Its set-up ends in a connection, or without one. -/
theorem says_setupStep {move : SetupMove} (h : s.setupStep move = some t) (hs : s.Fits g) : Says s t g := by
  unfold setupStep at h
  split at h
  · next hphase =>
    have hg : g = .connecting := stage_of_fits hs (by rw [hphase]; rfl)
    subst hg
    split at h
    · split at h
      · cases h
        exact (says_finish ends_connecting _ _).of_eq rfl
      · next he =>
        obtain ⟨rfl, _⟩ := encrypt_eq_ok he
        cases h
        exact says_silent rfl rfl rfl
    all_goals cases h
    · exact says_silent rfl rfl rfl
    · exact (says_finish ends_connecting _ _).of_eq rfl
    · exact .inr ⟨_, .live, rfl, by simp [Stage.after], by simp [announcing], fits_of_stage rfl⟩
    · exact says_finish ends_connecting _ _
    · exact says_silent rfl rfl rfl
  · cases h

/-! ## The loop -/

/-- The head of the loop, where an attempt may be announced. -/
theorem says_top (hg : g = .idle ∨ g = .waiting) : Says s s.top g := by
  rcases s.top_cases with ⟨hstop, heq⟩ | ⟨_, heq⟩
  · rw [heq]
    exact says_stop hstop
  · rw [heq]
    refine .inr ⟨.connecting, .connecting, rfl, ?_, by simp [announcing], fits_of_stage rfl⟩
    rcases hg with rfl | rfl
    · simp [Stage.after]
    · simp [Stage.after]

theorem says_loopStep {move : LoopMove} (h : s.loopStep move = some t) (hs : s.Fits g) : Says s t g := by
  have hstage : ∀ {k : Stage}, s.phase.stage = some k → g = k := stage_of_fits hs
  unfold loopStep at h
  split at h
  · next hphase =>
    cases h
    exact says_top (.inl (hstage (by rw [hphase]; rfl)))
  · next hphase =>
    cases h
    exact says_silent rfl rfl (by rw [hstage (by rw [hphase]; rfl)]; rfl)
  · next hphase =>
    cases h
    exact says_silent rfl rfl (by rw [hstage (by rw [hphase]; rfl)]; rfl)
  · next hphase =>
    have hends : Ends g := .inl (hstage (by rw [hphase]; rfl))
    split at h
    · next hstop =>
      cases h
      exact says_stop hstop
    · cases h
      exact says_report hends _ _ _
  · next reached _ hphase =>
    cases h
    cases reached with
    | true => exact says_breakWith (.inr (hstage (by rw [hphase]; rfl))) _ _
    | false => exact says_breakWith (.inl (hstage (by rw [hphase]; rfl))) _ _
  · next hphase =>
    cases h
    exact says_silent rfl rfl (by rw [hstage (by rw [hphase]; rfl)]; rfl)
  · next willRetry checkStop hphase =>
    cases willRetry with
    | false =>
      cases h
      exact .inl ⟨rfl, rfl, .inr (hstage (by rw [hphase]; rfl))⟩
    | true =>
      have hg : g = .waiting := hstage (by rw [hphase]; rfl)
      subst hg
      split at h
      · next hstop =>
        cases h
        refine .inl ⟨rfl, rfl, .inl ?_⟩
        simp at hstop
        exact hstop.2
      · cases h
        exact says_silent rfl rfl rfl
  · next hphase =>
    cases h
    exact says_top (.inr (hstage (by rw [hphase]; rfl)))
  · cases h

/-! ## Whole runs -/

/-- Callers say nothing, and do not take a stop back. -/
theorem callerStep_events {move : CallerMove} (h : s.callerStep move = some t) :
    t.events = s.events ∧ t.phase = s.phase ∧ t.attempts = s.attempts ∧
      (s.stopRequested = true → t.stopRequested = true) := by
  unfold callerStep at h
  split at h
  · cases h
  · split at h
    · split at h
      · cases h
      · split at h
        · cases h
        · cases h
          exact ⟨rfl, rfl, rfl, id⟩
    · cases h
      exact ⟨rfl, rfl, rfl, id⟩
    · split at h
      · cases h
      · cases h
        exact ⟨rfl, rfl, rfl, fun _ => rfl⟩
    · split at h
      · cases h
      · cases h
        exact ⟨rfl, rfl, rfl, id⟩

/-- The events lead to the stage of the phase, and every announcement but one that is under way is an attempt. -/
structure Follows (s : Session) (g : Stage) : Prop where
  told : g ∈ sessionEvents.eval s.events
  fits : s.Fits g
  attempts : s.events.count .connecting = s.attempts + if s.announcing then 1 else 0

theorem follows_new (resumeToken : Option ResumeToken) : (new resumeToken).Follows .idle where
  told := eval_nil
  fits := fits_of_stage rfl
  attempts := rfl

/-- Announcements are counted as they are made. -/
theorem Says.count (h : Says s t g) :
    t.events.count .connecting = s.events.count .connecting + if t.announcing then 1 else 0 := by
  rcases h with ⟨he, hann, _⟩ | ⟨event, _, he, _, hann, _⟩
  · simp [he, hann]
  · rw [he, List.count_append, List.count_singleton]
    by_cases hevent : event = .connecting
    · simp [hevent, hann.mp hevent]
    · have hquiet : t.announcing = false := Bool.eq_false_iff.mpr fun h => hevent (hann.mpr h)
      simp [hevent, hquiet]

theorem Says.follows (h : Says s t g) (hs : s.Follows g) (hattempts : t.attempts =
    s.attempts + if s.announcing then 1 else 0) :
    ∃ k, t.Follows k := by
  have hcount : t.events.count .connecting = t.attempts + if t.announcing then 1 else 0 := by
    rw [h.count, hs.attempts, hattempts]
  rcases h with ⟨he, _, hfits⟩ | ⟨event, k, he, hk, _, hfits⟩
  · refine ⟨g, ?_, hfits, hcount⟩
    rw [he]
    exact hs.told
  · refine ⟨k, ?_, hfits, hcount⟩
    rw [he]
    exact eval_append hs.told hk

/-- **What one step says is a step of the automaton.** -/
theorem Follows.step {move : Move} (h : s.Follows g) (hs : s.step move = some t) : ∃ k, t.Follows k := by
  cases move with
  | caller move =>
    obtain ⟨hevents, hphase, hattempts, hstop⟩ := callerStep_events hs
    refine ⟨g, ?_, ?_, ?_⟩
    · rw [hevents]
      exact h.told
    · have hfits := h.fits
      unfold Fits at hfits ⊢
      rw [hphase]
      split
      · next hstage =>
        rw [hstage] at hfits
        exact hfits
      · next hstage =>
        rw [hstage] at hfits
        exact hfits.imp_left hstop
    · have hann : t.announcing = s.announcing := by
        unfold announcing
        rw [hphase]
      rw [hevents, hattempts, hann]
      exact h.attempts
  | loop move =>
    refine (says_loopStep hs h.fits).follows h ?_
    cases hann : s.announcing with
    | true =>
      have hphase := announcing_eq_true.mp hann
      unfold Session.step loopStep at hs
      dsimp only at hs
      rw [hphase] at hs
      cases move <;> cases hs
      rfl
    | false =>
      apply step_attempts hs
      intro hphase
      cases hann.symm.trans (announcing_eq_true.mpr hphase)
  | setup move =>
    refine (says_setupStep hs h.fits).follows h ?_
    have hann : s.announcing = false := by
      unfold Session.step setupStep at hs
      dsimp only at hs
      split at hs
      · next hphase =>
        unfold announcing
        rw [hphase]
      · cases hs
    rw [hann]
    exact (quiet_setupStep hs).attempts
  | conn move =>
    refine (says_connStep hs h.fits).follows h ?_
    have hann : s.announcing = false := by
      unfold Session.step connStep at hs
      dsimp only at hs
      split at hs
      · next hphase =>
        unfold announcing
        rw [hphase]
      · cases hs
    rw [hann]
    exact (quiet_connStep hs).attempts

theorem follows_run (resumeToken : Option ResumeToken) {moves : List Move}
    (hr : run Session.step (new resumeToken) moves = some s) : ∃ g, s.Follows g := by
  refine Steps.run_invariant (C := fun _ _ => True) (I := fun u => ∃ g, u.Follows g) ?_ (Steps.meets_true _ _) hr
    ⟨_, follows_new resumeToken⟩
  rintro u move v ⟨g, hg⟩ _ hst
  exact hg.step hst

/-- **A session tells its application how far it is.** In every run the events are a word of the automaton, which leads
to the stage of the phase; a session that has ended without having been asked has told so; each announcement of an
attempt is followed by its attempt, before any other; and terminals are heard of within connections alone. -/
theorem events_follow (resumeToken : Option ResumeToken) {moves : List Move} {s : Session}
    (hr : run Session.step (new resumeToken) moves = some s) :
    (∃ g ∈ sessionEvents.eval s.events, s.Fits g) ∧
      s.events.count .connecting = (s.attempts + if s.announcing then 1 else 0) ∧ WellTold s.events := by
  obtain ⟨g, hg⟩ := follows_run resumeToken hr
  exact ⟨⟨g, hg.told, hg.fits⟩, hg.attempts, wellTold_of_eval hg.told⟩

/-- A connection is set up. -/
theorem events_follow_sample : ∃ s, run Session.step (new none) toSelect = some s ∧
    (∃ g ∈ sessionEvents.eval s.events, s.Fits g) ∧
      s.events.count .connecting = (s.attempts + if s.announcing then 1 else 0) ∧ WellTold s.events := by
  obtain ⟨s, hs⟩ : ∃ s, run Session.step (new none) toSelect = some s := ⟨_, rfl⟩
  exact ⟨s, hs, events_follow none hs⟩

end Session

end CliPocket
