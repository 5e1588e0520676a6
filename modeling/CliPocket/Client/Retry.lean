import CliPocket.Client.SessionLoop
import CliPocket.Lib.Steps

/-!
# Retries and the stop

- `Session.Quiet`: a live connection and its set-up start no attempt of their own (`quiet_connStep`, `quiet_setupStep`);
- `stopping_is_final`: **when a stop is final**;
- `ending_is_taken_as_meant`: **which ends of a connection are retried**.
-/

namespace CliPocket

open Steps (run Meets)

namespace Session

/-! ## What starts no attempt -/

/-- No attempt is started, none is announced, and the callers' signals are as they were. -/
structure Quiet (s t : Session) : Prop where
  attempts : t.attempts = s.attempts
  stopRequested : t.stopRequested = s.stopRequested
  dropped : t.dropped = s.dropped
  phase : t.phase ≠ .announcing

variable {s t : Session} {c : Connection}

/-- Fields that `Quiet` does not look at. -/
theorem Quiet.of_eq {u : Session} (h : Quiet u t) (ha : u.attempts = s.attempts) (hs : u.stopRequested = s.stopRequested)
    (hd : u.dropped = s.dropped) : Quiet s t :=
  ⟨h.attempts.trans ha, h.stopRequested.trans hs, h.dropped.trans hd, h.phase⟩

/-- A connection that goes on. -/
theorem quiet_connected (c : Connection) (ha : t.attempts = s.attempts) (hs : t.stopRequested = s.stopRequested)
    (hd : t.dropped = s.dropped) (hphase : t.phase = .connected c) : Quiet s t :=
  ⟨ha, hs, hd, hphase ▸ nofun⟩

theorem quiet_stop (s : Session) : Quiet s s.stop := ⟨rfl, rfl, rfl, nofun⟩

theorem quiet_report (s : Session) (willRetry checkStop : Bool) (reason : String) :
    Quiet s (s.report willRetry checkStop reason) := ⟨rfl, rfl, rfl, nofun⟩

theorem quiet_finish (s : Session) (reached : Bool) (outcome : Except ClientError Unit) :
    Quiet s (s.finish reached outcome) := by
  unfold finish
  dsimp only
  split
  · exact (quiet_stop _).of_eq rfl rfl rfl
  · split
    · exact (quiet_report _ _ _ _).of_eq rfl rfl rfl
    · exact (quiet_report _ _ _ _).of_eq rfl rfl rfl

theorem quiet_breakWith (s : Session) (reached : Bool) (outcome : Except ClientError Unit) :
    Quiet s (s.breakWith reached outcome) := (quiet_finish _ _ _).of_eq rfl rfl rfl

theorem quiet_startSend (s : Session) (c : Connection) (frame : FrameBody) (after : AfterSend) :
    Quiet s (s.startSend c frame after) := by
  unfold startSend
  split
  · exact quiet_finish _ _ _
  · next he =>
    obtain ⟨rfl, _⟩ := encrypt_eq_ok he
    exact ⟨rfl, rfl, rfl, nofun⟩

theorem quiet_sendSessionCmd {cmd : SessionCommand} (h : s.sendSessionCmd c cmd = some t) : Quiet s t := by
  obtain ⟨⟨client, request⟩, _, rfl⟩ := Option.map_eq_some_iff.mp h
  exact (quiet_startSend _ _ _ _).of_eq rfl rfl rfl

theorem quiet_sendCmd (s : Session) (c : Connection) (cmd : TerminalCmd) : Quiet s (s.sendCmd c cmd) := by
  unfold sendCmd
  split
  · exact (quiet_startSend _ _ _ _).of_eq rfl rfl rfl
  · exact ⟨rfl, rfl, rfl, nofun⟩

theorem quiet_turn {nowMs nonce : Nat} (h : s.turn c nowMs nonce = some t) : Quiet s t := by
  unfold turn at h
  dsimp only at h
  split at h
  · split at h
    · cases h
      exact quiet_finish _ _ _
    · next he =>
      obtain ⟨rfl, _⟩ := encrypt_eq_ok he
      cases h
      exact ⟨rfl, rfl, rfl, nofun⟩
  · cases h
    exact ⟨rfl, rfl, rfl, nofun⟩
  · split at h
    · exact quiet_sendSessionCmd h
    · split at h
      · cases h
        exact (quiet_sendCmd _ _ _).of_eq rfl rfl rfl
      · cases h
        exact ⟨rfl, rfl, rfl, nofun⟩

theorem quiet_act (s : Session) (c : Connection) (action : Action) : Quiet s (s.act c action) := by
  cases action with
  | send frame => exact quiet_startSend _ _ _ _
  | emit event => exact ⟨rfl, rfl, rfl, nofun⟩
  | «return» result => exact quiet_breakWith _ _ _
  | none => exact ⟨rfl, rfl, rfl, nofun⟩

theorem quiet_inbound (s : Session) (c : Connection) (frame : FrameBody) : Quiet s (s.inbound c frame) := by
  unfold inbound
  split
  · exact quiet_finish _ _ _
  · exact (quiet_act _ _ _).of_eq rfl rfl rfl

theorem quiet_pollRecv (s : Session) (c : Connection) (nowMs nonce : Nat) : Quiet s (s.pollRecv c nowMs nonce) := by
  unfold pollRecv
  dsimp only
  split
  · split
    · exact quiet_finish _ _ _
    · next he =>
      obtain ⟨rfl, _⟩ := encrypt_eq_ok he
      exact ⟨rfl, rfl, rfl, nofun⟩
  · exact ⟨rfl, rfl, rfl, nofun⟩
  · exact ⟨rfl, rfl, rfl, nofun⟩

theorem quiet_recvMove {recv : RecvFuture} {move : ConnMove} (h : s.recvMove c recv move = some t) : Quiet s t := by
  unfold recvMove at h
  split at h
  all_goals cases h
  · exact quiet_pollRecv _ _ _ _
  · exact ⟨rfl, rfl, rfl, nofun⟩
  · exact (quiet_finish _ _ _).of_eq rfl rfl rfl
  · exact ⟨rfl, rfl, rfl, nofun⟩
  · exact quiet_inbound _ _ _
  · exact quiet_finish _ _ _
  · exact quiet_finish _ _ _
  · exact quiet_finish _ _ _

theorem quiet_selectStep {recv : RecvFuture} {move : ConnMove} (h : s.selectStep c recv move = some t) : Quiet s t := by
  unfold selectStep at h
  split at h
  · split at h
    · cases h
    · cases h
      exact (quiet_finish _ _ _).of_eq rfl rfl rfl
    · exact (quiet_sendSessionCmd h).of_eq rfl rfl rfl
  · split at h
    · cases h
      exact quiet_finish _ _ _
    · cases h
  · split at h
    · cases h
    · split at h
      · cases h
      · cases h
        exact ⟨rfl, rfl, rfl, nofun⟩
      · cases h
        exact (quiet_sendCmd _ _ _).of_eq rfl rfl rfl
  · split at h
    · cases h
    · exact quiet_recvMove h

/-- **A live connection starts no attempt.** -/
theorem quiet_connStep {move : ConnMove} (h : s.connStep move = some t) : Quiet s t := by
  unfold connStep at h
  split at h
  · split at h
    · exact quiet_turn h
    · cases h
      split
      · exact quiet_connected _ rfl rfl rfl rfl
      · exact quiet_connected _ rfl rfl rfl rfl
      · exact quiet_connected _ rfl rfl rfl rfl
    · cases h
      exact (quiet_finish _ _ _).of_eq rfl rfl rfl
    · cases h
      exact quiet_connected _ rfl rfl rfl rfl
    · split at h
      · cases h
      · split at h
        all_goals cases h
        · exact quiet_connected _ rfl rfl rfl rfl
        · exact quiet_connected _ rfl rfl rfl rfl
    · cases h
      exact (quiet_sendCmd _ _ _).of_eq rfl rfl rfl
    · exact quiet_selectStep h
    · cases h
  · cases h

/-- Nor does its set-up. -/
theorem quiet_setupStep {move : SetupMove} (h : s.setupStep move = some t) : Quiet s t := by
  unfold setupStep at h
  split at h
  · split at h
    · split at h
      · cases h
        exact quiet_finish _ _ _
      · next he =>
        obtain ⟨rfl, _⟩ := encrypt_eq_ok he
        cases h
        exact ⟨rfl, rfl, rfl, nofun⟩
    all_goals cases h
    · exact ⟨rfl, rfl, rfl, nofun⟩
    · exact (quiet_finish _ _ _).of_eq rfl rfl rfl
    · exact ⟨rfl, rfl, rfl, nofun⟩
    · exact quiet_finish _ _ _
    · exact ⟨rfl, rfl, rfl, nofun⟩
  · cases h

/-! ## Stopping -/

/-- `shutdown` has been called, or there is no clone left to call it. -/
def Stopped (s : Session) : Prop := s.stopRequested = true ∨ s.dropped = true

def announcing (s : Session) : Bool :=
  match s.phase with
  | .announcing => true
  | _ => false

theorem announcing_eq_true : s.announcing = true ↔ s.phase = .announcing := by
  unfold announcing
  split
  · next h => simp [h]
  · next h => simpa using h

/-- The head of the loop looks at the flag alone, and there is no look at all behind the announcement. -/
def StopSeen (s : Session) : Move → Prop
  | .caller .shutdown => s.announcing = false
  | .caller .drop => s.announcing = true → s.stopRequested = true
  | .loop .start | .loop .slept => s.dropped = true → s.stopRequested = true
  | _ => True

instance decidableStopSeen (s : Session) : (move : Move) → Decidable (s.StopSeen move)
  | .caller .shutdown => inferInstanceAs (Decidable (s.announcing = false))
  | .caller .drop => inferInstanceAs (Decidable (s.announcing = true → s.stopRequested = true))
  | .loop .start | .loop .slept => inferInstanceAs (Decidable (s.dropped = true → s.stopRequested = true))
  | .caller (.command _) | .caller (.terminalCommand _) | .loop .announced | .loop (.transport _) | .loop .closed
  | .loop (.greeted _) | .loop .reported | .setup _ | .conn _ => isTrue trivial

/-- No stop has been missed. -/
def Sealed (s : Session) : Prop := s.Stopped → s.phase ≠ .announcing

theorem callerStep_cases {move : CallerMove} (h : s.callerStep move = some t) :
    t.attempts = s.attempts ∧ t.phase = s.phase ∧
      (t.Stopped → s.Stopped ∨ move = .shutdown ∨ move = .drop) := by
  unfold callerStep at h
  split at h
  · cases h
  · split at h
    · split at h
      · cases h
      · split at h
        · cases h
        · cases h
          exact ⟨rfl, rfl, .inl⟩
    · cases h
      exact ⟨rfl, rfl, .inl⟩
    · split at h
      · cases h
      · cases h
        exact ⟨rfl, rfl, fun _ => .inr (.inl rfl)⟩
    · split at h
      · cases h
      · cases h
        exact ⟨rfl, rfl, fun _ => .inr (.inr rfl)⟩

theorem top_cases (s : Session) :
    (s.stopRequested = true ∧ s.top = s.stop) ∨
      (s.stopRequested = false ∧ s.top = { s.emit .connecting with phase := .announcing }) := by
  unfold top
  cases hs : s.stopRequested with
  | true => exact .inl ⟨rfl, rfl⟩
  | false => exact .inr ⟨rfl, rfl⟩

/-- What the loop does without an attempt, with one, and at its head. -/
theorem loopStep_cases {move : LoopMove} (h : s.loopStep move = some t) :
    Quiet s t ∨ (s.phase = .announcing ∧ t = { s with attempts := s.attempts + 1, phase := .connecting }) ∨
      ((move = .start ∨ move = .slept) ∧ t = s.top) := by
  unfold loopStep at h
  split at h
  · cases h
    exact .inr (.inr ⟨.inl rfl, rfl⟩)
  · next hphase =>
    cases h
    exact .inr (.inl ⟨hphase, rfl⟩)
  · cases h
    exact .inl ⟨rfl, rfl, rfl, nofun⟩
  · split at h
    all_goals cases h
    · exact .inl (quiet_stop _)
    · exact .inl (quiet_report _ _ _ _)
  · cases h
    exact .inl (quiet_breakWith _ _ _)
  · cases h
    exact .inl ⟨rfl, rfl, rfl, nofun⟩
  · split at h
    all_goals cases h
    · exact .inl (quiet_stop _)
    · exact .inl ⟨rfl, rfl, rfl, nofun⟩
  · cases h
    exact .inr (.inr ⟨.inr rfl, rfl⟩)
  · cases h

/-- A step that sees the stop keeps it from being missed. -/
theorem Sealed.step {move : Move} (h : s.Sealed) (hc : s.StopSeen move) (hs : s.step move = some t) : t.Sealed := by
  have hquiet : Quiet s t → t.Sealed := fun hq _ => hq.phase
  cases move with
  | caller move =>
    obtain ⟨_, hphase, hstop⟩ := callerStep_cases hs
    intro ht
    rw [hphase]
    rcases hstop ht with hold | rfl | rfl
    · exact h hold
    · intro hann
      exact absurd ((announcing_eq_true.mpr hann).symm.trans hc) Bool.true_eq_false.mp
    · intro hann
      exact h (.inl (hc (announcing_eq_true.mpr hann))) hann
  | loop move =>
    rcases loopStep_cases hs with hq | ⟨_, rfl⟩ | ⟨hmove, rfl⟩
    · exact hquiet hq
    · exact fun _ => nofun
    · rcases s.top_cases with ⟨_, heq⟩ | ⟨hflag, heq⟩
      · rw [heq]
        exact fun _ => nofun
      · have hdropped : s.dropped = true → s.stopRequested = true := by
          rcases hmove with rfl | rfl
          · exact hc
          · exact hc
        rw [heq]
        rintro (hstop | hdrop)
        · exact absurd (hflag.symm.trans hstop) Bool.false_ne_true
        · exact absurd (hflag.symm.trans (hdropped hdrop)) Bool.false_ne_true
  | setup move => exact hquiet (quiet_setupStep hs)
  | conn move => exact hquiet (quiet_connStep hs)

/-- A stop is not taken back. -/
theorem Stopped.step {move : Move} (h : s.Stopped) (hs : s.step move = some t) : t.Stopped := by
  have hquiet : Quiet s t → t.Stopped := fun hq => by
    unfold Stopped
    rw [hq.stopRequested, hq.dropped]
    exact h
  cases move with
  | caller move =>
    unfold Session.step callerStep at hs
    dsimp only at hs
    split at hs
    · cases hs
    · split at hs
      · split at hs
        · cases hs
        · split at hs
          · cases hs
          · cases hs
            exact h
      · cases hs
        exact h
      · split at hs
        · cases hs
        · cases hs
          exact .inl rfl
      · split at hs
        · cases hs
        · cases hs
          exact .inr rfl
  | loop move =>
    rcases loopStep_cases hs with hq | ⟨_, rfl⟩ | ⟨_, rfl⟩
    · exact hquiet hq
    · exact h
    · rcases s.top_cases with ⟨_, heq⟩ | ⟨_, heq⟩
      · rw [heq]
        exact h
      · rw [heq]
        exact h
  | setup move => exact hquiet (quiet_setupStep hs)
  | conn move => exact hquiet (quiet_connStep hs)

/-- An attempt starts from its announcement. -/
theorem step_attempts {move : Move} (hs : s.step move = some t) (hphase : s.phase ≠ .announcing) :
    t.attempts = s.attempts := by
  cases move with
  | caller move => exact (callerStep_cases hs).1
  | loop move =>
    rcases loopStep_cases hs with hq | ⟨hann, _⟩ | ⟨_, rfl⟩
    · exact hq.attempts
    · exact absurd hann hphase
    · rcases s.top_cases with ⟨_, heq⟩ | ⟨_, heq⟩
      · rw [heq]
        rfl
      · rw [heq]
        rfl
  | setup move => exact (quiet_setupStep hs).attempts
  | conn move => exact (quiet_connStep hs).attempts

/-- **Stopping is final**: in a run that does not call `shutdown` (nor drop the last clone) behind the announcement of
an attempt, nor come to the head of the loop without a clone and without `shutdown`, no attempt follows a stop. -/
theorem stopping_is_final (resumeToken : Option ResumeToken) {is js : List Move} {s t : Session}
    (hmeets : Meets Session.step StopSeen (new resumeToken) (is ++ js))
    (hs : run Session.step (new resumeToken) is = some s) (hstop : s.Stopped)
    (ht : run Session.step s js = some t) : t.attempts = s.attempts := by
  have hsealed : s.Sealed := by
    refine Steps.run_invariant (I := Sealed) (fun _ _ _ h hc hst => h.step hc hst) ?_ hs fun _ => nofun
    exact Steps.meets_prefix hmeets
  have hinv := Steps.run_invariant (I := fun u => u.Sealed ∧ u.Stopped ∧ u.attempts = s.attempts)
    (fun u move v ⟨hu, hus, ha⟩ hc hst =>
      ⟨hu.step hc hst, hus.step hst, (step_attempts hst (hu hus)).trans ha⟩)
    (Steps.meets_suffix hmeets hs) ht ⟨hsealed, hstop, rfl⟩
  exact hinv.2.2

theorem stopping_is_final_sample : ∃ s t, run Session.step (new none) (toSelect ++ [.caller .drop]) = some s ∧
    run Session.step s [.conn .sessionCmdsClosed, .loop .reported] = some t ∧ t.attempts = s.attempts := by
  obtain ⟨s, hs, hdrop⟩ : ∃ s, run Session.step (new none) (toSelect ++ [.caller .drop]) = some s ∧ s.dropped = true :=
    ⟨_, rfl, rfl⟩
  obtain ⟨t, ht⟩ : ∃ t, (run Session.step (new none) (toSelect ++ [.caller .drop])).bind
      (run Session.step · [.conn .sessionCmdsClosed, .loop .reported]) = some t := ⟨_, rfl⟩
  rw [hs] at ht
  exact ⟨s, t, hs, ht, stopping_is_final none (by decide) hs (.inr hdrop) ht⟩

/-- The last clone goes while the loop backs off: an attempt follows. -/
theorem attempt_after_stop :
    ¬∀ (resumeToken : Option ResumeToken) (is js : List Move) (s t : Session),
      run Session.step (new resumeToken) is = some s → s.Stopped → run Session.step s js = some t →
        t.attempts = s.attempts := by
  intro h
  obtain ⟨s, t, hs, ht, hdrop, hattempts⟩ : ∃ s t,
      run Session.step (new none) (toSelect ++ [.conn (.poll 0 0), .conn (.recvFailed (.transport "reset")),
        .loop .reported, .caller .drop]) = some s ∧
      run Session.step s [.loop .slept, .loop .announced] = some t ∧ s.dropped = true ∧ t.attempts = s.attempts + 1 :=
    ⟨_, _, rfl, rfl, rfl, rfl⟩
  have := h none _ _ s t hs (.inr hdrop) ht
  omega

/-! ## Ends of a connection -/

/-- How a connection that has reached `Connected` ends. -/
inductive Ending
  | peerClosed
  | bye (reason : ByeReason)
  | transport (message : String)
  deriving DecidableEq

/-- The ends that are meant to be made up for. -/
def Ending.recoverable : Ending → Bool
  | .peerClosed | .bye .serverShutdown | .bye (.protocolError .backpressureExceeded) | .transport _ => true
  | .bye _ => false

/-- What `run_one_connection` returns. -/
def Ending.error : Ending → ClientError
  | .peerClosed => .closed
  | .bye reason => if ClientConn.isRecoverableBye reason then .closed else .rejected reason
  | .transport message => .transport message

/-- The moves that end a live connection in one of these ways. -/
def endingOf (s : Session) (move : Move) : Option Ending :=
  match s.phase, move with
  | .connected _, .conn .peerClosed => some .peerClosed
  | .connected _, .conn (.frame (.bye reason) _) => some (.bye reason)
  | .connected _, .conn (.sendFailed (.transport message))
  | .connected _, .conn (.pingFailed (.transport message))
  | .connected _, .conn (.recvFailed (.transport message)) => some (.transport message)
  | .connected _, .conn .closed => some (.transport "heartbeat timeout")
  | .closing true (.transport message), .loop .closed => some (.transport message)
  | _, _ => none

/-- A move of the loop between connections. -/
def Move.isLoop : Move → Bool
  | .loop _ => true
  | _ => false

/-- The end of a connection, on the step from `s` to `t`, is taken as `recoverable`. -/
structure Taken (s t : Session) (recoverable : Bool) : Prop where
  reported : s.stopRequested = false → ∃ reason, t.events = s.events ++ [.disconnected recoverable reason]
  /-- Until the next attempt at most two waits are left, and each can end. -/
  retries : recoverable = true → ∀ js u, run Session.step t js = some u → u.stopRequested = false →
    u.attempts = t.attempts → (∃ move v, u.loopStep move = some v) ∧ (js.filter Move.isLoop).length ≤ 2
  final : recoverable = false → ∀ js u, run Session.step t js = some u → u.attempts = t.attempts

/-- A connection ends with `e`. -/
theorem finish_error (s : Session) (e : ClientError) :
    (s.stopRequested = true ∧ (s.finish true (.error e)).phase = .ended) ∨
      (s.stopRequested = false ∧ (s.finish true (.error e)).phase = .reporting (shouldRetryAfterDisconnect e) true ∧
        (s.finish true (.error e)).events =
          s.events ++ [.disconnected (shouldRetryAfterDisconnect e) e.toMessage]) := by
  unfold finish
  dsimp only
  cases hs : s.stopRequested with
  | true => exact .inl ⟨rfl, rfl⟩
  | false =>
    refine .inr ⟨rfl, ?_, ?_⟩
    · simp [report]
    · simp [report, emit]

/-- **The step that ends a connection.** -/
theorem step_of_ending {move : Move} {e : Ending} (hs : s.step move = some t) (he : s.endingOf move = some e) :
    ∃ u : Session, t = u.finish true (.error e.error) ∧ u.events = s.events ∧ u.stopRequested = s.stopRequested := by
  unfold endingOf at he
  split at he
  all_goals cases he
  · next c hphase =>
    obtain ⟨recv, _, h⟩ := recvMove_of_connStep hphase hs rfl
    cases recv <;> cases h
    exact ⟨_, rfl, rfl, rfl⟩
  · next c reason now hphase =>
    obtain ⟨recv, _, h⟩ := recvMove_of_connStep hphase hs rfl
    cases recv <;> cases h
    exact ⟨_, rfl, rfl, rfl⟩
  · next c message hphase =>
    unfold Session.step connStep at hs
    rw [hphase] at hs
    dsimp only at hs
    cases hwait : c.wait with
    | sending ciphertext after =>
      rw [hwait] at hs
      cases hs
      exact ⟨_, rfl, rfl, rfl⟩
    | selecting recv =>
      rw [hwait] at hs
      cases recv <;> simp [selectStep, recvMove] at hs
    | top | emitting | batching cmd deferred =>
      rw [hwait] at hs
      cases hs
  · next c message hphase =>
    obtain ⟨recv, _, h⟩ := recvMove_of_connStep hphase hs rfl
    cases recv <;> cases h
    exact ⟨_, rfl, rfl, rfl⟩
  · next c message hphase =>
    obtain ⟨recv, _, h⟩ := recvMove_of_connStep hphase hs rfl
    cases recv <;> cases h
    exact ⟨_, rfl, rfl, rfl⟩
  · next c hphase =>
    obtain ⟨recv, _, h⟩ := recvMove_of_connStep hphase hs rfl
    cases recv <;> cases h
    exact ⟨_, rfl, rfl, rfl⟩
  · next message hphase =>
    unfold Session.step loopStep at hs
    rw [hphase] at hs
    cases hs
    exact ⟨_, rfl, rfl, rfl⟩

/-- Between a disconnect that is retried and the next attempt: how many waits of the loop are left. -/
def waitsLeft : SessionPhase → Option Nat
  | .reporting true _ => some 2
  | .backingOff => some 1
  | .announcing => some 0
  | _ => none

theorem stopRequested_step {move : Move} (hs : s.step move = some t) (ht : t.stopRequested = false) :
    s.stopRequested = false := by
  cases move with
  | caller move =>
    unfold Session.step callerStep at hs
    dsimp only at hs
    split at hs
    · cases hs
    · split at hs
      · split at hs
        · cases hs
        · split at hs <;> cases hs
          exact ht
      · cases hs
        exact ht
      · split at hs <;> cases hs
        cases ht
      · split at hs <;> cases hs
        exact ht
  | loop move =>
    rcases loopStep_cases hs with hq | ⟨_, rfl⟩ | ⟨_, rfl⟩
    · exact hq.stopRequested.symm.trans ht
    · exact ht
    · rcases s.top_cases with ⟨_, heq⟩ | ⟨hflag, _⟩
      · rw [heq] at ht
        exact ht
      · exact hflag
  | setup move => exact (quiet_setupStep hs).stopRequested.symm.trans ht
  | conn move => exact (quiet_connStep hs).stopRequested.symm.trans ht

theorem attempts_step {move : Move} (hs : s.step move = some t) : s.attempts ≤ t.attempts := by
  by_cases hphase : s.phase = .announcing
  · cases move with
    | caller move => exact Nat.le_of_eq (callerStep_cases hs).1.symm
    | loop move =>
      rcases loopStep_cases hs with hq | ⟨_, rfl⟩ | ⟨_, rfl⟩
      · exact Nat.le_of_eq hq.attempts.symm
      · exact Nat.le_succ _
      · rcases s.top_cases with ⟨_, heq⟩ | ⟨_, heq⟩ <;> rw [heq] <;> exact Nat.le_refl _
    | setup move => exact Nat.le_of_eq (quiet_setupStep hs).attempts.symm
    | conn move => exact Nat.le_of_eq (quiet_connStep hs).attempts.symm
  · exact Nat.le_of_eq (step_attempts hs hphase).symm

/-- Attempts are counted, and a stop is not taken back. -/
theorem attempts_run : ∀ {js : List Move} {s t : Session}, run Session.step s js = some t →
    s.attempts ≤ t.attempts ∧ (t.stopRequested = false → s.stopRequested = false)
  | [], s, t, h => by
    cases h
    exact ⟨Nat.le_refl _, id⟩
  | j :: js, s, t, h => by
    obtain ⟨m, hm, hr⟩ := Steps.run_cons_some h
    obtain ⟨hle, hstop⟩ := attempts_run hr
    exact ⟨Nat.le_trans (attempts_step hm) hle, fun ht => stopRequested_step hm (hstop ht)⟩

/-- A wait of the loop ends without an attempt: the next one is nearer. -/
theorem waitsLeft_loopStep {move : LoopMove} {n : Nat} (hn : waitsLeft s.phase = some n) (hs : s.loopStep move = some t)
    (hflag : s.stopRequested = false) (hattempts : t.attempts = s.attempts) :
    ∃ k, waitsLeft t.phase = some k ∧ k + 1 = n := by
  unfold loopStep at hs
  cases hphase : s.phase with
  | reporting willRetry checkStop =>
    rw [hphase] at hn hs
    cases willRetry with
    | false => cases hn
    | true =>
      cases hn
      cases move <;> simp [hflag] at hs
      subst hs
      exact ⟨1, rfl, rfl⟩
  | backingOff =>
    rw [hphase] at hn hs
    cases hn
    cases move <;> simp [top, hflag] at hs
    subst hs
    exact ⟨0, rfl, rfl⟩
  | announcing =>
    rw [hphase] at hs
    cases move <;> simp at hs
    subst hs
    exact absurd hattempts (Nat.succ_ne_self s.attempts)
  | starting | connecting | setup | greeting | connected | closing | ended =>
    rw [hphase] at hn
    cases hn

/-- On its way to the next attempt the loop only waits. -/
theorem waitsLeft_run : ∀ {js : List Move} {s t : Session} {n : Nat}, waitsLeft s.phase = some n →
    run Session.step s js = some t → t.stopRequested = false → t.attempts = s.attempts →
      ∃ m, waitsLeft t.phase = some m ∧ m + (js.filter Move.isLoop).length = n
  | [], s, t, n, hn, h, _, _ => by
    cases h
    exact ⟨n, hn, rfl⟩
  | j :: js, s, t, n, hn, h, hstop, hattempts => by
    obtain ⟨m, hm, hr⟩ := Steps.run_cons_some h
    obtain ⟨hle, hmstop⟩ := attempts_run hr
    have hsm : m.attempts = s.attempts := Nat.le_antisymm (hattempts ▸ hle) (attempts_step hm)
    have hsame : t.attempts = m.attempts := hattempts.trans hsm.symm
    have hflag := stopRequested_step hm (hmstop hstop)
    cases j with
    | caller move =>
      have hphase := (callerStep_cases hm).2.1
      rw [← hphase] at hn
      obtain ⟨k, hk, hsum⟩ := waitsLeft_run hn hr hstop hsame
      exact ⟨k, hk, hsum⟩
    | loop move =>
      obtain ⟨k, hk, rfl⟩ := waitsLeft_loopStep hn hm hflag hsm
      obtain ⟨l, hl, hsum⟩ := waitsLeft_run hk hr hstop hsame
      refine ⟨l, hl, ?_⟩
      simp only [List.filter_cons, Move.isLoop, if_true, List.length_cons]
      omega
    | setup move =>
      unfold Session.step setupStep at hm
      dsimp only at hm
      split at hm
      · next hphase =>
        rw [hphase] at hn
        cases hn
      · cases hm
    | conn move =>
      unfold Session.step connStep at hm
      dsimp only at hm
      split at hm
      · next hphase =>
        rw [hphase] at hn
        cases hn
      · cases hm

/-- Each of these waits can end. -/
theorem loopStep_of_waitsLeft {n : Nat} (hn : waitsLeft s.phase = some n) : ∃ move t, s.loopStep move = some t := by
  unfold loopStep
  cases hphase : s.phase with
  | reporting willRetry checkStop =>
    refine ⟨.reported, ?_⟩
    dsimp only
    split <;> exact ⟨_, rfl⟩
  | backingOff => exact ⟨.slept, _, rfl⟩
  | announcing => exact ⟨.announced, _, rfl⟩
  | starting | connecting | setup | greeting | connected | closing | ended =>
    rw [hphase] at hn
    cases hn

/-- Behind a disconnect that is not retried. -/
def Over (s : Session) : Prop :=
  match s.phase with
  | .reporting false _ | .ended => True
  | _ => False

theorem Over.step {move : Move} (h : s.Over) (hs : s.step move = some t) : t.Over ∧ t.attempts = s.attempts := by
  cases move with
  | caller move =>
    obtain ⟨hattempts, hphase, _⟩ := callerStep_cases hs
    refine ⟨?_, hattempts⟩
    unfold Over
    rw [hphase]
    exact h
  | loop move =>
    unfold Session.step loopStep at hs
    unfold Over at h
    split at h
    · next hphase =>
      rw [hphase] at hs
      cases move <;> simp at hs
      subst hs
      exact ⟨trivial, rfl⟩
    · next hphase =>
      rw [hphase] at hs
      cases hs
    · exact absurd h id
  | setup move =>
    unfold Session.step setupStep at hs
    dsimp only at hs
    split at hs
    · next hphase =>
      unfold Over at h
      rw [hphase] at h
      exact absurd h id
    · cases hs
  | conn move =>
    unfold Session.step connStep at hs
    dsimp only at hs
    split at hs
    · next hphase =>
      unfold Over at h
      rw [hphase] at h
      exact absurd h id
    · cases hs

theorem Over.run {js : List Move} (h : s.Over) (hr : Steps.run Session.step s js = some t) : t.attempts = s.attempts :=
  (Steps.run_invariant (C := fun _ _ => True) (I := fun u => u.Over ∧ u.attempts = s.attempts)
    (fun _ _ _ ⟨hu, ha⟩ _ hst => ⟨(hu.step hst).1, (hu.step hst).2.trans ha⟩) (Steps.meets_true js s) hr ⟨h, rfl⟩).2

/-- No goodbye is retried. -/
theorem bye_not_retried (reason : ByeReason) : shouldRetryAfterDisconnect (Ending.bye reason).error = false := by
  show shouldRetryAfterDisconnect (if ClientConn.isRecoverableBye reason then .closed else .rejected reason) = false
  cases ClientConn.isRecoverableBye reason with
  | true => rfl
  | false => rfl

/-- The ends that the loop takes the other way. -/
def Ending.mistaken (e : Ending) : Prop :=
  e = .peerClosed ∨ e = .bye .serverShutdown ∨ e = .bye (.protocolError .backpressureExceeded)

theorem recoverable_eq_retried (e : Ending) : e.recoverable = shouldRetryAfterDisconnect e.error ↔ ¬e.mistaken := by
  unfold Ending.mistaken
  cases e with
  | peerClosed => simp [Ending.recoverable, Ending.error, shouldRetryAfterDisconnect]
  | transport message => simp [Ending.recoverable, Ending.error, shouldRetryAfterDisconnect]
  | bye reason =>
    rw [bye_not_retried]
    unfold Ending.recoverable
    split
    all_goals simp_all

/-- **How the end of a connection is taken.** A disconnect is retried exactly where it is meant to be, unless the peer
closed the transport or said a recoverable goodbye, which are taken as final. -/
theorem ending_is_taken_as_meant {s t : Session} {move : Move} {e : Ending} (hs : s.step move = some t)
    (he : s.endingOf move = some e) : Taken s t e.recoverable ↔ s.stopRequested = true ∨ ¬e.mistaken := by
  obtain ⟨u, rfl, hevents, hstop⟩ := step_of_ending hs he
  have hfinish := finish_error u e.error
  rw [hstop] at hfinish
  rcases hfinish with ⟨hflag, hphase⟩ | ⟨hflag, hphase, hreport⟩
  · refine ⟨fun _ => .inl hflag, fun _ => ⟨?_, ?_, ?_⟩⟩
    · intro hnot
      exact absurd (hnot.symm.trans hflag) Bool.false_ne_true
    · intro _ js v hr hv _
      have hkeep := (attempts_run hr).2 hv
      rw [(quiet_finish u true _).stopRequested, hstop, hflag] at hkeep
      cases hkeep
    · intro _ js v hr
      refine Over.run ?_ hr
      unfold Over
      rw [hphase]
      trivial
  · rw [← recoverable_eq_retried]
    constructor
    · intro h
      obtain ⟨reason, hreason⟩ := h.reported hflag
      rw [hreport, hevents, List.append_cancel_left_eq, List.cons.injEq, ClientEvent.disconnected.injEq] at hreason
      exact .inr hreason.1.1.symm
    · rintro (h | heq)
      · exact absurd (hflag.symm.trans h) Bool.false_ne_true
      · refine ⟨fun _ => ⟨e.error.toMessage, ?_⟩, ?_, ?_⟩
        · rw [hreport, hevents, heq]
        · intro hrec js v hr hv hsame
          have hwaits : waitsLeft (u.finish true (.error e.error)).phase = some 2 := by
            rw [hphase, ← heq, hrec]
            rfl
          obtain ⟨m, hm, hsum⟩ := waitsLeft_run hwaits hr hv hsame
          exact ⟨loopStep_of_waitsLeft hm, by omega⟩
        · intro hfinal js v hr
          refine Over.run ?_ hr
          unfold Over
          rw [hphase, ← heq, hfinal]
          trivial

/-- A socket is reset: the loop goes on to the next attempt. -/
theorem ending_is_taken_as_meant_sample : ∃ s t,
    run Session.step (new none) (toSelect ++ [.conn (.poll 0 0)]) = some s ∧
      s.step (.conn (.recvFailed (.transport "reset"))) = some t ∧ Taken s t true := by
  obtain ⟨s, t, hs, ht, he⟩ : ∃ s t, run Session.step (new none) (toSelect ++ [.conn (.poll 0 0)]) = some s ∧
      s.step (.conn (.recvFailed (.transport "reset"))) = some t ∧
      s.endingOf (.conn (.recvFailed (.transport "reset"))) = some (.transport "reset") := ⟨_, _, rfl, rfl, rfl⟩
  exact ⟨s, t, hs, ht, (ending_is_taken_as_meant ht he).mpr (.inr (by unfold Ending.mistaken; decide))⟩

/-- The peer closes the transport, and the loop takes it as final. -/
theorem peer_close_is_final : ∃ s t,
    run Session.step (new none) (toSelect ++ [.conn (.poll 0 0)]) = some s ∧ s.stopRequested = false ∧
      s.step (.conn .peerClosed) = some t ∧ s.endingOf (.conn .peerClosed) = some .peerClosed ∧
      ¬Taken s t Ending.peerClosed.recoverable := by
  obtain ⟨s, t, hs, ht, he, hflag⟩ : ∃ s t, run Session.step (new none) (toSelect ++ [.conn (.poll 0 0)]) = some s ∧
      s.step (.conn .peerClosed) = some t ∧ s.endingOf (.conn .peerClosed) = some .peerClosed ∧
      s.stopRequested = false := ⟨_, _, rfl, rfl, rfl, rfl⟩
  obtain ⟨events, hevents, hlast⟩ : ∃ events, t.events = events ∧
      events.getLast? = some (.disconnected false "backend closed") := by
    cases hs
    cases ht
    exact ⟨_, rfl, by decide⟩
  refine ⟨s, t, hs, hflag, ht, he, fun h => ?_⟩
  obtain ⟨reason, hreason⟩ := h.reported hflag
  rw [hreason] at hevents
  rw [← hevents] at hlast
  simp [Ending.recoverable] at hlast

end Session

end CliPocket
