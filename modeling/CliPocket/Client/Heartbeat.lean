import CliPocket.Client.Nonces

/-!
# Heartbeats in time

A session whose every move has a reading of the clock, beside a log of what its heartbeats have seen and done.

- `Answerable`: the peer has been pinged, and could have answered (`waitedSince_iff`);
- `Session.timingOut_of_step`: when a session runs into a heartbeat time-out;
- `TimedSession.no_premature_timeout`: **a time-out comes behind a ping that could have been answered**, in every run in
  which no poll before such a wait finds the clock too far ahead.
-/

namespace CliPocket

/-- What happens to the heartbeats of a connection, and when. -/
inductive HeartbeatEvent
  | connected (atMs : Nat)
  | inbound (atMs : Nat)
  /-- A ping has been handed to the transport. -/
  | pinged (atMs : Nat)
  /-- The transport has been waited for. -/
  | waited (fromMs toMs : Nat)
  /-- The session ends with the heartbeat time-out. -/
  | timedOut (atMs : Nat)
  deriving DecidableEq

/-- A frame has come in, or a new connection is there. -/
def HeartbeatEvent.isInbound : HeartbeatEvent → Bool
  | .connected _ | .inbound _ => true
  | _ => false

/-- Logs have their last event at the front. Behind the last inbound frame there is a ping, and behind that ping a wait
for the transport over which the clock has gone on. -/
def Answerable (log : List HeartbeatEvent) : Prop :=
  ∃ recent atMs earlier, log = recent ++ .pinged atMs :: earlier ∧ (∀ e ∈ recent, e.isInbound = false) ∧
    ∃ fromMs toMs, .waited fromMs toMs ∈ recent ∧ fromMs < toMs

/-- There is a ping behind the last inbound frame. -/
def pingedSince : List HeartbeatEvent → Bool
  | [] => false
  | .pinged _ :: _ => true
  | .connected _ :: _ | .inbound _ :: _ => false
  | .waited _ _ :: log | .timedOut _ :: log => pingedSince log

/-- And a wait behind that ping. -/
def waitedSince : List HeartbeatEvent → Bool
  | [] => false
  | .connected _ :: _ | .inbound _ :: _ => false
  | .waited fromMs toMs :: log => (fromMs < toMs && pingedSince log) || waitedSince log
  | .pinged _ :: log | .timedOut _ :: log => waitedSince log

/-- The last frame that came in lies before the ping. -/
def Pinged (log : List HeartbeatEvent) : Prop :=
  ∃ recent atMs earlier, log = recent ++ .pinged atMs :: earlier ∧ ∀ e ∈ recent, e.isInbound = false

theorem pinged_cons {e : HeartbeatEvent} {log : List HeartbeatEvent} :
    Pinged (e :: log) ↔ (∃ atMs, e = .pinged atMs) ∨ e.isInbound = false ∧ Pinged log := by
  constructor
  · rintro ⟨recent, atMs, earlier, heq, hrecent⟩
    cases recent with
    | nil =>
      cases heq
      exact .inl ⟨atMs, rfl⟩
    | cons _ recent =>
      cases heq
      exact .inr ⟨hrecent e List.mem_cons_self, recent, atMs, earlier, rfl,
        fun e he => hrecent e (List.mem_cons_of_mem _ he)⟩
  · rintro (⟨atMs, rfl⟩ | ⟨he, recent, atMs, earlier, rfl, hrecent⟩)
    · exact ⟨[], atMs, log, rfl, fun e he => by cases he⟩
    · exact ⟨e :: recent, atMs, earlier, rfl, List.forall_mem_cons.mpr ⟨he, hrecent⟩⟩

theorem answerable_cons {e : HeartbeatEvent} {log : List HeartbeatEvent} : Answerable (e :: log) ↔
    e.isInbound = false ∧ ((∃ fromMs toMs, e = .waited fromMs toMs ∧ fromMs < toMs ∧ Pinged log) ∨ Answerable log) := by
  constructor
  · rintro ⟨recent, atMs, earlier, heq, hrecent, fromMs, toMs, hwaited, hlt⟩
    cases recent with
    | nil => cases hwaited
    | cons _ recent =>
      cases heq
      obtain ⟨he, hrest⟩ := List.forall_mem_cons.mp hrecent
      refine ⟨he, ?_⟩
      rcases List.mem_cons.mp hwaited with rfl | hwaited
      · exact .inl ⟨fromMs, toMs, rfl, hlt, recent, atMs, earlier, rfl, hrest⟩
      · exact .inr ⟨recent, atMs, earlier, rfl, hrest, fromMs, toMs, hwaited, hlt⟩
  · rintro ⟨he, ⟨fromMs, toMs, rfl, hlt, recent, atMs, earlier, rfl, hrecent⟩ |
      ⟨recent, atMs, earlier, rfl, hrecent, fromMs, toMs, hwaited, hlt⟩⟩
    · exact ⟨_ :: recent, atMs, earlier, rfl, List.forall_mem_cons.mpr ⟨he, hrecent⟩, fromMs, toMs,
        List.mem_cons_self, hlt⟩
    · exact ⟨e :: recent, atMs, earlier, rfl, List.forall_mem_cons.mpr ⟨he, hrecent⟩, fromMs, toMs,
        List.mem_cons_of_mem _ hwaited, hlt⟩

theorem pingedSince_iff : ∀ {log : List HeartbeatEvent}, pingedSince log = true ↔ Pinged log
  | [] => by
    constructor
    · intro h
      cases h
    · rintro ⟨recent, _, _, h, _⟩
      cases recent <;> cases h
  | e :: log => by
    rw [pinged_cons, ← @pingedSince_iff log]
    cases e <;> simp [pingedSince, HeartbeatEvent.isInbound]

theorem waitedSince_iff : ∀ {log : List HeartbeatEvent}, waitedSince log = true ↔ Answerable log
  | [] => by
    constructor
    · intro h
      cases h
    · rintro ⟨recent, _, _, h, _⟩
      cases recent <;> cases h
  | e :: log => by
    rw [answerable_cons, ← @waitedSince_iff log]
    cases e <;> simp [waitedSince, HeartbeatEvent.isInbound, pingedSince_iff]

/-! ## When a session times out -/

/-- The heartbeat has timed out, and the transport is being closed. -/
def SessionPhase.timingOut : SessionPhase → Bool
  | .closing reached _ => reached
  | .connected c =>
    match c.wait with
    | .selecting .closing => true
    | _ => false
  | _ => false

/-- A poll of the heartbeat: by the head of the loop, or by `recv_with_heartbeat`. -/
def Session.Polls (s : Session) (c : Connection) (nowMs : Nat) (move : Move) : Prop :=
  s.phase = .connected c ∧ ∃ nonce, c.wait = .top ∧ move = .conn (.turn nowMs nonce) ∨
    c.wait = .selecting .start ∧ move = .conn (.poll nowMs nonce)

/-- A ping is outstanding, and it has been quiet for too long. -/
def HeartbeatState.Overdue (h : HeartbeatState) (nowMs : Nat) : Prop :=
  h.pingOutstanding = true ∧ heartbeatTimeoutMs ≤ nowMs - h.lastInboundAtMs

instance (h : HeartbeatState) (nowMs : Nat) : Decidable (h.Overdue nowMs) := inferInstanceAs (Decidable (_ ∧ _))

theorem HeartbeatState.overdue_of_poll {h h' : HeartbeatState} {nowMs nonce : Nat}
    (hpoll : h.poll nowMs nonce = (h', .timeout)) : h.Overdue nowMs := by
  unfold poll at hpoll
  dsimp only at hpoll
  split_ifs at hpoll with houtstanding hlate
  · exact ⟨houtstanding, hlate⟩
  · cases hpoll
  · cases hpoll
  · cases hpoll

namespace Session

variable {s t : Session} {c : Connection}

theorem finish_timingOut (s : Session) (reached : Bool) (outcome : Except ClientError Unit) :
    (s.finish reached outcome).phase.timingOut = false := by
  unfold finish
  dsimp only
  split
  · rfl
  · cases outcome <;> rfl

theorem startSend_timingOut (frame : FrameBody) (after : AfterSend) :
    (s.startSend c frame after).phase.timingOut = false := by
  unfold Session.startSend
  split
  · exact finish_timingOut _ _ _
  · rfl

theorem sendSessionCmd_timingOut {cmd : SessionCommand} (hs : s.sendSessionCmd c cmd = some t) :
    t.phase.timingOut = false := by
  obtain ⟨⟨client, request⟩, _, rfl⟩ := Option.map_eq_some_iff.mp hs
  exact startSend_timingOut _ _

theorem sendCmd_timingOut (cmd : TerminalCmd) : (s.sendCmd c cmd).phase.timingOut = false := by
  unfold Session.sendCmd
  split
  · exact startSend_timingOut _ _
  · rfl

theorem inbound_timingOut (frame : FrameBody) : (s.inbound c frame).phase.timingOut = false := by
  unfold Session.inbound
  split
  · exact finish_timingOut _ _ _
  · next client action _ =>
    cases action with
    | send frame => exact startSend_timingOut _ _
    | emit event => rfl
    | «return» result => exact finish_timingOut _ _ _
    | none => rfl

theorem turn_timingOut {nowMs nonce : Nat} (hs : s.turn c nowMs nonce = some t) (h : t.phase.timingOut = true) :
    c.heartbeat.Overdue nowMs := by
  unfold Session.turn at hs
  rcases c.heartbeat.poll_cases nowMs nonce with hpoll | hpoll | hpoll
  · rw [hpoll] at hs
    dsimp only at hs
    split at hs
    all_goals cases hs
    · rw [finish_timingOut] at h
      cases h
    · cases h
  · exact HeartbeatState.overdue_of_poll hpoll
  · rw [hpoll] at hs
    dsimp only at hs
    split at hs
    · rw [sendSessionCmd_timingOut hs] at h
      cases h
    · split at hs
      all_goals cases hs
      · rw [sendCmd_timingOut] at h
        cases h
      · cases h

theorem pollRecv_timingOut {nowMs nonce : Nat} (h : (s.pollRecv c nowMs nonce).phase.timingOut = true) :
    c.heartbeat.Overdue nowMs := by
  unfold Session.pollRecv at h
  rcases c.heartbeat.poll_cases nowMs nonce with hpoll | hpoll | hpoll
  · rw [hpoll] at h
    dsimp only at h
    split at h
    · rw [finish_timingOut] at h
      cases h
    · cases h
  · exact HeartbeatState.overdue_of_poll hpoll
  · rw [hpoll] at h
    cases h

theorem selectStep_timingOut {recv : RecvFuture} {move : ConnMove} (hs : s.selectStep c recv move = some t)
    (h : t.phase.timingOut = true) :
    ∃ nowMs nonce, recv = .start ∧ move = .poll nowMs nonce ∧ c.heartbeat.Overdue nowMs := by
  unfold selectStep at hs
  split at hs
  · split at hs
    · cases hs
    · cases hs
      rw [finish_timingOut] at h
      cases h
    · rw [sendSessionCmd_timingOut hs] at h
      cases h
  · split at hs
    all_goals cases hs
    rw [finish_timingOut] at h
    cases h
  · split at hs
    · cases hs
    · split at hs
      all_goals cases hs
      · cases h
      · rw [sendCmd_timingOut] at h
        cases h
  · split at hs
    · cases hs
    · unfold recvMove at hs
      split at hs
      all_goals cases hs
      · exact ⟨_, _, rfl, rfl, pollRecv_timingOut h⟩
      · cases h
      · rw [finish_timingOut] at h
        cases h
      · cases h
      · rw [inbound_timingOut] at h
        cases h
      all_goals
        rw [finish_timingOut] at h
        cases h

theorem loopStep_timingOut {move : LoopMove} (hs : s.loopStep move = some t) : t.phase.timingOut = false := by
  unfold loopStep at hs
  split at hs
  · cases hs
    unfold top
    split <;> rfl
  · cases hs
    rfl
  · cases hs
    rfl
  · split at hs
    all_goals
      cases hs
      rfl
  · cases hs
    exact finish_timingOut _ _ _
  · cases hs
    rfl
  · split at hs
    all_goals
      cases hs
      rfl
  · cases hs
    unfold top
    split <;> rfl
  · cases hs

theorem setupStep_timingOut {move : SetupMove} (hs : s.setupStep move = some t) : t.phase.timingOut = false := by
  unfold setupStep at hs
  split at hs
  · split at hs
    · split at hs
      all_goals cases hs
      · exact finish_timingOut _ _ _
      · rfl
    · cases hs
      rfl
    · cases hs
      exact finish_timingOut _ _ _
    · cases hs
      rfl
    · cases hs
      exact finish_timingOut _ _ _
    · cases hs
      rfl
    · cases hs
  · cases hs

theorem connStep_timingOut {move : ConnMove} (hs : s.connStep move = some t) (h : t.phase.timingOut = true) :
    ∃ c nowMs, s.Polls c nowMs (.conn move) ∧ c.heartbeat.Overdue nowMs := by
  unfold connStep at hs
  split at hs
  · next c hphase =>
    split at hs
    · next nowMs nonce hwait => exact ⟨c, nowMs, ⟨hphase, nonce, .inl ⟨hwait, rfl⟩⟩, turn_timingOut hs h⟩
    · cases hs
      cases h
    · cases hs
      rw [finish_timingOut] at h
      cases h
    · cases hs
      cases h
    · split at hs
      · cases hs
      · split at hs
        all_goals
          cases hs
          cases h
    · cases hs
      rw [sendCmd_timingOut] at h
      cases h
    · next recv hwait =>
      obtain ⟨nowMs, nonce, rfl, rfl, hoverdue⟩ := selectStep_timingOut hs h
      exact ⟨c, nowMs, ⟨hphase, nonce, .inr ⟨hwait, rfl⟩⟩, hoverdue⟩
    · cases hs
  · cases hs

/-- **A session runs into a time-out at a poll that finds its ping overdue.** -/
theorem timingOut_of_step {move : Move} (hs : s.step move = some t) (h : t.phase.timingOut = true) :
    (∃ m, move = .caller m ∧ t.phase = s.phase) ∨ ∃ c nowMs, s.Polls c nowMs move ∧ c.heartbeat.Overdue nowMs := by
  cases move with
  | caller m => exact .inl ⟨m, rfl, (callerStep_link hs).2⟩
  | loop m =>
    rw [loopStep_timingOut hs] at h
    cases h
  | setup m =>
    rw [setupStep_timingOut hs] at h
    cases h
  | conn m => exact .inr (connStep_timingOut hs h)

end Session

/-! ## Readings of the clock -/

/-- A session in time. -/
structure TimedSession where
  session : Session
  clockMs : Nat := 0
  /-- When `recv_with_heartbeat` has last begun to wait for the transport. -/
  waitingSinceMs : Nat := 0
  log : List HeartbeatEvent := []

/-- The reading that a move takes of the clock. -/
def Session.Move.reading : Session.Move → Option Nat
  | .loop (.greeted nowMs) | .conn (.turn nowMs _) | .conn (.poll nowMs _) | .conn (.frame _ nowMs) => some nowMs
  | _ => none

namespace TimedSession

open Session

/-- What a move on a live connection has to do with its heartbeats. -/
def connMarks (s : TimedSession) (c : Connection) (nowMs : Nat) (move : Session.ConnMove) : List HeartbeatEvent :=
  match c.wait, move with
  | .sending ⟨_, .ping _⟩ _, .sent => [.pinged nowMs]
  | .selecting (.pinging _), .pingSent => [.pinged nowMs]
  | .selecting .receiving, .frame _ _ => [.inbound nowMs, .waited s.waitingSinceMs nowMs]
  | .selecting .receiving, _ => [.waited s.waitingSinceMs nowMs]
  | .selecting .closing, .closed => [.timedOut nowMs]
  | _, _ => []

/-- What a move has to do with the heartbeats, the last of it at the front. -/
def marks (s : TimedSession) (nowMs : Nat) (move : Session.Move) : List HeartbeatEvent :=
  match s.session.phase, move with
  | .greeting, .loop (.greeted _) => [.connected nowMs]
  | .closing true _, .loop .closed => [.timedOut nowMs]
  | .connected c, .conn move => s.connMarks c nowMs move
  | _, _ => []

/-- A move at a time. -/
def step (s : TimedSession) (i : Nat × Session.Move) : Option TimedSession :=
  if s.clockMs ≤ i.1 ∧ i.2.reading.all (· = i.1) then
    (s.session.step i.2).map fun session =>
      { session
        clockMs := i.1
        waitingSinceMs := match i.2 with
          | .conn (.poll _ _) => i.1
          | _ => s.waitingSinceMs
        log := s.marks i.1 i.2 ++ s.log }
  else none

/-- No session ends with the time-out before the peer could have answered a ping. -/
def NoPrematureTimeout (s : TimedSession) : Prop :=
  ∀ recent atMs earlier, s.log = recent ++ .timedOut atMs :: earlier → Answerable earlier

/-- Until there has been such a wait, a poll with a ping outstanding reads a clock near the last inbound frame. -/
def OnTime (s : TimedSession) (i : Nat × Session.Move) : Prop :=
  match s.session.phase, i.2 with
  | .connected c, .conn (.turn _ _) | .connected c, .conn (.poll _ _) =>
    c.heartbeat.pingOutstanding = true → waitedSince s.log = false →
      i.1 < c.heartbeat.lastInboundAtMs + heartbeatTimeoutMs
  | _, _ => True

instance (s : TimedSession) (i : Nat × Session.Move) : Decidable (s.OnTime i) := by
  unfold OnTime
  split <;> infer_instance

variable {s t : TimedSession} {i : Nat × Session.Move}

theorem step_eq_some (hs : s.step i = some t) : i.2.reading.all (· = i.1) = true ∧
    s.session.step i.2 = some t.session ∧ t.log = s.marks i.1 i.2 ++ s.log := by
  unfold step at hs
  split_ifs at hs with hclock
  obtain ⟨session, hsession, rfl⟩ := Option.map_eq_some_iff.mp hs
  exact ⟨hclock.2, hsession, rfl⟩

/-- A time-out is logged where one has been run into, and alone. -/
theorem marks_cases (s : TimedSession) (nowMs : Nat) (move : Session.Move) :
    (s.marks nowMs move = [.timedOut nowMs] ∧ s.session.phase.timingOut = true) ∨
      ∀ atMs, .timedOut atMs ∉ s.marks nowMs move := by
  unfold marks
  split
  · exact .inr fun atMs => by simp
  · next hphase => exact .inl ⟨rfl, by rw [hphase]; rfl⟩
  · next c move hphase =>
    unfold connMarks
    split
    case h_5 hwait =>
      refine .inl ⟨rfl, ?_⟩
      rw [hphase]
      simp only [SessionPhase.timingOut, hwait]
    all_goals exact .inr fun atMs => by simp
  · exact .inr fun atMs => by simp

/-- What is kept: a session that is about to end with the time-out has waited for the answer to a ping. -/
structure Patient (s : TimedSession) : Prop where
  timingOut : s.session.phase.timingOut = true → waitedSince s.log = true
  timedOut : s.NoPrematureTimeout

/-- A poll logs nothing. -/
theorem marks_of_polls {c : Connection} {nowMs atMs : Nat} {move : Session.Move} (h : s.session.Polls c nowMs move) :
    s.marks atMs move = [] := by
  obtain ⟨hphase, nonce, ⟨hwait, rfl⟩ | ⟨hwait, rfl⟩⟩ := h
  · simp only [marks, hphase, connMarks, hwait]
  · simp only [marks, hphase, connMarks, hwait]

/-- A poll that is on time and finds its ping overdue. -/
theorem waitedSince_of_onTime (hc : s.OnTime i) (hreading : i.2.reading.all (· = i.1) = true) {c : Connection}
    {nowMs : Nat} (hpolls : s.session.Polls c nowMs i.2) (hoverdue : c.heartbeat.Overdue nowMs) :
    waitedSince s.log = true := by
  obtain ⟨atMs, move⟩ := i
  obtain ⟨houtstanding, hlate⟩ := hoverdue
  by_contra hnot
  have hquiet : waitedSince s.log = false := by simpa using hnot
  have hlt : atMs < c.heartbeat.lastInboundAtMs + heartbeatTimeoutMs := by
    obtain ⟨hphase, nonce, ⟨_, rfl⟩ | ⟨_, rfl⟩⟩ := hpolls
    all_goals
      unfold OnTime at hc
      rw [hphase] at hc
      exact hc houtstanding hquiet
  have hnow : nowMs = atMs := by
    obtain ⟨_, nonce, ⟨_, rfl⟩ | ⟨_, rfl⟩⟩ := hpolls
    all_goals simpa [Session.Move.reading] using hreading
  unfold heartbeatTimeoutMs at hlate hlt
  omega

/-- Nothing but an earned time-out comes to the log. -/
theorem Patient.logged (h : s.Patient) (hlog : t.log = s.marks i.1 i.2 ++ s.log) : t.NoPrematureTimeout := by
  intro recent atMs earlier heq
  rw [hlog] at heq
  rcases s.marks_cases i.1 i.2 with ⟨hmarks, htiming⟩ | hmarks
  · rw [hmarks] at heq
    cases recent with
    | nil =>
      cases heq
      exact waitedSince_iff.mp (h.timingOut htiming)
    | cons _ recent => exact h.timedOut recent atMs earlier (List.cons.inj heq).2
  · rcases List.append_eq_append_iff.mp heq with ⟨recent', _, heq'⟩ | ⟨marks', hmarks', heq'⟩
    · exact h.timedOut recent' atMs earlier heq'
    · cases marks' with
      | nil => exact h.timedOut [] atMs earlier heq'.symm
      | cons e marks' =>
        rw [← (List.cons.inj heq').1] at hmarks'
        refine absurd ?_ (hmarks atMs)
        rw [hmarks']
        exact List.mem_append_right _ List.mem_cons_self

theorem Patient.step (h : s.Patient) (hc : s.OnTime i) (hs : s.step i = some t) : t.Patient := by
  obtain ⟨hreading, hsession, hlog⟩ := step_eq_some hs
  refine ⟨fun htiming => ?_, h.logged hlog⟩
  rcases timingOut_of_step hsession htiming with ⟨m, hcaller, hphase⟩ | ⟨c, nowMs, hpolls, hoverdue⟩
  · have hmarks : s.marks i.1 i.2 = [] := by
      rw [hcaller]
      unfold marks
      split <;> simp_all
    rw [hlog, hmarks]
    rw [hphase] at htiming
    exact h.timingOut htiming
  · rw [hlog, marks_of_polls hpolls]
    exact waitedSince_of_onTime hc hreading hpolls hoverdue

/-- **No premature time-out**, in every run whose polls are on time. -/
theorem no_premature_timeout {resumeToken : Option ResumeToken} {s : TimedSession} (is : List (Nat × Session.Move))
    (hc : Steps.Meets step OnTime { session := Session.new resumeToken } is)
    (hr : Steps.run step { session := Session.new resumeToken } is = some s) : s.NoPrematureTimeout := by
  have hstart : Patient { session := Session.new resumeToken } := by
    refine ⟨fun h => (nomatch h), fun recent atMs earlier h => ?_⟩
    cases recent <;> cases h
  exact (Steps.run_invariant (fun s i t h hc hs => Patient.step h hc hs) hc hr hstart).timedOut

/-- The moves that bring a session to the select of a live connection, all at the start of time. -/
def connectMoves : List (Nat × Session.Move) := Session.toSelect.map (0, ·)

/-- It is quiet for ten seconds, a ping goes out, the transport is waited for, and nothing comes for twenty seconds. -/
def quietMoves : List (Nat × Session.Move) :=
  connectMoves ++ [(0, .conn (.poll 0 0)), (10000, .conn .slept), (10000, .conn (.poll 10000 7)),
    (10000, .conn .pingSent), (10000, .conn (.poll 10000 0)), (30000, .conn .slept), (30000, .conn (.poll 30000 0)),
    (30000, .conn .closed)]

theorem no_premature_timeout_sample : ∃ s, Steps.run step { session := Session.new none } quietMoves = some s ∧
    s.NoPrematureTimeout := by
  have hc : Steps.Meets step OnTime { session := Session.new none } quietMoves := by decide +kernel
  have hruns : (Steps.run step { session := Session.new none } quietMoves).isSome = true := by decide +kernel
  obtain ⟨s, hs⟩ := Option.isSome_iff_exists.mp hruns
  exact ⟨s, hs, no_premature_timeout quietMoves hc hs⟩

/-- The computer sleeps for forty seconds: on its first wake-up the session pings its peer and times out. -/
def suspendMoves : List (Nat × Session.Move) :=
  connectMoves ++ [(0, .conn (.poll 0 0)), (40000, .conn .slept), (40000, .conn (.poll 40000 7)),
    (40000, .conn .pingSent), (40000, .conn (.poll 40000 0)), (40000, .conn .closed)]

theorem timeout_follows_ping : ¬∀ (resumeToken : Option ResumeToken) (s : TimedSession)
    (is : List (Nat × Session.Move)),
      Steps.run step { session := Session.new resumeToken } is = some s → s.NoPrematureTimeout := by
  intro h
  have hruns : (Steps.run step { session := Session.new none } suspendMoves).map TimedSession.log =
      some [.timedOut 40000, .pinged 40000, .waited 0 40000, .connected 0] := by decide +kernel
  obtain ⟨s, hs, hlog⟩ := Option.map_eq_some_iff.mp hruns
  have hanswerable := h none s suspendMoves hs [] 40000 [.pinged 40000, .waited 0 40000, .connected 0] hlog
  exact absurd (waitedSince_iff.mpr hanswerable) (by decide)

end TimedSession

end CliPocket
