import CliPocket.Client.Batching
import CliPocket.Daemon.Connection

/-!
# The actor of a native session

`actor_loop` with `handle_command`, and the session loop beside it on the same executor. Events go to the actor in one
bounded channel, and commands of a terminal go to the session loop in another.

- `Session.Posts`: what a move of the session loop does to the two channels;
- `SessionActor.step`: the moves of the actor, of the tasks that it spawns and of the session loop;
- `SessionActor.loops_never_deadlock`: **the two loops never wait for each other in a run in which neither comes to a
  full channel while the other one waits at its own.**
-/

namespace CliPocket

namespace Session

variable {s s' t : Session} {c : Connection}

/-! ## The session loop and its channels -/

/-- It awaits `events_tx.send`. -/
def awaitsEvent (s : Session) : Bool :=
  match s.phase with
  | .announcing | .greeting | .reporting _ _ => true
  | .connected c =>
    match c.wait with
    | .emitting => true
    | _ => false
  | _ => false

/-- What is done before a wait: commands may be taken, and no event is sent. -/
structure Still (s s' : Session) : Prop where
  cmds : s'.cmds.length ≤ s.cmds.length
  events : s'.events = s.events

/-- A move of the task: commands may be taken, and an event is awaited only if one has been handed over. -/
structure Posts (s t : Session) : Prop where
  cmds : t.cmds.length ≤ s.cmds.length
  events : t.events = s.events ∧ t.awaitsEvent = false ∨ ∃ event, t.events = s.events ++ [event]

theorem Still.refl : Still s s := ⟨le_rfl, rfl⟩

theorem Still.posts (h : Still s t) (hawaits : t.awaitsEvent = false) : Posts s t :=
  ⟨h.cmds, .inl ⟨h.events, hawaits⟩⟩

theorem Still.emits {event : ClientEvent} (h : Still s s') (hcmds : t.cmds = s'.cmds)
    (hevents : t.events = s'.events ++ [event]) : Posts s t := by
  refine ⟨?_, .inr ⟨event, ?_⟩⟩
  · rw [hcmds]
    exact h.cmds
  · rw [hevents, h.events]

theorem Still.encrypt {frame : FrameBody} {ciphertext : Ciphertext} (h : Still s s')
    (he : s'.encrypt frame = .ok (t, ciphertext)) : Still s t := by
  obtain ⟨rfl, _⟩ := encrypt_eq_ok he
  exact ⟨h.cmds, h.events⟩

theorem Still.stop (h : Still s s') : Posts s s'.stop :=
  ⟨Nat.zero_le _, .inl ⟨h.events, rfl⟩⟩

theorem Still.finish (h : Still s s') (reached : Bool) (outcome : Except ClientError Unit) :
    Posts s (s'.finish reached outcome) := by
  unfold Session.finish
  dsimp only
  split
  · refine Still.stop ?_
    exact ⟨h.cmds, h.events⟩
  · cases outcome with
    | ok _ => exact h.emits rfl rfl
    | error e => exact h.emits rfl rfl

theorem Still.breakWith (h : Still s s') (reached : Bool) (outcome : Except ClientError Unit) :
    Posts s (s'.breakWith reached outcome) := by
  unfold Session.breakWith
  refine Still.finish ?_ reached outcome
  exact ⟨h.cmds, h.events⟩

theorem Still.top (h : Still s s') : Posts s s'.top := by
  unfold Session.top
  split
  · exact h.stop
  · exact h.emits rfl rfl

theorem Still.startSend (h : Still s s') (frame : FrameBody) (after : AfterSend) :
    Posts s (s'.startSend c frame after) := by
  unfold Session.startSend
  split
  · exact h.finish _ _
  · next he =>
    have hq := h.encrypt he
    exact Still.posts ⟨hq.cmds, hq.events⟩ rfl

theorem Still.sendSessionCmd {cmd : SessionCommand} (h : Still s s') (hs : s'.sendSessionCmd c cmd = some t) :
    Posts s t := by
  unfold Session.sendSessionCmd at hs
  obtain ⟨⟨client, request⟩, _, rfl⟩ := Option.map_eq_some_iff.mp hs
  refine Still.startSend ?_ _ _
  exact ⟨h.cmds, h.events⟩

theorem Still.sendCmd (h : Still s s') (cmd : TerminalCmd) : Posts s (s'.sendCmd c cmd) := by
  unfold Session.sendCmd
  split
  · refine Still.startSend ?_ _ _
    exact ⟨h.cmds, h.events⟩
  · exact Still.posts ⟨h.cmds, h.events⟩ rfl

theorem Still.turn {nowMs nonce : Nat} (h : Still s s') (hs : s'.turn c nowMs nonce = some t) : Posts s t := by
  unfold Session.turn at hs
  dsimp only at hs
  split at hs
  · split at hs
    · cases hs
      exact h.finish _ _
    · next he =>
      cases hs
      have hq := h.encrypt he
      exact Still.posts ⟨hq.cmds, hq.events⟩ rfl
  · cases hs
    exact Still.posts ⟨h.cmds, h.events⟩ rfl
  · split at hs
    · exact h.sendSessionCmd hs
    · split at hs
      · cases hs
        refine Still.sendCmd ?_ _
        exact ⟨h.cmds, h.events⟩
      · cases hs
        exact Still.posts ⟨h.cmds, h.events⟩ rfl

theorem Still.act (h : Still s s') (action : Action) : Posts s (s'.act c action) := by
  cases action with
  | send frame => exact h.startSend _ _
  | emit event => exact h.emits rfl rfl
  | «return» result => exact h.breakWith _ _
  | none => exact Still.posts ⟨h.cmds, h.events⟩ rfl

theorem Still.inbound (h : Still s s') (frame : FrameBody) : Posts s (s'.inbound c frame) := by
  unfold Session.inbound
  split
  · exact h.finish _ _
  · refine Still.act ?_ _
    exact ⟨h.cmds, h.events⟩

theorem Still.pollRecv (h : Still s s') (nowMs nonce : Nat) : Posts s (s'.pollRecv c nowMs nonce) := by
  unfold Session.pollRecv
  dsimp only
  split
  · split
    · exact h.finish _ _
    · next he =>
      have hq := h.encrypt he
      exact Still.posts ⟨hq.cmds, hq.events⟩ rfl
  · exact Still.posts ⟨h.cmds, h.events⟩ rfl
  · exact Still.posts ⟨h.cmds, h.events⟩ rfl

theorem posts_recvMove {recv : RecvFuture} {move : ConnMove} (hs : s.recvMove c recv move = some t) : Posts s t := by
  unfold recvMove at hs
  split at hs
  · cases hs
    exact Still.refl.pollRecv _ _
  · cases hs
    exact Still.posts ⟨le_rfl, rfl⟩ rfl
  · cases hs
    refine Still.finish ?_ _ _
    exact ⟨le_rfl, rfl⟩
  · cases hs
    exact Still.posts ⟨le_rfl, rfl⟩ rfl
  · cases hs
    exact Still.refl.inbound _
  · cases hs
    exact Still.refl.finish _ _
  · cases hs
    exact Still.refl.finish _ _
  · cases hs
    exact Still.refl.finish _ _
  · cases hs

theorem posts_selectStep {recv : RecvFuture} {move : ConnMove} (hs : s.selectStep c recv move = some t) :
    Posts s t := by
  unfold selectStep at hs
  split at hs
  · split at hs
    · cases hs
    · cases hs
      refine Still.finish ?_ _ _
      exact ⟨le_rfl, rfl⟩
    · refine Still.sendSessionCmd ?_ hs
      exact ⟨le_rfl, rfl⟩
  · split at hs
    · cases hs
      exact Still.refl.finish _ _
    · cases hs
  · split at hs
    · cases hs
    · split at hs
      · cases hs
      · next hcmds =>
        cases hs
        exact Still.posts ⟨by rw [hcmds]; exact Nat.le_succ _, rfl⟩ rfl
      · next hcmds =>
        cases hs
        refine Still.sendCmd ?_ _
        exact ⟨by rw [hcmds]; exact Nat.le_succ _, rfl⟩
  · split at hs
    · cases hs
    · exact posts_recvMove hs

theorem posts_connStep {move : ConnMove} (hs : s.connStep move = some t) : Posts s t := by
  unfold connStep at hs
  split at hs
  · split at hs
    · exact Still.refl.turn hs
    · cases hs
      split
      · exact Still.posts ⟨le_rfl, rfl⟩ rfl
      · exact Still.posts ⟨le_rfl, rfl⟩ rfl
      · exact Still.posts ⟨le_rfl, rfl⟩ rfl
    · cases hs
      refine Still.finish ?_ _ _
      exact ⟨le_rfl, rfl⟩
    · cases hs
      exact Still.posts ⟨le_rfl, rfl⟩ rfl
    · split at hs
      · cases hs
      · next hcmds =>
        split at hs
        · cases hs
          exact Still.posts ⟨by rw [hcmds]; exact Nat.le_succ _, rfl⟩ rfl
        · cases hs
          exact Still.posts ⟨by rw [hcmds]; exact Nat.le_succ _, rfl⟩ rfl
    · cases hs
      refine Still.sendCmd ?_ _
      exact ⟨le_rfl, rfl⟩
    · exact posts_selectStep hs
    · cases hs
  · cases hs

theorem posts_setupStep {move : SetupMove} (hs : s.setupStep move = some t) : Posts s t := by
  unfold setupStep at hs
  split at hs
  · split at hs
    · split at hs
      · cases hs
        exact Still.refl.finish _ _
      · next he =>
        cases hs
        have hlink : Still s { s with link := {} } := ⟨le_rfl, rfl⟩
        have hq := hlink.encrypt he
        exact Still.posts ⟨hq.cmds, hq.events⟩ rfl
    · cases hs
      exact Still.posts ⟨le_rfl, rfl⟩ rfl
    · cases hs
      refine Still.finish ?_ _ _
      exact ⟨le_rfl, rfl⟩
    · cases hs
      exact Still.refl.emits rfl rfl
    · cases hs
      exact Still.refl.finish _ _
    · cases hs
      exact Still.posts ⟨le_rfl, rfl⟩ rfl
    · cases hs
  · cases hs

theorem posts_loopStep {move : LoopMove} (hs : s.loopStep move = some t) : Posts s t := by
  unfold loopStep at hs
  split at hs
  · cases hs
    exact Still.refl.top
  · cases hs
    exact Still.posts ⟨le_rfl, rfl⟩ rfl
  · cases hs
    exact Still.posts ⟨le_rfl, rfl⟩ rfl
  · split at hs
    · cases hs
      exact Still.refl.stop
    · cases hs
      exact Still.refl.emits rfl rfl
  · cases hs
    exact Still.refl.breakWith _ _
  · cases hs
    exact Still.posts ⟨le_rfl, rfl⟩ rfl
  · split at hs
    · cases hs
      exact Still.refl.stop
    · cases hs
      exact Still.posts ⟨le_rfl, rfl⟩ rfl
  · cases hs
    exact Still.refl.top
  · cases hs

/-- The moves of the task itself. -/
def Move.own : Move → Bool
  | .caller _ => false
  | _ => true

/-- The select takes a command of a terminal, or goes on with the transport. -/
def Move.reads : Move → Bool
  | .conn .cmd => true
  | .conn move => move.receives
  | _ => false

theorem posts_step {move : Move} (hown : move.own = true) (hs : s.step move = some t) : Posts s t := by
  cases move with
  | caller move => cases hown
  | loop move => exact posts_loopStep hs
  | setup move => exact posts_setupStep hs
  | conn move => exact posts_connStep hs

/-- The transport is read only when no command of a terminal is queued. -/
theorem cmds_of_receives {move : ConnMove} (hmove : move.receives = true) (hs : s.connStep move = some t) :
    s.cmds = [] := by
  unfold connStep at hs
  split at hs
  · split at hs
    · cases hmove
    · cases hmove
    · cases hmove
    · cases hmove
    · cases hmove
    · cases hmove
    · unfold selectStep at hs
      split at hs
      · cases hmove
      · cases hmove
      · cases hmove
      · split at hs
        · cases hs
        · next hidle =>
          by_contra hcmds
          exact hidle (.inr (.inr hcmds))
    · cases hs
  · cases hs

theorem cmds_sendCmd_le {cmd : TerminalCmd} : (s.sendCmd c cmd).cmds.length ≤ s.cmds.length :=
  (Still.refl.sendCmd cmd).cmds

/-- A command is taken. -/
theorem cmds_lt_of_cmd (hs : s.connStep .cmd = some t) : t.cmds.length < s.cmds.length := by
  unfold connStep at hs
  split at hs
  · split at hs
    all_goals try contradiction
    next hmove =>
    unfold selectStep at hs
    dsimp only at hs
    split at hs
    · cases hs
    · split at hs
      · cases hs
      · next hcmds =>
        cases hs
        rw [hcmds]
        exact Nat.lt_succ_self _
      · next hcmds =>
        cases hs
        rw [hcmds]
        exact Nat.lt_succ_of_le cmds_sendCmd_le
  · cases hs

/-- A move that reads leaves no more than the buffer behind, when one more is queued. -/
theorem cmds_of_reads {move : Move} (hmove : move.reads = true) (hs : s.step move = some t) :
    s.cmds = [] ∨ t.cmds.length < s.cmds.length := by
  cases move with
  | caller move => cases hmove
  | loop move => cases hmove
  | setup move => cases hmove
  | conn move =>
    unfold Move.reads at hmove
    split at hmove
    · next hconn =>
      cases hconn
      exact .inr (cmds_lt_of_cmd hs)
    · next hconn =>
      cases hconn
      exact .inl (cmds_of_receives hmove hs)
    · cases hmove

end Session

namespace App

/-- `mpsc::channel::<ClientEvent>(64)` and `mpsc::channel::<TerminalCmd>(64)`. -/
def channelBuffer : Nat := 64

namespace SessionActor

/-! ## The actor -/

/-- `SessionCommand` of the handle; `call` stands for the commands that are handed to a task of their own. -/
inductive Command
  | isConnected
  | connect (resumeToken : Option ResumeToken)
  | call (cmd : SessionCommand)
  | sendInput (terminalId : TerminalId) (bytes : List UInt8)
  | resize (terminalId : TerminalId) (cols rows : Nat)
  | shutdown

inductive Reply
  | isConnected (connected : Bool)
  | done (result : Except String Unit)
  | shutdown

/-- What `actor_loop` awaits. -/
inductive Phase
  | selecting
  /-- `TerminalCmd` has been sent, and `send` is not through. -/
  | sending
  | forwarding
  deriving DecidableEq

end SessionActor

open SessionActor (Command Reply)

/-- `ActorState` beside the session loop and the tasks of the session. -/
structure SessionActor where
  /-- Commands in the channel, and behind them those of callers that wait for room in it. -/
  commands : List Command := []
  phase : SessionActor.Phase := .selecting
  replies : List Reply := []
  session : Option Session := none
  /-- Events of the session that have been received. -/
  read : Nat := 0
  /-- Calls of the session whose tasks have not run. -/
  tasks : List SessionCommand := []

namespace SessionActor

def reply (a : SessionActor) (reply : Reply) : SessionActor := { a with replies := a.replies ++ [reply] }

/-- `event_channel`, `session` and `events_rx` are set and taken together. -/
def setSession (a : SessionActor) (session : Option Session) : SessionActor :=
  { a with session, read := 0, tasks := [] }

/-- `with_active_terminal`, before its action. -/
def withActiveTerminal (session : Option Session) (requestedTerminalId : TerminalId) : Except String TerminalHandle :=
  match session with
  | none => .error "not connected"
  | some session =>
    match session.client.terminal with
    | none => .error "no active terminal"
    | some handle =>
      if handle.terminalId ≠ requestedTerminalId then
        .error ("terminal " ++ requestedTerminalId.debug ++ " is not the active terminal")
      else .ok handle

/-- `write_input` and `resize` of the active terminal; the command is queued at once. -/
def sendTerminal (a : SessionActor) (terminalId : TerminalId) (cmd : TerminalId → TerminalCmd) : SessionActor :=
  match withActiveTerminal a.session terminalId with
  | .error message => a.reply (.done (.error message))
  | .ok handle =>
    match a.session.bind fun session => session.callerStep (.terminalCommand (cmd handle.terminalId)) with
    | none => a.reply (.done (.error ClientError.closed.toMessage))
    | some session => { a with session := some session, phase := .sending }

def handleCommand (a : SessionActor) : Command → SessionActor
  | .isConnected => a.reply (.isConnected a.session.isSome)
  | .connect resumeToken => (a.setSession (some (Session.new resumeToken))).reply (.done (.ok ()))
  | .call cmd =>
    match a.session with
    | none => a.reply (.done (.error "not connected"))
    | some _ => { a with tasks := a.tasks ++ [cmd] }
  | .sendInput terminalId bytes => a.sendTerminal terminalId fun terminal => .input terminal bytes
  | .resize terminalId cols rows => a.sendTerminal terminalId fun terminal => .resize terminal cols rows
  | .shutdown => (a.setSession none).reply .shutdown

inductive Move
  | request (command : Command)
  | command
  | event
  | sent
  | forwarded
  | task (index : Nat)
  | session (move : Session.Move)

/-- Events that the actor has not received. -/
def queued (a : SessionActor) (session : Session) : Nat := session.events.length - a.read

/-- A message is queued at once; `send` is through when the channel holds no more than its buffer. -/
def step (a : SessionActor) : Move → Option SessionActor
  | .request command => some { a with commands := a.commands ++ [command] }
  | .command =>
    match a.phase, a.commands with
    | .selecting, command :: commands => some (handleCommand { a with commands } command)
    | _, _ => none
  | .event =>
    match a.phase, a.commands, a.session with
    | .selecting, [], some session =>
      if 0 < a.queued session then some { a with read := a.read + 1, phase := .forwarding }
      else
        match session.phase with
        | .ended => some (a.setSession none)
        | _ => none
    | _, _, _ => none
  | .sent =>
    match a.phase, a.session with
    | .sending, some session =>
      if session.cmds.length ≤ channelBuffer then some ({ a with phase := .selecting }.reply (.done (.ok ()))) else none
    | _, _ => none
  | .forwarded =>
    match a.phase with
    | .forwarding => some { a with phase := .selecting }
    | _ => none
  | .task index =>
    match a.tasks[index]?, a.session with
    | some cmd, some session =>
      (session.callerStep (.command cmd)).map fun session =>
        { a with session := some session, tasks := a.tasks.eraseIdx index }
    | _, _ => none
  | .session move =>
    match a.session with
    | none => none
    | some session =>
      if ¬move.own ∨ (session.awaitsEvent ∧ channelBuffer < a.queued session) then none
      else (session.step move).map fun session => { a with session := some session }

/-! ## Waits -/

/-- The session loop waits until the actor receives an event. -/
def LoopWaits (a : SessionActor) : Prop :=
  ∃ session ∈ a.session, session.awaitsEvent ∧ channelBuffer < a.queued session

/-- The actor waits until the session loop receives a command. -/
def ActorWaits (a : SessionActor) : Prop :=
  a.phase = .sending ∧ ∃ session ∈ a.session, channelBuffer < session.cmds.length

def Deadlocked (a : SessionActor) : Prop := a.LoopWaits ∧ a.ActorWaits

/-- The terminal that the next command writes to. -/
def target (a : SessionActor) : Option TerminalId :=
  match a.commands.head? with
  | some (.sendInput terminalId _) | some (.resize terminalId _ _) => some terminalId
  | _ => none

/-- The next command goes to the active terminal, and the channel of that is full. -/
def FillsCmds (a : SessionActor) : Prop :=
  ∃ session ∈ a.session, ∃ terminalId ∈ a.target, (withActiveTerminal a.session terminalId).toOption.isSome ∧
    channelBuffer ≤ session.cmds.length

/-- The move sends an event of the connection itself, and the channel of the events is full. -/
def FillsEvents (a : SessionActor) (move : Session.Move) : Prop :=
  move.reads = false ∧ ∃ session ∈ a.session, channelBuffer ≤ a.queued session ∧
    ∃ next ∈ session.step move, next.awaitsEvent

/-- Neither loop comes to a full channel while the other one waits. -/
def Yields (a : SessionActor) : Move → Prop
  | .command => a.LoopWaits → ¬a.FillsCmds
  | .session move => a.ActorWaits → ¬a.FillsEvents move
  | _ => True

variable {a b : SessionActor}

/-! ## Invariant -/

/-- The channel of the commands holds one more than its buffer only for the actor that waits. -/
structure Live (a : SessionActor) : Prop where
  cmds : ∀ session ∈ a.session, session.cmds.length ≤ channelBuffer ∨
    a.phase = .sending ∧ session.cmds.length = channelBuffer + 1
  apart : ¬a.Deadlocked

theorem live_new : Live {} where
  cmds session h := by cases h
  apart h := by
    obtain ⟨⟨session, hsession, _⟩, _⟩ := h
    cases hsession

/-- An actor that does not wait. -/
theorem live_of_not_sending (hphase : b.phase ≠ .sending)
    (hcmds : ∀ session ∈ b.session, session.cmds.length ≤ channelBuffer) : b.Live where
  cmds session h := .inl (hcmds session h)
  apart h := hphase h.2.1

theorem Live.cmds_le (h : a.Live) (hphase : a.phase ≠ .sending) :
    ∀ session ∈ a.session, session.cmds.length ≤ channelBuffer := by
  intro session hsession
  obtain hle | ⟨hsending, _⟩ := h.cmds session hsession
  · exact hle
  · exact absurd hsending hphase

/-- Nothing that a wait is about has changed. -/
theorem Live.congr (h : a.Live) (hphase : b.phase = a.phase) (hsession : b.session = a.session)
    (hread : b.read = a.read) : b.Live where
  cmds session hmem := by
    rw [hphase]
    exact h.cmds session (hsession ▸ hmem)
  apart hd := by
    obtain ⟨⟨session, hmem, hawaits, hfull⟩, hsending, hcmds⟩ := hd
    refine h.apart ⟨⟨session, hsession ▸ hmem, hawaits, ?_⟩, hphase ▸ hsending, hsession ▸ hcmds⟩
    unfold queued at hfull ⊢
    rw [← hread]
    exact hfull

/-- A caller hands a command over. -/
theorem callerStep_terminalCommand {s t : Session} {cmd : TerminalCmd}
    (hs : s.callerStep (.terminalCommand cmd) = some t) : t = { s with cmds := s.cmds ++ [cmd] } := by
  unfold Session.callerStep at hs
  split at hs
  · cases hs
  · cases hs
    rfl

theorem callerStep_command {s t : Session} {cmd : SessionCommand} (hs : s.callerStep (.command cmd) = some t) :
    t.cmds = s.cmds ∧ t.phase = s.phase ∧ t.events = s.events := by
  unfold Session.callerStep at hs
  dsimp only at hs
  split at hs
  · cases hs
  · split at hs
    · cases hs
    · split at hs
      · cases hs
      · cases hs
        exact ⟨rfl, rfl, rfl⟩

theorem awaitsEvent_congr {s t : Session} (hphase : t.phase = s.phase) : t.awaitsEvent = s.awaitsEvent := by
  unfold Session.awaitsEvent
  rw [hphase]

/-- A command for the active terminal, when the session loop does not wait or the channel has room. -/
theorem Live.sendTerminal {terminalId : TerminalId} {cmd : TerminalId → TerminalCmd} (h : a.Live)
    (hphase : a.phase = .selecting)
    (hyields : a.LoopWaits → ∀ session ∈ a.session, (withActiveTerminal a.session terminalId).toOption.isSome →
      session.cmds.length < channelBuffer) : (a.sendTerminal terminalId cmd).Live := by
  have hcmds := h.cmds_le (by rw [hphase]; exact Phase.noConfusion)
  unfold SessionActor.sendTerminal
  split
  · exact h.congr rfl rfl rfl
  · next handle hactive =>
    split
    · exact h.congr rfl rfl rfl
    · next next hnext =>
      obtain ⟨session, hsession, hs⟩ := Option.bind_eq_some_iff.mp hnext
      cases callerStep_terminalCommand hs
      have hlen : (session.cmds ++ [cmd handle.terminalId]).length = session.cmds.length + 1 := List.length_append
      have hle := hcmds session hsession
      refine ⟨?_, ?_⟩
      · intro s hmem
        cases hmem
        dsimp only
        rw [hlen]
        by_cases hroom : session.cmds.length < channelBuffer
        · exact .inl hroom
        · exact .inr ⟨rfl, by omega⟩
      · rintro ⟨⟨s, hmem, hawaits, hfull⟩, _, s', hmem', hover⟩
        cases hmem
        cases hmem'
        dsimp only at hover
        rw [hlen] at hover
        have hwaits : a.LoopWaits := ⟨session, hsession, hawaits, hfull⟩
        have hroom := hyields hwaits session hsession (by rw [hactive]; rfl)
        omega

theorem Live.handleCommand {command : Command} (h : a.Live) (hphase : a.phase = .selecting)
    (hyields : a.LoopWaits → ¬FillsCmds { a with commands := command :: a.commands }) :
    (a.handleCommand command).Live := by
  have hsend : ∀ terminalId cmd, target { a with commands := command :: a.commands } = some terminalId →
      (a.sendTerminal terminalId cmd).Live := by
    intro terminalId cmd htarget
    refine h.sendTerminal hphase ?_
    intro hwaits session hsession hactive
    by_contra hfull
    exact hyields hwaits ⟨session, hsession, terminalId, htarget, hactive, Nat.le_of_not_lt hfull⟩
  have hidle : a.phase ≠ .sending := by
    rw [hphase]
    exact Phase.noConfusion
  cases command with
  | isConnected => exact h.congr rfl rfl rfl
  | connect resumeToken =>
    refine live_of_not_sending hidle ?_
    intro session hsession
    cases hsession
    exact Nat.zero_le _
  | call cmd =>
    unfold SessionActor.handleCommand
    dsimp only
    split
    · exact h.congr rfl rfl rfl
    · exact h.congr rfl rfl rfl
  | sendInput terminalId bytes => exact hsend terminalId (fun terminal => .input terminal bytes) rfl
  | resize terminalId cols rows => exact hsend terminalId (fun terminal => .resize terminal cols rows) rfl
  | shutdown =>
    refine live_of_not_sending hidle ?_
    intro session hsession
    cases hsession

/-- **The session loop moves**: an event that it sends for a frame finds the actor at no full channel. -/
theorem Live.sessionMove {move : Session.Move} {session next : Session} (h : a.Live)
    (hsession : a.session = some session) (hown : move.own = true) (hs : session.step move = some next)
    (hyields : a.ActorWaits → ¬a.FillsEvents move) :
    Live { a with session := some next } where
  cmds t hmem := by
    cases hmem
    have hle := (Session.posts_step hown hs).cmds
    obtain hroom | ⟨hsending, hfull⟩ := h.cmds session hsession
    · exact .inl (Nat.le_trans hle hroom)
    · by_cases hroom : next.cmds.length ≤ channelBuffer
      · exact .inl hroom
      · exact .inr ⟨hsending, by omega⟩
  apart hd := by
    obtain ⟨⟨t, hmem, hawaits, hover⟩, hsending, t', hmem', hfull⟩ := hd
    cases hmem
    cases hmem'
    have hposts := Session.posts_step hown hs
    have hwaits : a.ActorWaits := ⟨hsending, session, hsession, Nat.lt_of_lt_of_le hfull hposts.cmds⟩
    -- the event that the loop waits for has just been queued
    obtain ⟨_, hidle⟩ | ⟨event, hevents⟩ := hposts.events
    · rw [hidle] at hawaits
      cases hawaits
    · have hroom : channelBuffer ≤ a.queued session := by
        unfold queued at hover ⊢
        dsimp only at hover
        rw [hevents, List.length_append, List.length_singleton] at hover
        omega
      have hreads : move.reads = true := by
        by_contra hnot
        exact hyields hwaits ⟨by simpa using hnot, session, hsession, hroom, next, hs, hawaits⟩
      obtain hnil | hlt := Session.cmds_of_reads hreads hs
      · obtain ⟨_, session', hsession', hcmds⟩ := hwaits
        cases hsession.symm.trans hsession'
        rw [hnil] at hcmds
        cases hcmds
      · obtain hle | ⟨_, heq⟩ := h.cmds session hsession
        · omega
        · omega

/-! ## Runs -/

theorem Live.step {move : Move} (h : a.Live) (hyields : a.Yields move) (hs : a.step move = some b) : b.Live := by
  cases move with
  | request command =>
    cases hs
    exact h.congr rfl rfl rfl
  | command =>
    unfold SessionActor.step at hs
    dsimp only at hs
    split at hs
    · next command commands hphase hcommands =>
      cases hs
      have hl : Live { a with commands } := h.congr rfl rfl rfl
      refine hl.handleCommand hphase ?_
      intro hwaits hfills
      refine hyields hwaits ?_
      have hsame : { a with commands := command :: commands } = a := by rw [← hcommands]
      exact hsame ▸ hfills
    · cases hs
  | event =>
    unfold SessionActor.step at hs
    dsimp only at hs
    split at hs
    · next session hphase _ hsession =>
      split at hs
      · cases hs
        refine live_of_not_sending Phase.noConfusion ?_
        exact h.cmds_le (by rw [hphase]; exact Phase.noConfusion)
      · split at hs
        · cases hs
          refine live_of_not_sending (by rw [setSession, hphase]; exact Phase.noConfusion) ?_
          intro session hmem
          cases hmem
        · cases hs
    · cases hs
  | sent =>
    unfold SessionActor.step at hs
    dsimp only at hs
    split at hs
    · next session _ hsession =>
      split at hs
      · next hroom =>
        cases hs
        refine live_of_not_sending Phase.noConfusion ?_
        intro s hmem
        cases hsession.symm.trans hmem
        exact hroom
      · cases hs
    · cases hs
  | forwarded =>
    unfold SessionActor.step at hs
    dsimp only at hs
    split at hs
    · next hphase =>
      cases hs
      refine live_of_not_sending Phase.noConfusion ?_
      exact h.cmds_le (by rw [hphase]; exact Phase.noConfusion)
    · cases hs
  | task index =>
    unfold SessionActor.step at hs
    dsimp only at hs
    split at hs
    · next cmd session _ hsession =>
      obtain ⟨next, hnext, rfl⟩ := Option.map_eq_some_iff.mp hs
      obtain ⟨hcmds, hphase, hevents⟩ := callerStep_command hnext
      refine ⟨?_, ?_⟩
      · intro s hmem
        cases hmem
        rw [hcmds]
        exact h.cmds session hsession
      · rintro ⟨⟨s, hmem, hawaits, hover⟩, hsending, s', hmem', hfull⟩
        cases hmem
        cases hmem'
        refine h.apart ⟨⟨session, hsession, awaitsEvent_congr hphase ▸ hawaits, ?_⟩, hsending, session, hsession, ?_⟩
        · unfold queued at hover ⊢
          rw [← hevents]
          exact hover
        · rw [← hcmds]
          exact hfull
    · cases hs
  | session move =>
    unfold SessionActor.step at hs
    dsimp only at hs
    split at hs
    · cases hs
    · next session hsession =>
      split at hs
      · cases hs
      · next hfree =>
        obtain ⟨next, hnext, rfl⟩ := Option.map_eq_some_iff.mp hs
        refine h.sessionMove hsession ?_ hnext hyields
        by_contra hown
        exact hfree (.inl hown)

/-- **Neither loop waits for the other one**, in a run in which none of them comes to a full channel while the other
one waits. -/
theorem loops_never_deadlock {moves : List Move} (hmeets : Steps.Meets step Yields {} moves)
    (hrun : Steps.run step {} moves = some a) : ¬a.Deadlocked := by
  have hlive := Steps.run_invariant (I := Live) (fun _ _ _ hl hy hs => hl.step hy hs) hmeets hrun live_new
  exact hlive.apart

instance : Decidable a.LoopWaits :=
  inferInstanceAs (Decidable (∃ session ∈ a.session, session.awaitsEvent ∧ channelBuffer < a.queued session))

instance : Decidable a.ActorWaits :=
  inferInstanceAs (Decidable (a.phase = .sending ∧ ∃ session ∈ a.session, channelBuffer < session.cmds.length))

instance : Decidable a.Deadlocked := inferInstanceAs (Decidable (a.LoopWaits ∧ a.ActorWaits))

instance : Decidable a.FillsCmds :=
  inferInstanceAs (Decidable (∃ session ∈ a.session, ∃ terminalId ∈ a.target,
    (withActiveTerminal a.session terminalId).toOption.isSome ∧ channelBuffer ≤ session.cmds.length))

instance (move : Session.Move) : Decidable (a.FillsEvents move) :=
  inferInstanceAs (Decidable (move.reads = false ∧ ∃ session ∈ a.session, channelBuffer ≤ a.queued session ∧
    ∃ next ∈ session.step move, next.awaitsEvent))

instance : ∀ move, Decidable (a.Yields move)
  | .command => inferInstanceAs (Decidable (a.LoopWaits → ¬a.FillsCmds))
  | .session move => inferInstanceAs (Decidable (a.ActorWaits → ¬a.FillsEvents move))
  | .request _ | .event | .sent | .forwarded | .task _ => isTrue trivial

/-- A session that has opened the terminal. -/
def toTerminal : List Move :=
  [.request (.connect none), .command] ++ Session.toSelect.map .session ++
    [.request (.call (.openTerminal Session.sampleTerminal 0)), .command, .task 0] ++
    (Session.toOpen.drop (Session.toSelect.length + 1)).map .session

/-- A frame of output, as far as the wait for `events_tx`. -/
def outputFrame : List Move :=
  [.session (.conn (.poll 0 0)), .session (.conn (.frame (.streamData
    { streamId := 1, seq := 0, offset := none, last := false, bytes := [97] }) 0))]

/-- Input that is on its way to the session loop. -/
def inputCommand : List Move := [.request (.sendInput Session.sampleTerminal [98]), .command]

theorem loops_never_deadlock_sample : ∃ a, Steps.run step {} (toTerminal ++ outputFrame ++ inputCommand) = some a ∧
    ¬a.Deadlocked := by
  obtain ⟨a, ha⟩ : ∃ a, Steps.run step {} (toTerminal ++ outputFrame ++ inputCommand) = some a := ⟨_, rfl⟩
  exact ⟨a, ha, loops_never_deadlock (by decide +kernel) ha⟩

/-- Output fills the channel of the events while the actor takes input, until that has filled the other channel. -/
def toDeadlock : List Move :=
  toTerminal ++
    (List.replicate 62 (outputFrame ++ [.session (.conn .emitted), .session (.conn (.turn 0 0))])).flatten ++
    outputFrame ++ (List.replicate 64 (inputCommand ++ [.sent])).flatten ++ inputCommand

/-- Both channels are full, and each loop waits for the other one. -/
theorem loops_deadlock :
    ¬∀ (moves : List Move) (a : SessionActor), Steps.run step {} moves = some a → ¬a.Deadlocked := by
  intro h
  have hd : (Steps.run step {} toDeadlock).any (fun a => decide a.Deadlocked) = true := by decide +kernel
  obtain ⟨a, ha, hdead⟩ := (Option.any_eq_true _ _).mp hd
  exact h toDeadlock a ha (of_decide_eq_true hdead)

end SessionActor

end App

end CliPocket
