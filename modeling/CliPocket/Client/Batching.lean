import CliPocket.Client.SessionLoop
import CliPocket.Lib.Coalesce
import CliPocket.Lib.Steps

/-!
# Batches of input

The commands of terminals on their way through `run_one_connection`: from the channel through `batch_input_command` and
`pending_cmds`, whose front `coalesce_pending_input_front` joins with what follows.

- `Session.queue`: the commands that are on their way; `Session.sentCmds`: those whose frames a move has sent;
- `Session.passes_step`: what one move makes of them;
- `Session.commands_in_order`: for each terminal they go out in order, with neighbouring inputs joined, in every run that
  merges no input of it into a batch that has put off another command of it, and that frames its commands only while it
  is attached.
-/

namespace CliPocket

open Coalesce (Coalesces joinFront)

def TerminalCmd.terminal : TerminalCmd → TerminalId
  | .input terminal _ | .resize terminal _ _ | .kill terminal => terminal

/-- The input in a command. -/
def TerminalCmd.bytes : TerminalCmd → List UInt8
  | .input _ bytes => bytes
  | .resize .. | .kill _ => []

/-- The command that a frame tells the daemon. -/
def FrameBody.terminalCmd : FrameBody → Option TerminalCmd
  | .request ⟨_, .sendInput terminal bytes⟩ => some (.input terminal bytes)
  | .request ⟨_, .resizeTerminal terminal cols rows⟩ => some (.resize terminal cols rows)
  | .request ⟨_, .killTerminal terminal⟩ => some (.kill terminal)
  | _ => none

/-- The commands for one terminal. -/
def commandsOf (terminal : TerminalId) (cmds : List TerminalCmd) : List TerminalCmd :=
  cmds.filter fun cmd => cmd.terminal = terminal

/-! ## Merging -/

theorem tryMerge_eq_some {base next merged : TerminalCmd} (h : tryMergeInputCommand base next = some merged) :
    ∃ terminal bytes more, base = .input terminal bytes ∧ next = .input terminal more ∧
      merged = .input terminal (bytes ++ more) := by
  unfold tryMergeInputCommand at h
  split at h
  · next baseTerminal baseBytes terminal bytes =>
    split at h
    · next heq =>
      cases h
      subst heq
      exact ⟨_, _, _, rfl, rfl, rfl⟩
    · cases h
  · cases h

theorem tryMerge_input (terminal : TerminalId) (bytes more : List UInt8) :
    tryMergeInputCommand (.input terminal bytes) (.input terminal more) = some (.input terminal (bytes ++ more)) :=
  if_pos rfl

theorem tryMerge_associative : Coalesce.Associative tryMergeInputCommand := by
  intro a b c d e hab hcd
  obtain ⟨terminal, bytes, more, rfl, rfl, rfl⟩ := tryMerge_eq_some hab
  obtain ⟨_, _, last, heq, rfl, rfl⟩ := tryMerge_eq_some hcd
  cases heq
  refine ⟨_, tryMerge_input _ _ _, ?_⟩
  rw [tryMerge_input, List.append_assoc]

theorem tryMerge_terminal {a b c : TerminalCmd} (h : tryMergeInputCommand a b = some c) :
    a.terminal = c.terminal ∧ b.terminal = c.terminal := by
  obtain ⟨terminal, bytes, more, rfl, rfl, rfl⟩ := tryMerge_eq_some h
  exact ⟨rfl, rfl⟩

theorem tryMerge_bytes {a b c : TerminalCmd} (h : tryMergeInputCommand a b = some c) : c.bytes = a.bytes ++ b.bytes := by
  obtain ⟨terminal, bytes, more, rfl, rfl, rfl⟩ := tryMerge_eq_some h
  rfl

/-- Commands of one terminal, some neighbouring inputs joined. -/
abbrev Merges : List TerminalCmd → List TerminalCmd → Prop := Coalesces tryMergeInputCommand

theorem coalesceInput_eq : ∀ (cmds : List TerminalCmd) (front : TerminalCmd),
    coalesceInput front cmds = joinFront tryMergeInputCommand front cmds
  | [], _ => rfl
  | next :: rest, front => by
    unfold coalesceInput joinFront
    cases tryMergeInputCommand front next with
    | none => rfl
    | some merged => exact coalesceInput_eq rest merged

/-- `coalesce_pending_input_front` joins neighbours. -/
theorem merges_coalescePendingInputFront (cmds : List TerminalCmd) : Merges cmds (coalescePendingInputFront cmds) := by
  cases cmds with
  | nil => exact Coalesces.nil
  | cons front rest =>
    show Merges (front :: rest) (coalesceInput front rest)
    rw [coalesceInput_eq]
    exact Coalesce.coalesces_joinFront tryMerge_associative rest front

theorem commandsOf_append (terminal : TerminalId) (xs ys : List TerminalCmd) :
    commandsOf terminal (xs ++ ys) = commandsOf terminal xs ++ commandsOf terminal ys := List.filter_append xs ys

theorem merges_commandsOf {xs ys : List TerminalCmd} (terminal : TerminalId) (h : Merges xs ys) :
    Merges (commandsOf terminal xs) (commandsOf terminal ys) := by
  refine Coalesces.filter (fun hj => ?_) h
  obtain ⟨ha, hb⟩ := tryMerge_terminal hj
  exact ⟨by rw [ha], by rw [hb]⟩

/-- An input joined with an earlier one over commands of other terminals. -/
theorem merges_over {cmd next merged : TerminalCmd} (h : tryMergeInputCommand cmd next = some merged)
    {terminal : TerminalId} {deferred : List TerminalCmd}
    (hdeferred : cmd.terminal = terminal → ∀ other ∈ deferred, other.terminal ≠ terminal) (rest : List TerminalCmd) :
    Merges (commandsOf terminal (cmd :: deferred ++ next :: rest)) (commandsOf terminal (merged :: deferred ++ rest)) := by
  obtain ⟨ha, hb⟩ := tryMerge_terminal h
  by_cases hterminal : merged.terminal = terminal
  · have hnone : commandsOf terminal deferred = [] := by
      unfold commandsOf
      rw [List.filter_eq_nil_iff]
      intro other hother
      rw [decide_eq_true_iff]
      exact hdeferred (ha.trans hterminal) other hother
    have hleft : commandsOf terminal (cmd :: deferred ++ next :: rest) = cmd :: next :: commandsOf terminal rest := by
      rw [commandsOf_append]
      unfold commandsOf at hnone ⊢
      rw [List.filter_cons_of_pos (by simp [ha, hterminal]), List.filter_cons_of_pos (by simp [hb, hterminal]), hnone]
      rfl
    have hright : commandsOf terminal (merged :: deferred ++ rest) = merged :: commandsOf terminal rest := by
      rw [commandsOf_append]
      unfold commandsOf at hnone ⊢
      rw [List.filter_cons_of_pos (by simp [hterminal]), hnone]
      rfl
    rw [hleft, hright]
    exact Coalesces.front h _
  · apply Coalesces.of_eq
    rw [commandsOf_append, commandsOf_append]
    unfold commandsOf
    rw [List.filter_cons_of_neg (by simp [ha, hterminal]), List.filter_cons_of_neg (by simp [hb, hterminal]),
      List.filter_cons_of_neg (by simp [hterminal])]

/-- The frame of a command tells it. -/
theorem terminalCmd_frameForCommand {c d : ClientConn} {cmd : TerminalCmd} {request : RequestFrame}
    (h : c.frameForCommand cmd = some (d, request)) : (FrameBody.request request).terminalCmd = some cmd := by
  unfold ClientConn.frameForCommand at h
  cases cmd <;>
  · obtain ⟨handle, hactive, heq⟩ := Option.map_eq_some_iff.mp h
    have hterminal := of_decide_eq_true (Option.filter_eq_some_iff.mp hactive).2
    cases heq
    rw [← hterminal]
    rfl

namespace Session

/-! ## Commands on their way -/

/-- The commands that `batch_input_command` has. -/
def batch (s : Session) : List TerminalCmd :=
  match s.phase with
  | .connected c =>
    match c.wait with
    | .batching cmd deferred => cmd :: deferred
    | _ => []
  | _ => []

/-- The commands on their way, in order. -/
def queue (s : Session) : List TerminalCmd := s.pendingCmds ++ s.batch ++ s.cmds

/-- The command that a caller sends with the move. -/
def givenCmds : Move → List TerminalCmd
  | .caller (.terminalCommand cmd) => [cmd]
  | _ => []

/-- The command whose frame has gone with the move. -/
def sentCmds (s : Session) (move : Move) : List TerminalCmd :=
  match s.phase, move with
  | .connected ⟨_, .sending ciphertext .popCmd, _⟩, .conn .sent => ciphertext.frame.terminalCmd.toList
  | _, _ => []

/-- The command that a move is going to frame. -/
def framing (s : Session) : Move → Option TerminalCmd
  | .conn move =>
    match s.phase with
    | .connected c =>
      match c.wait, move with
      | .top, .turn nowMs nonce =>
        match (c.heartbeat.poll nowMs nonce).2, s.pendingSessionCmds with
        | .wait, [] => (coalescePendingInputFront s.pendingCmds).head?
        | _, _ => none
      | .batching cmd _, .batched => some cmd
      | .selecting _, .cmd =>
        match s.cmds with
        | [] | .input .. :: _ => none
        | cmd :: _ => some cmd
      | _, _ => none
    | _ => none
  | _ => none

/-- The commands of a run, as they are given and as their frames go out. -/
inductive CmdEvent
  | given (cmd : TerminalCmd)
  | sent (cmd : TerminalCmd)

def cmdEvents (s : Session) (move : Move) : List CmdEvent :=
  (givenCmds move).map .given ++ (s.sentCmds move).map .sent

def givenOf (history : List CmdEvent) : List TerminalCmd :=
  history.filterMap fun event =>
    match event with
    | .given cmd => some cmd
    | .sent _ => none

def sentOf (history : List CmdEvent) : List TerminalCmd :=
  history.filterMap fun event =>
    match event with
    | .given _ => none
    | .sent cmd => some cmd

/-- The terminal of the command is the one that is attached. -/
def Attached (s : Session) (cmd : TerminalCmd) : Prop := ∃ handle ∈ s.client.terminal, handle.terminalId = cmd.terminal

/-- What `pending_cmds` holds while its front is sent, and that it is empty in the select. -/
def Fronted (s : Session) : Prop :=
  match s.phase with
  | .connected c =>
    match c.wait with
    | .sending ciphertext .popCmd => ∃ cmd rest, s.pendingCmds = cmd :: rest ∧ ciphertext.frame.terminalCmd = some cmd
    | .selecting _ | .batching _ _ => s.pendingCmds = []
    | _ => True
  | _ => True

variable {s t : Session} {c : Connection}

theorem givenOf_cmdEvents (s : Session) (move : Move) : givenOf (s.cmdEvents move) = givenCmds move := by
  unfold givenOf cmdEvents
  simp [List.filterMap_append, List.filterMap_map]

theorem sentOf_cmdEvents (s : Session) (move : Move) : sentOf (s.cmdEvents move) = s.sentCmds move := by
  unfold sentOf cmdEvents
  simp [List.filterMap_append, List.filterMap_map]

theorem queue_of_batch (h : s.batch = []) : s.queue = s.pendingCmds ++ s.cmds := by
  unfold queue
  rw [h, List.append_nil]

/-! ## One move -/

/-- The commands on their way are `cmds`, unless the task has returned. -/
def Carries (cmds : List TerminalCmd) (s : Session) : Prop := s.phase ≠ .ended → s.queue = cmds

theorem carries_finish (s : Session) (reached : Bool) (outcome : Except ClientError Unit) :
    Carries (s.pendingCmds ++ s.cmds) (s.finish reached outcome) := by
  intro hlive
  unfold finish at hlive ⊢
  dsimp only at hlive ⊢
  split at hlive
  · exact absurd rfl hlive
  · next hstop =>
    rw [if_neg hstop]
    cases outcome <;> exact queue_of_batch rfl

theorem carries_startSend (s : Session) (c : Connection) (frame : FrameBody) (after : AfterSend) :
    Carries (s.pendingCmds ++ s.cmds) (s.startSend c frame after) := by
  unfold startSend
  split
  · exact carries_finish s true _
  · next t ciphertext he =>
    obtain ⟨rfl, _⟩ := encrypt_eq_ok he
    exact fun _ => queue_of_batch rfl

theorem carries_sendSessionCmd {cmd : SessionCommand} (h : s.sendSessionCmd c cmd = some t) :
    Carries (s.pendingCmds ++ s.cmds) t := by
  obtain ⟨⟨client, request⟩, _, rfl⟩ := Option.map_eq_some_iff.mp h
  exact carries_startSend _ c _ _

/-- What is attached is framed. -/
theorem framed_of_attached {cmd : TerminalCmd} (h : s.Attached cmd) :
    ∃ framed, s.client.frameForCommand cmd = some framed := by
  obtain ⟨handle, hterminal, hactive⟩ := h
  have hterminal : s.client.terminal = some handle := hterminal
  unfold ClientConn.frameForCommand
  cases cmd <;> rw [hterminal] <;> exact ⟨_, by simp [Option.filter, hactive, TerminalCmd.terminal]; rfl⟩

/-- The front of `pending_cmds` is framed and stays there, or it is dropped, for want of its terminal. -/
theorem carries_sendCmd (s : Session) (c : Connection) {cmd : TerminalCmd} {rest : List TerminalCmd}
    (hfront : s.pendingCmds = cmd :: rest) {terminal : TerminalId} (hattached : cmd.terminal = terminal → s.Attached cmd) :
    ∃ left, Carries left (s.sendCmd c cmd) ∧ commandsOf terminal left = commandsOf terminal (s.pendingCmds ++ s.cmds) := by
  unfold sendCmd
  cases hframed : s.client.frameForCommand cmd with
  | some framed => exact ⟨_, carries_startSend _ c _ _, rfl⟩
  | none =>
    have hother : cmd.terminal ≠ terminal := by
      intro heq
      obtain ⟨framed, h⟩ := framed_of_attached (hattached heq)
      cases hframed.symm.trans h
    refine ⟨s.pendingCmds.tail ++ s.cmds, fun _ => queue_of_batch rfl, ?_⟩
    rw [hfront, List.cons_append]
    exact (List.filter_cons_of_neg (by simpa using hother)).symm

/-- A move of the caller, the loop or the setup leaves the commands in their order. -/
theorem queue_callerStep {move : CallerMove} (hs : s.callerStep move = some t) :
    t.queue = s.queue ++ givenCmds (.caller move) := by
  unfold callerStep at hs
  split at hs
  · cases hs
  · cases move with
    | command cmd =>
      dsimp only at hs
      split at hs
      · cases hs
      · split at hs
        · cases hs
        · cases hs
          exact (List.append_nil _).symm
    | terminalCommand cmd =>
      cases hs
      exact (List.append_assoc _ _ _).symm
    | shutdown =>
      dsimp only at hs
      split at hs
      · cases hs
      · cases hs
        exact (List.append_nil _).symm
    | drop =>
      dsimp only at hs
      split at hs
      · cases hs
      · cases hs
        exact (List.append_nil _).symm

theorem carries_top (s : Session) : Carries (s.pendingCmds ++ s.cmds) s.top := by
  intro hlive
  unfold top at hlive ⊢
  split at hlive
  · exact absurd rfl hlive
  · next hstop =>
    rw [if_neg hstop]
    exact queue_of_batch rfl

/-- No batch outside of a live connection. -/
theorem queue_of_idle (h : ∀ c, s.phase ≠ .connected c) : s.queue = s.pendingCmds ++ s.cmds := by
  refine queue_of_batch ?_
  unfold batch
  split
  · next c hc => exact absurd hc (h c)
  · rfl

theorem carries_loopStep {move : LoopMove} (hs : s.loopStep move = some t) : Carries s.queue t := by
  have hidle : ∀ c, s.phase ≠ .connected c := by
    intro c hc
    unfold loopStep at hs
    rw [hc] at hs
    cases hs
  have hstop : Carries (s.pendingCmds ++ s.cmds) s.stop := fun hlive => absurd rfl hlive
  rw [queue_of_idle hidle]
  unfold loopStep at hs
  split at hs
  · cases hs
    exact carries_top s
  · cases hs
    exact fun _ => queue_of_batch rfl
  · cases hs
    exact fun _ => queue_of_batch rfl
  · split at hs
    · cases hs
      exact hstop
    · cases hs
      exact fun _ => queue_of_batch rfl
  · cases hs
    exact carries_finish _ _ _
  · cases hs
    exact fun _ => queue_of_batch rfl
  · split at hs
    · cases hs
      exact hstop
    · cases hs
      exact fun _ => queue_of_batch rfl
  · cases hs
    exact carries_top s
  · cases hs

theorem carries_setupStep {move : SetupMove} (hs : s.setupStep move = some t) : Carries s.queue t := by
  unfold setupStep at hs
  split at hs
  · next hphase =>
    rw [queue_of_idle fun c hc => by rw [hphase] at hc; cases hc]
    split at hs
    · split at hs
      · cases hs
        exact carries_finish _ _ _
      · next he =>
        obtain ⟨rfl, _⟩ := encrypt_eq_ok he
        cases hs
        exact fun _ => queue_of_batch rfl
    · cases hs
      exact fun _ => queue_of_batch rfl
    · cases hs
      exact carries_finish _ _ _
    · cases hs
      exact fun _ => queue_of_batch rfl
    · cases hs
      exact carries_finish _ _ _
    · cases hs
      exact fun _ => queue_of_batch rfl
    · cases hs
  · cases hs

/-! ## The live connection -/

theorem carries_act (s : Session) (c : Connection) (action : Action) :
    Carries (s.pendingCmds ++ s.cmds) (s.act c action) := by
  cases action with
  | send frame => exact carries_startSend s c frame .nothing
  | emit event => exact fun _ => queue_of_batch rfl
  | «return» result => exact carries_finish _ true result
  | none => exact fun _ => queue_of_batch rfl

theorem carries_inbound (s : Session) (c : Connection) (frame : FrameBody) :
    Carries (s.pendingCmds ++ s.cmds) (s.inbound c frame) := by
  unfold inbound
  split
  · exact carries_finish s true _
  · exact carries_act _ c _

theorem carries_pollRecv (s : Session) (c : Connection) (nowMs nonce : Nat) :
    Carries (s.pendingCmds ++ s.cmds) (s.pollRecv c nowMs nonce) := by
  unfold pollRecv
  rcases c.heartbeat.poll_cases nowMs nonce with hpoll | hpoll | hpoll
  all_goals rw [hpoll]; dsimp only
  · split
    · exact carries_finish s true _
    · next he =>
      obtain ⟨rfl, _⟩ := encrypt_eq_ok he
      exact fun _ => queue_of_batch rfl
  · exact fun _ => queue_of_batch rfl
  · exact fun _ => queue_of_batch rfl

theorem carries_recvMove {recv : RecvFuture} {move : ConnMove} (hs : s.recvMove c recv move = some t) :
    Carries (s.pendingCmds ++ s.cmds) t := by
  unfold recvMove at hs
  split at hs
  all_goals cases hs
  · exact carries_pollRecv s c _ _
  · exact fun _ => queue_of_batch rfl
  · exact carries_finish _ true _
  · exact fun _ => queue_of_batch rfl
  · exact carries_inbound s _ _
  · exact carries_finish s true _
  · exact carries_finish s true _
  · exact carries_finish s true _

/-! ## The condition -/

/-- An input for the terminal that is merged into a batch has no other command for it before it in the batch. -/
def Orderly (terminal : TerminalId) (s : Session) : Move → Prop
  | .conn .batch =>
    match s.phase with
    | .connected c =>
      match c.wait, s.cmds with
      | .batching cmd deferred, next :: _ =>
        (tryMergeInputCommand cmd next).isSome → cmd.terminal = terminal → ∀ other ∈ deferred, other.terminal ≠ terminal
      | _, _ => True
    | _ => True
  | _ => True

/-- A command for the terminal is framed while it is attached. -/
def Framed (terminal : TerminalId) (s : Session) (move : Move) : Prop :=
  ∀ cmd ∈ s.framing move, cmd.terminal = terminal → s.Attached cmd

instance (s : Session) (cmd : TerminalCmd) : Decidable (s.Attached cmd) :=
  inferInstanceAs (Decidable (∃ handle ∈ s.client.terminal, handle.terminalId = cmd.terminal))

instance (terminal : TerminalId) (s : Session) : DecidablePred (Orderly terminal s) := fun move => by
  unfold Orderly
  split
  · split
    · split
      · exact inferInstance
      · exact isTrue trivial
    · exact isTrue trivial
  · exact isTrue trivial

instance (terminal : TerminalId) (s : Session) (move : Move) : Decidable (Framed terminal s move) :=
  inferInstanceAs (Decidable (∀ cmd ∈ s.framing move, cmd.terminal = terminal → s.Attached cmd))

/-! ## The front of `pending_cmds` -/

theorem fronted_finish (s : Session) (reached : Bool) (outcome : Except ClientError Unit) :
    (s.finish reached outcome).Fronted := by
  unfold finish
  dsimp only
  split
  · trivial
  · cases outcome <;> trivial

theorem fronted_top (s : Session) : s.top.Fronted := by
  unfold top
  split <;> trivial

theorem fronted_startSend (s : Session) (c : Connection) {frame : FrameBody} {after : AfterSend}
    (hafter : after = .popCmd → ∃ cmd rest, s.pendingCmds = cmd :: rest ∧ frame.terminalCmd = some cmd) :
    (s.startSend c frame after).Fronted := by
  unfold startSend
  split
  · exact fronted_finish s true _
  · next t ciphertext he =>
    obtain ⟨rfl, _, rfl⟩ := encrypt_eq_ok he
    cases after with
    | popCmd => exact hafter rfl
    | nothing | popSessionCmd => trivial

theorem fronted_sendSessionCmd {cmd : SessionCommand} (h : s.sendSessionCmd c cmd = some t) : t.Fronted := by
  obtain ⟨⟨client, request⟩, _, rfl⟩ := Option.map_eq_some_iff.mp h
  exact fronted_startSend _ c nofun

theorem fronted_sendCmd (s : Session) (c : Connection) {cmd : TerminalCmd} (rest : List TerminalCmd)
    (hfront : s.pendingCmds = cmd :: rest) : (s.sendCmd c cmd).Fronted := by
  unfold sendCmd
  split
  · next client request hframed =>
    exact fronted_startSend _ c fun _ => ⟨cmd, rest, hfront, terminalCmd_frameForCommand hframed⟩
  · trivial

theorem coalesceInput_ne_nil : ∀ (cmds : List TerminalCmd) (front : TerminalCmd), coalesceInput front cmds ≠ []
  | [], _ => List.cons_ne_nil _ _
  | next :: rest, front => by
    unfold coalesceInput
    split
    · next merged _ => exact coalesceInput_ne_nil rest merged
    · exact List.cons_ne_nil _ _

theorem coalesce_eq_nil {cmds : List TerminalCmd} (h : coalescePendingInputFront cmds = []) : cmds = [] := by
  cases cmds with
  | nil => rfl
  | cons front rest => exact absurd h (coalesceInput_ne_nil rest front)

theorem fronted_turn {nowMs nonce : Nat} (hs : s.turn c nowMs nonce = some t) : t.Fronted := by
  unfold turn at hs
  rcases c.heartbeat.poll_cases nowMs nonce with hpoll | hpoll | hpoll
  all_goals rw [hpoll] at hs; dsimp only at hs
  · split at hs
    · cases hs
      exact fronted_finish s true _
    · cases hs
      trivial
  · cases hs
    trivial
  · split at hs
    · exact fronted_sendSessionCmd hs
    · split at hs
      · next cmd rest _ =>
        cases hs
        exact fronted_sendCmd _ _ rest rfl
      · next hnil =>
        cases hs
        exact coalesce_eq_nil hnil

theorem fronted_act (s : Session) (c : Connection) (action : Action) : (s.act c action).Fronted := by
  cases action with
  | send frame => exact fronted_startSend s c nofun
  | emit event => trivial
  | «return» result => exact fronted_finish _ true result
  | none => trivial

theorem fronted_inbound (s : Session) (c : Connection) (frame : FrameBody) : (s.inbound c frame).Fronted := by
  unfold inbound
  split
  · exact fronted_finish s true _
  · exact fronted_act _ c _

theorem fronted_pollRecv (hempty : s.pendingCmds = []) (c : Connection) (nowMs nonce : Nat) :
    (s.pollRecv c nowMs nonce).Fronted := by
  unfold pollRecv
  rcases c.heartbeat.poll_cases nowMs nonce with hpoll | hpoll | hpoll
  all_goals rw [hpoll]; dsimp only
  · split
    · exact fronted_finish s true _
    · next he =>
      obtain ⟨rfl, _⟩ := encrypt_eq_ok he
      exact hempty
  · exact hempty
  · exact hempty

theorem fronted_recvMove (hempty : s.pendingCmds = []) {recv : RecvFuture} {move : ConnMove}
    (hs : s.recvMove c recv move = some t) : t.Fronted := by
  unfold recvMove at hs
  split at hs
  all_goals cases hs
  · exact fronted_pollRecv hempty c _ _
  · exact hempty
  · exact fronted_finish _ true _
  · exact hempty
  · exact fronted_inbound s _ _
  · exact fronted_finish s true _
  · exact fronted_finish s true _
  · exact fronted_finish s true _

theorem fronted_selectStep (hempty : s.pendingCmds = []) {recv : RecvFuture} {move : ConnMove}
    (hs : s.selectStep c recv move = some t) : t.Fronted := by
  unfold selectStep at hs
  split at hs
  · split at hs
    · cases hs
    · cases hs
      exact fronted_finish _ true _
    · exact fronted_sendSessionCmd hs
  · split at hs
    · cases hs
      exact fronted_finish s true _
    · cases hs
  · split at hs
    · cases hs
    · split at hs
      · cases hs
      · cases hs
        exact hempty
      · cases hs
        refine fronted_sendCmd _ c [] ?_
        rw [hempty]
        rfl
  · split at hs
    · cases hs
    · exact fronted_recvMove hempty hs

theorem fronted_connStep (h : s.Fronted) {move : ConnMove} (hs : s.connStep move = some t) : t.Fronted := by
  unfold Fronted at h
  unfold connStep at hs
  split at hs
  · next c hphase =>
    rw [hphase] at h
    dsimp only at h
    split at hs
    · exact fronted_turn hs
    · cases hs
      trivial
    · cases hs
      exact fronted_finish _ true _
    · cases hs
      trivial
    · next cmd deferred hwait =>
      rw [hwait] at h
      split at hs
      · cases hs
      · split at hs <;> cases hs <;> exact h
    · next cmd deferred hwait =>
      rw [hwait] at h
      cases hs
      refine fronted_sendCmd _ c deferred ?_
      rw [show s.pendingCmds = [] from h]
      rfl
    · next recv hwait =>
      rw [hwait] at h
      exact fronted_selectStep h hs
    · cases hs
  · cases hs

theorem fronted_step (h : s.Fronted) {move : Move} (hs : s.step move = some t) : t.Fronted := by
  cases move with
  | caller move =>
    simp only [step, callerStep] at hs
    split at hs
    · cases hs
    · split at hs
      · split at hs
        · cases hs
        · split at hs <;> cases hs
          exact h
      · cases hs
        exact h
      · split at hs <;> cases hs
        exact h
      · split at hs <;> cases hs
        exact h
  | loop move =>
    simp only [step, loopStep] at hs
    split at hs
    · cases hs
      exact fronted_top s
    · cases hs
      trivial
    · cases hs
      trivial
    · split at hs <;> cases hs <;> trivial
    · cases hs
      exact fronted_finish _ _ _
    · cases hs
      trivial
    · split at hs <;> cases hs <;> trivial
    · cases hs
      exact fronted_top s
    · cases hs
  | setup move =>
    simp only [step, setupStep] at hs
    split at hs
    · split at hs
      · split at hs <;> cases hs
        · exact fronted_finish _ _ _
        · trivial
      · cases hs
        trivial
      · cases hs
        exact fronted_finish _ _ _
      · cases hs
        trivial
      · cases hs
        exact fronted_finish _ _ _
      · cases hs
        trivial
      · cases hs
    · cases hs
  | conn move => exact fronted_connStep h hs

/-! ## The live connection, and its commands -/

/-- What a move makes of the commands on their way: some have gone, and some neighbours are joined. -/
def Passes (terminal : TerminalId) (s : Session) (move : Move) (t : Session) : Prop :=
  ∃ rest, Carries rest t ∧
    Merges (commandsOf terminal (s.queue ++ givenCmds move)) (commandsOf terminal (s.sentCmds move ++ rest))

variable {terminal : TerminalId}

theorem passes_of_eq {move : Move} {rest : List TerminalCmd} (hrest : Carries rest t)
    (h : commandsOf terminal (s.queue ++ givenCmds move) = commandsOf terminal (s.sentCmds move ++ rest)) :
    s.Passes terminal move t :=
  ⟨rest, hrest, Coalesces.of_eq h⟩

theorem queue_of_wait (hphase : s.phase = .connected c) (hwait : ∀ cmd deferred, c.wait ≠ .batching cmd deferred) :
    s.queue = s.pendingCmds ++ s.cmds := by
  refine queue_of_batch ?_
  unfold batch
  rw [hphase]
  dsimp only
  split
  · next cmd deferred hc => exact absurd hc (hwait cmd deferred)
  · rfl

theorem queue_of_batching {cmd : TerminalCmd} {deferred : List TerminalCmd} (hphase : s.phase = .connected c)
    (hwait : c.wait = .batching cmd deferred) : s.queue = s.pendingCmds ++ (cmd :: deferred) ++ s.cmds := by
  unfold queue batch
  rw [hphase]
  dsimp only
  rw [hwait]

/-- A frame goes only when a send is through. -/
theorem sentCmds_eq_nil {move : Move} (hmove : move ≠ .conn .sent) : s.sentCmds move = [] := by
  unfold sentCmds
  split
  · exact absurd rfl hmove
  · rfl

/-- Nothing is given and nothing goes. -/
theorem passes_of_queue {move : ConnMove} {rest : List TerminalCmd} (hmove : move ≠ .sent) (hrest : Carries rest t)
    (h : commandsOf terminal s.queue = commandsOf terminal rest) : s.Passes terminal (.conn move) t := by
  refine passes_of_eq hrest ?_
  rw [sentCmds_eq_nil fun heq => hmove (by cases heq; rfl)]
  rw [show givenCmds (.conn move) = [] from rfl, List.append_nil]
  exact h

theorem phase_of_wait {wait : Wait} (hphase : s.phase = .connected c) (hwait : c.wait = wait) :
    s.phase = .connected { c with wait } := by
  rw [hphase, ← hwait]

/-- The head of the loop. -/
theorem passes_turn {nowMs nonce : Nat} (hphase : s.phase = .connected c) (hwait : c.wait = .top)
    (hframed : s.Framed terminal (.conn (.turn nowMs nonce))) (hs : s.turn c nowMs nonce = some t) :
    s.Passes terminal (.conn (.turn nowMs nonce)) t := by
  have hqueue : s.queue = s.pendingCmds ++ s.cmds := queue_of_wait hphase fun _ _ h => by rw [hwait] at h; cases h
  have hnothing : Carries (s.pendingCmds ++ s.cmds) t → s.Passes terminal (.conn (.turn nowMs nonce)) t := fun hcarries =>
    passes_of_queue ConnMove.noConfusion hcarries (by rw [hqueue])
  unfold Framed framing at hframed
  rw [hphase] at hframed
  dsimp only at hframed
  rw [hwait] at hframed
  dsimp only at hframed
  unfold turn at hs
  rcases c.heartbeat.poll_cases nowMs nonce with hpoll | hpoll | hpoll
  all_goals rw [hpoll] at hs hframed; dsimp only at hs hframed
  · refine hnothing ?_
    split at hs
    · cases hs
      exact carries_finish s true _
    · next he =>
      obtain ⟨rfl, _⟩ := encrypt_eq_ok he
      cases hs
      exact fun _ => queue_of_batch rfl
  · cases hs
    exact hnothing fun _ => queue_of_batch rfl
  · cases hsession : s.pendingSessionCmds with
    | cons cmd rest =>
      rw [hsession] at hs
      exact hnothing (carries_sendSessionCmd hs)
    | nil =>
      rw [hsession] at hs hframed
      have hmerges := merges_coalescePendingInputFront s.pendingCmds
      cases hcmds : coalescePendingInputFront s.pendingCmds with
      | nil =>
        rw [hcmds] at hs
        cases hs
        exact hnothing fun _ => queue_of_batch rfl
      | cons cmd rest =>
        rw [hcmds] at hs hmerges hframed
        cases hs
        obtain ⟨left, hleft, heq⟩ := carries_sendCmd { s with pendingCmds := cmd :: rest, pendingSessionCmds := [] } c rfl
          (hframed cmd rfl)
        refine ⟨left, hleft, ?_⟩
        rw [sentCmds_eq_nil (by nofun), List.nil_append, heq, hqueue]
        show Merges (commandsOf terminal (s.pendingCmds ++ s.cmds ++ [])) (commandsOf terminal (cmd :: rest ++ s.cmds))
        rw [List.append_nil]
        exact merges_commandsOf terminal (hmerges.append (Coalesces.refl s.cmds))

/-- The select. -/
theorem passes_selectStep {recv : RecvFuture} {move : ConnMove} (hphase : s.phase = .connected c)
    (hwait : c.wait = .selecting recv) (hempty : s.pendingCmds = []) (hframed : s.Framed terminal (.conn move))
    (hs : s.selectStep c recv move = some t) : s.Passes terminal (.conn move) t := by
  have hqueue : s.queue = s.pendingCmds ++ s.cmds := queue_of_wait hphase fun _ _ h => by rw [hwait] at h; cases h
  have hnothing : move ≠ .sent → Carries (s.pendingCmds ++ s.cmds) t → s.Passes terminal (.conn move) t :=
    fun hmove hcarries => passes_of_queue hmove hcarries (by rw [hqueue])
  unfold selectStep at hs
  split at hs
  · refine hnothing ConnMove.noConfusion ?_
    split at hs
    · cases hs
    · cases hs
      exact carries_finish _ true _
    · next cmd rest _ _ =>
      exact carries_sendSessionCmd (s := { s with
        sessionCmds := rest, pendingSessionCmds := s.pendingSessionCmds ++ [cmd] }) hs
  · refine hnothing ConnMove.noConfusion ?_
    split at hs
    · cases hs
      exact carries_finish s true _
    · cases hs
  · unfold Framed framing at hframed
    rw [hphase] at hframed
    dsimp only at hframed
    rw [hwait] at hframed
    dsimp only at hframed
    split at hs
    · cases hs
    · cases hcmds : s.cmds with
      | nil =>
        rw [hcmds] at hs
        cases hs
      | cons cmd cmds =>
        rw [hcmds] at hs hframed
        have hsend (hattached : cmd.terminal = terminal → s.Attached cmd) : s.Passes terminal (.conn .cmd)
            (sendCmd { s with cmds, pendingCmds := s.pendingCmds ++ [cmd] } c cmd) := by
          obtain ⟨left, hleft, heq⟩ := carries_sendCmd { s with cmds, pendingCmds := s.pendingCmds ++ [cmd] } c
            (show s.pendingCmds ++ [cmd] = cmd :: [] by rw [hempty]; rfl) hattached
          refine passes_of_queue ConnMove.noConfusion hleft ?_
          rw [heq, hqueue, hcmds, List.append_cons]
        cases cmd with
        | input terminal' bytes =>
          cases hs
          refine passes_of_queue ConnMove.noConfusion (fun _ => rfl) ?_
          rw [hqueue, hcmds, List.append_cons]
          rfl
        | resize terminal' cols rows =>
          cases hs
          exact hsend (hframed _ rfl)
        | kill terminal' =>
          cases hs
          exact hsend (hframed _ rfl)
  · split at hs
    · cases hs
    · refine hnothing ?_ (carries_recvMove hs)
      rintro rfl
      cases recv <;> cases hs

/-- A live connection. -/
theorem passes_connStep {move : ConnMove} (hfronted : s.Fronted) (horderly : s.Orderly terminal (.conn move))
    (hframed : s.Framed terminal (.conn move)) (hs : s.connStep move = some t) : s.Passes terminal (.conn move) t := by
  unfold Fronted at hfronted
  unfold connStep at hs
  split at hs
  · next c hphase =>
    rw [hphase] at hfronted
    dsimp only at hfronted
    split at hs
    · next nowMs nonce hwait => exact passes_turn hphase hwait hframed hs
    · next ciphertext after hwait =>
      have hqueue : s.queue = s.pendingCmds ++ s.cmds := queue_of_wait hphase fun _ _ h => by rw [hwait] at h; cases h
      rw [hwait] at hfronted
      cases hs
      refine passes_of_eq (fun _ => queue_of_batch rfl) ?_
      unfold sentCmds
      rw [hqueue, phase_of_wait hphase hwait]
      cases after with
      | popCmd =>
        obtain ⟨cmd, rest, hpending, hcmd⟩ := hfronted
        show commandsOf terminal (s.pendingCmds ++ s.cmds ++ []) =
          commandsOf terminal (ciphertext.frame.terminalCmd.toList ++ (s.pendingCmds.tail ++ s.cmds))
        rw [List.append_nil, hpending, hcmd]
        rfl
      | nothing | popSessionCmd => exact congrArg (commandsOf terminal) (List.append_nil _)
    · next ciphertext after e hwait =>
      have hqueue : s.queue = s.pendingCmds ++ s.cmds := queue_of_wait hphase fun _ _ h => by rw [hwait] at h; cases h
      cases hs
      exact passes_of_queue ConnMove.noConfusion (carries_finish _ true _) (by rw [hqueue]; rfl)
    · next hwait =>
      have hqueue : s.queue = s.pendingCmds ++ s.cmds := queue_of_wait hphase fun _ _ h => by rw [hwait] at h; cases h
      cases hs
      exact passes_of_queue ConnMove.noConfusion (fun _ => queue_of_batch rfl) (by rw [hqueue])
    · next cmd deferred hwait =>
      have hqueue := queue_of_batching hphase hwait
      cases hcmds : s.cmds with
      | nil =>
        rw [hcmds] at hs
        cases hs
      | cons next cmds =>
        rw [hcmds] at hs hqueue
        dsimp only at hs
        cases hmerge : tryMergeInputCommand cmd next with
        | none =>
          rw [hmerge] at hs
          cases hs
          refine passes_of_queue ConnMove.noConfusion (fun _ => rfl) ?_
          rw [hqueue]
          show _ = commandsOf terminal (s.pendingCmds ++ (cmd :: (deferred ++ [next])) ++ cmds)
          simp
        | some merged =>
          rw [hmerge] at hs
          cases hs
          unfold Orderly at horderly
          rw [hphase] at horderly
          dsimp only at horderly
          rw [hwait, hcmds] at horderly
          have hdeferred := horderly (by rw [hmerge]; rfl)
          refine ⟨_, fun _ => rfl, ?_⟩
          rw [hqueue, sentCmds_eq_nil fun h => ConnMove.noConfusion (Move.conn.inj h)]
          show Merges (commandsOf terminal (s.pendingCmds ++ (cmd :: deferred) ++ (next :: cmds) ++ []))
            (commandsOf terminal (s.pendingCmds ++ (merged :: deferred) ++ cmds))
          rw [List.append_nil, List.append_assoc, List.append_assoc, commandsOf_append,
            commandsOf_append terminal _ (merged :: deferred ++ cmds)]
          exact (Coalesces.refl _).append (merges_over hmerge hdeferred cmds)
    · next cmd deferred hwait =>
      have hqueue := queue_of_batching hphase hwait
      rw [hwait] at hfronted
      unfold Framed framing at hframed
      rw [hphase] at hframed
      dsimp only at hframed
      rw [hwait] at hframed
      cases hs
      obtain ⟨left, hleft, heq⟩ := carries_sendCmd { s with pendingCmds := s.pendingCmds ++ cmd :: deferred } c
        (show s.pendingCmds ++ cmd :: deferred = cmd :: deferred by rw [hfronted]; rfl) (hframed cmd rfl)
      exact passes_of_queue ConnMove.noConfusion hleft (by rw [heq, hqueue])
    · next recv hwait =>
      rw [hwait] at hfronted
      exact passes_selectStep hphase hwait hfronted hframed hs
    · cases hs
  · cases hs

/-! ## Runs -/

/-- **One move.** -/
theorem passes_step {move : Move} (hfronted : s.Fronted) (horderly : s.Orderly terminal move)
    (hframed : s.Framed terminal move) (hs : s.step move = some t) : s.Passes terminal move t := by
  cases move with
  | caller move =>
    refine @passes_of_eq s t terminal (.caller move) t.queue (fun _ => rfl) ?_
    rw [queue_callerStep hs, sentCmds_eq_nil (by nofun)]
    rfl
  | loop move =>
    refine passes_of_eq (carries_loopStep hs) ?_
    rw [sentCmds_eq_nil (by nofun)]
    exact congrArg (commandsOf terminal) (List.append_nil _)
  | setup move =>
    refine passes_of_eq (carries_setupStep hs) ?_
    rw [sentCmds_eq_nil (by nofun)]
    exact congrArg (commandsOf terminal) (List.append_nil _)
  | conn move => exact passes_connStep hfronted horderly hframed hs

theorem live_of_step {move : Move} (hs : s.step move = some t) : s.phase ≠ .ended := by
  intro hended
  cases move with
  | caller move =>
    simp only [step, callerStep, hended] at hs
    cases hs
  | loop move =>
    simp only [step, loopStep, hended] at hs
    cases hs
  | setup move =>
    simp only [step, setupStep, hended] at hs
    cases hs
  | conn move =>
    simp only [step, connStep, hended] at hs
    cases hs

/-- What has been given for the terminal, in terms of what has gone and what is left. -/
def InOrder (terminal : TerminalId) (s : Session) (history : List CmdEvent) : Prop :=
  ∃ rest, Carries rest s ∧ Merges (commandsOf terminal (givenOf history)) (commandsOf terminal (sentOf history ++ rest))

theorem inOrder_step {history : List CmdEvent} {move : Move} (h : s.InOrder terminal history) (hfronted : s.Fronted)
    (horderly : s.Orderly terminal move) (hframed : s.Framed terminal move) (hs : s.step move = some t) :
    t.InOrder terminal (history ++ s.cmdEvents move) := by
  obtain ⟨rest, hrest, hmerges⟩ := h
  obtain ⟨left, hleft, hpasses⟩ := passes_step hfronted horderly hframed hs
  refine ⟨left, hleft, ?_⟩
  have hgiven : givenOf (history ++ s.cmdEvents move) = givenOf history ++ givenCmds move := by
    rw [← givenOf_cmdEvents s move]
    exact List.filterMap_append
  have hsent : sentOf (history ++ s.cmdEvents move) = sentOf history ++ s.sentCmds move := by
    rw [← sentOf_cmdEvents s move]
    exact List.filterMap_append
  have hqueue : s.queue = rest := hrest (live_of_step hs)
  have hbefore := hmerges.append (Coalesces.refl (commandsOf terminal (givenCmds move)))
  rw [← hqueue, ← commandsOf_append, ← commandsOf_append, List.append_assoc, commandsOf_append terminal (sentOf history)]
    at hbefore
  rw [hgiven, hsent, List.append_assoc, commandsOf_append terminal (sentOf history)]
  exact hbefore.trans tryMerge_associative ((Coalesces.refl _).append hpasses)

/-- **Commands in order.** In a run that merges no input for a terminal past another command for it, and frames its
commands only while it is attached, the commands for it whose frames have gone, and then those on their way, are the ones
that were given, in order, with neighbouring inputs joined. -/
theorem commands_in_order (resumeToken : Option ResumeToken) (terminal : TerminalId) {moves : List Move} {s : Session}
    {history : List CmdEvent}
    (hc : Steps.Meets step (fun s move => s.Orderly terminal move ∧ s.Framed terminal move) (new resumeToken) moves)
    (hr : Steps.run (Steps.traced step cmdEvents) (new resumeToken, []) moves = some (s, history)) : ∃ rest,
      Merges (commandsOf terminal (givenOf history)) (commandsOf terminal (sentOf history) ++ rest) ∧
        (s.phase ≠ .ended → rest = commandsOf terminal s.queue) ∧
        ((commandsOf terminal (givenOf history)).flatMap TerminalCmd.bytes =
          (commandsOf terminal (sentOf history) ++ rest).flatMap TerminalCmd.bytes) := by
  have hinv : s.InOrder terminal history ∧ s.Fronted :=
    Steps.run_invariant (I := fun p : Session × List CmdEvent => p.1.InOrder terminal p.2 ∧ p.1.Fronted)
      (C := fun p move => p.1.Orderly terminal move ∧ p.1.Framed terminal move)
      (fun p move q h hc hs => by
        obtain ⟨s', h'⟩ := p
        obtain ⟨t', h''⟩ := q
        obtain ⟨hstep, rfl⟩ := Steps.traced_eq_some.mp hs
        exact ⟨inOrder_step h.1 h.2 hc.1 hc.2 hstep, fronted_step h.2 hstep⟩)
      (Steps.meets_traced hc) hr ⟨⟨[], fun _ => rfl, Coalesces.nil⟩, trivial⟩
  obtain ⟨⟨rest, hrest, hmerges⟩, _⟩ := hinv
  refine ⟨commandsOf terminal rest, ?_, fun hlive => by rw [hrest hlive], ?_⟩
  · rw [← commandsOf_append]
    exact hmerges
  · rw [← commandsOf_append]
    exact Coalesces.flatMap tryMerge_bytes hmerges

def sampleTerminal : TerminalId := ⟨.splat 3⟩

/-- A session that has opened the terminal. -/
def toOpen : List Move :=
  toSelect ++ [.caller (.command (.openTerminal sampleTerminal 0)), .conn .sessionCmd, .conn .sent, .conn (.turn 0 0),
    .conn (.poll 0 0),
    .conn (.frame (.response ⟨1, .ok (.openTerminal
      { info :=
        { terminal := sampleTerminal, cols := 80, rows := 24, createdAtUnixMs := 0, label := none,
          attachedClients := 0 }
        streamId := 1, startSeq := 0, endSeq := 0, renderBytes := [], hasMoreHistory := false })⟩) 0),
    .conn (.turn 0 0)]

/-- Two inputs and a resize, which come while the batch is open. -/
def toResize : List Move :=
  toOpen ++ [.caller (.terminalCommand (.input sampleTerminal [97])), .conn .cmd,
    .caller (.terminalCommand (.input sampleTerminal [98])), .conn .batch,
    .caller (.terminalCommand (.resize sampleTerminal 120 40)), .conn .batch]

theorem commands_in_order_sample : ∃ s history, Steps.run (Steps.traced step cmdEvents) (new none, [])
    (toResize ++ [.conn .batched, .conn .sent, .conn (.turn 0 0), .conn .sent]) = some (s, history) ∧
    ∃ rest, Merges (commandsOf sampleTerminal (givenOf history)) (commandsOf sampleTerminal (sentOf history) ++ rest) := by
  obtain ⟨s, history, hs⟩ : ∃ s history, Steps.run (Steps.traced step cmdEvents) (new none, [])
    (toResize ++ [.conn .batched, .conn .sent, .conn (.turn 0 0), .conn .sent]) = some (s, history) := ⟨_, _, rfl⟩
  obtain ⟨rest, hrest, _⟩ := commands_in_order none sampleTerminal (by decide) hs
  exact ⟨s, history, hs, rest, hrest⟩

/-- An input for a terminal that is not attached is dropped. -/
example : ¬Steps.Meets step (Framed sampleTerminal) (new none)
    (toSelect ++ [.caller (.terminalCommand (.input sampleTerminal [97])), .conn .cmd, .conn .batched]) := by decide

/-- An input behind the resize goes out before it. -/
theorem input_before_resize : ¬∀ (moves : List Move) (s : Session) (history : List CmdEvent),
    Steps.run (Steps.traced step cmdEvents) (new none, []) moves = some (s, history) → ∃ rest,
      Merges (commandsOf sampleTerminal (givenOf history)) (commandsOf sampleTerminal (sentOf history) ++ rest) := by
  intro h
  obtain ⟨s, history, hs, hgiven, hsent⟩ : ∃ s history, Steps.run (Steps.traced step cmdEvents) (new none, [])
      (toResize ++ [.caller (.terminalCommand (.input sampleTerminal [99])), .conn .batch, .conn .batched, .conn .sent,
        .conn (.turn 0 0), .conn .sent]) = some (s, history) ∧
      commandsOf sampleTerminal (givenOf history) = [.input sampleTerminal [97], .input sampleTerminal [98],
        .resize sampleTerminal 120 40, .input sampleTerminal [99]] ∧
      commandsOf sampleTerminal (sentOf history) = [.input sampleTerminal [97, 98, 99],
        .resize sampleTerminal 120 40] := ⟨_, _, rfl, rfl, rfl⟩
  obtain ⟨rest, hrest⟩ := h _ s history hs
  rw [hgiven, hsent] at hrest
  cases hrest with
  | join hj hrest =>
    obtain ⟨_, _, more, heq, rfl, hmerged⟩ := tryMerge_eq_some hj
    cases heq
    cases hmerged
    cases hrest with
    | join hj hrest =>
      obtain ⟨_, _, more, heq, rfl, hmerged⟩ := tryMerge_eq_some hj
      cases heq
      cases hmerged
      cases hrest with
      | join hj hrest =>
        obtain ⟨_, _, _, heq, _, _⟩ := tryMerge_eq_some hj
        cases heq

end Session

end CliPocket
