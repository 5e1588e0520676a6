import CliPocket.Daemon.SessionManager

/-!
# The start of a terminal's process

`Terminal::spawn` step by step. Each step may fail; one of them starts a process, and one stands behind it.

- `Terminal.spawnProcess`: the result, and the processes that have been started, with what owns them;
- `spawnProcess_eq_spawn`: `Terminal.spawn` is the same without the processes;
- `failed_spawn_is_clean_iff`: **a failed start leaves no process behind exactly if the ring takes the size of the scrollback,
  or nothing has been started.**
-/

namespace CliPocket

inductive TerminalError
  | ring (error : RingError)
  | io (message : String)
  | pty (message : String)
  | exited
  | invalidCommand
  deriving DecidableEq

/-- The text of an error, as the daemon passes it on. -/
def TerminalError.toMessage : TerminalError → String
  | .ring (.capacityTooLarge capacity) =>
    "pty: ring error: capacity " ++ toString capacity ++ " exceeds the per-terminal limit " ++ toString maxCapacityBytes
  | .io message => "pty: io error: " ++ message
  | .pty message => "pty: portable-pty error: " ++ message
  | .exited => "pty: terminal already exited"
  | .invalidCommand => "pty: command argv cannot be empty"

structure CommandBuilder where
  program : String
  args : List String
  cwd : Option String
  env : List (String × String)
  deriving DecidableEq

/-- What the system answers to the steps. -/
structure SpawnEnv where
  openpty : Except String Unit := .ok ()
  takeWriter : Except String Unit := .ok ()
  windows : Bool := false
  /-- `bootstrap_conpty_cursor_inheritance`. -/
  bootstrap : Except String Unit := .ok ()
  cloneReader : Except String Unit := .ok ()
  defaultShell : List String := ["/bin/sh"]
  spawnCommand : CommandBuilder → Except String Nat
  id : TerminalId
  now : Nat := 0

/-- What owns a process. -/
inductive ChildOwner
  /-- A terminal with its killer and its waiter. -/
  | terminal (id : TerminalId)
  /-- It has been killed and waited for. -/
  | reaped
  /-- Its handle has been dropped, which neither kills nor waits. -/
  | nobody
  deriving DecidableEq

structure ChildProcess where
  pid : Nat
  owner : ChildOwner
  deriving DecidableEq

def ChildProcess.Owned (child : ChildProcess) : Prop := child.owner ≠ .nobody

def buildCommand (defaultShell : List String) (params : TerminalCreateParams) : Except TerminalError CommandBuilder :=
  let argv := if params.cmd.isEmpty then defaultShell else params.cmd
  match argv with
  | [] => .error .invalidCommand
  | program :: args => .ok { program, args, cwd := params.cwd, env := params.env }

namespace Terminal

/-- The steps before the process. -/
def prepare (env : SpawnEnv) (params : TerminalCreateParams) : Except TerminalError CommandBuilder := do
  env.openpty.mapError .pty
  env.takeWriter.mapError .pty
  if env.windows then env.bootstrap.mapError .io
  env.cloneReader.mapError .pty
  buildCommand env.defaultShell params

/-- The process. -/
def startProcess (env : SpawnEnv) (params : TerminalCreateParams) : Except TerminalError Nat := do
  let command ← prepare env params
  (env.spawnCommand command).mapError .pty

/-- `Terminal::spawn`, with the processes that it has started. -/
def spawnProcess (env : SpawnEnv) (params : TerminalCreateParams) (scrollbackBytes : Nat) :
    Except TerminalError (TerminalId × Terminal) × List ChildProcess :=
  match startProcess env params with
  | .error error => (.error error, [])
  | .ok pid =>
    match ScrollbackRing.new (max params.cols 1) (max params.rows 1) (some scrollbackBytes) with
    | .error error => (.error (.ring error), [⟨pid, .nobody⟩])
    | .ok ring => (.ok (env.id, { createdAtUnixMs := env.now, ring }), [⟨pid, .terminal env.id⟩])

/-- What is left of the steps but for the ring. -/
def spawned (env : SpawnEnv) (params : TerminalCreateParams) : Except String TerminalId :=
  ((startProcess env params).mapError TerminalError.toMessage).map fun _ => env.id

/-- **The steps are those of `Terminal.spawn`.** -/
theorem spawnProcess_eq_spawn (env : SpawnEnv) (params : TerminalCreateParams) (scrollbackBytes : Nat) :
    (spawnProcess env params scrollbackBytes).1.mapError TerminalError.toMessage =
      spawn params scrollbackBytes (spawned env params) env.now := by
  unfold spawnProcess spawn spawned
  cases startProcess env params with
  | error error => rfl
  | ok pid =>
    cases ScrollbackRing.new (max params.cols 1) (max params.rows 1) (some scrollbackBytes) with
    | error error =>
      cases error
      rfl
    | ok ring => rfl

end Terminal

/-! ## Failures -/

/-- The moves of a call of `create` behind its start. -/
def callMoves (call : Nat) (spawned : Except String TerminalId) (title : Option String) (now : Nat) :
    List ManagerInput :=
  [.check call, .spawn call spawned now, .insert call title]

/-- A start that fails leaves no process without an owner, and a call of `create` that fails leaves the table. -/
structure CleanFailure (env : SpawnEnv) (params : TerminalCreateParams) (scrollbackBytes : Nat) : Prop where
  processes : ∀ error, (Terminal.spawnProcess env params scrollbackBytes).1 = .error error →
    ∀ child ∈ (Terminal.spawnProcess env params scrollbackBytes).2, child.Owned
  table : ∀ (m t : SessionManager) (call : Nat) (title : Option String),
    ∀ move ∈ callMoves call (Terminal.spawned env params) title env.now, m.step move = some t → ∀ message,
      t.calls[call]? = some (.returned (.error message)) → t.terminals = m.terminals

theorem new_eq_ok_iff {cols rows scrollbackBytes : Nat} :
    (∃ ring, ScrollbackRing.new cols rows (some scrollbackBytes) = .ok ring) ↔ scrollbackBytes ≤ maxCapacityBytes := by
  unfold ScrollbackRing.new
  dsimp only [Option.getD_some]
  split
  · next hlt => exact ⟨fun ⟨_, h⟩ => (nomatch h), fun hle => absurd hlt (Nat.not_lt_of_le hle)⟩
  · next hle => exact ⟨fun _ => Nat.le_of_not_lt hle, fun _ => ⟨_, rfl⟩⟩

/-- A call that fails has not come to its insertion. -/
theorem table_of_failed {m t : SessionManager} {call now : Nat} {spawned : Except String TerminalId}
    {title : Option String} {move : ManagerInput} (hmove : move ∈ callMoves call spawned title now)
    (ht : m.step move = some t) {message : String}
    (hfailed : t.calls[call]? = some (.returned (.error message))) : t.terminals = m.terminals := by
  unfold callMoves at hmove
  simp only [List.mem_cons, List.not_mem_nil, or_false] at hmove
  rcases hmove with rfl | rfl | rfl
  · simp only [SessionManager.step] at ht
    split at ht
    · split at ht <;> cases ht <;> rfl
    · cases ht
  · simp only [SessionManager.step] at ht
    split at ht
    · split at ht <;> cases ht <;> rfl
    · cases ht
  · simp only [SessionManager.step] at ht
    split at ht
    · next hcall =>
      cases ht
      have hlt : call < m.calls.length := (List.getElem?_eq_some_iff.mp hcall).1
      simp only [SessionManager.setCall, List.getElem?_set_self hlt] at hfailed
      cases hfailed
    · cases ht

/-- **Failed starts.** -/
theorem failed_spawn_is_clean_iff (env : SpawnEnv) (params : TerminalCreateParams) (scrollbackBytes : Nat) :
    CleanFailure env params scrollbackBytes ↔
      scrollbackBytes ≤ maxCapacityBytes ∨ ∃ error, Terminal.startProcess env params = .error error := by
  constructor
  · intro h
    cases hstart : Terminal.startProcess env params with
    | error error => exact .inr ⟨error, rfl⟩
    | ok pid =>
      left
      have hprocesses := h.processes
      unfold Terminal.spawnProcess at hprocesses
      rw [hstart] at hprocesses
      dsimp only at hprocesses
      cases hring : ScrollbackRing.new (max params.cols 1) (max params.rows 1) (some scrollbackBytes) with
      | ok ring => exact new_eq_ok_iff.mp ⟨ring, hring⟩
      | error error =>
        rw [hring] at hprocesses
        exact absurd rfl (hprocesses _ rfl _ (List.mem_singleton.mpr rfl))
  · intro h
    refine ⟨?_, fun m t call title move hmove ht message hfailed => table_of_failed hmove ht hfailed⟩
    unfold Terminal.spawnProcess
    rcases h with hsize | ⟨error, hstart⟩
    · obtain ⟨ring, hring⟩ := @new_eq_ok_iff (max params.cols 1) (max params.rows 1) _ |>.mpr hsize
      cases Terminal.startProcess env params with
      | error error =>
        intro _ _ child hchild
        cases hchild
      | ok pid =>
        rw [hring]
        intro _ hfailed
        cases hfailed
    · rw [hstart]
      intro _ _ child hchild
      cases hchild

def sampleSpawnEnv : SpawnEnv where
  spawnCommand _ := .ok 4242
  id := ⟨.splat 1⟩

/-- The ring refuses the size, and nothing owns the process that has been started. -/
theorem failed_spawn_leaves_process :
    Terminal.spawnProcess sampleSpawnEnv ⟨80, 24, none, [], []⟩ (maxCapacityBytes + 1) =
      (.error (.ring (.capacityTooLarge 67108865)), [⟨4242, .nobody⟩]) ∧
    ¬CleanFailure sampleSpawnEnv ⟨80, 24, none, [], []⟩ (maxCapacityBytes + 1) := by
  refine ⟨rfl, fun h => ?_⟩
  exact absurd rfl (h.processes _ rfl ⟨4242, .nobody⟩ (List.mem_singleton.mpr rfl))

end CliPocket
