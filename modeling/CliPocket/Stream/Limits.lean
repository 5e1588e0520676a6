import CliPocket.Daemon.ServerConfig
import CliPocket.Stream.Replies

/-!
# Configurations that a daemon can work with

What the file of the configuration or a client has set as the size of a scrollback, and what the requests after it make of it.

- `Daemon.Move.accepts`: the size that a move sets, if it is answered with success;
- `Daemon.Usable`: no terminal is refused because of the size, and the configuration can be asked for;
- `config_is_usable_iff`: **so it is in a state of a run exactly if the last size that was accepted is one of a ring.**
-/

namespace CliPocket

open Saturating (u32Max)
open Steps (run)

namespace Daemon

/-- The size that a request sets, if it is answered with success. -/
def acceptedSize (body : RequestBody) (env : Env) : Option Nat :=
  match body, env.saved with
  | .setServerConfig config, .ok () => some config.scrollbackBytes
  | _, _ => none

/-- The size that a move sets; `configure` is a request of another connection. -/
def Move.accepts : Move → Option Nat
  | .frame (.request request) env => acceptedSize request.body env
  | .configure scrollbackBytes => some scrollbackBytes
  | _ => none

/-- The last size that was accepted, `initial` by the file. -/
def lastAccepted (initial : Nat) (moves : List Move) : Nat := moves.foldl (fun size move => move.accepts.getD size) initial

/-- The size of the scrollback refuses no terminal, and can be told. -/
structure Usable (d : Daemon) : Prop where
  create : ∀ params : TerminalCreateParams, ∃ ring,
    ScrollbackRing.new (max params.cols 1) (max params.rows 1) (some d.scrollbackBytes) = .ok ring
  get : ∀ id env, ∃ config, (d.handleRequest ⟨id, .getServerConfig⟩ env).2 = okResponse id (.getServerConfig config)

variable {d e : Daemon}

/-! ## What sets the size -/

theorem handleRequest_accepts (d : Daemon) (request : RequestFrame) (env : Env) :
    (d.handleRequest request env).1.scrollbackBytes = (acceptedSize request.body env).getD d.scrollbackBytes := by
  obtain ⟨id, body⟩ := request
  cases body with
  | setServerConfig config =>
    unfold handleRequest acceptedSize
    dsimp only
    cases env.saved <;> rfl
  | createTerminal params =>
    unfold handleRequest
    dsimp only
    split
    · next hcreate => exact (create_limits hcreate).2
    · rfl
  | _ =>
    refine (handleRequest_limits d _ env).2.resolve_right ?_
    rintro ⟨_, hbody, _⟩
    cases hbody

theorem receiveFrame_accepts {frame : FrameBody} {env : Env} {reply : Option FrameBody}
    (h : d.receiveFrame frame env = some (e, reply)) :
    e.scrollbackBytes = (Move.frame frame env).accepts.getD d.scrollbackBytes := by
  unfold receiveFrame at h
  split at h
  · split at h
    · next id terminalId =>
      unfold openStart at h
      split at h
      · next hopen =>
        split at hopen
        · cases hopen
          cases h
          rfl
        · cases hopen
          cases h
          rfl
    · next request _ =>
      cases h
      exact handleRequest_accepts d request env
    · cases h
      rfl
    · cases h
      rfl
    · next hrequest _ _ =>
      cases h
      cases frame with
      | request request => exact absurd rfl (hrequest request)
      | _ => rfl
  · cases h

/-- **One move.** -/
theorem step_accepts {move : Move} (h : d.step move = some e) :
    e.scrollbackBytes = move.accepts.getD d.scrollbackBytes := by
  obtain ⟨⟨e, reply⟩, hserve, rfl⟩ := Option.map_eq_some_iff.mp h
  cases move with
  | frame frame env =>
    unfold serve at hserve
    dsimp only at hserve
    split at hserve
    · exact receiveFrame_accepts hserve
    · cases hserve
  | openStep =>
    obtain ⟨⟨e, reply⟩, hopen, heq⟩ := Option.map_eq_some_iff.mp hserve
    cases heq
    obtain ⟨_, _, _, _, _, _, rfl, rfl⟩ | ⟨_, _, _, _, _, _, _, rfl, rfl⟩ | ⟨_, _, _, _, _, _, ⟨rfl, rfl⟩ | ⟨_, _, rfl, rfl⟩⟩ |
      ⟨_, _, _, _, _, _, _, _, _, rfl, rfl⟩ := openStep_cases hopen
    all_goals rfl
  | output =>
    obtain ⟨⟨e, data⟩, houtput, heq⟩ := Option.map_eq_some_iff.mp hserve
    cases heq
    obtain ⟨_, _, _, _, rfl, _⟩ := output_cases houtput
    rfl
  | receive i =>
    obtain ⟨e, hreceive, heq⟩ := Option.map_eq_some_iff.mp hserve
    cases heq
    obtain ⟨_, _, _, _, _, _, _, _, _, rfl⟩ := forwarderReceive_cases hreceive
    rfl
  | enqueue i =>
    obtain ⟨e, henqueue, heq⟩ := Option.map_eq_some_iff.mp hserve
    cases heq
    obtain ⟨_, _, _, _, _, _, rfl⟩ := forwarderEnqueue_cases henqueue
    rfl
  | cancel i =>
    obtain ⟨e, hcancel, heq⟩ := Option.map_eq_some_iff.mp hserve
    cases heq
    obtain ⟨_, _, _, rfl⟩ := forwarderCancel_cases hcancel
    rfl
  | terminal id move =>
    unfold serve at hserve
    dsimp only at hserve
    split at hserve
    · cases hserve
    · obtain ⟨t, _, heq⟩ := Option.map_eq_some_iff.mp hserve
      cases heq
      rfl
  | create params env =>
    unfold serve at hserve
    dsimp only at hserve
    split at hserve
    · split at hserve
      · next hcreate =>
        cases hserve
        exact (create_limits hcreate).2
      · cases hserve
    · cases hserve
  | configure scrollbackBytes =>
    cases hserve
    rfl

/-- **A run.** -/
theorem run_accepts : ∀ {moves : List Move} {d e : Daemon}, run step d moves = some e →
    e.scrollbackBytes = lastAccepted d.scrollbackBytes moves
  | [], d, e, h => by
    cases h
    rfl
  | move :: moves, d, e, h => by
    obtain ⟨m, hm, hr⟩ := Steps.run_cons_some h
    rw [run_accepts hr, step_accepts hm]
    rfl

/-! ## What the size is good for -/

theorem usable_iff (d : Daemon) : d.Usable ↔ d.scrollbackBytes ≤ maxCapacityBytes := by
  constructor
  · intro h
    obtain ⟨ring, hring⟩ := h.create ⟨0, 0, none, [], []⟩
    unfold ScrollbackRing.new at hring
    dsimp only [Option.getD_some] at hring
    split at hring
    · cases hring
    · next hle => exact Nat.le_of_not_lt hle
  · intro h
    have hu32 : d.scrollbackBytes ≤ u32Max := Nat.le_trans h (by decide)
    refine ⟨fun params => ?_, fun id env => ?_⟩
    · unfold ScrollbackRing.new
      exact ⟨_, if_neg (Nat.not_lt_of_le h)⟩
    · unfold handleRequest serverConfig
      dsimp only
      rw [if_pos hu32]
      exact ⟨_, rfl⟩

/-- A terminal is refused by the limit, or by the system. -/
theorem create_of_usable (h : d.Usable) {params : TerminalCreateParams} {env : Env} {id : TerminalId}
    (hroom : d.registered.length < d.maxTerminals) (hspawned : env.spawned = .ok id) :
    ∃ e info, d.create params env = .ok (e, info) := by
  obtain ⟨ring, hring⟩ := h.create params
  unfold create
  rw [if_neg (Nat.not_le_of_lt hroom), hspawned]
  dsimp only
  rw [hring]
  exact ⟨_, _, rfl⟩

/-- A daemon that has loaded its configuration. -/
def boot {Path : Type} (config : SharedConfig Path) (maxTerminals : Nat) : Daemon :=
  { maxTerminals, scrollbackBytes := config.file.scrollbackBytes }

/-- **Accepted sizes.** A daemon that has loaded its configuration is usable exactly if the last size that was accepted, by
the file or by `SetServerConfig`, is one that a ring takes. A file is accepted with any size (`ConfigHost.load_update`). -/
theorem config_is_usable_iff {Path : Type} (config : SharedConfig Path) (maxTerminals : Nat) {moves : List Move}
    (hr : run step (boot config maxTerminals) moves = some d) :
    d.Usable ↔ lastAccepted config.file.scrollbackBytes moves ≤ maxCapacityBytes := by
  rw [usable_iff, run_accepts hr]
  rfl

def sampleConfig : SharedConfig Unit where
  file := { daemon := { relay := { baseUrl := "", pskHex := "" }, app := { baseUrl := "" } }, scrollbackBytes := 4194304 }
  configPath := none

/-- A client asks for a scrollback of that size. -/
def asking (scrollbackBytes : Nat) : List Move := [.frame (.request ⟨1, .setServerConfig ⟨scrollbackBytes⟩⟩) Talk.sampleEnv]

theorem config_is_usable_sample : ∃ d, run step (boot sampleConfig 8) (asking 8) = some d ∧ d.Usable := by
  have hsize : lastAccepted sampleConfig.file.scrollbackBytes (asking 8) ≤ maxCapacityBytes := by decide
  exact ⟨_, rfl, (config_is_usable_iff sampleConfig 8 rfl).mpr hsize⟩

/-- A size above that of a ring is accepted; no terminal can be created then. -/
theorem large_size_is_accepted : ∃ d e, run step (boot sampleConfig 8) (asking (maxCapacityBytes + 1)) = some d ∧
    (boot sampleConfig 8).serve (.frame (.request ⟨1, .setServerConfig ⟨maxCapacityBytes + 1⟩⟩) Talk.sampleEnv) =
      some (d, some (.response (okResponse 1 (.setServerConfig ⟨maxCapacityBytes + 1⟩)))) ∧
    ¬d.Usable ∧
    d.serve (.frame (.request ⟨2, .createTerminal ⟨80, 24, none, [], []⟩⟩)
      { Talk.sampleEnv with spawned := .ok (Talk.sampleId 1) }) = some (e, some (.response (otherResponse 2
        "pty: ring error: capacity 67108865 exceeds the per-terminal limit 67108864"))) := by
  refine ⟨_, _, rfl, rfl, fun h => ?_, rfl⟩
  exact absurd ((usable_iff _).mp h) (by decide)

end Daemon

end CliPocket
