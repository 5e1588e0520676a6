import CliPocket.Lib.Steps
import CliPocket.Lib.WriteBehind

/-!
# The saved servers

The registry of servers in the front end, which saves itself on every change and waits for no save; and the start of the
host, which loads what was saved before.

- `SavedServers.step`: one change, one step of the start, or the end of a save;
- `Quiet`: the start is over, and no save is in flight;
- `Kept`: what is stored is what is in memory, and has every server that is to be kept;
- `saved_servers_kept`: **so it is, in every run in which nothing changes before the load has ended, the load of what is
  stored does not fail, and no save is overtaken or lost.**
-/

namespace CliPocket.App

open Steps (run Meets)

inductive DaemonTarget
  | direct (endpointUrl : String)
  | relay (serverPublicHex serverId relayUrl relayPskHex : String)
  deriving DecidableEq

structure DaemonRecord where
  id : String
  label : String
  resumeTokenHex : Option String := none
  lastConnectedAt : Option Nat := none
  target : DaemonTarget
  deriving DecidableEq

/-- What the registry holds, and what is saved of it. -/
structure PersistedDaemonRegistry where
  daemons : List DaemonRecord
  selectedDaemonId : Option String
  deriving DecidableEq

/-- `emptyPersistedDaemonRegistry`. -/
def PersistedDaemonRegistry.empty : PersistedDaemonRegistry := ⟨[], none⟩

/-! ## Changes -/

inductive RegistryChange
  | upsertDaemon (daemon : DaemonRecord)
  | updateDaemonLabel (id label : String)
  | selectDaemon (id : Option String)
  | removeDaemon (id : String)

namespace RegistryChange

/-- What a change does to the servers. -/
def daemons (daemons : List DaemonRecord) : RegistryChange → List DaemonRecord
  | upsertDaemon daemon =>
    match daemons.findIdx? fun item => item.id = daemon.id with
    | none => daemons ++ [daemon]
    | some existing => daemons.set existing daemon
  | updateDaemonLabel id label => daemons.map fun daemon => if daemon.id = id then { daemon with label } else daemon
  | selectDaemon _ => daemons
  | removeDaemon id => daemons.filter fun daemon => daemon.id ≠ id

def apply (state : PersistedDaemonRegistry) (change : RegistryChange) : PersistedDaemonRegistry where
  daemons := change.daemons state.daemons
  selectedDaemonId := match change with
    | selectDaemon id => id
    | removeDaemon id =>
      if state.selectedDaemonId = some id then (change.daemons state.daemons).head?.map DaemonRecord.id
      else state.selectedDaemonId
    | upsertDaemon _ | updateDaemonLabel _ _ => state.selectedDaemonId

end RegistryChange

/-! ## The embedded daemon -/

def localDaemonId : String := "local-daemon"

structure EmbeddedDaemon where
  endpointUrl : String
  label : String

/-- `cli_pocket_load_daemon_registry` of the desktop: what is stored, with the embedded daemon. -/
def EmbeddedDaemon.embed (embedded : EmbeddedDaemon) (daemons : List DaemonRecord) : List DaemonRecord :=
  match daemons.findIdx? fun daemon => daemon.id = localDaemonId with
  | some i => daemons.modify i fun daemon =>
    { daemon with
      label := embedded.label
      target := match daemon.target with
        | .direct _ => .direct embedded.endpointUrl
        | relay => relay }
  | none => daemons ++ [{ id := localDaemonId, label := embedded.label, target := .direct embedded.endpointUrl }]

/-! ## The store, its persistence and the start of the host -/

/-- How far `bootstrap` has come. -/
inductive Bootstrap
  | idle
  /-- `registry.load()` is awaited; `loaded` is what it will return. -/
  | loading (loaded : Option (Except String (Option PersistedDaemonRegistry)))
  /-- `host.localEndpoint()` is awaited. -/
  | registering
  | done
  deriving DecidableEq

/-- How a save ends; `unflushed` is kept by the store, but not in its file. -/
inductive SaveOutcome
  | written
  | unflushed
  | lost
  deriving DecidableEq

structure SavedServers where
  state : PersistedDaemonRegistry := .empty
  /-- `persistence` is set. -/
  persistence : Bool := false
  skipNextPersist : Bool := false
  /-- There is an embedded daemon. -/
  host : Bool
  selectedServerId : Option String := none
  bootstrap : Bootstrap := .idle
  /-- What the store of keys and values has in memory. -/
  memory : Option PersistedDaemonRegistry
  /-- The file of the store, and the saves on their way to it. -/
  file : WriteBehind (Option PersistedDaemonRegistry)
  /-- The servers that were stored before the start, with every change since. -/
  owed : List DaemonRecord

namespace SavedServers

inductive Move
  | change (change : RegistryChange)
  | setSelectedServerId (id : Option String)
  | start
  | read (result : Except String (Option EmbeddedDaemon))
  | restored
  | localEndpoint (result : Except String String)
  | complete (i : Nat) (outcome : SaveOutcome)

/-- The state is set, and the subscriber called. -/
def set (s : SavedServers) (state : PersistedDaemonRegistry) : SavedServers :=
  if s.skipNextPersist then { s with state, skipNextPersist := false }
  else if s.persistence then { s with state, file := s.file.issue (some state) }
  else { s with state }

def change (s : SavedServers) (change : RegistryChange) : SavedServers :=
  { s.set (change.apply s.state) with owed := change.daemons s.owed }

def hydratePersistedState (s : SavedServers) (state : PersistedDaemonRegistry) : SavedServers :=
  { s with skipNextPersist := true }.set state

def reconcileSelectedServer (s : SavedServers) : SavedServers :=
  let fallbackServerId := s.state.selectedDaemonId.or (s.state.daemons.head?.map DaemonRecord.id)
  let selectedServerStillExists := s.state.daemons.any fun daemon => some daemon.id = s.selectedServerId
  let reconciled :=
    if !selectedServerStillExists && s.selectedServerId ≠ fallbackServerId then
      { s with selectedServerId := fallbackServerId }
    else s
  if s.state.selectedDaemonId = none ∧ fallbackServerId ≠ none then reconciled.change (.selectDaemon fallbackServerId)
  else reconciled

/-- What a load has returned is taken over; a load that has failed has returned nothing. -/
def hydrated : Except String (Option PersistedDaemonRegistry) → PersistedDaemonRegistry
  | .ok (some state) => state
  | .ok none | .error _ => .empty

/-- `registerEmbeddedDaemon`, when it has the endpoint. -/
def registerEmbeddedDaemon (s : SavedServers) (endpointUrl : String) : SavedServers :=
  let existing := s.state.daemons.find? fun daemon => daemon.id = localDaemonId
  let registered := s.change (.upsertDaemon
    { id := localDaemonId
      label := (existing.map DaemonRecord.label).getD "Local"
      target := .direct endpointUrl
      resumeTokenHex := existing.bind DaemonRecord.resumeTokenHex
      lastConnectedAt := existing.bind DaemonRecord.lastConnectedAt })
  if s.selectedServerId = none ∧ registered.state.selectedDaemonId = none then
    { registered.change (.selectDaemon (some localDaemonId)) with selectedServerId := some localDaemonId }
  else registered

/-- A save ends. -/
def complete (s : SavedServers) (i : Nat) (outcome : SaveOutcome) : Option SavedServers :=
  s.file.inFlight[i]?.bind fun (_, saved) =>
    match outcome with
    | .written => (s.file.land i).map fun file => { s with memory := saved, file }
    | .unflushed => (s.file.lose i).map fun file => { s with memory := saved, file }
    | .lost => (s.file.lose i).map fun file => { s with file }

def step (s : SavedServers) : Move → Option SavedServers
  | .change change => some (s.change change)
  | .setSelectedServerId id => some { s with selectedServerId := id }
  | .start => match s.bootstrap with
    | .idle => some { s with persistence := true, bootstrap := .loading none }
    | _ => none
  | .read result => match s.bootstrap with
    | .loading none =>
      match result, s.host with
      | .error message, _ => some { s with bootstrap := .loading (some (.error message)) }
      | .ok none, false => some { s with bootstrap := .loading (some (.ok s.memory)) }
      | .ok (some embedded), true =>
        let stored := s.memory.getD .empty
        let loaded := { stored with daemons := embedded.embed stored.daemons }
        some { s with bootstrap := .loading (some (.ok (some loaded))), owed := embedded.embed s.owed }
      | _, _ => none
    | _ => none
  | .restored => match s.bootstrap with
    | .loading (some result) =>
      some { (s.hydratePersistedState (hydrated result)).reconcileSelectedServer with
        bootstrap := if s.host then .registering else .done }
    | _ => none
  | .localEndpoint result => match s.bootstrap with
    | .registering => match result with
      | .ok endpointUrl => some { s.registerEmbeddedDaemon endpointUrl with bootstrap := .done }
      | .error _ => some { s with bootstrap := .done }
    | _ => none
  | .complete i outcome => s.complete i outcome

/-- Before the start. -/
def new (stored : Option PersistedDaemonRegistry) (host : Bool) : SavedServers where
  host
  memory := stored
  file := { stored }
  owed := (stored.getD .empty).daemons

/-- The start is over, and no save is in flight. -/
def Quiet (s : SavedServers) : Prop := s.bootstrap = .done ∧ s.file.inFlight = []

/-- What is stored is what is in memory, and has every server that is to be kept. -/
def Kept (s : SavedServers) : Prop :=
  s.file.stored.getD .empty = s.state ∧ ∀ daemon ∈ s.owed, daemon ∈ (s.file.stored.getD .empty).daemons

/-- Nothing changes before the load has ended; a load fails only if nothing is stored; what a load has added is saved before
the start is over; and no save is overtaken by a later one, or lost without one. -/
def Orderly (s : SavedServers) : Move → Prop
  | .change _ => s.bootstrap = .registering ∨ s.bootstrap = .done
  | .read (.error _) => s.memory.getD .empty = .empty
  | .localEndpoint (.error _) => s.file.issued ≠ 0 ∨ s.file.stored.getD .empty = s.state
  | .complete i .written => s.file.InOrder i
  | .complete i _ => s.file.Superseded i
  | _ => True

/-! ## What the steps keep -/

variable {s t : SavedServers}

/-- Nothing has been saved yet. -/
structure Untouched (s : SavedServers) : Prop where
  issued : s.file.issued = 0
  tracks : s.file.Tracks s.memory

/-- The load is over. -/
structure Live (s : SavedServers) : Prop where
  persistence : s.persistence = true
  skip : s.skipNextPersist = false
  numbered : s.file.Numbered
  owed : s.state.daemons = s.owed

/-- The latest save is of what is in memory. -/
def Synced (s : SavedServers) : Prop := ∃ v, s.file.Tracks v ∧ v.getD .empty = s.state

/-- It is, or there has been no save. -/
def Syncing (s : SavedServers) : Prop := ∃ v, s.file.Tracks v ∧ (s.file.issued ≠ 0 → v.getD .empty = s.state)

/-- What is known at each stage of the start. -/
def Sound (s : SavedServers) : Prop :=
  match s.bootstrap with
  | .idle => s.Untouched ∧ s.skipNextPersist = false ∧ s.owed = (s.memory.getD .empty).daemons
  | .loading none =>
    s.Untouched ∧ s.skipNextPersist = false ∧ s.persistence = true ∧ s.owed = (s.memory.getD .empty).daemons
  | .loading (some result) =>
    s.Untouched ∧ s.skipNextPersist = false ∧ s.persistence = true ∧ s.owed = (hydrated result).daemons ∧
      (s.host = false → hydrated result = s.memory.getD .empty)
  | .registering => s.Live ∧ s.Syncing
  | .done => s.Live ∧ s.Synced

theorem sound_new (stored : Option PersistedDaemonRegistry) (host : Bool) : Sound (new stored host) :=
  ⟨⟨rfl, WriteBehind.tracks_new stored⟩, rfl, rfl⟩

theorem Synced.syncing (h : s.Synced) : s.Syncing := by
  obtain ⟨v, htracks, heq⟩ := h
  exact ⟨v, htracks, fun _ => heq⟩

/-- With the persistence set, every change is saved. -/
theorem Live.change (h : s.Live) (change : RegistryChange) : s.change change =
    { s with
      state := change.apply s.state
      file := s.file.issue (some (change.apply s.state))
      owed := change.daemons s.owed } := by
  unfold SavedServers.change set
  rw [h.skip, h.persistence]
  rfl

theorem Live.live_change (h : s.Live) (change : RegistryChange) : (s.change change).Live := by
  rw [h.change]
  refine ⟨h.persistence, h.skip, h.numbered.issue _, ?_⟩
  show change.daemons s.state.daemons = change.daemons s.owed
  rw [h.owed]

theorem Live.synced_change (h : s.Live) (change : RegistryChange) : (s.change change).Synced := by
  rw [h.change]
  exact ⟨_, h.numbered.tracks_issue _, rfl⟩

theorem change_bootstrap (s : SavedServers) (change : RegistryChange) : (s.change change).bootstrap = s.bootstrap := by
  unfold SavedServers.change set
  split
  · rfl
  · split <;> rfl

/-- The selection is saved, or nothing is. -/
theorem Live.reconcile (h : s.Live) : s.reconcileSelectedServer.Live ∧ (s.reconcileSelectedServer.Synced ∨
    (s.reconcileSelectedServer.file = s.file ∧ s.reconcileSelectedServer.state = s.state)) := by
  have hselect : ∀ id, Live { s with selectedServerId := id } := fun _ => ⟨h.persistence, h.skip, h.numbered, h.owed⟩
  unfold reconcileSelectedServer
  dsimp only
  split
  · split
    · exact ⟨(hselect _).live_change _, .inl ((hselect _).synced_change _)⟩
    · exact ⟨h.live_change _, .inl (h.synced_change _)⟩
  · split
    · exact ⟨hselect _, .inr ⟨rfl, rfl⟩⟩
    · exact ⟨h, .inr ⟨rfl, rfl⟩⟩

theorem Live.register (h : s.Live) (endpointUrl : String) :
    (s.registerEmbeddedDaemon endpointUrl).Live ∧ (s.registerEmbeddedDaemon endpointUrl).Synced := by
  unfold registerEmbeddedDaemon
  dsimp only
  generalize RegistryChange.upsertDaemon _ = registration
  split
  · have hlive := (h.live_change registration).live_change (.selectDaemon (some localDaemonId))
    have hsynced := (h.live_change registration).synced_change (.selectDaemon (some localDaemonId))
    exact ⟨⟨hlive.persistence, hlive.skip, hlive.numbered, hlive.owed⟩, hsynced⟩
  · exact ⟨h.live_change _, h.synced_change _⟩

/-- A save ends. -/
theorem complete_cases {i : Nat} {outcome : SaveOutcome} (h : s.complete i outcome = some t) : ∃ memory file,
    t = { s with memory, file } ∧ s.file.inFlight ≠ [] ∧ file.issued = s.file.issued ∧
      (Orderly s (.complete i outcome) → ∀ v, s.file.Tracks v → file.Tracks v) := by
  obtain ⟨⟨n, saved⟩, hsaved, h⟩ := Option.bind_eq_some_iff.mp h
  have hne : s.file.inFlight ≠ [] := by
    intro hnil
    rw [hnil] at hsaved
    cases hsaved
  have hissued : ∀ {file}, s.file.land i = some file ∨ s.file.lose i = some file → file.issued = s.file.issued := by
    rintro file (hfile | hfile)
    all_goals
      obtain ⟨_, _, rfl⟩ := Option.map_eq_some_iff.mp hfile
      rfl
  cases outcome with
  | written =>
    obtain ⟨file, hfile, rfl⟩ := Option.map_eq_some_iff.mp h
    exact ⟨_, _, rfl, hne, hissued (.inl hfile), fun horderly v hv => hv.land horderly hfile⟩
  | unflushed =>
    obtain ⟨file, hfile, rfl⟩ := Option.map_eq_some_iff.mp h
    exact ⟨_, _, rfl, hne, hissued (.inr hfile), fun horderly v hv => hv.lose horderly hfile⟩
  | lost =>
    obtain ⟨file, hfile, rfl⟩ := Option.map_eq_some_iff.mp h
    exact ⟨_, _, rfl, hne, hissued (.inr hfile), fun horderly v hv => hv.lose horderly hfile⟩

theorem Untouched.quiet (h : s.Untouched) : s.file.inFlight = [] := h.tracks.inFlight_eq_nil h.issued

theorem sound_complete {i : Nat} {outcome : SaveOutcome} (h : s.Sound) (horderly : Orderly s (.complete i outcome))
    (ht : s.complete i outcome = some t) : t.Sound := by
  obtain ⟨memory, file, rfl, hflight, hissued, htracks⟩ := complete_cases ht
  unfold Sound at h ⊢
  dsimp only
  split at h
  · exact absurd h.1.quiet hflight
  · exact absurd h.1.quiet hflight
  · exact absurd h.1.quiet hflight
  · obtain ⟨hlive, v, hv, heq⟩ := h
    refine ⟨⟨hlive.persistence, hlive.skip, (htracks horderly v hv).toNumbered, hlive.owed⟩, v, htracks horderly v hv, ?_⟩
    rw [hissued]
    exact heq
  · obtain ⟨hlive, v, hv, heq⟩ := h
    exact ⟨⟨hlive.persistence, hlive.skip, (htracks horderly v hv).toNumbered, hlive.owed⟩, v, htracks horderly v hv, heq⟩

/-- The load settles: what it has returned is in memory, and is what is stored, but for the embedded daemon. -/
theorem sound_restored {result : Except String (Option PersistedDaemonRegistry)} (h : s.Sound)
    (hbootstrap : s.bootstrap = .loading (some result)) :
    Sound { (s.hydratePersistedState (hydrated result)).reconcileSelectedServer with
      bootstrap := if s.host then .registering else .done } := by
  unfold Sound at h
  rw [hbootstrap] at h
  obtain ⟨huntouched, hskip, hpersistence, howed, hstored⟩ := h
  have hlive : Live (s.hydratePersistedState (hydrated result)) :=
    ⟨hpersistence, rfl, huntouched.tracks.toNumbered, howed.symm⟩
  obtain ⟨hreconciled, hsaved⟩ := hlive.reconcile
  have hlive' : ∀ bootstrap, Live { (s.hydratePersistedState (hydrated result)).reconcileSelectedServer with bootstrap } :=
    fun _ => ⟨hreconciled.persistence, hreconciled.skip, hreconciled.numbered, hreconciled.owed⟩
  unfold Sound
  dsimp only
  cases hhost : s.host with
  | true =>
    refine ⟨hlive' _, ?_⟩
    rcases hsaved with hsynced | ⟨hfile, _⟩
    · exact hsynced.syncing
    · refine ⟨s.memory, ?_, fun hissued => absurd ?_ hissued⟩
      · dsimp only
        rw [hfile]
        exact huntouched.tracks
      · dsimp only
        rw [hfile]
        exact huntouched.issued
  | false =>
    refine ⟨hlive' _, ?_⟩
    rcases hsaved with hsynced | ⟨hfile, hstate⟩
    · exact hsynced
    · refine ⟨s.memory, ?_, ?_⟩
      · dsimp only
        rw [hfile]
        exact huntouched.tracks
      · dsimp only
        rw [hstate]
        exact (hstored hhost).symm

theorem sound_read {result : Except String (Option EmbeddedDaemon)} (h : s.Sound) (horderly : Orderly s (.read result))
    (ht : s.step (.read result) = some t) : t.Sound := by
  simp only [step] at ht
  split at ht
  · next hbootstrap =>
    unfold Sound at h
    rw [hbootstrap] at h
    obtain ⟨huntouched, hskip, hpersistence, howed⟩ := h
    have huntouched' : ∀ bootstrap owed, Untouched { s with bootstrap, owed } := fun _ _ =>
      ⟨huntouched.issued, huntouched.tracks⟩
    split at ht
    · cases ht
      refine ⟨huntouched' _ _, hskip, hpersistence, ?_, fun _ => horderly.symm⟩
      rw [howed, show s.memory.getD .empty = .empty from horderly]
      rfl
    · cases ht
      refine ⟨huntouched' _ _, hskip, hpersistence, ?_, fun _ => ?_⟩
      · rw [howed]
        cases s.memory <;> rfl
      · dsimp only
        cases s.memory <;> rfl
    · next hhost =>
      cases ht
      refine ⟨huntouched' _ _, hskip, hpersistence, ?_, fun hnone => ?_⟩
      · dsimp only
        rw [howed]
        rfl
      · exact absurd (hhost.symm.trans hnone) (by decide)
    · cases ht
  · cases ht

/-- **One step.** -/
theorem sound_step {move : Move} (h : s.Sound) (horderly : Orderly s move) (ht : s.step move = some t) : t.Sound := by
  cases move with
  | change change =>
    cases ht
    unfold Sound at h ⊢
    rw [change_bootstrap]
    rcases horderly with hbootstrap | hbootstrap
    · rw [hbootstrap] at h ⊢
      exact ⟨h.1.live_change change, (h.1.synced_change change).syncing⟩
    · rw [hbootstrap] at h ⊢
      exact ⟨h.1.live_change change, h.1.synced_change change⟩
  | setSelectedServerId id =>
    cases ht
    unfold Sound at h ⊢
    dsimp only
    have huntouched : s.Untouched → Untouched { s with selectedServerId := id } := fun h => ⟨h.issued, h.tracks⟩
    have hlive : s.Live → Live { s with selectedServerId := id } := fun h => ⟨h.persistence, h.skip, h.numbered, h.owed⟩
    split at h
    · exact ⟨huntouched h.1, h.2⟩
    · exact ⟨huntouched h.1, h.2⟩
    · exact ⟨huntouched h.1, h.2⟩
    · exact ⟨hlive h.1, h.2⟩
    · exact ⟨hlive h.1, h.2⟩
  | start =>
    simp only [step] at ht
    split at ht
    · next hbootstrap =>
      cases ht
      unfold Sound at h
      rw [hbootstrap] at h
      obtain ⟨huntouched, hskip, howed⟩ := h
      exact ⟨⟨huntouched.issued, huntouched.tracks⟩, hskip, rfl, howed⟩
    · cases ht
  | read result => exact sound_read h horderly ht
  | restored =>
    simp only [step] at ht
    split at ht
    · next result hbootstrap =>
      cases ht
      exact sound_restored h hbootstrap
    · cases ht
  | localEndpoint result =>
    simp only [step] at ht
    split at ht
    · next hbootstrap =>
      unfold Sound at h
      rw [hbootstrap] at h
      obtain ⟨hlive, v, hv, heq⟩ := h
      split at ht
      · next endpointUrl =>
        cases ht
        obtain ⟨hregistered, hsynced⟩ := hlive.register endpointUrl
        exact ⟨⟨hregistered.persistence, hregistered.skip, hregistered.numbered, hregistered.owed⟩, hsynced⟩
      · cases ht
        refine ⟨⟨hlive.persistence, hlive.skip, hlive.numbered, hlive.owed⟩, v, hv, ?_⟩
        by_cases hissued : s.file.issued = 0
        · rw [← hv.stored_eq (hv.inFlight_eq_nil hissued)]
          exact horderly.resolve_left fun hne => hne hissued
        · exact heq hissued
    · cases ht
  | complete i outcome => exact sound_complete h horderly ht

/-- **The saved servers are kept.** -/
theorem saved_servers_kept (stored : Option PersistedDaemonRegistry) (host : Bool) {moves : List Move}
    (hm : Meets step Orderly (new stored host) moves) (hr : run step (new stored host) moves = some s) (hquiet : s.Quiet) :
    s.Kept := by
  have hsound : s.Sound := Steps.run_invariant (fun _ _ _ h hmove hs => sound_step h hmove hs) hm hr (sound_new stored host)
  unfold Sound at hsound
  rw [hquiet.1] at hsound
  obtain ⟨hlive, v, hv, heq⟩ := hsound
  have hstored : s.file.stored.getD .empty = s.state := by rw [hv.stored_eq hquiet.2, heq]
  refine ⟨hstored, ?_⟩
  rw [hstored, hlive.owed]
  exact fun _ h => h

instance (s : SavedServers) (move : Move) : Decidable (Orderly s move) := by
  unfold Orderly
  split <;> infer_instance

def sampleRecord (id : String) : DaemonRecord := { id, label := id, target := .direct "ws://127.0.0.1:7842/session" }

def sampleStored : PersistedDaemonRegistry := ⟨[sampleRecord "saved"], some "saved"⟩

/-- Two changes behind the load; the second save supersedes the first, which is lost. -/
def savingMoves : List Move :=
  [.start, .read (.ok none), .restored, .change (.upsertDaemon (sampleRecord "new")), .change (.updateDaemonLabel "new" "Work"),
    .complete 0 .lost, .complete 0 .written]

theorem saved_servers_kept_sample :
    ∃ s, run step (new (some sampleStored) false) savingMoves = some s ∧ s.Quiet ∧ s.Kept ∧ s.owed.length = 2 := by
  have hm : Meets step Orderly (new (some sampleStored) false) savingMoves := by decide
  exact ⟨_, rfl, ⟨rfl, rfl⟩, saved_servers_kept (some sampleStored) false hm rfl ⟨rfl, rfl⟩, rfl⟩

/-- The load fails, and the next change overwrites what is stored. -/
theorem failed_load_overwrites : ∃ s, run step (new (some sampleStored) false)
    [.start, .read (.error "store.json"), .restored, .change (.upsertDaemon (sampleRecord "new")), .complete 0 .written] =
      some s ∧ s.Quiet ∧ ¬ s.Kept ∧ sampleRecord "saved" ∈ s.owed ∧
      s.file.stored = some ⟨[sampleRecord "new"], none⟩ := by
  refine ⟨_, rfl, ⟨rfl, rfl⟩, ?_, by decide, rfl⟩
  intro hkept
  exact absurd (hkept.2 (sampleRecord "saved") (by decide)) (by decide)

/-- A save is overtaken by a later one. -/
example : ∃ s, run step (new none false)
    [.start, .read (.ok none), .restored, .change (.upsertDaemon (sampleRecord "new")), .change (.removeDaemon "new"),
      .complete 1 .written, .complete 0 .written] = some s ∧ s.file.stored.getD .empty ≠ s.state :=
  ⟨_, rfl, by decide⟩

end SavedServers

end CliPocket.App
