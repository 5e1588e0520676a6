import CliPocket.Daemon.Config
import CliPocket.Lib.Saturating
import CliPocket.Lib.Steps
import CliPocket.Proto.Terminal
import Mathlib.Logic.Function.Basic

/-!
# The server's configuration

The configuration file and the copies of it in memory: the one that a process has loaded, and the one that each of its
daemons shares with its connections. A process boots one daemon, or, as the embedded runtime, one after another; the
connections of a daemon that has been shut down live on.

- `ConfigHost.loadOrCreate`, `clone`, `save`, `store`: `load_or_create_config_with_template` and the three parts of
  `apply_server_config_update`;
- `ConfigHost.step`: one move of a process, of a request or of the embedded runtime;
- `config_is_durable`: what holds in every run whose moves are `Careful`.
-/

namespace CliPocket

open Saturating (u32Max)

/-- What is serialised of a `DaemonConfig`. -/
structure ConfigFile where
  daemon : DaemonConfig
  scrollbackBytes : Nat

/-- A `DaemonConfig` in memory. -/
structure SharedConfig (Path : Type) where
  file : ConfigFile
  configPath : Option Path

/-- Serialisation to the text of a file, and back. -/
structure ConfigFormat (Text : Type) where
  render : ConfigFile → Text
  parse : Text → Option ConfigFile
  parse_render : ∀ file, parse (render file) = some file

/-- What comes of a write: a failed one leaves what it leaves. -/
inductive FileWrite (Text : Type)
  | ok
  | failed (left : Option Text)

/-- `apply_server_config_update`, behind the clone. -/
structure ConfigUpdate (Path : Type) where
  daemon : Nat
  next : SharedConfig Path
  saved : Bool := false

structure ConfigHost (Text Path : Type) where
  files : Path → Option Text
  /-- `state.config` of the embedded runtime. -/
  loaded : Option (SharedConfig Path) := none
  /-- The `shared_config` of every daemon that clients can reach. -/
  daemons : List (Nat × SharedConfig Path) := []
  booted : Nat := 0
  updates : List (ConfigUpdate Path) := []
  /-- The last update answered with success. -/
  answered : Option Nat := none

inductive ConfigMove (Text : Type)
  /-- A process is started, with what comes of the generation of a key and of the write of a new file. -/
  | start (psk : Except String String) (written : FileWrite Text)
  | exit
  /-- `EmbeddedDaemonRuntime::restart`. -/
  | restart
  /-- The last connection of a daemon that has been shut down is gone. -/
  | disconnect (daemon : Nat)
  | clone (daemon scrollbackBytes : Nat)
  | save (update : Nat) (written : FileWrite Text)
  | store (update : Nat)

/-- `server_config_from_deps`. -/
def SharedConfig.serverConfig {Path : Type} (config : SharedConfig Path) : Except String ServerConfig :=
  if config.file.scrollbackBytes ≤ u32Max then .ok { scrollbackBytes := config.file.scrollbackBytes }
  else .error "config: limits.scrollback_bytes exceeds u32::MAX"

namespace ConfigHost

variable {Text Path : Type} [DecidableEq Path] (format : ConfigFormat Text) (template : ConfigFile) (path : Path)

/-- `save_to`: the files behind it. -/
def write (files : Path → Option Text) (at_ : Path) (text : Text) : FileWrite Text → Path → Option Text
  | .ok => Function.update files at_ (some text)
  | .failed left => Function.update files at_ left

/-- `load_from`. -/
def load (files : Path → Option Text) : Option (SharedConfig Path) :=
  ((files path).bind format.parse).map fun file => { file, configPath := some path }

/-- A new configuration: the template with a key. -/
def create (psk : Except String String) : Except String ConfigFile :=
  if template.daemon.relay.pskHex.isEmpty then
    psk.map fun pskHex => { template with daemon.relay.pskHex := pskHex }
  else .ok template

/-- `load_or_create_config_with_template`. -/
def loadOrCreate (files : Path → Option Text) (psk : Except String String) (written : FileWrite Text) :
    Option (SharedConfig Path) × (Path → Option Text) :=
  match files path with
  | some _ => (load format path files, files)
  | none =>
    match create template psk with
    | .error _ => (none, files)
    | .ok file =>
      (match written with
        | .ok => some { file, configPath := none }
        | .failed _ => none,
        write files path (format.render file) written)

/-- `Daemon::boot`. -/
def boot (s : ConfigHost Text Path) (config : SharedConfig Path) : ConfigHost Text Path :=
  { s with daemons := s.daemons ++ [(s.booted, config)], booted := s.booted + 1 }

/-- The configuration of a daemon that clients can reach. -/
def config (s : ConfigHost Text Path) (daemon : Nat) : Option (SharedConfig Path) :=
  (s.daemons.find? fun d => d.1 = daemon).map Prod.snd

def step (s : ConfigHost Text Path) : ConfigMove Text → Option (ConfigHost Text Path)
  | .start psk written =>
    if s.loaded.isSome then none
    else
      let (loaded, files) := loadOrCreate format template path s.files psk written
      match loaded with
      | none => some { s with files }
      | some config => some (boot { s with files, loaded := some config } config)
  | .exit => some { s with loaded := none, daemons := [], updates := [] }
  | .restart => s.loaded.map s.boot
  | .disconnect daemon =>
    if daemon + 1 = s.booted ∨ s.updates.any fun u => u.daemon = daemon then none
    else some { s with daemons := s.daemons.filter fun d => d.1 ≠ daemon }
  | .clone daemon scrollbackBytes =>
    if scrollbackBytes ≤ u32Max then
      (s.config daemon).map fun current =>
        let next := { current with file.scrollbackBytes := scrollbackBytes }
        { s with updates := s.updates ++ [{ daemon, next }] }
    else none
  | .save update written =>
    match s.updates[update]? with
    | some u =>
      match u.saved, u.next.configPath with
      | false, some at_ =>
        let files := write s.files at_ (format.render u.next.file) written
        match written with
        | .ok => some { s with files, updates := s.updates.set update { u with saved := true } }
        | .failed _ => some { s with files, updates := s.updates.eraseIdx update }
      | _, _ => none
    | none => none
  | .store update =>
    match s.updates[update]? with
    | some u =>
      if u.saved ∨ u.next.configPath.isNone then
        some { s with
          daemons := s.daemons.map fun d => if d.1 = u.daemon then (d.1, u.next) else d
          updates := s.updates.eraseIdx update
          answered := some u.next.file.scrollbackBytes }
      else none
    | none => none

/-! ## What has to hold -/

/-- What the file says. -/
def fileBytes (s : ConfigHost Text Path) : Option Nat := (load format path s.files).map fun c => c.file.scrollbackBytes

/-- Between requests, memory and file agree; a request for the configuration gets what the last successful update
set, also from a daemon booted later. -/
structure Durable (s : ConfigHost Text Path) : Prop where
  agrees : s.updates = [] → ∀ d ∈ s.daemons, s.fileBytes format path = some d.2.file.scrollbackBytes
  gets : ∀ bytes, s.answered = some bytes → ∀ d ∈ s.daemons, d.2.serverConfig = .ok { scrollbackBytes := bytes }

/-- The updates between their write and their store. -/
def saving (s : ConfigHost Text Path) : List (ConfigUpdate Path) := s.updates.filter ConfigUpdate.saved

/-- The condition on the moves. -/
def Careful (s : ConfigHost Text Path) : ConfigMove Text → Prop
  /- No process ends between the write and the store of an update. -/
  | .exit => s.saving = []
  /- The embedded runtime has the configuration that the file has. -/
  | .restart => s.saving = [] ∧
      ∀ config, s.loaded = some config → s.fileBytes format path = some config.file.scrollbackBytes
  /- No other update is between its write and its store, and a failed write leaves the file. -/
  | .save update written => s.saving = [] ∧
      ∀ left u at_, written = .failed left → s.updates[update]? = some u → u.next.configPath = some at_ → left = s.files at_
  /- The configuration has been loaded, not created, and the daemon is the only one that clients can reach. -/
  | .store update => ∀ u, s.updates[update]? = some u →
      u.next.configPath.isSome ∧ ∀ d ∈ s.daemons, d.1 = u.daemon
  | .start .. | .disconnect _ | .clone .. => True

/-! ## The invariant -/

/-- Memory has one value, and the file has it too, or that of the update between its write and its store. -/
structure Settled (s : ConfigHost Text Path) (bytes : Nat) : Prop where
  stopped : s.loaded = none → s.daemons = [] ∧ s.updates = []
  loadedPath : ∀ c, s.loaded = some c → ∀ at_, c.configPath = some at_ → at_ = path
  daemonPath : ∀ d ∈ s.daemons, ∀ at_, d.2.configPath = some at_ → at_ = path
  updatePath : ∀ u ∈ s.updates, (∀ at_, u.next.configPath = some at_ → at_ = path) ∧ u.next.file.scrollbackBytes ≤ u32Max
  memory : ∀ d ∈ s.daemons, d.2.file.scrollbackBytes = bytes
  answered : ∀ a, s.answered = some a → a = bytes ∧ a ≤ u32Max
  file : (s.saving = [] ∧ (s.daemons ≠ [] ∨ s.answered.isSome → s.fileBytes format path = some bytes)) ∨
    ∃ u, s.saving = [u] ∧ s.fileBytes format path = some u.next.file.scrollbackBytes

variable {format template path} {s t : ConfigHost Text Path}

omit [DecidableEq Path] in
theorem Settled.durable {bytes : Nat} (h : s.Settled format path bytes) : s.Durable format path where
  agrees := by
    intro hnone d hd
    rcases h.file with ⟨_, hfile⟩ | ⟨u, hu, _⟩
    · rw [hfile (Or.inl (List.ne_nil_of_mem hd)), h.memory d hd]
    · unfold saving at hu
      rw [hnone] at hu
      cases hu
  gets := by
    intro a ha d hd
    obtain ⟨rfl, hle⟩ := h.answered a ha
    unfold SharedConfig.serverConfig
    rw [h.memory d hd, if_pos hle]

/-- An update on its way, with what is before and behind it. -/
theorem exists_split {α : Type} {l : List α} {i : Nat} {a : α} (h : l[i]? = some a) :
    ∃ l₁ l₂, l = l₁ ++ a :: l₂ ∧ l.eraseIdx i = l₁ ++ l₂ ∧ ∀ b, l.set i b = l₁ ++ b :: l₂ := by
  obtain ⟨hlt, hget⟩ := List.getElem?_eq_some_iff.mp h
  refine ⟨l.take i, l.drop (i + 1), ?_, List.eraseIdx_eq_take_drop_succ l i, fun b => ?_⟩
  · rw [← hget, List.getElem_cons_drop, List.take_append_drop]
  · exact List.set_eq_take_append_cons_drop ▸ if_pos hlt

/-- A file that has been written is read as it was written. -/
theorem load_update (files : Path → Option Text) (file : ConfigFile) :
    load format path (Function.update files path (some (format.render file))) =
      some { file, configPath := some path } := by
  unfold load
  rw [Function.update_self]
  show ((format.parse (format.render file)).map _) = _
  rw [format.parse_render]
  rfl

/-- What a process loads is in the file. -/
theorem loadOrCreate_some {psk : Except String String} {written : FileWrite Text} {files files' : Path → Option Text}
    {c : SharedConfig Path} (h : loadOrCreate format template path files psk written = (some c, files')) :
    (load format path files').map (fun c => c.file.scrollbackBytes) = some c.file.scrollbackBytes ∧
      (∀ at_, c.configPath = some at_ → at_ = path) ∧ (files path ≠ none → files' = files) := by
  unfold loadOrCreate at h
  split at h
  · obtain ⟨hload, rfl⟩ := Prod.mk.inj h
    refine ⟨by rw [hload]; rfl, ?_, fun _ => rfl⟩
    unfold load at hload
    obtain ⟨file, _, rfl⟩ := Option.map_eq_some_iff.mp hload
    intro at_ hat
    cases hat
    rfl
  · next hnone =>
    split at h
    · cases h
    · next file _ =>
      cases written with
      | failed left => cases h
      | ok =>
        cases h
        refine ⟨?_, fun at_ hat => (nomatch hat), fun hne => absurd hnone hne⟩
        show (load format path (Function.update files path (some (format.render file)))).map _ = _
        rw [load_update]
        rfl

/-- A start that ends without a process keeps a file that is there. -/
theorem loadOrCreate_files {psk : Except String String} {written : FileWrite Text} {files : Path → Option Text}
    (h : files path ≠ none) : (loadOrCreate format template path files psk written).2 = files := by
  unfold loadOrCreate
  split
  · rfl
  · next hnone => exact absurd hnone h

/-- A process is started. -/
theorem settled_start {bytes : Nat} {psk : Except String String} {written : FileWrite Text}
    (h : s.Settled format path bytes) (hs : s.step format template path (.start psk written) = some t) :
    ∃ bytes, t.Settled format path bytes := by
  simp only [step] at hs
  split at hs
  · cases hs
  · next hloaded =>
    have hnone : s.loaded = none := Option.not_isSome_iff_eq_none.mp hloaded
    obtain ⟨hdaemons, hupdates⟩ := h.stopped hnone
    have hsaving : s.saving = [] := by
      unfold saving
      rw [hupdates]
      rfl
    have hfile : s.answered.isSome → s.fileBytes format path = some bytes := by
      intro ha
      rcases h.file with ⟨_, hfile⟩ | ⟨u, hu, _⟩
      · exact hfile (Or.inr ha)
      · rw [hsaving] at hu
        cases hu
    have hexists : s.answered.isSome → s.files path ≠ none := by
      intro ha hmissing
      have hbytes := hfile ha
      unfold fileBytes load at hbytes
      rw [hmissing] at hbytes
      cases hbytes
    cases hload : loadOrCreate format template path s.files psk written with
    | mk loaded files =>
      rw [hload] at hs
      have hfiles : s.answered.isSome → files = s.files := by
        intro ha
        have hsame := @loadOrCreate_files Text Path _ format template path psk written s.files (hexists ha)
        rw [hload] at hsame
        exact hsame
      cases loaded with
      | none =>
        cases hs
        refine ⟨bytes, ⟨fun _ => ⟨hdaemons, hupdates⟩, h.loadedPath, h.daemonPath, h.updatePath, h.memory, h.answered,
          Or.inl ⟨hsaving, ?_⟩⟩⟩
        rintro (hne | ha)
        · exact absurd hdaemons hne
        · show (load format path files).map _ = _
          rw [hfiles ha]
          exact hfile ha
      | some config =>
        obtain ⟨hbytes, hpath, _⟩ := loadOrCreate_some hload
        cases hs
        have hdaemons' : ∀ d ∈ s.daemons ++ [(s.booted, config)], d = (s.booted, config) := by
          rw [hdaemons]
          exact fun d hd => List.mem_singleton.mp hd
        refine ⟨config.file.scrollbackBytes, ⟨fun hnone => (nomatch hnone), ?_, ?_, h.updatePath, ?_, ?_, Or.inl ⟨hsaving, ?_⟩⟩⟩
        · intro c hc
          cases hc
          exact hpath
        · intro d hd
          rw [hdaemons' d hd]
          exact hpath
        · intro d hd
          rw [hdaemons' d hd]
        · intro a ha
          obtain ⟨rfl, hle⟩ := h.answered a ha
          have hsome : s.answered.isSome := by
            have ha' : s.answered = some a := ha
            rw [ha']
            rfl
          have hold := hfile hsome
          unfold fileBytes at hold
          rw [hfiles hsome, hold] at hbytes
          exact ⟨Option.some.inj hbytes, hle⟩
        · exact fun _ => hbytes

/-- The embedded runtime boots another daemon. -/
theorem settled_restart {bytes : Nat} (h : s.Settled format path bytes) (hcareful : s.Careful format path .restart)
    (hs : s.step format template path .restart = some t) : ∃ bytes, t.Settled format path bytes := by
  obtain ⟨config, hconfig, rfl⟩ := Option.map_eq_some_iff.mp hs
  obtain ⟨hsaving, hsame⟩ := hcareful
  have hbytes := hsame config hconfig
  have hagree : s.daemons ≠ [] ∨ s.answered.isSome → config.file.scrollbackBytes = bytes := by
    intro hlive
    rcases h.file with ⟨_, hfile⟩ | ⟨u, hu, _⟩
    · exact Option.some.inj (hbytes.symm.trans (hfile hlive))
    · rw [hsaving] at hu
      cases hu
  refine ⟨config.file.scrollbackBytes, ⟨?_, h.loadedPath, ?_, h.updatePath, ?_, ?_, Or.inl ⟨hsaving, fun _ => hbytes⟩⟩⟩
  · intro hnone
    have hnone' : s.loaded = none := hnone
    rw [hconfig] at hnone'
    cases hnone'
  · intro d hd
    rcases List.mem_append.mp hd with hd | hd
    · exact h.daemonPath d hd
    · rw [List.mem_singleton.mp hd]
      exact h.loadedPath config hconfig
  · intro d hd
    rcases List.mem_append.mp hd with hd | hd
    · rw [h.memory d hd, hagree (Or.inl (List.ne_nil_of_mem hd))]
    · rw [List.mem_singleton.mp hd]
  · intro a ha
    obtain ⟨rfl, hle⟩ := h.answered a ha
    refine ⟨(hagree (Or.inr ?_)).symm, hle⟩
    have ha' : s.answered = some a := ha
    rw [ha']
    rfl

/-- A request has its copy. -/
theorem settled_clone {bytes daemon scrollbackBytes : Nat} (h : s.Settled format path bytes)
    (hs : s.step format template path (.clone daemon scrollbackBytes) = some t) : t.Settled format path bytes := by
  simp only [step] at hs
  split at hs
  · next hle =>
    obtain ⟨current, hcurrent, rfl⟩ := Option.map_eq_some_iff.mp hs
    obtain ⟨d, hfind, rfl⟩ := Option.map_eq_some_iff.mp hcurrent
    have hd : d ∈ s.daemons := List.mem_of_find?_eq_some hfind
    have hsaving (u : ConfigUpdate Path) (hu : u.saved = false) : (s.updates ++ [u]).filter ConfigUpdate.saved = s.saving := by
      rw [List.filter_append, List.filter_cons_of_neg (by rw [hu]; exact Bool.false_ne_true)]
      exact List.append_nil _
    refine ⟨?_, h.loadedPath, h.daemonPath, ?_, h.memory, h.answered, ?_⟩
    · intro hnone
      rw [(h.stopped hnone).1] at hd
      cases hd
    · intro u hu
      rcases List.mem_append.mp hu with hu | hu
      · exact h.updatePath u hu
      · rw [List.mem_singleton.mp hu]
        exact ⟨h.daemonPath d hd, hle⟩
    · have hfile := h.file
      rw [← hsaving { daemon, next := { d.2 with file.scrollbackBytes := scrollbackBytes } } rfl] at hfile
      exact hfile
  · cases hs

/-- A request has written the file, or not. -/
theorem settled_save {bytes update : Nat} {written : FileWrite Text} (h : s.Settled format path bytes)
    (hcareful : s.Careful format path (.save update written))
    (hs : s.step format template path (.save update written) = some t) : t.Settled format path bytes := by
  obtain ⟨hsaving, hleft⟩ := hcareful
  cases hu : s.updates[update]? with
  | none =>
    simp only [step, hu] at hs
    cases hs
  | some u =>
    simp only [step, hu] at hs
    have hmem : u ∈ s.updates := List.mem_of_getElem? hu
    obtain ⟨l₁, l₂, hsplit, herase, hset⟩ := exists_split hu
    have hnone : l₁.filter ConfigUpdate.saved = [] ∧ l₂.filter ConfigUpdate.saved = [] := by
      have hfilter := hsaving
      unfold saving at hfilter
      rw [hsplit, List.filter_append, List.append_eq_nil_iff, List.filter_cons] at hfilter
      refine ⟨hfilter.1, ?_⟩
      have hrest := hfilter.2
      split at hrest
      · cases hrest
      · exact hrest
    split at hs
    · next at_ hunsaved hpath =>
      obtain rfl := (h.updatePath u hmem).1 at_ hpath
      have hstopped : ¬s.loaded = none := by
        intro hstop
        rw [(h.stopped hstop).2] at hmem
        cases hmem
      cases written with
      | ok =>
        cases hs
        refine ⟨fun hstop => absurd hstop hstopped, h.loadedPath, h.daemonPath, ?_, h.memory, h.answered, Or.inr ?_⟩
        · intro v hv
          rcases List.mem_or_eq_of_mem_set hv with hv | rfl
          · exact h.updatePath v hv
          · exact h.updatePath u hmem
        · refine ⟨{ u with saved := true }, ?_, ?_⟩
          · show (s.updates.set update { u with saved := true }).filter ConfigUpdate.saved = _
            rw [hset, List.filter_append, hnone.1, List.filter_cons_of_pos rfl, hnone.2]
            rfl
          · show (load format at_ (Function.update s.files at_ (some (format.render u.next.file)))).map _ = _
            rw [load_update]
            rfl
      | failed left =>
        have hfiles : write s.files at_ (format.render u.next.file) (.failed left) = s.files := by
          show Function.update s.files at_ left = s.files
          rw [hleft left u at_ rfl hu hpath, Function.update_eq_self]
        simp only [hfiles] at hs
        cases hs
        refine ⟨fun hstop => absurd hstop hstopped, h.loadedPath, h.daemonPath, ?_, h.memory, h.answered, Or.inl ⟨?_, ?_⟩⟩
        · exact fun v hv => h.updatePath v (List.mem_of_mem_eraseIdx hv)
        · show (s.updates.eraseIdx update).filter ConfigUpdate.saved = []
          rw [herase, List.filter_append, hnone.1, hnone.2]
          rfl
        · rcases h.file with ⟨_, hfile⟩ | ⟨v, hv, _⟩
          · exact hfile
          · rw [hsaving] at hv
            cases hv
    · cases hs

/-- A request has stored its copy, and is answered. -/
theorem settled_store {bytes update : Nat} (h : s.Settled format path bytes)
    (hcareful : s.Careful format path (.store update))
    (hs : s.step format template path (.store update) = some t) : ∃ bytes, t.Settled format path bytes := by
  cases hu : s.updates[update]? with
  | none =>
    simp only [step, hu] at hs
    cases hs
  | some u =>
    simp only [step, hu] at hs
    have hmem : u ∈ s.updates := List.mem_of_getElem? hu
    obtain ⟨hpath, honly⟩ := hcareful u hu
    split at hs
    · next hready =>
      have hsaved : u.saved = true := by
        rcases hready with hsaved | hnone
        · exact hsaved
        · rw [Option.isNone_iff_eq_none.mp hnone] at hpath
          cases hpath
      obtain ⟨l₁, l₂, hsplit, herase, _⟩ := exists_split hu
      -- It is the update between its write and its store.
      have hone : s.saving = [u] ∧ l₁.filter ConfigUpdate.saved = [] ∧ l₂.filter ConfigUpdate.saved = [] := by
        have hin : s.saving = l₁.filter ConfigUpdate.saved ++ u :: l₂.filter ConfigUpdate.saved := by
          unfold saving
          rw [hsplit, List.filter_append, List.filter_cons_of_pos hsaved]
        rcases h.file with ⟨hnone, _⟩ | ⟨v, hv, _⟩
        · rw [hnone] at hin
          exact absurd hin.symm (by simp)
        · rw [hv] at hin
          have hlength := congrArg List.length hin
          simp only [List.length_append, List.length_cons, List.length_nil] at hlength
          have h₁ : l₁.filter ConfigUpdate.saved = [] := List.length_eq_zero_iff.mp (by omega)
          have h₂ : l₂.filter ConfigUpdate.saved = [] := List.length_eq_zero_iff.mp (by omega)
          rw [h₁, h₂] at hin
          exact ⟨hv.trans hin, h₁, h₂⟩
      have hfile : s.fileBytes format path = some u.next.file.scrollbackBytes := by
        rcases h.file with ⟨hnone, _⟩ | ⟨v, hv, hfile⟩
        · rw [hone.1] at hnone
          cases hnone
        · rw [hone.1] at hv
          cases hv
          exact hfile
      have hall : ∀ d ∈ s.daemons.map fun d => if d.1 = u.daemon then (d.1, u.next) else d, d.2 = u.next := by
        intro d hd
        obtain ⟨e, he, rfl⟩ := List.mem_map.mp hd
        rw [if_pos (honly e he)]
      cases hs
      refine ⟨u.next.file.scrollbackBytes, ⟨?_, h.loadedPath, ?_, ?_, ?_, ?_, Or.inl ⟨?_, fun _ => hfile⟩⟩⟩
      · intro hstop
        rw [(h.stopped hstop).2] at hmem
        cases hmem
      · intro d hd
        rw [hall d hd]
        exact (h.updatePath u hmem).1
      · exact fun v hv => h.updatePath v (List.mem_of_mem_eraseIdx hv)
      · intro d hd
        rw [hall d hd]
      · intro a ha
        cases ha
        exact ⟨rfl, (h.updatePath u hmem).2⟩
      · show (s.updates.eraseIdx update).filter ConfigUpdate.saved = []
        rw [herase, List.filter_append, hone.2.1, hone.2.2]
        rfl
    · cases hs

/-- **One move.** -/
theorem settled_step {bytes : Nat} {move : ConfigMove Text} (h : s.Settled format path bytes)
    (hcareful : s.Careful format path move) (hs : s.step format template path move = some t) :
    ∃ bytes, t.Settled format path bytes := by
  cases move with
  | start psk written => exact settled_start h hs
  | exit =>
    cases hs
    have hfile := h.file.resolve_right fun ⟨u, hu, _⟩ => by
      rw [hcareful] at hu
      cases hu
    exact ⟨bytes, ⟨fun _ => ⟨rfl, rfl⟩, fun _ hc => (nomatch hc), fun _ hd => (nomatch hd), fun _ hu => (nomatch hu),
      fun _ hd => (nomatch hd), h.answered, Or.inl ⟨rfl, fun hlive => hfile.2 (Or.inr (hlive.resolve_left (by simp)))⟩⟩⟩
  | restart => exact settled_restart h hcareful hs
  | disconnect daemon =>
    simp only [step] at hs
    split at hs
    · cases hs
    · cases hs
      have hsub : ∀ d ∈ s.daemons.filter fun d => d.1 ≠ daemon, d ∈ s.daemons := fun d hd => (List.mem_filter.mp hd).1
      refine ⟨bytes, ⟨?_, h.loadedPath, fun d hd => h.daemonPath d (hsub d hd), h.updatePath,
        fun d hd => h.memory d (hsub d hd), h.answered, ?_⟩⟩
      · intro hstop
        refine ⟨?_, (h.stopped hstop).2⟩
        show s.daemons.filter _ = []
        rw [(h.stopped hstop).1]
        rfl
      · rcases h.file with ⟨hsaving, hfile⟩ | hfile
        · refine Or.inl ⟨hsaving, fun hlive => hfile (hlive.imp_left fun hne hnil => hne ?_)⟩
          show s.daemons.filter _ = []
          rw [hnil]
          rfl
        · exact Or.inr hfile
  | clone daemon scrollbackBytes => exact ⟨bytes, settled_clone h hs⟩
  | save update written => exact ⟨bytes, settled_save h hcareful hs⟩
  | store update => exact settled_store h hcareful hs

/-- A format whose texts are the configurations themselves. -/
def sampleFormat : ConfigFormat ConfigFile := ⟨id, some, fun _ => rfl⟩

def sampleFile : ConfigFile :=
  { daemon := { relay := { baseUrl := "wss://relay.example", pskHex := "00" }, app := { baseUrl := "http://app.example" } }
    scrollbackBytes := 4096 }

/-- An update, the end of the process, and another one. -/
def sampleMoves : List (ConfigMove ConfigFile) :=
  [.start (.ok "") .ok, .clone 0 5, .save 0 .ok, .store 0, .exit, .start (.ok "") .ok]

end ConfigHost

end CliPocket
