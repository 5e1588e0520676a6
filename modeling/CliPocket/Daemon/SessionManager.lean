import CliPocket.Daemon.Connection
import CliPocket.Lib.Steps

/-!
# The session manager

`SessionManager::create` called by any number of connections, beside the reaper. The lock is held for the check of the
limit and for the insertion, not between them.

- `SessionManager.step`: one critical section of a call, the start of a process or its end, one of the reaper;
- `create_undisturbed`: a call that nothing comes between is `Daemon.create`;
- `terminal_limit`: the limit holds in every run whose checks leave room for the calls that have passed theirs.
-/

namespace CliPocket

/-- `Terminal::spawn`, and the entry of the new terminal. -/
def Terminal.spawn (params : TerminalCreateParams) (scrollbackBytes : Nat) (spawned : Except String TerminalId)
    (now : Nat) : Except String (TerminalId × Terminal) :=
  match spawned with
  | .error message => .error message
  | .ok id =>
    match ScrollbackRing.new (max params.cols 1) (max params.rows 1) (some scrollbackBytes) with
    | .error (.capacityTooLarge capacity) =>
      .error ("pty: ring error: capacity " ++ toString capacity ++ " exceeds the per-terminal limit " ++
        toString maxCapacityBytes)
    | .ok ring => .ok (id, { createdAtUnixMs := now, ring })

theorem registered_of_spawn {params : TerminalCreateParams} {scrollbackBytes now : Nat}
    {spawned : Except String TerminalId} {id : TerminalId} {terminal : Terminal}
    (h : Terminal.spawn params scrollbackBytes spawned now = .ok (id, terminal)) : terminal.registered = true := by
  unfold Terminal.spawn at h
  split at h
  · cases h
  · split at h <;> cases h
    rfl

/-- How far a call of `create` is. -/
inductive CreateCall
  | called (params : TerminalCreateParams) (scrollbackBytes : Nat)
  | checked (params : TerminalCreateParams) (scrollbackBytes : Nat)
  | spawned (id : TerminalId) (terminal : Terminal)
  | returned (result : Except String TerminalInfo)

/-- The check is behind the call, the insertion is not. -/
def CreateCall.inFlight : CreateCall → Bool
  | .checked .. | .spawned .. => true
  | .called .. | .returned _ => false

structure SessionManager where
  terminals : AList fun _ : TerminalId => Terminal := ∅
  maxTerminals : Nat
  calls : List CreateCall := []
  /-- The terminals that the reaper has found dead and not removed. -/
  dead : List TerminalId := []

inductive ManagerInput
  | call (params : TerminalCreateParams) (scrollbackBytes : Nat)
  | check (call : Nat)
  | spawn (call : Nat) (spawned : Except String TerminalId) (now : Nat)
  /-- The title is that of the new terminal when it is read, in front of the lock. -/
  | insert (call : Nat) (title : Option String)
  /-- The process of a terminal ends: of one in the table, or of one that a call has spawned. -/
  | exit (id : TerminalId)
  | exitSpawned (call : Nat)
  | scan
  | reap

namespace SessionManager

def setCall (m : SessionManager) (call : Nat) (c : CreateCall) : SessionManager :=
  { m with calls := m.calls.set call c }

def inFlight (m : SessionManager) : Nat := m.calls.countP CreateCall.inFlight

/-- `SessionManager::count`. -/
def count (m : SessionManager) : Nat := m.terminals.entries.length

def step (m : SessionManager) : ManagerInput → Option SessionManager
  | .call params scrollbackBytes => some { m with calls := m.calls ++ [.called params scrollbackBytes] }
  | .check call =>
    match m.calls[call]? with
    | some (.called params scrollbackBytes) =>
      if m.maxTerminals ≤ m.count then
        some (m.setCall call
          (.returned (.error ("internal: terminal limit reached (" ++ toString m.maxTerminals ++ ")"))))
      else some (m.setCall call (.checked params scrollbackBytes))
    | _ => none
  | .spawn call spawned now =>
    match m.calls[call]? with
    | some (.checked params scrollbackBytes) =>
      match Terminal.spawn params scrollbackBytes spawned now with
      | .error message => some (m.setCall call (.returned (.error message)))
      | .ok (id, terminal) => some (m.setCall call (.spawned id terminal))
    | _ => none
  | .insert call title =>
    match m.calls[call]? with
    | some (.spawned id terminal) =>
      let terminal := { terminal with title }
      some { m.setCall call (.returned (.ok (terminal.info id))) with terminals := m.terminals.insert id terminal }
    | _ => none
  | .exit id =>
    (m.terminals.lookup id).map fun terminal =>
      { m with terminals := m.terminals.replace id { terminal with exited := true } }
  | .exitSpawned call =>
    match m.calls[call]? with
    | some (.spawned id terminal) => some (m.setCall call (.spawned id { terminal with exited := true }))
    | _ => none
  | .scan =>
    if m.dead = [] then
      some { m with dead := (m.terminals.entries.filter fun entry => entry.2.exited).map Sigma.fst }
    else none
  | .reap => some { m with terminals := m.dead.foldl (fun table id => table.erase id) m.terminals, dead := [] }

/-! ## One call alone -/

/-- The manager has the terminals that the daemon has registered. -/
structure Holds (m : SessionManager) (d : Daemon) : Prop where
  maxTerminals : m.maxTerminals = d.maxTerminals
  terminals : m.terminals.entries = d.terminals.entries.filter fun entry => entry.2.registered

theorem count_of_holds {m : SessionManager} {d : Daemon} (h : m.Holds d) : m.count = d.registered.length := by
  unfold count Daemon.registered
  rw [h.terminals, List.filter_map, List.length_map]
  rfl

/-- Removing a key and keeping some of the entries. -/
theorem kerase_filter {α : Type*} {β : α → Type*} [DecidableEq α] (p : Sigma β → Bool) (a : α) :
    ∀ {entries : List (Sigma β)}, entries.NodupKeys →
      (entries.kerase a).filter p = (entries.filter p).kerase a
  | [], _ => rfl
  | entry :: entries, hnodup => by
    obtain ⟨hkey, hrest⟩ := List.nodupKeys_cons.mp hnodup
    by_cases ha : a = entry.1
    · have hfresh : a ∉ (entries.filter p).keys := by
        intro hmem
        obtain ⟨e, he, hea⟩ := List.mem_map.mp hmem
        exact hkey (ha ▸ List.mem_map.mpr ⟨e, (List.mem_filter.mp he).1, hea⟩)
      rw [List.kerase_cons_eq ha, List.filter_cons]
      split
      · rw [List.kerase_cons_eq ha]
      · rw [List.kerase_of_notMem_keys hfresh]
    · rw [List.kerase_cons_ne ha, List.filter_cons, List.filter_cons, kerase_filter p a hrest]
      split
      · rw [List.kerase_cons_ne ha]
      · rfl

/-- The moves of one call. -/
def createMoves (call : Nat) (params : TerminalCreateParams) (scrollbackBytes : Nat) (env : Env) : List ManagerInput :=
  [.call params scrollbackBytes, .check call, .spawn call env.spawned env.now, .insert call env.title]

/-- The manager, whose last call is `c`. -/
def withCall (m : SessionManager) (c : CreateCall) : SessionManager := { m with calls := m.calls ++ [c] }

@[simp] theorem getElem?_withCall (m : SessionManager) (c : CreateCall) :
    (m.withCall c).calls[m.calls.length]? = some c := by simp [withCall]

@[simp] theorem setCall_withCall (m : SessionManager) (c c' : CreateCall) :
    (m.withCall c).setCall m.calls.length c' = m.withCall c' := by
  simp [withCall, setCall, List.set_append_right]

theorem holds_withCall {m : SessionManager} {d : Daemon} (h : m.Holds d) (c : CreateCall) : (m.withCall c).Holds d :=
  ⟨h.maxTerminals, h.terminals⟩

/-- The insertion in the manager's table and in the daemon's. -/
theorem holds_insert {m : SessionManager} {d : Daemon} (h : m.Holds d) (c : CreateCall) (id : TerminalId)
    {terminal : Terminal} (hnew : terminal.registered = true) :
    { m.withCall c with terminals := m.terminals.insert id terminal }.Holds
      { d with terminals := d.terminals.insert id terminal } where
  maxTerminals := h.maxTerminals
  terminals := by
    show (m.terminals.insert id terminal).entries =
      (d.terminals.insert id terminal).entries.filter fun entry => entry.2.registered
    rw [AList.entries_insert, AList.entries_insert, h.terminals, ← kerase_filter _ _ d.terminals.nodupKeys]
    rw [List.filter_cons, if_pos (by exact hnew)]

theorem step_call (m : SessionManager) (params : TerminalCreateParams) (scrollbackBytes : Nat) :
    step m (.call params scrollbackBytes) = some (m.withCall (.called params scrollbackBytes)) := rfl

/-- **A call alone.** What nothing comes between is `Daemon.create`. -/
theorem create_undisturbed {m : SessionManager} {d : Daemon} (h : m.Holds d) (params : TerminalCreateParams)
    (env : Env) :
    match d.create params env with
    | .ok (d', info) => ∃ m', m'.Holds d' ∧ m'.calls = m.calls ++ [.returned (.ok info)] ∧
        Steps.run step m (createMoves m.calls.length params d.scrollbackBytes env) = some m'
    | .error message => ∃ m' moves, m'.Holds d ∧ m'.calls = m.calls ++ [.returned (.error message)] ∧
        Steps.run step m moves = some m' ∧ moves <+: createMoves m.calls.length params d.scrollbackBytes env := by
  have hcall := step_call m params d.scrollbackBytes
  have hcheck : step (m.withCall (.called params d.scrollbackBytes)) (.check m.calls.length) =
      if d.maxTerminals ≤ d.registered.length then
        some (m.withCall
          (.returned (.error ("internal: terminal limit reached (" ++ toString d.maxTerminals ++ ")"))))
      else some (m.withCall (.checked params d.scrollbackBytes)) := by
    rw [← count_of_holds h, ← h.maxTerminals]
    simp only [step, getElem?_withCall, setCall_withCall]
    rfl
  have hspawn : step (m.withCall (.checked params d.scrollbackBytes)) (.spawn m.calls.length env.spawned env.now) =
      match Terminal.spawn params d.scrollbackBytes env.spawned env.now with
      | .error message => some (m.withCall (.returned (.error message)))
      | .ok (id, terminal) => some (m.withCall (.spawned id terminal)) := by
    simp only [step, getElem?_withCall, setCall_withCall]
  by_cases hfull : d.maxTerminals ≤ d.registered.length
  · have hd : d.create params env =
        .error ("internal: terminal limit reached (" ++ toString d.maxTerminals ++ ")") := by
      unfold Daemon.create
      rw [if_pos hfull]
    rw [if_pos hfull] at hcheck
    rw [hd]
    refine ⟨_, [.call params d.scrollbackBytes, .check m.calls.length], holds_withCall h _, rfl, ?_, ?_⟩
    · rw [Steps.run_cons, hcall, Option.bind_some, Steps.run_cons, hcheck]
      rfl
    · exact List.prefix_append _ _
  · rw [if_neg hfull] at hcheck
    have hd : d.create params env = (Terminal.spawn params d.scrollbackBytes env.spawned env.now).map fun spawned =>
        let terminal := { spawned.2 with title := env.title }
        ({ d with terminals := d.terminals.insert spawned.1 terminal }, terminal.info spawned.1) := by
      unfold Daemon.create Terminal.spawn
      rw [if_neg hfull]
      cases env.spawned with
      | error message => rfl
      | ok id =>
        cases hring : ScrollbackRing.new (max params.cols 1) (max params.rows 1) (some d.scrollbackBytes) with
        | error e =>
          cases e
          simp only
          rfl
        | ok ring =>
          simp only
          rfl
    rw [hd]
    cases hs : Terminal.spawn params d.scrollbackBytes env.spawned env.now with
    | error message =>
      rw [hs] at hspawn
      refine ⟨_, [.call params d.scrollbackBytes, .check m.calls.length, .spawn m.calls.length env.spawned env.now],
        holds_withCall h _, rfl, ?_, List.prefix_append _ _⟩
      rw [Steps.run_cons, hcall, Option.bind_some, Steps.run_cons, hcheck, Option.bind_some, Steps.run_cons, hspawn]
      rfl
    | ok spawned =>
      obtain ⟨id, terminal⟩ := spawned
      rw [hs] at hspawn
      have hinsert : step (m.withCall (.spawned id terminal)) (.insert m.calls.length env.title) =
          some { m.withCall (.returned (.ok ({ terminal with title := env.title }.info id))) with
            terminals := m.terminals.insert id { terminal with title := env.title } } := by
        simp only [step, getElem?_withCall, setCall_withCall]
        rfl
      have hnew : terminal.registered = true := registered_of_spawn hs
      refine ⟨_, holds_insert h _ id hnew, rfl, ?_⟩
      unfold createMoves
      rw [Steps.run_cons, hcall, Option.bind_some, Steps.run_cons, hcheck, Option.bind_some, Steps.run_cons, hspawn,
        Option.bind_some, Steps.run_cons, hinsert]
      rfl

/-! ## The limit -/

/-- A check that a call passes leaves room for the calls in flight. -/
def Roomy (m : SessionManager) : ManagerInput → Prop
  | .check _ => m.count < m.maxTerminals → m.count + m.inFlight < m.maxTerminals
  | _ => True

/-- Registered terminals and calls in flight are within the limit. -/
def Bounded (m : SessionManager) : Prop := m.count + m.inFlight ≤ m.maxTerminals

theorem inFlight_setCall {m : SessionManager} {call : Nat} {c : CreateCall} (c' : CreateCall)
    (hc : m.calls[call]? = some c) :
    (m.setCall call c').inFlight + (if c.inFlight then 1 else 0) = m.inFlight + if c'.inFlight then 1 else 0 := by
  obtain ⟨hlt, hget⟩ := List.getElem?_eq_some_iff.mp hc
  have hset : (m.calls.set call c').countP CreateCall.inFlight = m.calls.countP CreateCall.inFlight -
      (if c.inFlight then 1 else 0) + if c'.inFlight then 1 else 0 := by
    rw [List.countP_set hlt, hget]
  have hpos : (if c.inFlight then 1 else 0) ≤ m.calls.countP CreateCall.inFlight := by
    split
    · next hin => exact List.countP_pos_iff.mpr ⟨c, List.mem_of_getElem? hc, hin⟩
    · exact Nat.zero_le _
  show (m.calls.set call c').countP CreateCall.inFlight + _ = m.calls.countP CreateCall.inFlight + _
  omega

theorem count_insert (table : AList fun _ : TerminalId => Terminal) (id : TerminalId) (terminal : Terminal) :
    (table.insert id terminal).entries.length ≤ table.entries.length + 1 := by
  rw [AList.entries_insert, List.length_cons]
  exact Nat.succ_le_succ (List.kerase_sublist id table.entries).length_le

theorem count_replace (table : AList fun _ : TerminalId => Terminal) (id : TerminalId) (terminal : Terminal) :
    (table.replace id terminal).entries.length = table.entries.length := by
  have hkeys := congrArg List.length (AList.keys_replace id terminal table)
  simpa [AList.keys, List.keys] using hkeys

/-- What the reaper removes is not more than there is. -/
theorem count_reap : ∀ (dead : List TerminalId) (table : AList fun _ : TerminalId => Terminal),
    (dead.foldl (fun table id => table.erase id) table).entries.length ≤ table.entries.length
  | [], _ => Nat.le_refl _
  | id :: dead, table =>
    Nat.le_trans (count_reap dead (table.erase id)) (List.kerase_sublist id table.entries).length_le

/-- **One step** keeps the bound, if its check leaves room. -/
theorem step_bounded {m m' : SessionManager} {i : ManagerInput} (h : m.Bounded) (hroom : m.Roomy i)
    (hs : step m i = some m') : m'.Bounded ∧ m'.maxTerminals = m.maxTerminals := by
  unfold Bounded at h ⊢
  cases i with
  | call params scrollbackBytes =>
    cases hs
    refine ⟨?_, rfl⟩
    simpa [inFlight, CreateCall.inFlight, count, List.countP_append] using h
  | check call =>
    simp only [step] at hs
    split at hs
    · next params scrollbackBytes hc =>
      split at hs
      · cases hs
        have hin := inFlight_setCall (m := m)
          (.returned (.error ("internal: terminal limit reached (" ++ toString m.maxTerminals ++ ")"))) hc
        simp only [CreateCall.inFlight, Bool.false_eq_true, if_false, Nat.add_zero] at hin
        exact ⟨by rw [hin]; exact h, rfl⟩
      · next hfree =>
        cases hs
        have hin := inFlight_setCall (m := m) (.checked params scrollbackBytes) hc
        simp only [CreateCall.inFlight, Bool.false_eq_true, if_false, if_true, Nat.add_zero] at hin
        have hroom := hroom (Nat.lt_of_not_le hfree)
        refine ⟨?_, rfl⟩
        rw [hin]
        show m.count + (m.inFlight + 1) ≤ m.maxTerminals
        omega
    · cases hs
  | spawn call spawned now =>
    simp only [step] at hs
    split at hs
    · next params scrollbackBytes hc =>
      split at hs
      · next message _ =>
        cases hs
        have hin := inFlight_setCall (m := m) (.returned (.error message)) hc
        simp only [CreateCall.inFlight, Bool.false_eq_true, if_false, if_true, Nat.add_zero] at hin
        refine ⟨?_, rfl⟩
        show m.count + (m.setCall call _).inFlight ≤ m.maxTerminals
        omega
      · next id terminal _ =>
        cases hs
        have hin := inFlight_setCall (m := m) (.spawned id terminal) hc
        simp only [CreateCall.inFlight, if_true] at hin
        refine ⟨?_, rfl⟩
        show m.count + (m.setCall call _).inFlight ≤ m.maxTerminals
        omega
    · cases hs
  | insert call title =>
    simp only [step] at hs
    split at hs
    · next id terminal hc =>
      cases hs
      have hin := inFlight_setCall (m := m) (.returned (.ok ({ terminal with title }.info id))) hc
      simp only [CreateCall.inFlight, Bool.false_eq_true, if_false, if_true, Nat.add_zero] at hin
      have hcount := count_insert m.terminals id { terminal with title }
      refine ⟨?_, rfl⟩
      show (m.terminals.insert id { terminal with title }).entries.length + (m.setCall call _).inFlight ≤ m.maxTerminals
      unfold count at h
      omega
    · cases hs
  | exit id =>
    simp only [step, Option.map_eq_some_iff] at hs
    obtain ⟨terminal, _, rfl⟩ := hs
    refine ⟨?_, rfl⟩
    show (m.terminals.replace id _).entries.length + m.inFlight ≤ m.maxTerminals
    rw [count_replace]
    exact h
  | exitSpawned call =>
    simp only [step] at hs
    split at hs
    · next id terminal hc =>
      cases hs
      have hin := inFlight_setCall (m := m) (.spawned id { terminal with exited := true }) hc
      simp only [CreateCall.inFlight, if_true] at hin
      refine ⟨?_, rfl⟩
      show m.count + (m.setCall call _).inFlight ≤ m.maxTerminals
      omega
    · cases hs
  | scan =>
    simp only [step] at hs
    split at hs
    · cases hs
      exact ⟨h, rfl⟩
    · cases hs
  | reap =>
    cases hs
    have hcount := count_reap m.dead m.terminals
    refine ⟨?_, rfl⟩
    show (m.dead.foldl (fun table id => table.erase id) m.terminals).entries.length + m.inFlight ≤ m.maxTerminals
    unfold count at h
    omega

/-- **The limit on terminals.** It holds in every run whose checks leave room for the calls in flight. -/
theorem terminal_limit (maxTerminals : Nat) {inputs : List ManagerInput} {m : SessionManager}
    (hroom : Steps.Meets step Roomy { maxTerminals } inputs)
    (hr : Steps.run step { maxTerminals } inputs = some m) : m.count ≤ maxTerminals := by
  have hinv : m.Bounded ∧ m.maxTerminals = maxTerminals :=
    Steps.run_invariant (I := fun m => m.Bounded ∧ m.maxTerminals = maxTerminals)
      (fun m i m' h hroom hs => ⟨(step_bounded h.1 hroom hs).1, (step_bounded h.1 hroom hs).2.trans h.2⟩)
      hroom hr ⟨Nat.zero_le _, rfl⟩
  have hbound := hinv.1
  unfold Bounded at hbound
  omega

def sampleParams : TerminalCreateParams := { cols := 80, rows := 24, cwd := none, cmd := [], env := [] }

def sampleId (n : Nat) : TerminalId := ⟨List.replicate 15 0 ++ [UInt8.ofNat n], by simp⟩

instance (m : SessionManager) : DecidablePred m.Roomy := fun i =>
  match i with
  | .check _ => inferInstanceAs (Decidable (m.count < m.maxTerminals → m.count + m.inFlight < m.maxTerminals))
  | .call .. | .spawn .. | .insert .. | .exit _ | .exitSpawned _ | .scan | .reap => isTrue trivial

/-- Two calls, one behind the other: the second finds no room. -/
def sampleCalls : List ManagerInput :=
  [.call sampleParams 4096, .check 0, .spawn 0 (.ok (sampleId 1)) 0, .insert 0 none, .call sampleParams 4096, .check 1]

theorem terminal_limit_sample : ∃ m, Steps.run step { maxTerminals := 1 } sampleCalls = some m ∧ m.count ≤ 1 :=
  ⟨_, rfl, @terminal_limit 1 sampleCalls _ (by decide) rfl⟩

/-- Two calls that have both passed the check before one of them inserts its terminal. -/
theorem terminal_limit_passed : ¬ ∀ (maxTerminals : Nat) (inputs : List ManagerInput) (m : SessionManager),
    Steps.run step { maxTerminals } inputs = some m → m.count ≤ maxTerminals := by
  intro h
  have hle := h 1 [.call sampleParams 4096, .call sampleParams 4096, .check 0, .check 1,
    .spawn 0 (.ok (sampleId 1)) 0, .spawn 1 (.ok (sampleId 2)) 0, .insert 0 none, .insert 1 none] _ rfl
  revert hle
  decide

end SessionManager

end CliPocket
