import CliPocket.Relay.Effects

/-!
# What is on its way through the relay

Invariants of the relay's runs that say which operations can be left to do, and how the queues stand to what has been
queued and written.

- `Live`: the registry leads to the task of a server for as long as it runs;
- `Carried`: a task that has a payload left to send has nothing else left to do;
- `Opened`: a pair is inserted once, and a client reads only behind its `PairOpen`;
- `Queued`: what has been queued is what has been written and what still is in the queue;
- `reachable_sound`: **all of these hold in every run.**
-/

namespace CliPocket

namespace Relay

open Function (update)

variable {v v' : View} {move : Move} {h es : List Event}

/-! ## Histories -/

/-- What has been queued for the writer at `i`. -/
def pushedTo (i : ConnId) (h : List Event) : List ServerMsg :=
  h.filterMap fun
    | .pushed tx msg => if tx = i then some msg else none
    | _ => none

theorem mem_pushedTo {i : ConnId} {msg : ServerMsg} : msg ∈ pushedTo i h ↔ .pushed i msg ∈ h := by
  rw [pushedTo, List.mem_filterMap]
  constructor
  · rintro ⟨event, hm, he⟩
    cases event with
    | pushed tx msg' =>
      by_cases htx : tx = i
      · simp only [htx, if_true, Option.some.injEq] at he
        rwa [← he, ← htx]
      · simp only [if_neg htx, reduceCtorEq] at he
    | _ => cases he
  · intro hm
    exact ⟨_, hm, by simp⟩

/-- What the writer at `i` has written. -/
def wroteAt (i : ConnId) (h : List Event) : List ServerMsg :=
  h.filterMap fun
    | .wrote c msg _ => if c = i then some msg else none
    | _ => none

/-- The pair has been inserted into the table. -/
def InsertedIn (pairId : PairId) (h : List Event) : Prop := ∃ pair, .inserted pair ∈ h ∧ pair.pairId = pairId

/-! ## Servers that are running -/

/-- A task that has ended has nothing left to do. -/
def Ended (v : View) : Prop := ∀ c result, v.phase c = some (.ended result) → v.todo (some c) = []

/-- The registry leads to a server until its task has ended. -/
def Live (v : View) : Prop :=
  ∀ c serverId g phase, v.role c = some (.server serverId g) → v.phase c = some phase →
    (∀ result, phase ≠ .ended result) → v.servers serverId = some ⟨c, g⟩

theorem ended_setTodo {a : Option ConnId} {ops : List Op} (hv : Ended v) (ha : a = none ∨ v.todo a ≠ []) :
    Ended (v.setTodo a ops) := by
  intro c result hc
  have hold := hv c result hc
  rw [View.setTodo_todo]
  split
  · next he =>
    subst he
    rcases ha with ha | ha
    · cases ha
    · exact absurd hold ha
  · exact hold

theorem ended_setBoth {c : ConnId} {phase : Phase} {ops : List Op} (hv : Ended v)
    (hphase : (∀ result, phase ≠ .ended result) ∨ ops = []) : Ended ((v.setPhase c phase).setTodo (some c) ops) := by
  intro i result hi
  rw [View.setTodo_phase, View.setPhase_phase] at hi
  rw [View.setTodo_todo, View.setPhase_todo]
  by_cases he : i = c
  · rw [if_pos he] at hi
    rw [if_pos (congrArg some he)]
    rcases hphase with hphase | rfl
    · exact absurd (Option.some.inj hi) (hphase result)
    · rfl
  · rw [if_neg he] at hi
    rw [if_neg (by simpa using he)]
    exact hv i result hi

theorem ended_effect (hv : Ended v) (he : Effect v move v' es) : Ended v' := by
  have hfail : ∀ {c who phase error}, Ended (v.fail c who phase error) := by
    intro c who phase error
    rw [View.fail_eq]
    have hleave : Ended (v.leave who) := by
      intro i result hi
      rw [View.leave_phase] at hi
      rw [View.leave_todo]
      exact hv i result hi
    refine ended_setBoth hleave ?_
    cases who with
    | server serverId g => exact .inr rfl
    | client pairId serverId tx =>
      cases phase with
      | opening => exact .inr rfl
      | _ => exact .inl fun result => Phase.noConfusion
  have hnew : ∀ {n ops} {w : View}, w.phase = update v.phase n (some .opening) → w.todo = update v.todo (some n) ops →
      Ended w := by
    intro n ops w hphase htodo i result hi
    rw [hphase, Function.update_apply] at hi
    rw [htodo, Function.update_apply]
    split at hi
    · cases hi
    · next hne =>
      rw [if_neg (by simpa using hne)]
      exact hv i result hi
  cases he with
  | refused => exact hv
  | registered hn hfree => exact hnew rfl rfl
  | connected pair hn hslot htx hfresh => exact hnew rfl rfl
  | pinged hidle | ignored hidle | answered hidle | toClient _ hidle | toServer hidle | closedByServer hidle
    | closedByClient hidle | stopped hidle => exact ended_setBoth hv (.inl fun result => Phase.noConfusion)
  | readFailed hidle | rejected hidle | sendFailed => exact hfail
  | pushed htodo | skipped htodo | inserted htodo | closed htodo | listed htodo | removed htodo =>
    exact ended_setTodo hv (.inr (by simp [htodo]))
  | finished who hrole hphase htodo =>
    intro i result' hi
    rw [View.setPhase_phase, View.leave_phase] at hi
    rw [View.setPhase_todo, View.leave_todo]
    split at hi
    · next he => rw [he, htodo]
    · exact hv i result' hi
  | returned | wrote | writerEnded => exact hv
  | swept htodo => exact ended_setTodo hv (.inl rfl)

/-- The task has not ended. -/
def Running (v : View) (c : ConnId) : Prop := ∃ phase, v.phase c = some phase ∧ ∀ result, phase ≠ .ended result

theorem View.Idle.running {c : ConnId} {who : Role} (h : v.Idle c who) : Running v c := by
  rcases h.phase with hphase | hphase
  · exact ⟨_, hphase, fun result => Phase.noConfusion⟩
  · exact ⟨_, hphase, fun result => Phase.noConfusion⟩

/-- A task with something left to do is running. -/
theorem running_of_todo {c : ConnId} {phase : Phase} (hv : Ended v) (hphase : v.phase c = some phase)
    (htodo : v.todo (some c) ≠ []) : Running v c := by
  refine ⟨phase, hphase, fun result he => htodo (hv c result ?_)⟩
  rw [hphase, he]

theorem live_setPhase {c : ConnId} (hv : Live v) (hc : Running v c) (phase : Phase) : Live (v.setPhase c phase) := by
  intro i serverId g phase' hrole hphase hrunning
  rw [View.setPhase_phase] at hphase
  split at hphase
  · next he =>
    subst he
    obtain ⟨old, hold, hne⟩ := hc
    exact hv i serverId g old hrole hold hne
  · exact hv i serverId g phase' hrole hphase hrunning

/-- A server whose task ends is no longer registered; the others still are. -/
theorem live_leave {c : ConnId} {who : Role} {phase : Phase} (hv : Live v) (hrole : v.role c = some who)
    (hc : Running v c) (hphase : (∃ result, phase = .ended result) ∨ ∃ p serverId tx, who = .client p serverId tx) :
    Live ((v.leave who).setPhase c phase) := by
  cases who with
  | client p serverId tx => exact live_setPhase hv hc phase
  | server serverId g =>
    obtain ⟨result, rfl⟩ : ∃ result, phase = .ended result := by
      rcases hphase with hphase | ⟨_, _, _, he⟩
      · exact hphase
      · cases he
    obtain ⟨old, hold, hne⟩ := hc
    have hself := hv c serverId g old hrole hold hne
    intro i serverId' g' phase' hrole' hphase' hrunning
    rw [View.setPhase_role, View.leave_role] at hrole'
    rw [View.setPhase_phase, View.leave_phase] at hphase'
    split at hphase'
    · cases hphase'
      exact absurd rfl (hrunning result)
    · next hi =>
      have hother := hv i serverId' g' phase' hrole' hphase' hrunning
      have hserver : serverId' ≠ serverId := by
        rintro rfl
        rw [hself] at hother
        cases hother
        exact hi rfl
      simp only [View.setPhase_servers, View.leave, View.unregister, hself, if_true]
      rw [Function.update_of_ne hserver]
      exact hother

theorem live_effect (hv : Live v) (hended : Ended v) (he : Effect v move v' es) : Live v' := by
  have hfail : ∀ {c who phase error}, v.role c = some who → Running v c → Live (v.fail c who phase error) := by
    intro c who phase error hrole hc
    rw [View.fail_eq]
    have hleave : Live ((v.leave who).setPhase c (View.failing who phase error).1) := by
      refine live_leave hv hrole hc ?_
      cases who with
      | server serverId g => exact .inl ⟨_, rfl⟩
      | client p serverId tx => exact .inr ⟨p, serverId, tx, rfl⟩
    exact hleave
  cases he with
  | refused => exact hv
  | registered hn hfree =>
    intro i serverId' g phase hrole hphase hrunning
    simp only [Function.update_apply] at hrole hphase ⊢
    split at hrole
    · next hi =>
      cases hrole
      rw [if_pos rfl, hi]
    · next hi =>
      rw [if_neg hi] at hphase
      have hold := hv i serverId' g phase hrole hphase hrunning
      rw [if_neg]
      · exact hold
      · rintro rfl
        rw [hfree] at hold
        cases hold
  | connected pair hn hslot htx hfresh =>
    intro i serverId g phase hrole hphase hrunning
    simp only [Function.update_apply] at hrole hphase
    split at hrole
    · cases hrole
    · next hi =>
      rw [if_neg hi] at hphase
      exact hv i serverId g phase hrole hphase hrunning
  | pinged hidle | ignored hidle | answered hidle | toClient _ hidle | toServer hidle | closedByServer hidle
    | closedByClient hidle | stopped hidle => exact live_setPhase hv hidle.running _
  | readFailed hidle | rejected hidle => exact hfail hidle.role hidle.running
  | sendFailed hrole hphase htodo => exact hfail hrole (running_of_todo hended hphase (by simp [htodo]))
  | finished who hrole hphase htodo =>
    exact live_leave hv hrole ⟨_, hphase, fun result => Phase.noConfusion⟩ (.inl ⟨_, rfl⟩)
  | pushed | skipped | inserted | closed | listed | removed | returned | wrote | writerEnded | swept => exact hv

/-- A server has one running task. -/
theorem live_unique {c c' : ConnId} {serverId : ServerId} {g g' : Nat} (hv : Live v)
    (hrole : v.role c = some (.server serverId g)) (hrole' : v.role c' = some (.server serverId g'))
    (hc : Running v c) (hc' : Running v c') : c = c' := by
  obtain ⟨_, hphase, hne⟩ := hc
  obtain ⟨_, hphase', hne'⟩ := hc'
  have h := hv c serverId g _ hrole hphase hne
  rw [hv c' serverId g' _ hrole' hphase' hne'] at h
  cases h
  rfl

/-! ## Who has done what -/

/-- The tables against the roles. -/
structure Sound (v : View) : Prop where
  roles : Roles v.role
  registry : ∀ {serverId : ServerId} {slot : StoredServerSlot}, v.servers serverId = some slot →
    ∃ g, v.role slot.tx = some (.server serverId g)
  pairs : ∀ {pairId : PairId} {pair : Pair}, v.pairs pairId = some pair → pair.pairId = pairId ∧ PairAt v.role pair
  todo : ∀ {a : Option ConnId} {pair : Pair}, .insertPair pair ∈ v.todo a → PairAt v.role pair
  /-- What has a queue is a connection. -/
  known : ∀ {i : ConnId} {channel : Channel.Mpsc ServerMsg}, v.channel i = some channel → ∃ who, v.role i = some who

theorem Wf.sound {s : Relay} (hw : Wf s) : Sound s.view where
  roles := hw.roles
  registry := hw.rooted.registry
  pairs := by
    intro pairId pair hp
    obtain ⟨stored, hl, rfl⟩ := Option.map_eq_some_iff.mp hp
    have hat := hw.rooted.pairs hl
    exact hat
  todo := by
    intro a pair hm
    cases a with
    | none => exact hw.rooted.sweeper hm
    | some c =>
      cases hc : s.conns[c]? with
      | none => simp [view, todo, hc] at hm
      | some k =>
        have htodo : s.view.todo (some c) = k.todo := todo_eq hc
        rw [htodo] at hm
        exact hw.rooted.todo hc hm
  known := by
    intro i channel hi
    obtain ⟨k, hk, _⟩ := Option.map_eq_some_iff.mp hi
    exact ⟨k.role, role_eq hk⟩

/-- The task of a new websocket is none of the old ones. -/
theorem ne_new {i n : ConnId} {who : Role} (hi : v.role i = some who) (hn : v.role n = none) : i ≠ n := by
  rintro rfl
  rw [hn] at hi
  cases hi

/-- No effect takes a role away. -/
theorem role_effect (he : Effect v move v' es) {i : ConnId} {who : Role} (hi : v.role i = some who) :
    v'.role i = some who := by
  cases he with
  | registered hn => exact (Function.update_of_ne (ne_new hi hn) _ _).trans hi
  | connected pair hn => exact (Function.update_of_ne (ne_new hi hn) _ _).trans hi
  | _ => simpa [View.fail_eq] using hi

/-! ## Payloads that are carried -/

/-- The task at `a` does nothing but pass a payload on: from the running task of a server to a client of it, or from
a client to its server. -/
structure Carries (v : View) (a : Option ConnId) (tx : ConnId) (pairId : PairId) (payload : List UInt8) : Prop where
  todo : v.todo a = [.send tx (encodeDataFrame (.forward pairId payload)) true]
  short : payload.length < 2 ^ 64
  task : ∃ c, a = some c ∧ v.phase c = some .reading ∧
    ((∃ serverId g serverTx, v.role c = some (.server serverId g) ∧ v.role tx = some (.client pairId serverId serverTx)) ∨
      ∃ serverId, v.role c = some (.client pairId serverId tx))

/-- No payload is left to send but by a task that carries it. -/
def Carried (v : View) : Prop :=
  ∀ a tx bytes required, .send tx (.data bytes) required ∈ v.todo a →
    ∃ pairId payload, bytes = encodeRelayData (.forward pairId payload) ∧ Carries v a tx pairId payload

/-- The operation neither sends a payload nor inserts a pair. -/
def IsRoutine : Op → Prop
  | .send _ (.data _) _ => False
  | .insertPair _ => False
  | _ => True

def Routine (ops : List Op) : Prop := ∀ op ∈ ops, IsRoutine op

/-- Nothing in the list is a payload to send. -/
def NoData (ops : List Op) : Prop := ∀ tx bytes required, .send tx (.data bytes) required ∉ ops

theorem Routine.noData {ops : List Op} (h : Routine ops) : NoData ops := fun _ _ _ hm => h _ hm

theorem Routine.noInsert {ops : List Op} (h : Routine ops) (pair : Pair) : .insertPair pair ∉ ops := fun hm => h _ hm

theorem routine_nil : Routine [] := fun _ hm => absurd hm List.not_mem_nil

theorem routine_append {ops ops' : List Op} (h : Routine ops) (h' : Routine ops') : Routine (ops ++ ops') := by
  intro op hm
  rcases List.mem_append.mp hm with hm | hm
  · exact h op hm
  · exact h' op hm

theorem routine_ctrl (tx : ConnId) (ctrl : RelayCtrl) (required : Bool) :
    Routine [.send tx (encodeCtrlFrame ctrl) required] := by
  intro op hm
  rw [List.mem_singleton] at hm
  rw [hm]
  exact trivial

theorem routine_closeOps (v : View) (pairId : PairId) (reason : PairCloseReason) : Routine (v.closeOps pairId reason) := by
  unfold View.closeOps
  split
  · exact routine_nil
  · exact routine_append (routine_ctrl _ _ _) (routine_ctrl _ _ _)

theorem routine_closePairs (ids : List PairId) : Routine (ids.map fun pairId => .closePair pairId .serverGone) := by
  intro op hm
  obtain ⟨pairId, _, rfl⟩ := List.mem_map.mp hm
  exact trivial

theorem routine_farewell (c : ConnId) (who : Role) : Routine (Role.farewell c who) := by
  intro op hm
  cases who <;> simp [Role.farewell] at hm
  · rcases hm with rfl | rfl <;> exact trivial
  · rw [hm]
    exact trivial

theorem routine_failing (who : Role) (phase : Phase) (error : RelayError) : Routine (View.failing who phase error).2 := by
  intro op hm
  cases who with
  | server serverId g => cases hm
  | client p serverId tx =>
    cases phase with
    | opening => cases hm
    | _ =>
      rw [List.mem_singleton.mp hm]
      exact trivial

theorem routine_guillotine (stuck : List Pair) : Routine (stuck.flatMap guillotine) := by
  intro op hm
  obtain ⟨pair, _, hm⟩ := List.mem_flatMap.mp hm
  simp only [guillotine, List.mem_cons, List.not_mem_nil, or_false] at hm
  rcases hm with rfl | rfl | rfl <;> exact trivial

/-- The task at `a` changes, and carries nothing that it has not been given to carry. -/
theorem carried_of (a : Option ConnId) (hv : Carried v) (hrole : ∀ i who, v.role i = some who → v'.role i = some who)
    (htodo : ∀ b, b ≠ a → v'.todo b = v.todo b) (hphase : ∀ c, some c ≠ a → v.role c ≠ none → v'.phase c = v.phase c)
    (hself : ∀ tx bytes required, .send tx (.data bytes) required ∈ v'.todo a →
      ∃ pairId payload, bytes = encodeRelayData (.forward pairId payload) ∧ Carries v' a tx pairId payload) :
    Carried v' := by
  intro b tx bytes required hm
  by_cases hb : b = a
  · subst hb
    exact hself tx bytes required hm
  · rw [htodo b hb] at hm
    obtain ⟨pairId, payload, rfl, hcarries⟩ := hv b tx bytes required hm
    refine ⟨pairId, payload, rfl, (htodo b hb).trans hcarries.todo, hcarries.short, ?_⟩
    obtain ⟨c, rfl, hreading, hends⟩ := hcarries.task
    have hc : v.role c ≠ none := by
      rcases hends with ⟨_, _, _, hc, _⟩ | ⟨_, hc⟩ <;> simp [hc]
    refine ⟨c, rfl, (hphase c hb hc).trans hreading, ?_⟩
    rcases hends with ⟨serverId, g, serverTx, hc, htx⟩ | ⟨serverId, hc⟩
    · exact .inl ⟨serverId, g, serverTx, hrole _ _ hc, hrole _ _ htx⟩
    · exact .inr ⟨serverId, hrole _ _ hc⟩

/-- The task at `a` has something else to do, and it is not a payload to send. -/
theorem carried_task {a : Option ConnId} {ops : List Op} (hv : Carried v) (hops : NoData ops) (hrole : v'.role = v.role)
    (htodo : v'.todo = update v.todo a ops) (hphase : ∀ c, some c ≠ a → v'.phase c = v.phase c) : Carried v' := by
  refine carried_of a hv (fun i who hi => by rwa [hrole]) ?_ (fun c hc _ => hphase c hc) ?_
  · intro b hb
    rw [htodo, Function.update_of_ne hb]
  · intro tx bytes required hm
    rw [htodo, Function.update_self] at hm
    exact absurd hm (hops tx bytes required)

theorem phase_of_ne {c i : ConnId} {phase : Phase} {ops : List Op} (hi : some i ≠ some c) :
    ((v.setPhase c phase).setTodo (some c) ops).phase i = v.phase i := by
  rw [View.setTodo_phase, View.setPhase_phase, if_neg (by simpa using hi)]

/-- The guillotine carries nothing. -/
theorem noData_sweeper (hv : Carried v) : NoData (v.todo none) := by
  intro tx bytes required hm
  obtain ⟨pairId, payload, rfl, hcarries⟩ := hv none tx bytes required hm
  obtain ⟨c, hc, _⟩ := hcarries.task
  cases hc

/-- What stands behind an operation is not a payload to send. -/
theorem noData_tail {a : Option ConnId} {op : Op} {rest : List Op} (hv : Carried v) (htodo : v.todo a = op :: rest) :
    NoData rest := by
  intro tx bytes required hm
  obtain ⟨pairId, payload, rfl, hcarries⟩ := hv a tx bytes required (by rw [htodo]; exact List.mem_cons_of_mem _ hm)
  rw [hcarries.todo] at htodo
  cases htodo
  cases hm

theorem noData_append {ops ops' : List Op} (h : NoData ops) (h' : NoData ops') : NoData (ops ++ ops') := by
  intro tx bytes required hm
  rcases List.mem_append.mp hm with hm | hm
  · exact h tx bytes required hm
  · exact h' tx bytes required hm

/-- What a websocket gives is as long as a `Vec` can be. -/
def Fits (h : List Event) : Prop := ∀ c who bytes, .read c who bytes ∈ h → bytes.length < 2 ^ 64

theorem carried_effect (hv : Carried v) (hw : Sound v) (hfits : Fits es) (he : Effect v move v' es) : Carried v' := by
  have hfail : ∀ {c who phase error}, Carried (v.fail c who phase error) := by
    intro c who phase error
    rw [View.fail_eq]
    exact carried_task (a := some c) hv (routine_failing who phase error).noData (by simp) (by simp [View.setTodo])
      fun i hi => by rw [phase_of_ne hi, View.leave_phase]
  have hnew : ∀ {n : ConnId} {w : View} {ops : List Op}, v.role n = none → NoData ops →
      w.phase = update v.phase n (some .opening) → w.todo = update v.todo (some n) ops →
      (∀ i who, v.role i = some who → w.role i = some who) → Carried w := by
    intro n w ops hn hops hphase htodo hrole
    refine carried_of (some n) hv hrole (fun b hb => by rw [htodo, Function.update_of_ne hb]) ?_ ?_
    · intro c hc _
      rw [hphase, Function.update_of_ne (by simpa using hc)]
    · intro tx bytes required hm
      rw [htodo, Function.update_self] at hm
      exact absurd hm (hops tx bytes required)
  have hread : ∀ {c : ConnId} {w : View} {phase : Phase} {ops : List Op}, w.role = v.role → w.todo = v.todo →
      w.phase = v.phase → Routine ops → Carried ((w.setPhase c phase).setTodo (some c) ops) := by
    intro c w phase ops hrole htodo hphase hops
    exact carried_task (a := some c) hv hops.noData hrole (by rw [← htodo]; rfl) fun i hi => by rw [phase_of_ne hi, hphase]
  have hrole : ∀ i who, v.role i = some who → v'.role i = some who := fun i who => role_effect he
  cases he with
  | refused => exact hv
  | registered hn hfree => exact hnew hn (by intro tx bytes required hm; simp [encodeCtrlFrame] at hm) rfl rfl hrole
  | connected pair hn => exact hnew hn (by intro tx bytes required hm; simp [encodeCtrlFrame] at hm) rfl rfl hrole
  | pinged hidle | ignored hidle => exact hread rfl rfl rfl routine_nil
  | answered hidle => exact hread rfl rfl rfl (routine_ctrl _ _ _)
  | closedByServer hidle => exact hread rfl rfl rfl (routine_closeOps v _ _)
  | @closedByClient c pairId serverId tx _ bytes closing reason hidle =>
    exact hread rfl rfl rfl (routine_append (routine_closeOps v _ _) (routine_farewell 0 (.client _ serverId tx)))
  | stopped hidle => exact hread rfl rfl rfl (routine_farewell _ _)
  | readFailed hidle | rejected hidle | sendFailed => exact hfail
  | @toClient c g _ bytes payload pairId pair hidle hdecode hpair =>
    refine carried_of (some c) hv hrole (fun b hb => by rw [View.setTodo_todo, if_neg hb]; rfl)
      (fun i hi _ => phase_of_ne hi) ?_
    intro tx bytes' required hm
    rw [View.setTodo_todo, if_pos rfl, List.mem_singleton] at hm
    cases hm
    obtain ⟨rfl, hat⟩ := hw.pairs hpair
    have hlength := length_le_of_decodeRelay hdecode
    have hfit := hfits c _ bytes List.mem_cons_self
    refine ⟨pair.pairId, payload, rfl, by rw [View.setTodo_todo, if_pos rfl], by omega, c, rfl, ?_, .inl ?_⟩
    · rw [View.setTodo_phase, View.setPhase_phase, if_pos rfl]
    · exact ⟨pair.serverId, g, pair.serverTx, hidle.role, hat⟩
  | @toServer c pairId serverId tx _ bytes hidle hpayload =>
    refine carried_of (some c) hv hrole (fun b hb => by rw [View.setTodo_todo, if_neg hb]; rfl)
      (fun i hi _ => phase_of_ne hi) ?_
    intro tx' bytes' required hm
    rw [View.setTodo_todo, if_pos rfl, List.mem_singleton] at hm
    cases hm
    refine ⟨pairId, bytes, rfl, by rw [View.setTodo_todo, if_pos rfl], hfits c _ bytes List.mem_cons_self, c, rfl,
      ?_, .inr ⟨serverId, hidle.role⟩⟩
    rw [View.setTodo_phase, View.setPhase_phase, if_pos rfl]
  | pushed htodo | skipped htodo | inserted htodo | removed htodo =>
    exact carried_task hv (noData_tail hv htodo) rfl rfl fun c _ => rfl
  | closed htodo =>
    exact carried_task hv (noData_append (routine_closeOps v _ _).noData (noData_tail hv htodo)) rfl rfl fun c _ => rfl
  | listed htodo =>
    exact carried_task hv (noData_append (routine_closePairs _).noData (noData_tail hv htodo)) rfl rfl fun c _ => rfl
  | @finished c who result hrole' hphase htodo =>
    refine carried_task (a := some c) hv routine_nil.noData (by simp) ?_ ?_
    · rw [View.setPhase_todo, View.leave_todo, update_same htodo]
    · intro i hi
      rw [View.setPhase_phase, if_neg (by simpa using hi), View.leave_phase]
  | returned | wrote | writerEnded =>
    exact carried_task hv (noData_sweeper hv) rfl (update_same rfl).symm fun c _ => rfl
  | swept htodo => exact carried_task hv (routine_guillotine _).noData rfl rfl fun c _ => rfl

/-! ## What events tell -/

/-- What an event tells about the connections. -/
def Event.Of (R : RoleMap) : Event → Prop
  | .read c who _ => R c = some who
  | .inserted pair => PairAt R pair
  | .pushed tx (.data bytes) =>
    ∃ pairId payload j serverId serverTx, bytes = encodeRelayData (.forward pairId payload) ∧ payload.length < 2 ^ 64 ∧
      R j = some (.client pairId serverId serverTx) ∧ (tx = j ∨ tx = serverTx)
  | .pushed tx _ => ∃ who, R tx = some who
  | .wrote c msg frame => ∃ who, R c = some who ∧ (Writes who msg frame ∨ msg = .close ∧ frame = .close)

def Known (v : View) (h : List Event) : Prop := ∀ event ∈ h, Event.Of v.role event

theorem Event.Of.mono {R R' : RoleMap} (hR : ∀ i who, R i = some who → R' i = some who) {event : Event}
    (h : Event.Of R event) : Event.Of R' event := by
  cases event with
  | read c who bytes => exact hR c who h
  | inserted pair => exact hR _ _ h
  | pushed tx msg =>
    cases msg with
    | data bytes =>
      obtain ⟨pairId, payload, j, serverId, serverTx, hbytes, hshort, hj, htx⟩ := h
      exact ⟨pairId, payload, j, serverId, serverTx, hbytes, hshort, hR _ _ hj, htx⟩
    | ctrl bytes =>
      obtain ⟨who, hwho⟩ := h
      exact ⟨who, hR _ _ hwho⟩
    | close =>
      obtain ⟨who, hwho⟩ := h
      exact ⟨who, hR _ _ hwho⟩
  | wrote c msg frame =>
    obtain ⟨who, hwho, hwrites⟩ := h
    exact ⟨who, hR _ _ hwho, hwrites⟩

/-- Whoever carries a payload does so for a client. -/
theorem Carries.client {a : Option ConnId} {tx : ConnId} {pairId : PairId} {payload : List UInt8}
    (h : Carries v a tx pairId payload) :
    ∃ j serverId serverTx, v.role j = some (.client pairId serverId serverTx) ∧ (tx = j ∨ tx = serverTx) := by
  obtain ⟨c, _, _, ⟨serverId, _, serverTx, _, htx⟩ | ⟨serverId, hc⟩⟩ := h.task
  · exact ⟨tx, serverId, serverTx, htx, .inl rfl⟩
  · exact ⟨c, serverId, tx, hc, .inr rfl⟩

theorem known_effect (hk : Known v h) (hw : Sound v) (hcarried : Carried v) (he : Effect v move v' es) :
    Known v' (h ++ es) := by
  have hrole : ∀ i who, v.role i = some who → v'.role i = some who := fun i who => role_effect he
  have hnew : ∀ event ∈ es, Event.Of v.role event := by
    intro event hm
    cases he with
    | ignored hidle | answered hidle | toClient _ hidle | toServer hidle | closedByServer hidle
      | closedByClient hidle | rejected hidle =>
      rw [List.mem_singleton.mp hm]
      exact hidle.role
    | @pushed a tx msg required rest channel htodo hchannel =>
      rw [List.mem_singleton.mp hm]
      cases msg with
      | data bytes =>
        obtain ⟨pairId, payload, rfl, hcarries⟩ := hcarried a tx bytes required (by simp [htodo])
        obtain ⟨j, serverId, serverTx, hj, htx⟩ := hcarries.client
        exact ⟨pairId, payload, j, serverId, serverTx, rfl, hcarries.short, hj, htx⟩
      | ctrl bytes => exact hw.known hchannel
      | close => exact hw.known hchannel
    | inserted htodo =>
      rw [List.mem_singleton.mp hm]
      exact hw.todo (by rw [htodo]; exact List.mem_cons_self)
    | @wrote c _ who channel msg rest frame hrole' _ _ _ hframe =>
      rw [List.mem_singleton.mp hm]
      exact ⟨who, hrole', .inl hframe⟩
    | writerEnded hchannel _ hevents =>
      obtain ⟨who, hwho⟩ := hw.known hchannel
      rcases hevents with rfl | ⟨_, rfl⟩
      · cases hm
      · rw [List.mem_singleton.mp hm]
        exact ⟨who, hwho, .inr ⟨rfl, rfl⟩⟩
    | _ => cases hm
  intro event hm
  rcases List.mem_append.mp hm with hm | hm
  · exact (hk event hm).mono hrole
  · exact (hnew event hm).mono hrole

/-! ## Queues -/

/-- What has been queued has been written or still waits, as long as somebody writes. -/
def Queued (v : View) (h : List Event) : Prop :=
  ∀ i channel, v.channel i = some channel →
    wroteAt i h <+: pushedTo i h ∧ (channel.closed = false → pushedTo i h = wroteAt i h ++ channel.queue)

theorem pushedTo_append (i : ConnId) (h es : List Event) : pushedTo i (h ++ es) = pushedTo i h ++ pushedTo i es :=
  List.filterMap_append

theorem wroteAt_append (i : ConnId) (h es : List Event) : wroteAt i (h ++ es) = wroteAt i h ++ wroteAt i es :=
  List.filterMap_append

/-- Before there is a connection nothing is queued for it. -/
theorem pushedTo_nil {i : ConnId} (hk : Known v h) (hroles : Roles v.role) (hi : v.role i = none) : pushedTo i h = [] := by
  rw [pushedTo, List.filterMap_eq_nil_iff]
  intro event hm
  have hof := hk event hm
  cases event with
  | pushed tx msg =>
    simp only [ite_eq_right_iff, reduceCtorEq, imp_false]
    rintro rfl
    cases msg with
    | data bytes =>
      obtain ⟨pairId, _, j, serverId, serverTx, _, _, hj, rfl | rfl⟩ := hof
      · simp [hi] at hj
      · obtain ⟨g, hg⟩ := hroles.client hj
        simp [hi] at hg
    | ctrl bytes =>
      obtain ⟨who, hwho⟩ := hof
      simp [hi] at hwho
    | close =>
      obtain ⟨who, hwho⟩ := hof
      simp [hi] at hwho
  | _ => rfl

theorem wroteAt_nil {i : ConnId} (hk : Known v h) (hi : v.role i = none) : wroteAt i h = [] := by
  rw [wroteAt, List.filterMap_eq_nil_iff]
  intro event hm
  have hof := hk event hm
  cases event with
  | wrote c msg frame =>
    simp only [ite_eq_right_iff, reduceCtorEq, imp_false]
    rintro rfl
    obtain ⟨who, hwho, _⟩ := hof
    simp [hi] at hwho
  | _ => rfl

/-- A move that queues and writes nothing, and opens no queue. -/
theorem queued_of_eq (hq : Queued v h) (hchannel : v'.channel = v.channel)
    (hes : ∀ i, pushedTo i es = [] ∧ wroteAt i es = []) : Queued v' (h ++ es) := by
  intro i channel hi
  rw [hchannel] at hi
  rw [pushedTo_append, wroteAt_append, (hes i).1, (hes i).2, List.append_nil, List.append_nil]
  exact hq i channel hi

theorem queued_effect (hq : Queued v h) (hk : Known v h) (hroles : Roles v.role) (he : Effect v move v' es) :
    Queued v' (h ++ es) := by
  have hnew : ∀ {n : ConnId} {w : View}, v.role n = none →
      w.channel = update v.channel n (some { capacity := socketQueueCapacity }) → Queued w (h ++ []) := by
    intro n w hn hchannel i channel hi
    rw [List.append_nil]
    rw [hchannel, Function.update_apply] at hi
    split at hi
    · next hin =>
      cases hi
      rw [hin, pushedTo_nil hk hroles hn, wroteAt_nil hk hn]
      exact ⟨List.prefix_rfl, fun _ => rfl⟩
    · exact hq i channel hi
  cases he with
  | refused => exact queued_of_eq hq rfl fun i => ⟨rfl, rfl⟩
  | registered hn => exact hnew hn rfl
  | connected pair hn => exact hnew hn rfl
  | readFailed | rejected | sendFailed => exact queued_of_eq hq (by rw [View.fail_eq]; simp) fun i => ⟨rfl, rfl⟩
  | finished who => exact queued_of_eq hq (by simp) fun i => ⟨rfl, rfl⟩
  | @pushed a tx msg required rest channel htodo hchannel hopen =>
    intro i channel' hi
    rw [View.setTodo_channel, View.setChannel_channel] at hi
    rw [pushedTo_append, wroteAt_append]
    have hwrote : wroteAt i [.pushed tx msg] = [] := rfl
    rw [hwrote, List.append_nil]
    split at hi
    · next hit =>
      cases hi
      subst hit
      have hpushed : pushedTo i [.pushed i msg] = [msg] := by simp [pushedTo]
      obtain ⟨hwritten, hsame⟩ := hq i channel hchannel
      rw [hpushed, ← List.append_assoc, ← hsame hopen]
      exact ⟨hwritten.trans (List.prefix_append _ _), fun _ => rfl⟩
    · next hit =>
      have hpushed : pushedTo i [.pushed tx msg] = [] := by simp [pushedTo, Ne.symm hit]
      rw [hpushed, List.append_nil]
      exact hq i channel' hi
  | @wrote c _ who channel msg rest frame hrole hchannel hopen hqueue =>
    intro i channel' hi
    rw [View.setChannel_channel] at hi
    rw [pushedTo_append, wroteAt_append]
    have hpushed : pushedTo i [.wrote c msg frame] = [] := rfl
    rw [hpushed, List.append_nil]
    split at hi
    · next hit =>
      cases hi
      subst hit
      have hwrote : wroteAt i [.wrote i msg frame] = [msg] := by simp [wroteAt]
      have hsame := (hq i channel hchannel).2 hopen
      rw [hwrote, hsame, hqueue]
      refine ⟨?_, fun _ => by simp⟩
      exact ⟨rest, by simp⟩
    · next hit =>
      have hwrote : wroteAt i [.wrote c msg frame] = [] := by simp [wroteAt, Ne.symm hit]
      rw [hwrote, List.append_nil]
      exact hq i channel' hi
  | @writerEnded c _ channel _ hchannel hopen hevents =>
    intro i channel' hi
    rw [View.setChannel_channel] at hi
    have hpushed : pushedTo i es = [] := by rcases hevents with rfl | ⟨_, rfl⟩ <;> rfl
    rw [pushedTo_append, wroteAt_append, hpushed, List.append_nil]
    split at hi
    · next hit =>
      cases hi
      subst hit
      have hsame := (hq i channel hchannel).2 hopen
      refine ⟨?_, fun hc => Bool.noConfusion hc⟩
      rw [hsame]
      rcases hevents with rfl | ⟨⟨rest, hqueue⟩, rfl⟩
      · exact ⟨channel.queue, by simp [wroteAt]⟩
      · exact ⟨rest, by simp [wroteAt, hqueue]⟩
    · next hit =>
      have hwrote : wroteAt i es = [] := by
        rcases hevents with rfl | ⟨_, rfl⟩
        · rfl
        · simp [wroteAt, Ne.symm hit]
      rw [hwrote, List.append_nil]
      exact hq i channel' hi
  | _ => exact queued_of_eq hq rfl fun i => ⟨rfl, rfl⟩

/-! ## How a pair comes to be -/

/-- What a client's task does before it reads. -/
def openingOps (pair : Pair) : List Op := [.insertPair pair,
  .send pair.serverTx (encodeCtrlFrame (.pairInbound pair.pairId)) true,
  .send pair.clientTx (encodeCtrlFrame (.pairOpen pair.pairId)) true]

/-- A pair is inserted by its own client, while that opens. -/
def Inserting (v : View) : Prop :=
  ∀ a pair, .insertPair pair ∈ v.todo a → a = some pair.clientTx ∧ v.phase pair.clientTx = some .opening

/-- The first `n` of a client's opening operations are done. -/
structure OpenedTo (v : View) (h : List Event) (c : ConnId) (pairId : PairId) (serverId : ServerId) (tx : ConnId)
    (n : Nat) : Prop where
  le : n ≤ 3
  opening : v.phase c = some .opening → ∃ now, v.todo (some c) = (openingOps ⟨pairId, serverId, now, tx, c⟩).drop n
  later : v.phase c = some .reading ∨ (∃ result, v.phase c = some (.closing result)) → n = 3
  inserted : 0 < n ↔ InsertedIn pairId h
  told : 2 ≤ n → .pushed tx (encodeCtrlFrame (.pairInbound pairId)) ∈ h
  opened : n = 3 → .pushed c (encodeCtrlFrame (.pairOpen pairId)) ∈ h

def Opened (v : View) (h : List Event) : Prop :=
  (∀ c pairId serverId tx, v.role c = some (.client pairId serverId tx) → ∃ n, OpenedTo v h c pairId serverId tx n) ∧
    ∀ pairId pair, v.pairs pairId = some pair → InsertedIn pairId h

theorem insertedIn_append {pairId : PairId} :
    InsertedIn pairId (h ++ es) ↔ InsertedIn pairId h ∨ ∃ pair, .inserted pair ∈ es ∧ pair.pairId = pairId := by
  simp only [InsertedIn, List.mem_append, or_and_right, exists_or]

/-- The task at `a` inserts no pair that it has not been to insert. -/
theorem inserting_task {a : Option ConnId} {ops : List Op} (hv : Inserting v)
    (hops : ∀ pair, .insertPair pair ∈ ops → .insertPair pair ∈ v.todo a ∧ v'.phase pair.clientTx = v.phase pair.clientTx)
    (htodo : v'.todo = update v.todo a ops) (hphase : ∀ c, some c ≠ a → v'.phase c = v.phase c) : Inserting v' := by
  intro b pair hm
  rw [htodo, Function.update_apply] at hm
  split at hm
  · next hb =>
    obtain ⟨hold, hsame⟩ := hops pair hm
    rw [hb, hsame]
    exact hv a pair hold
  · next hb =>
    obtain ⟨hself, hopening⟩ := hv b pair hm
    refine ⟨hself, ?_⟩
    rw [hphase _ (by rwa [← hself]), hopening]

theorem inserting_effect (hv : Inserting v) (hw : Sound v) (he : Effect v move v' es) : Inserting v' := by
  have hbusy : ∀ {c : ConnId} {w : View} {phase : Phase} {ops : List Op}, w.todo = v.todo → w.phase = v.phase →
      (∀ pair, .insertPair pair ∉ ops) → Inserting ((w.setPhase c phase).setTodo (some c) ops) := by
    intro c w phase ops htodo hphase hops
    refine inserting_task (a := some c) hv (fun pair hm => absurd hm (hops pair)) (by rw [← htodo]; rfl) ?_
    intro i hi
    rw [phase_of_ne hi, hphase]
  have hfail : ∀ {c who phase error}, Inserting (v.fail c who phase error) := by
    intro c who phase error
    rw [View.fail_eq]
    exact hbusy (by simp) (by simp) (routine_failing who phase error).noInsert
  have htail : ∀ {a : Option ConnId} {op : Op} {more rest : List Op} {w : View}, v.todo a = op :: rest → Routine more →
      w.todo = update v.todo a (more ++ rest) → w.phase = v.phase → Inserting w := by
    intro a op more rest w htodo hmore htodo' hphase
    refine inserting_task hv ?_ htodo' fun c _ => by rw [hphase]
    intro pair hm
    rw [hphase, htodo]
    rcases List.mem_append.mp hm with hm | hm
    · exact absurd hm (hmore.noInsert pair)
    · exact ⟨List.mem_cons_of_mem _ hm, rfl⟩
  cases he with
  | refused => exact hv
  | @registered n serverId _ _ hn =>
    refine inserting_task (a := some n) hv ?_ rfl fun i hi => Function.update_of_ne (by simpa using hi) _ _
    intro pair hm
    exact absurd hm ((routine_ctrl _ _ _).noInsert pair)
  | connected pair hn =>
    intro b pair' hm
    simp only [Function.update_apply] at hm ⊢
    split at hm
    · next hb =>
      simp only [List.mem_cons, Op.insertPair.injEq, reduceCtorEq, List.not_mem_nil, or_false] at hm
      rw [hm, hb]
      exact ⟨rfl, if_pos rfl⟩
    · obtain ⟨hself, hopening⟩ := hv b pair' hm
      refine ⟨hself, ?_⟩
      rw [if_neg, hopening]
      intro heq
      have hat := hw.todo hm
      rw [PairAt, heq, hn] at hat
      cases hat
  | pinged hidle | ignored hidle => exact hbusy rfl rfl fun pair hm => by cases hm
  | answered hidle => exact hbusy rfl rfl (routine_ctrl _ _ _).noInsert
  | toClient _ hidle | toServer hidle => exact hbusy rfl rfl fun pair hm => by simp at hm
  | closedByServer hidle => exact hbusy rfl rfl (routine_closeOps v _ _).noInsert
  | @closedByClient c pairId serverId tx _ bytes closing reason hidle =>
    exact hbusy rfl rfl (routine_append (routine_closeOps v _ _) (routine_farewell 0 (.client _ serverId tx))).noInsert
  | stopped hidle => exact hbusy rfl rfl (routine_farewell _ _).noInsert
  | readFailed hidle | rejected hidle | sendFailed => exact hfail
  | pushed htodo | skipped htodo | inserted htodo | removed htodo => exact htail htodo routine_nil rfl rfl
  | closed htodo => exact htail htodo (routine_closeOps v _ _) rfl rfl
  | listed htodo => exact htail htodo (routine_closePairs _) rfl rfl
  | @finished c who result hrole hphase htodo =>
    have hsame : ((v.leave who).setPhase c (.ended result)).todo = update v.todo (some c) [] := by
      rw [View.setPhase_todo, View.leave_todo, update_same htodo]
    refine inserting_task hv (fun pair hm => by cases hm) hsame ?_
    intro i hi
    rw [View.setPhase_phase, if_neg (by simpa using hi), View.leave_phase]
  | returned | wrote | writerEnded => exact hv
  | swept htodo =>
    exact inserting_task hv (fun pair hm => absurd hm ((routine_guillotine _).noInsert pair)) rfl fun c _ => rfl

/-- A client that another task's move leaves as it is. -/
theorem OpenedTo.frame {c : ConnId} {pairId : PairId} {serverId : ServerId} {tx : ConnId} {n : Nat}
    (ho : OpenedTo v h c pairId serverId tx n) (hphase : v'.phase c = v.phase c) (htodo : v'.todo (some c) = v.todo (some c))
    (hes : ∀ pair, .inserted pair ∈ es → pair.pairId ≠ pairId) : OpenedTo v' (h ++ es) c pairId serverId tx n where
  le := ho.le
  opening := by rw [hphase, htodo]; exact ho.opening
  later := by rw [hphase]; exact ho.later
  inserted := by
    rw [ho.inserted, insertedIn_append]
    constructor
    · exact Or.inl
    · rintro (hin | ⟨pair, hm, hp⟩)
      · exact hin
      · exact absurd hp (hes pair hm)
  told hn := List.mem_append_left _ (ho.told hn)
  opened hn := List.mem_append_left _ (ho.opened hn)

/-- A client that no longer opens. -/
theorem OpenedTo.go {c : ConnId} {pairId : PairId} {serverId : ServerId} {tx : ConnId} {n : Nat}
    (ho : OpenedTo v h c pairId serverId tx n) (hphase : v'.phase c ≠ some .opening)
    (hlater : v'.phase c = some .reading ∨ (∃ result, v'.phase c = some (.closing result)) → n = 3)
    (hes : ∀ pair, .inserted pair ∈ es → pair.pairId ≠ pairId) : OpenedTo v' (h ++ es) c pairId serverId tx n where
  le := ho.le
  opening hopening := absurd hopening hphase
  later := hlater
  inserted := by
    rw [ho.inserted, insertedIn_append]
    constructor
    · exact Or.inl
    · rintro (hin | ⟨pair, hm, hp⟩)
      · exact hin
      · exact absurd hp (hes pair hm)
  told hn := List.mem_append_left _ (ho.told hn)
  opened hn := List.mem_append_left _ (ho.opened hn)

/-- A client that waits for a message has opened. -/
theorem OpenedTo.idle {c : ConnId} {who : Role} {pairId : PairId} {serverId : ServerId} {tx : ConnId} {n : Nat}
    (ho : OpenedTo v h c pairId serverId tx n) (hidle : v.Idle c who) : n = 3 := by
  rcases hidle.phase with hphase | hphase
  · obtain ⟨now, htodo⟩ := ho.opening hphase
    rw [hidle.todo] at htodo
    have hle := ho.le
    have hlength := congrArg List.length htodo
    simp only [openingOps, List.length_nil, List.length_drop, List.length_cons] at hlength
    omega
  · exact ho.later (.inl hphase)

/-- What an opening client does next. -/
theorem OpenedTo.next {c : ConnId} {pairId : PairId} {serverId : ServerId} {tx : ConnId} {n : Nat} {op : Op} {rest : List Op}
    (ho : OpenedTo v h c pairId serverId tx n) (hphase : v.phase c = some .opening) (htodo : v.todo (some c) = op :: rest) :
    ∃ now, (∃ k, rest = (openingOps ⟨pairId, serverId, now, tx, c⟩).drop (n + 1) ∧ k = n) ∧
      (n = 0 ∧ op = .insertPair ⟨pairId, serverId, now, tx, c⟩ ∨
        n = 1 ∧ op = .send tx (encodeCtrlFrame (.pairInbound pairId)) true ∨
        n = 2 ∧ op = .send c (encodeCtrlFrame (.pairOpen pairId)) true) := by
  obtain ⟨now, hops⟩ := ho.opening hphase
  rw [htodo] at hops
  refine ⟨now, ?_⟩
  rcases n with _ | _ | _ | n
  · cases hops
    exact ⟨⟨0, rfl, rfl⟩, .inl ⟨rfl, rfl⟩⟩
  · cases hops
    exact ⟨⟨1, rfl, rfl⟩, .inr (.inl ⟨rfl, rfl⟩)⟩
  · cases hops
    exact ⟨⟨2, rfl, rfl⟩, .inr (.inr ⟨rfl, rfl⟩)⟩
  · rw [List.drop_eq_nil_of_le (by simp [openingOps])] at hops
    cases hops

/-- A fresh pair has not been inserted. -/
theorem not_inserted_of_fresh {pairId : PairId} (hk : Known v h)
    (hfresh : ∀ i serverId tx, v.role i ≠ some (.client pairId serverId tx)) : ¬InsertedIn pairId h := by
  rintro ⟨pair, hm, rfl⟩
  exact hfresh _ _ _ (hk _ hm)

/-- A task that reads, ours or another. -/
theorem OpenedTo.busy {c d : ConnId} {who : Role} {pairId : PairId} {serverId : ServerId} {tx : ConnId} {n : Nat}
    {w : View} {phase : Phase} {ops : List Op} (ho : OpenedTo v h c pairId serverId tx n) (hidle : v.Idle d who)
    (hphase : w.phase = v.phase) (htodo : w.todo = v.todo) (hnext : d = c → phase ≠ .opening)
    (hes : ∀ pair, .inserted pair ∉ es) :
    OpenedTo ((w.setPhase d phase).setTodo (some d) ops) (h ++ es) c pairId serverId tx n := by
  by_cases hdc : d = c
  · subst hdc
    refine ho.go ?_ (fun _ => ho.idle hidle) fun pair hm => absurd hm (hes pair)
    rw [View.setTodo_phase, View.setPhase_phase, if_pos rfl]
    exact fun heq => hnext rfl (Option.some.inj heq)
  · refine ho.frame ?_ ?_ fun pair hm => absurd hm (hes pair)
    · rw [phase_of_ne (by simpa using Ne.symm hdc), hphase]
    · rw [View.setTodo_todo, if_neg (by simpa using Ne.symm hdc), View.setPhase_todo, htodo]

/-- An operation that is none of the opening ones. -/
theorem OpenedTo.done {c : ConnId} {a : Option ConnId} {pairId : PairId} {serverId : ServerId} {tx : ConnId} {n : Nat}
    {op : Op} {rest ops : List Op} (ho : OpenedTo v h c pairId serverId tx n) (htodo : v.todo a = op :: rest)
    (hphase : v'.phase = v.phase) (htodo' : v'.todo = update v.todo a ops) (hinsert : ∀ pair, op ≠ .insertPair pair)
    (hsend : ∀ tx msg, op ≠ .send tx msg true) : OpenedTo v' (h ++ []) c pairId serverId tx n := by
  by_cases hac : a = some c
  · subst hac
    refine ho.go ?_ (by rw [hphase]; exact ho.later) fun pair hm => by cases hm
    rw [hphase]
    intro hopening
    obtain ⟨now, _, ⟨_, hop⟩ | ⟨_, hop⟩ | ⟨_, hop⟩⟩ := ho.next hopening htodo
    · exact hinsert _ hop
    · exact hsend _ _ hop
    · exact hsend _ _ hop
  · exact ho.frame (by rw [hphase]) (by rw [htodo', Function.update_of_ne (Ne.symm hac)]) fun pair hm => by cases hm

/-- What is in the table has been inserted. -/
theorem inserted_of_pairs (hin : ∀ pairId pair, v.pairs pairId = some pair → InsertedIn pairId h) (he : Effect v move v' es) :
    ∀ pairId pair, v'.pairs pairId = some pair → InsertedIn pairId (h ++ es) := by
  intro pairId pair hp
  have hsame : v.pairs pairId = some pair → InsertedIn pairId (h ++ es) := fun hp =>
    insertedIn_append.mpr (.inl (hin pairId pair hp))
  have herase : ∀ q, (v.erase q).pairs pairId = some pair → InsertedIn pairId (h ++ es) := by
    intro q hp
    rw [View.erase_pairs] at hp
    split at hp
    · cases hp
    · exact hsame hp
  cases he with
  | closedByServer | closedByClient | closed | removed => exact herase _ hp
  | @inserted a pair' rest htodo =>
    rw [View.setTodo_pairs, View.insert_pairs] at hp
    split at hp
    · next hid => exact insertedIn_append.mpr (.inr ⟨pair', List.mem_singleton_self _, hid.symm⟩)
    · exact hsame hp
  | readFailed | rejected | sendFailed =>
    rw [View.fail_eq] at hp
    exact hsame (by simpa using hp)
  | finished => exact hsame (by simpa using hp)
  | _ => exact hsame hp

theorem opened_effect (ho : Opened v h) (hw : Sound v) (hended : Ended v) (hk : Known v h) (hi : Inserting v)
    (he : Effect v move v' es) : Opened v' (h ++ es) := by
  constructor
  · intro c pairId serverId tx hrole'
    have hold : v.role c = some (.client pairId serverId tx) →
        ∃ n, OpenedTo v h c pairId serverId tx n := ho.1 c pairId serverId tx
    cases he with
    | refused =>
      obtain ⟨n, hn⟩ := hold hrole'
      exact ⟨n, hn.frame rfl rfl fun pair hm => by cases hm⟩
    | @registered d id _ _ hd =>
      have hne : c ≠ d := by
        rintro rfl
        simp at hrole'
      simp only [Function.update_of_ne hne] at hrole'
      obtain ⟨n, hn⟩ := hold hrole'
      exact ⟨n, hn.frame (Function.update_of_ne hne _ _) (Function.update_of_ne (by simpa using hne) _ _)
        fun pair hm => by cases hm⟩
    | connected pair hd hslot htx hfresh =>
      by_cases hc : c = pair.clientTx
      · subst hc
        simp only [Function.update_self, Option.some.injEq, Role.client.injEq] at hrole'
        obtain ⟨rfl, rfl, rfl⟩ := hrole'
        refine ⟨0, by omega, fun _ => ⟨pair.lastProgress, ?_⟩, ?_, ?_, by omega, by omega⟩
        · exact Function.update_self _ _ _
        · simp
        · rw [List.append_nil]
          exact ⟨fun hlt => absurd hlt (by omega), fun hin => absurd hin (not_inserted_of_fresh hk hfresh)⟩
      · simp only [Function.update_of_ne hc] at hrole'
        obtain ⟨n, hn⟩ := hold hrole'
        exact ⟨n, hn.frame (Function.update_of_ne hc _ _) (Function.update_of_ne (by simpa using hc) _ _)
          fun pair hm => by cases hm⟩
    | pinged hid | ignored hid | answered hid | toClient _ hid | toServer hid | closedByServer hid | closedByClient hid
      | stopped hid =>
      obtain ⟨n, hn⟩ := hold hrole'
      exact ⟨n, hn.busy hid rfl rfl (fun _ => Phase.noConfusion) fun pair hm => by simp at hm⟩
    | @readFailed d who error _ _ hid =>
      rw [View.fail_eq] at hrole' ⊢
      obtain ⟨n, hn⟩ := hold (by simpa using hrole')
      refine ⟨n, hn.busy hid (by simp) (by simp) ?_ fun pair hm => by cases hm⟩
      rintro rfl
      cases who with
      | server _ _ => exact Phase.noConfusion
      | client _ _ _ => exact Phase.noConfusion
    | rejected hid =>
      rw [View.fail_eq] at hrole' ⊢
      obtain ⟨n, hn⟩ := hold (by simpa using hrole')
      exact ⟨n, hn.busy hid (by simp) (by simp) (fun _ => Phase.noConfusion) fun pair hm => by simp at hm⟩
    | @sendFailed d who phase tx' msg rest channel hrole hphase htodo hchannel hclosed =>
      rw [View.fail_eq] at hrole' ⊢
      obtain ⟨n, hn⟩ := hold (by simpa using hrole')
      refine ⟨n, ?_⟩
      by_cases hdc : d = c
      · subst hdc
        refine hn.go ?_ ?_ fun pair hm => by cases hm
        · rw [View.setTodo_phase, View.setPhase_phase, if_pos rfl]
          cases who <;> cases phase <;> simp [View.failing]
        · rw [View.setTodo_phase, View.setPhase_phase, if_pos rfl]
          cases phase with
          | opening => cases who <;> simp [View.failing]
          | reading => exact fun _ => hn.later (.inl hphase)
          | closing result => exact fun _ => hn.later (.inr ⟨result, hphase⟩)
          | ended result =>
            rw [hended d result hphase] at htodo
            cases htodo
      · refine hn.frame ?_ ?_ fun pair hm => by cases hm
        · rw [phase_of_ne (by simpa using Ne.symm hdc), View.leave_phase]
        · rw [View.setTodo_todo, if_neg (by simpa using Ne.symm hdc), View.setPhase_todo, View.leave_todo]
    | @pushed a tx' msg required rest channel htodo =>
      obtain ⟨n, hn⟩ := hold hrole'
      by_cases hac : a = some c
      · subst hac
        by_cases hopening : v.phase c = some .opening
        · obtain ⟨now, ⟨_, hrest, _⟩, ⟨_, hop⟩ | ⟨hn', hop⟩ | ⟨hn', hop⟩⟩ := hn.next hopening htodo
          · cases hop
          · cases hop
            have hin : InsertedIn pairId h := hn.inserted.mp (by omega)
            refine ⟨n + 1, by omega, fun _ => ⟨now, ?_⟩, ?_, ?_, fun _ => by simp, by omega⟩
            · rw [View.setTodo_todo, if_pos rfl, hrest]
            · rw [View.setTodo_phase, View.setChannel_phase, hopening]
              simp
            · exact ⟨fun _ => insertedIn_append.mpr (.inl hin), fun _ => by omega⟩
          · cases hop
            have hin : InsertedIn pairId h := hn.inserted.mp (by omega)
            refine ⟨n + 1, by omega, fun _ => ⟨now, ?_⟩, fun _ => by omega, ?_, ?_, fun _ => by simp⟩
            · rw [View.setTodo_todo, if_pos rfl, hrest]
            · exact ⟨fun _ => insertedIn_append.mpr (.inl hin), fun _ => by omega⟩
            · exact fun _ => List.mem_append_left _ (hn.told (by omega))
        · exact ⟨n, hn.go hopening hn.later fun pair hm => by simp at hm⟩
      · refine ⟨n, hn.frame rfl ?_ fun pair hm => by simp at hm⟩
        rw [View.setTodo_todo, if_neg (Ne.symm hac), View.setChannel_todo]
    | skipped htodo =>
      obtain ⟨n, hn⟩ := hold hrole'
      exact ⟨n, hn.done htodo rfl rfl (fun _ => Op.noConfusion) fun tx msg hop => by cases hop⟩
    | closed htodo | listed htodo | removed htodo =>
      obtain ⟨n, hn⟩ := hold hrole'
      exact ⟨n, hn.done htodo rfl rfl (fun _ => Op.noConfusion) fun _ _ => Op.noConfusion⟩
    | @inserted a pair rest htodo =>
      obtain ⟨n, hn⟩ := hold hrole'
      have hmem : .insertPair pair ∈ v.todo a := by rw [htodo]; exact List.mem_cons_self
      obtain ⟨ha, hopening⟩ := hi a pair hmem
      by_cases hac : pair.clientTx = c
      · rw [hac] at ha hopening
        subst ha
        obtain ⟨now, ⟨_, hrest, _⟩, ⟨hn', hop⟩ | ⟨_, hop⟩ | ⟨_, hop⟩⟩ := hn.next hopening htodo
        · cases hop
          refine ⟨n + 1, by omega, fun _ => ⟨now, ?_⟩, ?_, ?_, by omega, by omega⟩
          · rw [View.setTodo_todo, if_pos rfl, hrest]
          · rw [View.setTodo_phase, View.insert_phase, hopening]
            simp
          · exact ⟨fun _ => insertedIn_append.mpr (.inr ⟨_, List.mem_singleton_self _, rfl⟩), fun _ => by omega⟩
        · cases hop
        · cases hop
      · refine ⟨n, hn.frame rfl ?_ ?_⟩
        · rw [View.setTodo_todo, if_neg, View.insert_todo]
          rw [ha]
          simpa using Ne.symm hac
        · intro pair' hm hp
          rw [List.mem_singleton] at hm
          cases hm
          have hat := hw.todo hmem
          rw [PairAt, hp] at hat
          exact hac (hw.roles.unique hat hrole')
    | @finished d who result hrole hphase htodo =>
      obtain ⟨n, hn⟩ := hold (by simpa using hrole')
      refine ⟨n, ?_⟩
      by_cases hdc : d = c
      · subst hdc
        refine hn.go ?_ (fun _ => hn.later (.inr ⟨result, hphase⟩)) fun pair hm => by cases hm
        rw [View.setPhase_phase, if_pos rfl]
        simp
      · refine hn.frame ?_ (by simp) fun pair hm => by cases hm
        rw [View.setPhase_phase, if_neg (Ne.symm hdc), View.leave_phase]
    | returned =>
      obtain ⟨n, hn⟩ := hold hrole'
      exact ⟨n, hn.frame rfl rfl fun pair hm => by cases hm⟩
    | wrote =>
      obtain ⟨n, hn⟩ := hold hrole'
      exact ⟨n, hn.frame rfl rfl fun pair hm => by simp at hm⟩
    | writerEnded _ _ hevents =>
      obtain ⟨n, hn⟩ := hold hrole'
      refine ⟨n, hn.frame rfl rfl fun pair hm => ?_⟩
      rcases hevents with rfl | ⟨_, rfl⟩ <;> simp at hm
    | swept =>
      obtain ⟨n, hn⟩ := hold hrole'
      refine ⟨n, hn.frame rfl ?_ fun pair hm => by cases hm⟩
      rw [View.setTodo_todo, if_neg (by simp)]
  · exact inserted_of_pairs ho.2 he

/-! ## Every run -/

/-- What holds in every run of the relay. -/
structure Flowing (v : View) (h : List Event) : Prop where
  sound : Sound v
  ended : Ended v
  live : Live v
  carried : Carried v
  known : Known v h
  queued : Queued v h
  inserting : Inserting v
  opened : Opened v h

theorem flowing_effect (hv : Flowing v h) (hw : Sound v') (hfits : Fits es) (he : Effect v move v' es) : Flowing v' (h ++ es) where
  sound := hw
  ended := ended_effect hv.ended he
  live := live_effect hv.live hv.ended he
  carried := carried_effect hv.carried hv.sound hfits he
  known := known_effect hv.known hv.sound hv.carried he
  queued := queued_effect hv.queued hv.known hv.sound.roles he
  inserting := inserting_effect hv.inserting hv.sound he
  opened := opened_effect hv.opened hv.sound hv.ended hv.known hv.inserting he

theorem flowing_empty (idleThreshold : Nat) : Flowing (view { idleThreshold }) [] where
  sound := (wf_empty idleThreshold).sound
  ended c result hc := by cases hc
  live c serverId g phase hc := by cases hc
  carried a tx bytes required hm := by cases a <;> cases hm
  known event hm := by cases hm
  queued i channel hi := by cases hi
  inserting a pair hm := by cases a <;> cases hm
  opened := by
    constructor
    · intro c pairId serverId tx hc
      cases hc
    · intro pairId pair hp
      cases hp

def Event.fits : Event → Bool
  | .read _ _ bytes => bytes.length < 2 ^ 64
  | _ => true

instance (h : List Event) : Decidable (Fits h) := by
  refine decidable_of_iff (∀ event ∈ h, event.fits = true) ⟨?_, ?_⟩
  · intro hall c who bytes hm
    exact of_decide_eq_true (hall _ hm)
  · intro hf event hm
    cases event with
    | read c who bytes => exact decide_eq_true (hf c who bytes hm)
    | _ => rfl

theorem fits_append : Fits (h ++ es) ↔ Fits h ∧ Fits es := by
  constructor
  · intro hf
    exact ⟨fun c who bytes hm => hf c who bytes (List.mem_append_left _ hm),
      fun c who bytes hm => hf c who bytes (List.mem_append_right _ hm)⟩
  · rintro ⟨hh, hes⟩ c who bytes hm
    rcases List.mem_append.mp hm with hm | hm
    · exact hh c who bytes hm
    · exact hes c who bytes hm

/-- **The rule for runs with their events.** What is kept by every move that meets `C`, beside what holds in every run,
holds in every run that meets `C`. -/
theorem run_flowing {P : View → List Event → Prop} {C : Relay × List Event → Move → Prop}
    (hP : ∀ {s t : Relay} {move : Move} {h : List Event}, Wf s → s.step move = some t → C (s, h) move → Flowing s.view h →
      Flowing t.view (h ++ s.emit move) → Fits (s.emit move) → Effect s.view move t.view (s.emit move) → P s.view h →
      P t.view (h ++ s.emit move)) {idleThreshold : Nat} (hempty : P (view { idleThreshold }) []) {moves : List Move}
    {s : Relay} (hr : Steps.run (Steps.traced step emit) ({ idleThreshold }, []) moves = some (s, h)) (hfits : Fits h)
    (hmeets : Steps.Meets (Steps.traced step emit) C ({ idleThreshold }, []) moves) : Flowing s.view h ∧ P s.view h := by
  have hinv := Steps.run_invariant
    (I := fun sh : Relay × List Event => Wf sh.1 ∧ (Fits sh.2 → Flowing sh.1.view sh.2 ∧ P sh.1.view sh.2))
    (fun sh move th hI hC hs => by
      obtain ⟨s, h⟩ := sh
      obtain ⟨t, h'⟩ := th
      obtain ⟨hmove, rfl⟩ := Steps.traced_eq_some.mp hs
      obtain ⟨hw, hflow⟩ := hI
      have hwt : Wf t := hw.step hmove
      refine ⟨hwt, fun hfits => ?_⟩
      obtain ⟨hh, hes⟩ := fits_append.mp hfits
      obtain ⟨hflow, hp⟩ := hflow hh
      have he := step_effect hw hmove
      have hflow' := flowing_effect hflow hwt.sound hes he
      exact ⟨hflow', hP hw hmove hC hflow hflow' hes he hp⟩)
    hmeets hr ⟨wf_empty idleThreshold, fun _ => ⟨flowing_empty idleThreshold, hempty⟩⟩
  exact hinv.2 hfits

end Relay

end CliPocket
