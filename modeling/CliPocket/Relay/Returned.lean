import CliPocket.Relay.Shape

/-!
# When a task returns

A task whose clean-up is done awaits its writer, and holds meanwhile what it has held before. The writer ends when its
websocket takes no more, with a closing message, or with its last sender.

- `Returns`, `step_returned`: who returns in a move;
- `Lists`, `lists_effect`: what a move does to the lists of operations;
- `Regular`, `regular_effect`: what these lists and the queues look like in every run;
- `Returning`, `returning_effect`: what holds of tasks that have returned;
- `Draining`, `draining_effect`: a writer that has something to do before it ends goes on to have so, until it writes.
-/

namespace CliPocket

namespace Relay

open Function (update)

variable {v v' : View} {r r' : ConnId → Bool} {move : Move} {es : List Event} {s t : Relay}

/-! ## Who returns -/

/-- The task at `i` has returned. -/
def returned (s : Relay) (i : ConnId) : Bool := (s.conns[i]?.map Conn.returned).getD false

/-- Who returns in a move. -/
inductive Returns (v v' : View) (r : ConnId → Bool) : Move → (ConnId → Bool) → Prop
  /-- Nobody does, and no client's task ends while it opens. -/
  | nobody {move : Move} (hopening : ∀ {i pairId serverId tx result}, v.role i = some (.client pairId serverId tx) →
      v.phase i = some .opening → v'.phase i ≠ some (.ended result)) : Returns v v' r move r
  /-- The writer that the task awaits has ended. -/
  | awaited {c : ConnId} {who : Role} {result : RelayResult Unit} {channel : Channel.Mpsc ServerMsg}
      (hrole : v.role c = some who) (hphase : v.phase c = some (.ended result)) (hchannel : v.channel c = some channel)
      (hclosed : channel.closed = true) : Returns v v' r (.finish c) (update r c true)
  /-- A task that opens cannot send. -/
  | unopened {c tx : ConnId} {who : Role} {msg : ServerMsg} {rest : List Op} {channel : Channel.Mpsc ServerMsg}
      (hrole : v.role c = some who) (hphase : v.phase c = some .opening)
      (htodo : v.todo (some c) = .send tx msg true :: rest) (hchannel : v.channel tx = some channel)
      (hclosed : channel.closed = true) (hended : ∃ result, v'.phase c = some (.ended result)) :
      Returns v v' r (.advance c) (update r c true)

/-- Nobody who has returned has not. -/
theorem Returns.mono (h : Returns v v' r move r') {i : ConnId} (hi : r i = true) : r' i = true := by
  cases h with
  | nobody => exact hi
  | awaited | unopened =>
    rw [Function.update_apply]
    split
    · rfl
    · exact hi

theorem returned_eq {c : ConnId} {k : Conn} (hc : s.conns[c]? = some k) : s.returned c = k.returned := by
  simp only [returned, hc, Option.map_some, Option.getD_some]

/-- A task that has not ended has not returned. -/
theorem not_returned (hr : ∀ {i}, s.returned i = true → ∃ result, s.phase i = some (.ended result)) {c : ConnId}
    {k : Conn} (hc : s.conns[c]? = some k) (hphase : ∀ result, k.phase ≠ .ended result) : k.returned = false := by
  rw [Bool.eq_false_iff]
  intro htrue
  obtain ⟨result, hended⟩ := hr ((returned_eq hc).trans htrue)
  exact hphase result (Option.some.inj ((phase_eq hc).symm.trans hended))

theorem returned_mapConn {c : ConnId} {k : Conn} (hc : s.conns[c]? = some k) (f : Conn → Conn) :
    (s.mapConn c f).returned = update s.returned c (f k).returned := by
  funext i
  have hmap := congrFun (map_mapConn hc f Conn.returned) i
  simp only [returned]
  rw [hmap]
  by_cases hi : i = c
  · subst hi
    rw [Function.update_self, Function.update_self, Option.getD_some]
  · rw [Function.update_of_ne hi, Function.update_of_ne hi]
    rfl

/-- An update that leaves it open whether the task has returned. -/
theorem returned_mapConn_same {c : ConnId} {f : Conn → Conn} (hf : ∀ k, (f k).returned = k.returned) :
    (s.mapConn c f).returned = s.returned := by
  funext i
  simp only [returned, mapConn, List.getElem?_modify, Option.map_eq_map, Option.map_map]
  congr 1
  congr 1
  funext k
  by_cases h : c = i <;> simp [h, hf]

theorem returned_of_conns (h : t.conns = s.conns) : t.returned = s.returned := by
  funext i
  simp only [returned, h]

theorem returned_accept {conn : Conn} (hconn : conn.returned = false) : (s.accept conn).returned = s.returned := by
  funext i
  simp only [returned, accept]
  rcases Nat.lt_trichotomy i s.conns.length with hi | rfl | hi
  · rw [List.getElem?_append_left hi]
  · rw [List.getElem?_concat_length, List.getElem?_eq_none (Nat.le_refl _), Option.map_some, hconn]
    rfl
  · rw [List.getElem?_eq_none (by simpa using Nat.succ_le_of_lt hi), List.getElem?_eq_none (Nat.le_of_lt hi)]

theorem returned_perform {op : Op} {outcome : Outcome} (hs : s.perform op = some (t, outcome)) :
    t.returned = s.returned := by
  cases op with
  | send tx msg required =>
    simp only [perform] at hs
    split at hs
    · cases hs
    · split at hs
      · cases hs
        exact returned_mapConn_same fun _ => rfl
      · cases hs
      · cases hs
        rfl
  | closePair pairId reason =>
    cases hs
    exact returned_of_conns (conns_closePair _ _ _)
  | insertPair | closePairsOf | removePair =>
    cases hs
    rfl

theorem returned_fail {c : ConnId} {k₀ : Conn} (hc : s.conns[c]? = some k₀) (hfalse : k₀.returned = false) (k : Conn)
    (error : RelayError) :
    (s.fail c k error).returned = if k.phase.isOpening then update s.returned c true else s.returned := by
  have hsame : s.returned c = false := (returned_eq hc).trans hfalse
  unfold Relay.fail
  cases k.role with
  | server serverId g =>
    simp only
    rw [returned_mapConn (by rw [conns_unregister]; exact hc), returned_of_conns (conns_unregister _ _ _)]
    cases k.phase with
    | opening => rfl
    | _ => exact update_same hsame
  | client pairId serverId tx =>
    cases k.phase with
    | opening => exact returned_mapConn hc _
    | _ => exact returned_mapConn_same fun _ => rfl

/-- A client's task that ends while it opens has failed to send. -/
theorem unopened_effect (he : Effect v move v' es) {i : ConnId} {pairId : PairId} {serverId : ServerId} {tx : ConnId}
    {result : RelayResult Unit} (hi : v.role i = some (.client pairId serverId tx)) (hopening : v.phase i = some .opening)
    (hended : v'.phase i = some (.ended result)) : ∃ dest msg rest channel, move = .advance i ∧
      v.todo (some i) = .send dest msg true :: rest ∧ v.channel dest = some channel ∧ channel.closed = true := by
  have hsame : v'.phase i ≠ v.phase i := by
    rw [hended, hopening]
    intro h
    cases h
  -- The task at `i` goes on.
  have hbusy : ∀ {c : ConnId} {w : View} {ph : Phase} {ops : List Op}, v' = (w.setPhase c ph).setTodo (some c) ops →
      w.phase = v.phase → (c = i → ∀ result, ph ≠ .ended result) → False := by
    rintro c w ph ops rfl hw hne
    by_cases hci : i = c
    · rw [View.setTodo_phase, View.setPhase_phase, if_pos hci] at hended
      exact hne hci.symm result (Option.some.inj hended)
    · exact hsame ((phase_of_ne (by simpa using hci)).trans (congrFun hw i))
  cases he with
  | registered hn => exact absurd (Function.update_of_ne (ne_new hi hn) _ _) hsame
  | connected pair hn => exact absurd (Function.update_of_ne (ne_new hi hn) _ _) hsame
  | pinged | ignored | answered | toClient | toServer | closedByServer | closedByClient | stopped =>
    exact (hbusy rfl rfl fun _ _ => Phase.noConfusion).elim
  | readFailed hidle =>
    refine (hbusy (View.fail_eq _ _ _ _ _) (View.leave_phase _ _) ?_).elim
    rintro rfl
    cases hi.symm.trans hidle.role
    exact fun _ => Phase.noConfusion
  | rejected hidle =>
    refine (hbusy (View.fail_eq _ _ _ _ _) (View.leave_phase _ _) ?_).elim
    rintro rfl
    cases hi.symm.trans hidle.role
  | @sendFailed c who phase dest msg rest channel hrole hphase htodo hchannel hclosed =>
    by_cases hci : c = i
    · subst hci
      exact ⟨dest, msg, rest, channel, rfl, htodo, hchannel, hclosed⟩
    · exact (hbusy (View.fail_eq _ _ _ _ _) (View.leave_phase _ _) fun h => absurd h hci).elim
  | @finished c who result' hrole hphase htodo =>
    by_cases hci : i = c
    · subst hci
      rw [hopening] at hphase
      cases hphase
    · exact absurd (by rw [View.setPhase_phase, if_neg hci, View.leave_phase]) hsame
  | refused | pushed | skipped | inserted | closed | listed | removed | returned | wrote | writerEnded | swept =>
    exact absurd rfl hsame

/-- Nobody returns, and no task that opens has failed to send. -/
theorem Returns.same (he : Effect s.view move t.view es) (hsame : t.returned = s.returned)
    (hsends : ∀ c dest msg rest channel, move = .advance c → s.view.todo (some c) = .send dest msg true :: rest →
      s.view.channel dest = some channel → channel.closed = true → s.view.phase c ≠ some .opening) :
    Returns s.view t.view s.returned move t.returned := by
  rw [hsame]
  refine .nobody fun {i pairId serverId tx result} hi hopening hended => ?_
  obtain ⟨dest, msg, rest, channel, hmove, htodo, hchannel, hclosed⟩ := unopened_effect he hi hopening hended
  exact hsends i dest msg rest channel hmove htodo hchannel hclosed hopening

/-- Nobody returns by a turn of its read loop. -/
theorem returned_read (hr : ∀ {i}, s.returned i = true → ∃ result, s.phase i = some (.ended result)) {c : ConnId}
    {msg : Incoming} {now : Nat} (hs : s.step (.read c msg now) = some t) : t.returned = s.returned := by
  simp only [step] at hs
  split at hs
  · cases hs
  · next conn hc =>
    have hconn : t = (s.turn c conn.role msg now).1.settle c conn (s.turn c conn.role msg now).2 ∧
        ∀ result, conn.phase ≠ .ended result := by
      split at hs
      · next hphase _ => exact ⟨(Option.some.inj hs).symm, by simp [hphase]⟩
      · next hphase _ => exact ⟨(Option.some.inj hs).symm, by simp [hphase]⟩
      · cases hs
    obtain ⟨rfl, hphase⟩ := hconn
    have hfalse := not_returned hr hc hphase
    have hturn := turn_conns s c conn.role msg now
    rw [← returned_of_conns hturn]
    cases (s.turn c conn.role msg now).2 with
    | next todo => exact returned_mapConn_same fun _ => rfl
    | stop todo => exact returned_mapConn_same fun _ => rfl
    | fail error =>
      have hc' : (s.turn c conn.role msg now).1.conns[c]? = some conn := by rw [hturn, hc]
      exact returned_fail hc' hfalse _ error

/-- Who returns when an operation is done. -/
theorem advance_returned (hw : Wf s) (hidle : Ended s.view)
    (hr : ∀ {i}, s.returned i = true → ∃ result, s.phase i = some (.ended result)) {c : ConnId}
    (hs : s.step (.advance c) = some t) : Returns s.view t.view s.returned (.advance c) t.returned := by
  have he := step_effect hw hs
  simp only [step] at hs
  split at hs
  · cases hs
  · next conn hc =>
    split at hs
    · cases hs
    · next op rest htodo =>
      have hview : s.view.todo (some c) = op :: rest := (todo_eq hc).trans htodo
      split at hs
      · cases hs
      · next u more hu =>
        cases hs
        refine .same he ?_ fun i dest msg rest' channel h htodo' hchannel hclosed => ?_
        · rw [← returned_perform hu]
          exact returned_mapConn_same fun _ => rfl
        cases h
        cases hview.symm.trans htodo'
        obtain ⟨target, htarget, rfl⟩ := Option.map_eq_some_iff.mp hchannel
        simp only [perform, htarget, Channel.Mpsc.send_eq_closed.mpr hclosed] at hu
        cases hu
      · next u error hu =>
        cases hs
        obtain ⟨dest, msg, channel, rfl, hchannel, hclosed, rfl, rfl⟩ := perform_failed hu
        have hfalse : conn.returned = false := by
          refine not_returned hr hc fun result hended => ?_
          cases hview.symm.trans (hidle c result ((phase_eq hc).trans (congrArg some hended)))
        have hafter := returned_fail hc hfalse conn writerClosed
        by_cases hopening : conn.phase = .opening
        · rw [hopening] at hafter
          rw [hafter]
          refine .unopened (role_eq hc) ((phase_eq hc).trans (congrArg some hopening)) hview hchannel hclosed ?_
          refine ⟨.error writerClosed, ?_⟩
          rw [view_fail hc, hopening, View.fail_eq, View.setTodo_phase, View.setPhase_phase, if_pos rfl]
          cases conn.role <;> rfl
        · refine .same he ?_ fun i _ _ _ _ h _ _ _ hphase => ?_
          · rw [hafter]
            cases hphase : conn.phase with
            | opening => exact absurd hphase hopening
            | _ => rfl
          · cases h
            exact hopening (Option.some.inj ((phase_eq hc).symm.trans hphase))

/-- **Who returns in a move**: a task whose writer has ended, or one that opens and cannot send. -/
theorem step_returned (hw : Wf s) (hidle : Ended s.view)
    (hr : ∀ {i}, s.returned i = true → ∃ result, s.phase i = some (.ended result)) (hs : s.step move = some t) :
    Returns s.view t.view s.returned move t.returned := by
  have he := step_effect hw hs
  cases move with
  | server first admitted =>
    refine .same he ?_ fun _ _ _ _ _ h => by cases h
    cases hs
    obtain he | ⟨serverId, _, he⟩ := s.runServerSide_cases first admitted
    · rw [he]
    · rw [he]
      exact (returned_accept rfl).trans (returned_of_conns rfl)
  | client target first admitted pairId now =>
    refine .same he ?_ fun _ _ _ _ _ h => by cases h
    simp only [step] at hs
    split at hs
    · cases hs
      obtain he | ⟨slot, _, he⟩ := s.runClientSide_cases target first admitted pairId now
      · rw [he]
      · rw [he]
        exact returned_accept rfl
    · cases hs
  | read c msg now => exact .same he (returned_read hr hs) fun _ _ _ _ _ h => by cases h
  | advance c => exact advance_returned hw hidle hr hs
  | finish c =>
    obtain ⟨conn, hc, ⟨result, serverId, g, hphase, htodo, hrole, rfl⟩ | ⟨result, _, _, _, hphase, htodo, hrole, rfl⟩ |
      ⟨⟨result, hphase⟩, hclosed, _, rfl⟩⟩ := step_finish hs
    · refine .same he ?_ fun _ _ _ _ _ h => by cases h
      rw [← returned_of_conns (conns_unregister s serverId g)]
      exact returned_mapConn_same fun _ => rfl
    · exact .same he (returned_mapConn_same fun _ => rfl) fun _ _ _ _ _ h => by cases h
    · rw [returned_mapConn hc]
      exact .awaited (role_eq hc) ((phase_eq hc).trans (congrArg some hphase)) (channel_eq hc) hclosed
  | write c ok =>
    refine .same he ?_ fun _ _ _ _ _ h => by cases h
    simp only [step] at hs
    split at hs
    · cases hs
    · obtain ⟨turn, _, rfl⟩ := Option.map_eq_some_iff.mp hs
      exact returned_mapConn_same fun _ => rfl
  | sweep now =>
    refine .same he ?_ fun _ _ _ _ _ h => by cases h
    simp only [step] at hs
    split at hs
    · cases hs
      rfl
    · cases hs
  | sweepAdvance =>
    refine .same he ?_ fun _ _ _ _ _ h => by cases h
    simp only [step] at hs
    split at hs
    · cases hs
    · split at hs
      · next u more hu =>
        cases hs
        rw [← returned_perform hu]
        rfl
      · cases hs

/-! ## Lists of operations -/

/-- No send among the operations ends its task. -/
def BestEffort (ops : List Op) : Prop := ∀ tx msg, .send tx msg true ∉ ops

/-- Behind a send that may end the task at `a` nobody else is sent anything. -/
def Behind (a : Option ConnId) (op op' : Op) : Prop :=
  ∀ tx msg, op = .send tx msg true → ∀ i msg' required, op' = .send i msg' required → a = some i

/-- The writer of `i` has ended, or has a message to take. -/
def Pending (v : View) (i : ConnId) : Prop :=
  ∃ channel, v.channel i = some channel ∧ (channel.closed = true ∨ channel.queue ≠ [])

/-- What a move does to the lists of operations. -/
inductive Lists (v v' : View) : Prop
  | same (h : v'.todo = v.todo)
  | begun {a : Option ConnId} {ops : List Op} (hold : v.todo a = [] ∨ ∃ n, a = some n ∧ v.role n = none)
      (hknown : ∀ c, a = some c → ∃ who, v'.role c = some who) (hbehind : ops.Pairwise (Behind a))
      (hsweeper : a = none → BestEffort ops) (h : v'.todo = update v.todo a ops)
  | sent {a : Option ConnId} {tx : ConnId} {msg : ServerMsg} {required : Bool} {rest : List Op}
      (htodo : v.todo a = .send tx msg required :: rest) (hpending : Pending v' tx) (h : v'.todo = update v.todo a rest)
  | took {a : Option ConnId} {op : Op} {more rest : List Op} (htodo : v.todo a = op :: rest)
      (hop : ∀ tx msg required, op ≠ .send tx msg required) (hmore : BestEffort more)
      (h : v'.todo = update v.todo a (more ++ rest))
  | failed {c tx : ConnId} {msg : ServerMsg} {rest ops : List Op} (htodo : v.todo (some c) = .send tx msg true :: rest)
      (hpending : Pending v' tx) (hops : BestEffort ops) (h : v'.todo = update v.todo (some c) ops)

theorem bestEffort_nil : BestEffort [] := fun _ _ hm => absurd hm List.not_mem_nil

theorem bestEffort_closeOps (v : View) (pairId : PairId) (reason : PairCloseReason) :
    BestEffort (v.closeOps pairId reason) := by
  intro tx msg hm
  unfold View.closeOps at hm
  split at hm <;> simp at hm

theorem bestEffort_failing (who : Role) (phase : Phase) (error : RelayError) :
    BestEffort (View.failing who phase error).2 := by
  intro tx msg hm
  cases who <;> cases phase <;> simp [View.failing] at hm

theorem BestEffort.behind {ops : List Op} (h : BestEffort ops) (a : Option ConnId) : ops.Pairwise (Behind a) := by
  refine List.pairwise_of_forall_mem_list fun op hm op' _ tx msg hop => ?_
  subst hop
  exact absurd hm (h tx msg)

theorem lists_effect (he : Effect v move v' es) : Lists v v' := by
  have hfail : ∀ {c : ConnId} {who : Role} {phase : Phase} {error : RelayError}, v.Idle c who →
      Lists v (v.fail c who phase error) := by
    intro c who phase error hidle
    refine .begun (.inl hidle.todo) ?_ ((bestEffort_failing who phase error).behind _) (fun h => by cases h)
      (View.fail_todo _ _ _ _ _)
    rintro _ ⟨⟩
    exact ⟨who, by simpa [View.fail_eq] using hidle.role⟩
  have hread : ∀ {c : ConnId} {who : Role} {w : View} {phase : Phase} {ops : List Op}, v.Idle c who →
      w.role = v.role → w.todo = v.todo → ops.Pairwise (Behind (some c)) →
      Lists v ((w.setPhase c phase).setTodo (some c) ops) := by
    intro c who w phase ops hidle hrole htodo hops
    refine .begun (.inl hidle.todo) ?_ hops (fun h => by cases h) (by rw [← htodo]; rfl)
    rintro _ ⟨⟩
    exact ⟨who, by simpa [hrole] using hidle.role⟩
  have hclosing : ∀ {c : ConnId} {pairId : PairId} {reason : PairCloseReason} {more : List Op}, BestEffort more →
      (v.closeOps pairId reason ++ more).Pairwise (Behind (some c)) := by
    intro c pairId reason more hmore
    refine BestEffort.behind (fun tx msg hm => ?_) _
    rcases List.mem_append.mp hm with hm | hm
    · exact bestEffort_closeOps v _ _ tx msg hm
    · exact hmore tx msg hm
  cases he with
  | refused | returned | wrote | writerEnded => exact .same rfl
  | finished => exact .same (by simp)
  | @registered n serverId first admitted hn =>
    refine .begun (.inr ⟨n, rfl, hn⟩) ?_ (List.pairwise_singleton _ _) (fun h => by cases h) rfl
    rintro _ ⟨⟩
    exact ⟨_, Function.update_self _ _ _⟩
  | @connected slot first admitted now pair hn =>
    refine .begun (.inr ⟨_, rfl, hn⟩) ?_ ?_ (fun h => by cases h) rfl
    · rintro _ ⟨⟩
      exact ⟨_, Function.update_self _ _ _⟩
    · -- Behind the announcement to the server the client is told.
      simp [Behind]
  | pinged hidle | ignored hidle => exact hread hidle rfl rfl List.Pairwise.nil
  | answered hidle | toClient _ hidle | toServer hidle => exact hread hidle rfl rfl (List.pairwise_singleton _ _)
  | closedByServer hidle =>
    refine hread hidle rfl rfl ?_
    exact (bestEffort_closeOps v _ _).behind _
  | closedByClient hidle => exact hread hidle rfl rfl (hclosing fun _ _ hm => by simp at hm)
  | @stopped c who _ _ hidle =>
    refine hread hidle rfl rfl (BestEffort.behind (fun tx msg hm => ?_) _)
    cases who <;> simp [Role.farewell] at hm
  | readFailed hidle | rejected hidle => exact hfail hidle
  | @pushed a tx msg required rest channel htodo hchannel hopen hroom =>
    refine .sent htodo ⟨{ channel with queue := channel.queue ++ [msg] }, ?_, .inr (by simp)⟩ rfl
    rw [View.setTodo_channel, View.setChannel_channel, if_pos rfl]
  | skipped htodo hchannel hclosed => exact .sent htodo ⟨_, hchannel, .inl hclosed⟩ rfl
  | @sendFailed c who phase tx msg rest channel hrole hphase htodo hchannel hclosed =>
    refine .failed htodo ⟨channel, ?_, .inl hclosed⟩ (bestEffort_failing who phase writerClosed) (View.fail_todo _ _ _ _ _)
    simpa [View.fail_eq] using hchannel
  | inserted htodo | removed htodo => exact .took htodo (fun _ _ _ => Op.noConfusion) bestEffort_nil rfl
  | closed htodo => exact .took htodo (fun _ _ _ => Op.noConfusion) (bestEffort_closeOps v _ _) rfl
  | listed htodo =>
    refine .took htodo (fun _ _ _ => Op.noConfusion) (fun tx msg hm => ?_) rfl
    simp at hm
  | @swept now stuck htodo =>
    have hops : BestEffort (stuck.flatMap guillotine) := fun tx msg hm => by simp [guillotine] at hm
    exact .begun (.inl htodo) (fun _ h => by cases h) (hops.behind _) (fun _ => hops) rfl

/-- What the lists and the queues look like in every run. -/
structure Regular (v : View) : Prop where
  behind : ∀ a, (v.todo a).Pairwise (Behind a)
  sweeper : BestEffort (v.todo none)
  known : ∀ {c}, v.todo (some c) ≠ [] → ∃ who, v.role c = some who
  /-- A server's task that opens has its answer to send, and nothing else. -/
  greeting : ∀ {c serverId g}, v.role c = some (.server serverId g) → v.phase c = some .opening →
    ∀ op ∈ v.todo (some c), op = .send c (encodeCtrlFrame .serverRegisterOk) true
  room : ∀ {i channel}, v.channel i = some channel → 0 < channel.capacity

/-- A server's task that opens has no other operations than it had. -/
theorem greeting_effect (hv : Regular v) (he : Effect v move v' es) {c : ConnId} {serverId : ServerId} {g : Nat}
    (hrole : v'.role c = some (.server serverId g)) (hphase : v'.phase c = some .opening) :
    ∀ op ∈ v'.todo (some c), op = .send c (encodeCtrlFrame .serverRegisterOk) true := by
  have hbusy : ∀ {d : ConnId} {w : View} {ph : Phase} {ops : List Op}, v' = (w.setPhase d ph).setTodo (some d) ops →
      ph ≠ .opening → w.role = v.role → w.phase = v.phase → w.todo = v.todo →
      ∀ op ∈ v'.todo (some c), op = .send c (encodeCtrlFrame .serverRegisterOk) true := by
    rintro d w ph ops rfl hne hwrole hwphase hwtodo
    by_cases hcd : c = d
    · rw [View.setTodo_phase, View.setPhase_phase, if_pos hcd] at hphase
      exact absurd (Option.some.inj hphase) hne
    · rw [phase_of_ne (by simpa using hcd), hwphase] at hphase
      rw [View.setTodo_role, View.setPhase_role, hwrole] at hrole
      rw [View.setTodo_todo, if_neg (by simpa using hcd), View.setPhase_todo, hwtodo]
      exact hv.greeting hrole hphase
  have hfail : ∀ {d : ConnId} {who : Role} {ph : Phase} {error : RelayError}, v' = v.fail d who ph error →
      ∀ op ∈ v'.todo (some c), op = .send c (encodeCtrlFrame .serverRegisterOk) true := by
    intro d who ph error h
    refine hbusy (h.trans (View.fail_eq _ _ _ _ _)) ?_ (v.leave_role who) (v.leave_phase who) (v.leave_todo who)
    cases who with
    | server => exact Phase.noConfusion
    | client => cases ph <;> exact Phase.noConfusion
  -- An operation is taken from the front of `a`'s list.
  have htail : ∀ {a : Option ConnId} {op : Op} {rest more : List Op}, v.todo a = op :: rest →
      (more = [] ∨ ∀ tx msg required, op ≠ .send tx msg required) → v'.role = v.role → v'.phase = v.phase →
      v'.todo = update v.todo a (more ++ rest) →
      ∀ op ∈ v'.todo (some c), op = .send c (encodeCtrlFrame .serverRegisterOk) true := by
    intro a op rest more htodo hmore hrole' hphase' htodo'
    have hold := hv.greeting (hrole' ▸ hrole) (hphase' ▸ hphase)
    rw [htodo', Function.update_apply]
    split
    · next hca =>
      rw [hca, htodo] at hold
      rcases hmore with rfl | hne
      · exact fun op' hm => hold op' (List.mem_cons_of_mem _ hm)
      · exact absurd (hold op List.mem_cons_self) (hne _ _ _)
    · exact hold
  cases he with
  | @registered n =>
    simp only [Function.update_apply, Option.some.injEq] at hrole hphase ⊢
    split at hrole
    · next hcn =>
      subst hcn
      rw [if_pos rfl]
      exact fun op hm => List.mem_singleton.mp hm
    · next hcn =>
      rw [if_neg hcn] at hphase ⊢
      exact hv.greeting hrole hphase
  | connected pair =>
    simp only [Function.update_apply, Option.some.injEq] at hrole hphase ⊢
    split at hrole
    · cases hrole
    · next hcn =>
      rw [if_neg hcn] at hphase ⊢
      exact hv.greeting hrole hphase
  | pinged | ignored | answered | toClient | toServer | closedByServer | closedByClient | stopped =>
    exact hbusy rfl Phase.noConfusion rfl rfl rfl
  | readFailed | rejected | sendFailed => exact hfail rfl
  | pushed htodo | skipped htodo | inserted htodo | removed htodo => exact htail htodo (.inl rfl) rfl rfl rfl
  | closed htodo | listed htodo => exact htail htodo (.inr fun _ _ _ => Op.noConfusion) rfl rfl rfl
  | finished who hrole' hphase' htodo =>
    rw [View.setPhase_phase] at hphase
    split at hphase
    · cases hphase
    · rw [View.leave_phase] at hphase
      rw [View.setPhase_role, View.leave_role] at hrole
      rw [View.setPhase_todo, View.leave_todo]
      exact hv.greeting hrole hphase
  | refused | returned | wrote | writerEnded => exact hv.greeting hrole hphase
  | swept =>
    rw [View.setTodo_todo, if_neg (by simp)]
    exact hv.greeting hrole hphase

theorem room_effect (hv : ∀ {i channel}, v.channel i = some channel → 0 < channel.capacity)
    (he : Effect v move v' es) {i : ConnId} {channel : Channel.Mpsc ServerMsg} (hi : v'.channel i = some channel) :
    0 < channel.capacity := by
  have hset : ∀ {c : ConnId} {old new : Channel.Mpsc ServerMsg}, v.channel c = some old →
      (v.setChannel c new).channel i = some channel → new.capacity = old.capacity → 0 < channel.capacity := by
    intro c old new hold h hnew
    rw [View.setChannel_channel] at h
    split at h
    · cases h
      rw [hnew]
      exact hv hold
    · exact hv h
  have hnew : ∀ {n : ConnId}, update v.channel n (some { capacity := socketQueueCapacity }) i = some channel →
      0 < channel.capacity := by
    intro n h
    rw [Function.update_apply] at h
    split at h
    · cases h
      decide
    · exact hv h
  cases he with
  | registered | connected => exact hnew hi
  | pushed _ hold | wrote _ hold | writerEnded hold => exact hset hold hi rfl
  | readFailed | rejected | sendFailed =>
    rw [View.fail_eq] at hi
    exact hv (by simpa using hi)
  | finished => exact hv (by simpa using hi)
  | _ => exact hv hi

theorem regular_effect (hv : Regular v) (he : Effect v move v' es) : Regular v' where
  greeting := greeting_effect hv he
  room := room_effect hv.room he
  behind := by
    intro b
    have hold := hv.behind b
    have hset : ∀ {a : Option ConnId} {ops : List Op}, v'.todo = update v.todo a ops → (b = a → ops.Pairwise (Behind b)) →
        (v'.todo b).Pairwise (Behind b) := by
      intro a ops h hops
      rw [h, Function.update_apply]
      split
      · next hba => exact hops hba
      · exact hold
    cases lists_effect he with
    | same h => exact h ▸ hold
    | begun _ _ hbehind _ h => exact hset h fun hba => hba ▸ hbehind
    | sent htodo _ h =>
      refine hset h fun hba => ?_
      rw [hba, htodo] at hold
      exact hba ▸ hold.of_cons
    | took htodo _ hmore h =>
      refine hset h fun hba => List.pairwise_append.mpr ⟨hmore.behind b, ?_, fun op hm op' _ tx msg hop => ?_⟩
      · rw [hba, htodo] at hold
        exact hba ▸ hold.of_cons
      · exact absurd (hop ▸ hm) (hmore tx msg)
    | failed _ _ hops h => exact hset h fun _ => hops.behind b
  sweeper := by
    have hold := hv.sweeper
    have hset : ∀ {a : Option ConnId} {ops : List Op}, v'.todo = update v.todo a ops → (none = a → BestEffort ops) →
        BestEffort (v'.todo none) := by
      intro a ops h hops
      rw [h, Function.update_apply]
      split
      · next ha => exact hops ha
      · exact hold
    cases lists_effect he with
    | same h => exact h ▸ hold
    | begun _ _ _ hsweeper h => exact hset h fun ha => hsweeper ha.symm
    | sent htodo _ h =>
      refine hset h fun ha tx msg hm => ?_
      rw [ha, htodo] at hold
      exact hold tx msg (List.mem_cons_of_mem _ hm)
    | took htodo _ hmore h =>
      refine hset h fun ha tx msg hm => ?_
      rw [ha, htodo] at hold
      rcases List.mem_append.mp hm with hm | hm
      · exact hmore tx msg hm
      · exact hold tx msg (List.mem_cons_of_mem _ hm)
    | failed _ _ hops h => exact hset h fun _ => hops
  known := by
    intro c hne
    have hkeep : v.todo (some c) ≠ [] → ∃ who, v'.role c = some who := by
      intro hold
      obtain ⟨who, hwho⟩ := hv.known hold
      exact ⟨who, role_effect he hwho⟩
    have hset : ∀ {a : Option ConnId} {ops : List Op}, v'.todo = update v.todo a ops →
        (some c = a → ∃ who, v'.role c = some who) → ∃ who, v'.role c = some who := by
      intro a ops h hops
      rw [h, Function.update_apply] at hne
      split at hne
      · next ha => exact hops ha
      · exact hkeep hne
    cases lists_effect he with
    | same h => exact hkeep (h ▸ hne)
    | begun _ hknown _ _ h => exact hset h fun ha => hknown c ha.symm
    | sent htodo _ h => exact hset h fun ha => hkeep (by simp [ha, htodo])
    | took htodo _ _ h => exact hset h fun ha => hkeep (by simp [ha, htodo])
    | failed htodo _ _ h => exact hset h fun ha => hkeep (by simp [ha, htodo])

theorem regular_empty (idleThreshold : Nat) : Regular (view { idleThreshold }) where
  behind a := by cases a <;> exact List.Pairwise.nil
  sweeper := bestEffort_nil
  known h := absurd rfl h
  greeting hc := by cases hc
  room hi := by cases hi

/-! ## Tasks that have returned -/

/-- A task that has ended goes on to have. -/
theorem ended_stays (he : Effect v move v' es) (hended : Ended v) {i : ConnId} {who : Role} {result : RelayResult Unit}
    (hi : v.role i = some who) (hphase : v.phase i = some (.ended result)) : v'.phase i = some (.ended result) := by
  have hother : ∀ {c : ConnId} {w : View} {ph : Phase} {ops : List Op}, Running v c → w.phase = v.phase →
      ((w.setPhase c ph).setTodo (some c) ops).phase i = some (.ended result) := by
    rintro c w ph ops ⟨old, hold, hrunning⟩ hw
    rw [phase_of_ne, hw, hphase]
    simp only [ne_eq, Option.some.injEq]
    rintro rfl
    rw [hphase] at hold
    exact hrunning result (Option.some.inj hold).symm
  cases he with
  | registered hn => exact (Function.update_of_ne (ne_new hi hn) _ _).trans hphase
  | connected pair hn => exact (Function.update_of_ne (ne_new hi hn) _ _).trans hphase
  | pinged hidle | ignored hidle | answered hidle | toClient _ hidle | toServer hidle | closedByServer hidle
    | closedByClient hidle | stopped hidle => exact hother hidle.running rfl
  | readFailed hidle | rejected hidle =>
    rw [View.fail_eq]
    exact hother hidle.running (View.leave_phase _ _)
  | sendFailed hrole hph htodo =>
    rw [View.fail_eq]
    exact hother (running_of_todo hended hph (by simp [htodo])) (View.leave_phase _ _)
  | @finished c who result' hrole hph =>
    rw [View.setPhase_phase, if_neg, View.leave_phase, hphase]
    rintro rfl
    rw [hphase] at hph
    cases hph
  | refused | pushed | skipped | inserted | closed | listed | removed | returned | wrote | writerEnded | swept =>
    exact hphase

/-- A writer ends when it writes. -/
theorem writer_ends (he : Effect v move v' es) {i : ConnId} (ho : IsOpen v i) (hc : ¬IsOpen v' i) :
    ∃ ok, move = .write i ok := by
  obtain ⟨channel, hchannel, hopen⟩ := ho
  have hnew : ∀ {n : ConnId} {w : View}, w.channel = update v.channel n (some { capacity := socketQueueCapacity }) →
      IsOpen w i := by
    intro n w hw
    by_cases hin : i = n
    · exact ⟨_, by rw [hw, hin, Function.update_self], rfl⟩
    · exact ⟨channel, by rw [hw, Function.update_of_ne hin, hchannel], hopen⟩
  have hset : ∀ {c : ConnId} {new : Channel.Mpsc ServerMsg}, new.closed = false → IsOpen (v.setChannel c new) i := by
    intro c new hnew
    by_cases hic : i = c
    · exact ⟨new, by rw [View.setChannel_channel, if_pos hic], hnew⟩
    · exact ⟨channel, by rw [View.setChannel_channel, if_neg hic, hchannel], hopen⟩
  cases he with
  | registered | connected => exact absurd (hnew rfl) hc
  | @pushed a tx msg required rest old _ _ hopen' =>
    exact absurd (@hset tx { old with queue := old.queue ++ [msg] } hopen') hc
  | @wrote c ok who old msg rest _ _ _ hopen' =>
    exact absurd (@hset c { old with queue := rest } hopen') hc
  | @writerEnded c ok =>
    by_cases hic : i = c
    · exact ⟨ok, by rw [hic]⟩
    · exact absurd ⟨channel, by rw [View.setChannel_channel, if_neg hic, hchannel], hopen⟩ hc
  | readFailed | rejected | sendFailed => exact absurd ⟨channel, by simpa [View.fail_eq] using hchannel, hopen⟩ hc
  | finished => exact absurd ⟨channel, by simpa using hchannel, hopen⟩ hc
  | _ => exact absurd ⟨channel, hchannel, hopen⟩ hc

theorem not_isOpen {i : ConnId} {channel : Channel.Mpsc ServerMsg} (hi : v.channel i = some channel)
    (hclosed : channel.closed = true) : ¬IsOpen v i := by
  rintro ⟨channel', hi', hopen⟩
  cases hi.symm.trans hi'
  rw [hclosed] at hopen
  cases hopen

/-- Who has returned has ended, and the writer of a server too. -/
structure Returning (v : View) (r : ConnId → Bool) : Prop where
  known : ∀ {i}, r i = true → ∃ who, v.role i = some who
  ended : ∀ {i}, r i = true → ∃ result, v.phase i = some (.ended result)
  deaf : ∀ {i serverId g}, v.role i = some (.server serverId g) → r i = true → ¬IsOpen v i

theorem returning_effect (hr : Returning v r) (hv : Regular v) (hended : Ended v) (he : Effect v move v' es)
    (hret : Returns v v' r move r') : Returning v' r' := by
  have hknown : ∀ {i}, r i = true → ∃ who, v'.role i = some who := by
    intro i hi
    obtain ⟨who, hwho⟩ := hr.known hi
    exact ⟨who, role_effect he hwho⟩
  have hstays : ∀ {i}, r i = true → ∃ result, v'.phase i = some (.ended result) := by
    intro i hi
    obtain ⟨who, hwho⟩ := hr.known hi
    obtain ⟨result, hphase⟩ := hr.ended hi
    exact ⟨result, ended_stays he hended hwho hphase⟩
  have hdeaf : ∀ {i serverId g}, v'.role i = some (.server serverId g) → r i = true → ¬IsOpen v' i := by
    intro i serverId g hi htrue hopen
    obtain ⟨who, hwho⟩ := hr.known htrue
    rw [role_effect he hwho] at hi
    cases hi
    exact hr.deaf hwho htrue (isOpen_effect he hwho hopen)
  -- The task at `c` has returned.
  have hset : ∀ {c : ConnId} {who : Role}, v.role c = some who → (∃ result, v'.phase c = some (.ended result)) →
      (∀ serverId g, who = .server serverId g → ¬IsOpen v c) → Returning v' (update r c true) := by
    intro c who hrole hphase hclosed
    refine ⟨fun {i} hi => ?_, fun {i} hi => ?_, fun {i serverId g} hrole' hi => ?_⟩
    all_goals rw [Function.update_apply] at hi; split at hi
    · next hic => exact ⟨who, hic ▸ role_effect he hrole⟩
    · exact hknown hi
    · next hic => exact hic ▸ hphase
    · exact hstays hi
    · next hic =>
      subst hic
      rw [role_effect he hrole] at hrole'
      cases hrole'
      exact fun hopen => hclosed _ _ rfl (isOpen_effect he hrole hopen)
    · exact hdeaf hrole' hi
  cases hret with
  | nobody => exact ⟨hknown, hstays, hdeaf⟩
  | awaited hrole hphase hchannel hclosed =>
    exact hset hrole ⟨_, ended_stays he hended hrole hphase⟩ fun _ _ _ => not_isOpen hchannel hclosed
  | unopened hrole hphase htodo hchannel hclosed hends =>
    refine hset hrole hends fun serverId g hserver => ?_
    subst hserver
    -- A server that opens has its answer to send, to itself.
    have hown := hv.greeting hrole hphase _ (htodo ▸ List.mem_cons_self)
    cases hown
    exact not_isOpen hchannel hclosed

/-! ## Writers with something to do -/

/-- A message is to be sent to `i`. -/
def Awaited (v : View) (i : ConnId) : Prop := ∃ a msg required, .send i msg required ∈ v.todo a

/-- The writer of `i` has ended, or it has a message to take, or is sent one. -/
def Draining (v : View) (i : ConnId) : Prop := Pending v i ∨ Awaited v i

theorem pending_effect {i : ConnId} {who : Role} (hp : Pending v i) (hi : v.role i = some who)
    (he : Effect v move v' es) (hmove : ∀ ok, move ≠ .write i ok) : Pending v' i := by
  obtain ⟨channel, hchannel, hleft⟩ := hp
  cases he with
  | registered hn => exact ⟨channel, (Function.update_of_ne (ne_new hi hn) _ _).trans hchannel, hleft⟩
  | connected pair hn => exact ⟨channel, (Function.update_of_ne (ne_new hi hn) _ _).trans hchannel, hleft⟩
  | @pushed a tx msg required rest old htodo hold =>
    by_cases htx : i = tx
    · refine ⟨{ old with queue := old.queue ++ [msg] }, ?_, .inr (by simp)⟩
      rw [View.setTodo_channel, View.setChannel_channel, if_pos htx]
    · refine ⟨channel, ?_, hleft⟩
      rw [View.setTodo_channel, View.setChannel_channel, if_neg htx, hchannel]
  | @wrote c ok =>
    refine ⟨channel, ?_, hleft⟩
    rw [View.setChannel_channel, if_neg, hchannel]
    rintro rfl
    exact hmove ok rfl
  | @writerEnded c ok =>
    refine ⟨channel, ?_, hleft⟩
    rw [View.setChannel_channel, if_neg, hchannel]
    rintro rfl
    exact hmove ok rfl
  | readFailed | rejected | sendFailed => exact ⟨channel, by simpa [View.fail_eq] using hchannel, hleft⟩
  | finished => exact ⟨channel, by simpa using hchannel, hleft⟩
  | _ => exact ⟨channel, hchannel, hleft⟩

/-- What is to be sent to a task that has ended goes on to be, or is sent. -/
theorem awaited_effect {i : ConnId} {result : RelayResult Unit} (ha : Awaited v i)
    (hphase : v.phase i = some (.ended result)) (hended : Ended v) (hv : Regular v) (he : Effect v move v' es) : Draining v' i := by
  obtain ⟨b, msg, required, hm⟩ := ha
  have hset : ∀ {a : Option ConnId} {ops : List Op}, v'.todo = update v.todo a ops →
      (b = a → .send i msg required ∈ ops ∨ Pending v' i) → Draining v' i := by
    intro a ops h hops
    by_cases hba : b = a
    · rcases hops hba with hm | hp
      · exact .inr ⟨b, msg, required, by rw [h, hba, Function.update_self]; exact hm⟩
      · exact .inl hp
    · exact .inr ⟨b, msg, required, by rw [h, Function.update_of_ne hba]; exact hm⟩
  cases lists_effect he with
  | same h => exact .inr ⟨b, msg, required, h ▸ hm⟩
  | begun hold _ _ _ h =>
    refine hset h fun hba => ?_
    rw [hba] at hm
    rcases hold with hold | ⟨n, rfl, hn⟩
    · rw [hold] at hm
      cases hm
    · obtain ⟨who, hwho⟩ := hv.known (List.ne_nil_of_mem hm)
      rw [hn] at hwho
      cases hwho
  | sent htodo hpending h =>
    refine hset h fun hba => ?_
    rw [hba, htodo] at hm
    rcases List.mem_cons.mp hm with hm | hm
    · cases hm
      exact .inr hpending
    · exact .inl hm
  | took htodo hop _ h =>
    refine hset h fun hba => ?_
    rw [hba, htodo] at hm
    rcases List.mem_cons.mp hm with hm | hm
    · exact absurd hm.symm (hop _ _ _)
    · exact .inl (List.mem_append_right _ hm)
  | @failed c tx _ rest ops htodo hpending _ h =>
    refine hset h fun hba => ?_
    have hbehind := hv.behind (some c)
    rw [htodo] at hbehind
    rw [hba, htodo] at hm
    rcases List.mem_cons.mp hm with hm | hm
    · cases hm
      exact .inr hpending
    · -- What is lost with the task is for the task itself, and that has not ended.
      obtain rfl : c = i := Option.some.inj (List.rel_of_pairwise_cons hbehind hm _ _ rfl _ _ _ rfl)
      rw [hended c result hphase] at htodo
      cases htodo

/-- **A writer that has something to do goes on to have so**, until it writes. -/
theorem draining_effect {i : ConnId} {who : Role} {result : RelayResult Unit} (hd : Draining v i)
    (hi : v.role i = some who) (hphase : v.phase i = some (.ended result)) (hended : Ended v) (hv : Regular v)
    (he : Effect v move v' es) (hmove : ∀ ok, move ≠ .write i ok) : Draining v' i := by
  rcases hd with hp | ha
  · exact .inl (pending_effect hp hi he hmove)
  · exact awaited_effect ha hphase hended hv he

end Relay

end CliPocket
