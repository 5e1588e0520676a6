import CliPocket.Relay.Isolation

/-!
# When a server's read loop gets on

The one loop that serves all pairs of a server waits for room in the queue of each frame's receiver, and a closed
queue ends it where the send is required.

- `Serving`: while a server's loop runs, what it has left to do are sends to different queues;
- `drain`, `takes_of_run`: the loop reads again on its own exactly when each of these queues takes its message;
- `canForward_iff`, `failsFor_iff`: **when the loop can forward the next frame, of another pair, and when it fails
  because of a receiver.**
-/

namespace CliPocket

/-! ## What a loop has left to do -/

/-- The receiver of a send. -/
def Op.target : Op → Option ConnId
  | .send tx _ _ => some tx
  | _ => none

/-- The task has not come to its end. -/
def Phase.running : Phase → Prop
  | .opening | .reading => True
  | .closing _ | .ended _ => False

namespace Relay

/-- The send does not wait, and does not fail: there is room, or nobody reads and nobody minds. -/
def Takes (s : Relay) (op : Op) : Prop :=
  ∃ tx msg required channel, op = .send tx msg required ∧ s.channel tx = some channel ∧
    if channel.closed then required = false else channel.queue.length < channel.capacity

/-- Sends, to different queues, all of them there. -/
structure Sends (R : RoleMap) (todo : List Op) : Prop where
  send : ∀ op ∈ todo, ∃ tx msg required who, op = .send tx msg required ∧ R tx = some who
  nodup : (todo.map Op.target).Nodup

/-- The loops of servers have sends left to do, and nothing else. -/
def Serving (s : Relay) : Prop :=
  ∀ (c : ConnId) (conn : Conn) (serverId : ServerId) (g : Nat), s.conns[c]? = some conn →
    conn.role = .server serverId g → Phase.running conn.phase → Sends s.role conn.todo

variable {s t : Relay}

theorem Sends.nil (R : RoleMap) : Sends R [] := ⟨fun _ hm => absurd hm List.not_mem_nil, List.nodup_nil⟩

theorem Sends.one {R : RoleMap} {tx : ConnId} {who : Role} (h : R tx = some who) (msg : ServerMsg) (required : Bool) :
    Sends R [.send tx msg required] := by
  refine ⟨?_, List.nodup_singleton _⟩
  intro op hm
  rw [List.mem_singleton.mp hm]
  exact ⟨tx, msg, required, who, rfl, h⟩

theorem Sends.tail {R : RoleMap} {op : Op} {rest : List Op} (h : Sends R (op :: rest)) : Sends R rest :=
  ⟨fun op hm => h.send op (List.mem_cons_of_mem _ hm), (List.nodup_cons.mp h.nodup).2⟩

theorem Sends.mono {R R' : RoleMap} (hR : Grows R R') {todo : List Op} (h : Sends R todo) : Sends R' todo := by
  refine ⟨?_, h.nodup⟩
  intro op hm
  obtain ⟨tx, msg, required, who, rfl, htx⟩ := h.send op hm
  exact ⟨tx, msg, required, who, rfl, hR _ _ htx⟩

/-- The two ends of a pair have different queues. -/
theorem serverTx_ne_clientTx (hroles : Roles s.role) {pair : Pair} (hat : PairAt s.role pair) :
    pair.serverTx ≠ pair.clientTx := by
  intro he
  obtain ⟨g, hg⟩ := hroles.client hat
  rw [he, hat] at hg
  cases hg

theorem closePair_sends (hw : Wf s) (pairId : PairId) (reason : PairCloseReason) :
    Sends s.role (s.closePair pairId reason).2 := by
  obtain ⟨_, hc⟩ | ⟨pair, hl, hc⟩ := s.closePair_cases pairId reason
  · rw [hc]
    exact .nil _
  · rw [hc]
    obtain ⟨_, hat⟩ := hw.rooted.pairs hl
    obtain ⟨g, hg⟩ := hw.roles.client hat
    refine ⟨?_, ?_⟩
    · intro op hm
      simp only [List.mem_cons, List.not_mem_nil, or_false] at hm
      rcases hm with rfl | rfl
      · exact ⟨_, _, _, _, rfl, hg⟩
      · exact ⟨_, _, _, _, rfl, hat⟩
    · simpa [Op.target] using serverTx_ne_clientTx hw.roles hat

/-- A turn that goes on leaves sends. -/
theorem serverRead_sends (hw : Wf s) {c : ConnId} {serverId : ServerId} {g : Nat}
    (hrole : s.role c = some (.server serverId g)) (msg : Incoming) (now : Nat) {todo : List Op}
    (h : (s.serverRead serverId c msg now).2 = .next todo) : Sends s.role todo := by
  unfold serverRead at h
  split at h
  · cases h
  · cases h
  · cases h
  · cases h
    exact .nil _
  · cases h
  · split at h
    · cases h
    · cases h
      exact closePair_sends hw _ _
    · cases h
      exact .nil _
    · split at h
      · cases h
        exact .one hrole _ _
      · next pair hl =>
        split at h
        · cases h
        · cases h
          exact .one (hw.rooted.pairs hl).2 _ _

/-- A connection that was not there before is a client's, or has one answer to send. -/
theorem new_conn {move : Move} (hw : Wf s) (hs : s.step move = some t) {c : ConnId} {conn' : Conn}
    (hc : s.conns[c]? = none) (hc' : t.conns[c]? = some conn') {serverId : ServerId} {g : Nat}
    (hrole' : conn'.role = .server serverId g) : ∃ msg, conn'.todo = [.send c msg true] := by
  have hnone : s.role c = none := by simp only [role, hc, Option.map_none]
  have hsome : t.role c = some conn'.role := by simp only [role, hc', Option.map_some]
  have hold : (∀ first admitted, move ≠ .server first admitted) →
      (∀ target first admitted pairId now, move ≠ .client target first admitted pairId now) → False := by
    intro hserver hclient
    rw [(step_rooted_of_old hw.rooted hs hserver hclient).2, hnone] at hsome
    cases hsome
  have haccept : ∀ (u : Relay) (conn : Conn), u.conns = s.conns → (u.accept conn).conns[c]? = some conn' →
      c = s.conns.length ∧ conn' = conn := by
    intro u conn hu hget
    simp only [accept, hu] at hget
    have hle := List.getElem?_eq_none_iff.mp hc
    rw [List.getElem?_append_right hle, List.getElem?_singleton] at hget
    split at hget
    · next hz =>
      cases hget
      exact ⟨Nat.le_antisymm (Nat.sub_eq_zero_iff_le.mp hz) hle, rfl⟩
    · cases hget
  cases move with
  | server first admitted =>
    cases hs
    obtain he | ⟨id, _, he⟩ := s.runServerSide_cases first admitted
    · rw [he, hc] at hc'
      cases hc'
    · rw [he] at hc'
      obtain ⟨rfl, rfl⟩ := haccept (s.registered id) _ rfl hc'
      exact ⟨_, rfl⟩
  | client target first admitted pairId now =>
    simp only [Relay.step] at hs
    split at hs
    · cases hs
      obtain he | ⟨slot, _, he⟩ := s.runClientSide_cases target first admitted pairId now
      · rw [he, hc] at hc'
        cases hc'
      · rw [he] at hc'
        obtain ⟨_, rfl⟩ := haccept s _ rfl hc'
        cases hrole'
    · cases hs
  | read | advance | finish | write | sweep | sweepAdvance =>
    exfalso
    apply hold
    · intros
      exact Move.noConfusion
    · intros
      exact Move.noConfusion

/-- The state of a task behind an error is no running one, for a server. -/
theorem fail_phase {c : ConnId} (conn : Conn) {k : Conn} (error : RelayError) (hc : s.conns[c]? = some k)
    {serverId : ServerId} {g : Nat} (hrole : conn.role = .server serverId g) :
    ∃ conn', (s.fail c conn error).conns[c]? = some conn' ∧ conn'.phase = .ended (.error error) ∧ conn'.todo = [] := by
  unfold Relay.fail
  simp only [hrole]
  refine ⟨_, getElem?_mapConn.mpr ⟨k, by rw [conns_unregister]; exact hc, rfl⟩, ?_, ?_⟩
  · rw [if_pos rfl]
  · rw [if_pos rfl]

/-- A send leaves nothing more to do, and does not change who is there. -/
theorem perform_send {tx : ConnId} {msg : ServerMsg} {required : Bool} {outcome : Outcome}
    (hs : s.perform (.send tx msg required) = some (t, outcome)) :
    (∃ target channel, s.conns[tx]? = some target ∧ target.channel.send msg = .sent channel ∧
      t = s.mapConn tx (fun k => { k with channel }) ∧ outcome = .done []) ∨
    (∃ target, s.conns[tx]? = some target ∧ target.channel.closed = true ∧ t = s ∧
      outcome = if required then .failed writerClosed else .done []) := by
  simp only [perform] at hs
  split at hs
  · cases hs
  · next target htx =>
    split at hs
    · next channel hsent =>
      cases hs
      exact .inl ⟨target, channel, htx, hsent, rfl, rfl⟩
    · cases hs
    · next hclosed =>
      cases hs
      exact .inr ⟨target, htx, Channel.Mpsc.send_eq_closed.mp hclosed, rfl, rfl⟩

/-- **Every move keeps the loops serving.** -/
theorem Serving.step {move : Move} (hw : Wf s) (h : Serving s) (hs : s.step move = some t) : Serving t := by
  have hgrows := grows_step hw hs
  intro c conn' serverId g hc' hrole' hrunning'
  cases hc : s.conns[c]? with
  | none =>
    obtain ⟨msg, htodo⟩ := new_conn hw hs hc hc' hrole'
    have hself : t.role c = some conn'.role := by simp only [role, hc', Option.map_some]
    rw [htodo]
    exact .one hself msg true
  | some conn =>
    have hrole : s.role c = some conn.role := by simp only [role, hc, Option.map_some]
    have hsame : conn.role = conn'.role := by
      have htrole : t.role c = some conn'.role := by simp only [role, hc', Option.map_some]
      have hkept := hgrows c conn.role hrole
      rw [htrole] at hkept
      exact (Option.some.inj hkept).symm
    rw [hrole'] at hsame
    by_cases hread : move.reads c
    · obtain ⟨msg, now, rfl⟩ := hread
      rw [hsame] at hrole
      simp only [Relay.step, hc] at hs
      have hturn : t = (s.turn c conn.role msg now).1.settle c conn (s.turn c conn.role msg now).2 := by
        split at hs
        · exact (Option.some.inj hs).symm
        · exact (Option.some.inj hs).symm
        · cases hs
      have hconn : (s.turn c conn.role msg now).1.conns[c]? = some conn := by rw [turn_conns, hc]
      rw [hturn] at hc'
      cases hflow : (s.turn c conn.role msg now).2 with
      | next todo =>
        rw [hflow] at hc'
        obtain ⟨k, hk, rfl⟩ := getElem?_mapConn.mp hc'
        rw [if_pos rfl]
        rw [hsame] at hflow
        exact (serverRead_sends hw hrole msg now hflow).mono hgrows
      | stop todo =>
        rw [hflow] at hc'
        obtain ⟨k, hk, rfl⟩ := getElem?_mapConn.mp hc'
        rw [if_pos rfl] at hrunning'
        exact hrunning'.elim
      | fail error =>
        rw [hflow] at hc'
        obtain ⟨k, hk, hphase, _⟩ := fail_phase { conn with phase := .reading } error hconn hsame
        rw [Relay.settle, hk] at hc'
        cases hc'
        rw [hphase] at hrunning'
        exact hrunning'.elim
    · by_cases hadvance : move = .advance c
      · subst hadvance
        simp only [Relay.step, hc] at hs
        split at hs
        · cases hs
        · next op rest htodo =>
          split at hs
          · cases hs
          · next u more hu =>
            cases hs
            obtain ⟨k₀, hk₀, hk⟩ := getElem?_mapConn.mp hc'
            obtain ⟨k₁, hk₁, _, _, hphase⟩ := SameTask.perform hu conn hc
            rw [hk₀] at hk₁
            cases hk₁
            rw [if_pos rfl] at hk
            subst hk
            have hrunning : Phase.running conn.phase := by
              rcases hphase with hphase | ⟨result, hphase⟩
              · rw [← hphase]
                exact hrunning'
              · simp only [hphase] at hrunning'
                exact hrunning'.elim
            have hsends := h c conn serverId g hc hsame hrunning
            rw [htodo] at hsends
            obtain ⟨tx, msg, required, _, rfl, _⟩ := hsends.send op List.mem_cons_self
            have hmore : more = [] := by
              rcases perform_send hu with ⟨_, _, _, _, _, ho⟩ | ⟨_, _, _, _, ho⟩
              · cases ho
                rfl
              · split at ho
                · cases ho
                · cases ho
                  rfl
            subst hmore
            exact hsends.tail.mono hgrows
          · next u error hu =>
            cases hs
            obtain ⟨k₁, hk₁, _⟩ := SameTask.perform hu conn hc
            obtain ⟨k, hk, hphase, _⟩ := fail_phase conn error hk₁ hsame
            rw [hk] at hc'
            cases hc'
            rw [hphase] at hrunning'
            exact hrunning'.elim
      · obtain ⟨k, hk, hkrole, htodo, hphase⟩ := SameTask.step hs hread hadvance conn hc
        rw [hk] at hc'
        cases hc'
        rw [htodo]
        rcases hphase with hphase | ⟨result, hphase⟩
        · rw [hphase] at hrunning'
          exact (h c conn serverId g hc hsame hrunning').mono hgrows
        · rw [hphase] at hrunning'
          exact hrunning'.elim

theorem reachable_serving {idleThreshold : Nat} (h : Steps.Reachable step { idleThreshold } s) : Wf s ∧ Serving s := by
  apply h.invariant (I := fun s => Wf s ∧ Serving s)
  · refine ⟨wf_empty idleThreshold, ?_⟩
    intro c conn serverId g hc
    simp at hc
  · rintro s move t ⟨hw, h⟩ hs
    exact ⟨hw.step hs, h.step hw hs⟩

/-! ## Sends that are taken -/

theorem conns_mapConn_self {c : ConnId} {conn : Conn} (h : s.conns[c]? = some conn) (f : Conn → Conn) :
    (s.mapConn c f).conns[c]? = some (f conn) := getElem?_mapConn.mpr ⟨conn, h, by rw [if_pos rfl]⟩

theorem channel_mapConn_self {tx : ConnId} {target : Conn} (h : s.conns[tx]? = some target) (f : Conn → Conn) :
    (s.mapConn tx f).channel tx = some (f target).channel := by
  simp only [channel, mapConn, List.getElem?_modify, h, if_true, Option.map_eq_map, Option.map_some]

theorem channel_mapConn_ne {tx i : ConnId} (h : i ≠ tx) (f : Conn → Conn) : (s.mapConn tx f).channel i = s.channel i := by
  simp only [channel, mapConn, List.getElem?_modify, if_neg (Ne.symm h), Option.map_eq_map, Option.map_id']

/-- Whether a send is taken depends on the queue of its receiver. -/
theorem Takes.of_channel {op : Op} (h : Takes s op) (hsame : ∀ tx, op.target = some tx → t.channel tx = s.channel tx) :
    Takes t op := by
  obtain ⟨tx, msg, required, channel, rfl, hchannel, hroom⟩ := h
  exact ⟨tx, msg, required, channel, rfl, (hsame tx rfl).trans hchannel, hroom⟩

/-- The task at `c` has gone on to `rest`, and nothing but the queues of `targets` has changed. -/
structure Advanced (c : ConnId) (conn : Conn) (rest : List Op) (targets : List (Option ConnId)) (s t : Relay) : Prop where
  pairs : t.pairs = s.pairs
  channel : ∀ i, some i ∉ targets → t.channel i = s.channel i
  conn : ∃ conn', t.conns[c]? = some conn' ∧ conn'.role = conn.role ∧ conn'.phase = conn.phase ∧ conn'.todo = rest

/-- The state of a task behind an operation. -/
theorem Advanced.of_mapConn {c : ConnId} {conn k : Conn} (hk : t.conns[c]? = some k) (hrole : k.role = conn.role)
    (hphase : k.phase = conn.phase) {rest : List Op} {targets : List (Option ConnId)} (hpairs : t.pairs = s.pairs)
    (hchannel : ∀ i, some i ∉ targets → t.channel i = s.channel i) :
    Advanced c conn rest targets s (t.mapConn c fun k => { k with todo := rest }) := by
  refine ⟨hpairs, ?_, ?_⟩
  · intro i hi
    rw [channel_mapConn]
    · exact hchannel i hi
    · intro _
      rfl
  · exact ⟨_, getElem?_mapConn.mpr ⟨k, hk, rfl⟩, by rw [if_pos rfl]; exact ⟨hrole, hphase, rfl⟩⟩

/-- **The next step of a task that has a send to do**: the send is taken, or its receiver is gone. -/
theorem step_advance_send {c : ConnId} {conn : Conn} {tx : ConnId} {msg : ServerMsg} {required : Bool} {rest : List Op}
    (hc : s.conns[c]? = some conn) (htodo : conn.todo = .send tx msg required :: rest)
    (hs : s.step (.advance c) = some t) :
    (Takes s (.send tx msg required) ∧ Advanced c conn rest [some tx] s t) ∨
    (required = true ∧ (∃ channel, s.channel tx = some channel ∧ channel.closed = true) ∧
      t = s.fail c conn writerClosed) := by
  simp only [Relay.step, hc, htodo] at hs
  cases hp : s.perform (.send tx msg required) with
  | none =>
    rw [hp] at hs
    cases hs
  | some done =>
    obtain ⟨u, outcome⟩ := done
    rw [hp] at hs
    obtain ⟨target, channel, htx, hsent, rfl, rfl⟩ | ⟨target, htx, hclosed, hu, rfl⟩ := perform_send hp
    · cases hs
      have htarget : s.channel tx = some target.channel := by simp only [Relay.channel, htx, Option.map_some]
      obtain ⟨hopen, hroom, _⟩ := Channel.Mpsc.send_eq_sent.mp hsent
      refine .inl ⟨⟨tx, msg, required, target.channel, rfl, htarget, by simpa [hopen] using hroom⟩, ?_⟩
      apply Advanced.of_mapConn (getElem?_mapConn.mpr ⟨conn, hc, rfl⟩)
      · split <;> rfl
      · split <;> rfl
      · rfl
      · intro i hi
        exact channel_mapConn_ne (fun he => hi (by rw [he]; exact List.mem_singleton_self _)) _
    · subst u
      have htarget : s.channel tx = some target.channel := by simp only [Relay.channel, htx, Option.map_some]
      cases required with
      | true =>
        cases hs
        exact .inr ⟨rfl, ⟨target.channel, htarget, hclosed⟩, rfl⟩
      | false =>
        cases hs
        refine .inl ⟨⟨tx, msg, false, target.channel, rfl, htarget, by rw [if_pos hclosed]⟩, ?_⟩
        exact .of_mapConn hc rfl rfl rfl fun _ _ => rfl

theorem Takes.perform {op : Op} (h : Takes s op) : ∃ u, s.perform op = some (u, .done []) := by
  obtain ⟨tx, msg, required, channel, rfl, hchannel, hroom⟩ := h
  obtain ⟨target, htx, rfl⟩ := Option.map_eq_some_iff.mp hchannel
  simp only [Relay.perform, htx]
  cases hclosed : target.channel.closed with
  | true =>
    rw [if_pos hclosed] at hroom
    rw [Channel.Mpsc.send_eq_closed.mpr hclosed, hroom]
    exact ⟨s, rfl⟩
  | false =>
    rw [if_neg (by rw [hclosed]; exact Bool.false_ne_true)] at hroom
    rw [Channel.Mpsc.send_of_room hclosed hroom]
    exact ⟨_, rfl⟩

/-- A send that is taken can be done. -/
theorem Takes.step_advance {c : ConnId} {conn : Conn} {op : Op} {rest : List Op} (hc : s.conns[c]? = some conn)
    (htodo : conn.todo = op :: rest) (h : Takes s op) :
    ∃ t, s.step (.advance c) = some t ∧ Advanced c conn rest [op.target] s t := by
  obtain ⟨u, hu⟩ := h.perform
  have hstep : s.step (.advance c) = some (u.mapConn c fun k => { k with todo := [] ++ rest }) := by
    simp only [Relay.step, hc, htodo, hu]
  obtain ⟨tx, msg, required, channel, rfl, hchannel, hroom⟩ := h
  rcases step_advance_send hc htodo hstep with ⟨_, hadvanced⟩ | ⟨hrequired, ⟨channel', hsame, hclosed⟩, _⟩
  · exact ⟨_, hstep, hadvanced⟩
  · rw [hchannel] at hsame
    cases hsame
    rw [if_pos hclosed] at hroom
    rw [hroom] at hrequired
    cases hrequired

/-! ## Until the loop reads again -/

/-- The loop at `c` does what it has left to do, if it can without waiting for others. -/
theorem drain {c : ConnId} : ∀ (todo : List Op) {s : Relay} {conn : Conn}, s.conns[c]? = some conn → conn.todo = todo →
    (∀ op ∈ todo, Takes s op) → (todo.map Op.target).Nodup →
    ∃ t, Steps.run step s (List.replicate todo.length (.advance c)) = some t ∧
      Advanced c conn [] (todo.map Op.target) s t
  | [], s, conn, hc, htodo, _, _ => ⟨s, rfl, rfl, fun _ _ => rfl, conn, hc, rfl, rfl, htodo⟩
  | op :: rest, s, conn, hc, htodo, htakes, hnodup => by
    obtain ⟨hfirst, hrest⟩ := List.forall_mem_cons.mp htakes
    obtain ⟨hnot, hnodup⟩ := List.nodup_cons.mp hnodup
    obtain ⟨m, hm, hadvanced⟩ := hfirst.step_advance hc htodo
    obtain ⟨conn', hc', hrole, hphase, htodo'⟩ := hadvanced.conn
    have htakes' : ∀ op' ∈ rest, Takes m op' := by
      intro op' hop'
      apply (hrest op' hop').of_channel
      intro tx htx
      apply hadvanced.channel
      intro he
      rw [List.mem_singleton] at he
      exact hnot (List.mem_map.mpr ⟨op', hop', htx.trans he⟩)
    obtain ⟨t, hr, hdrained⟩ := drain rest hc' htodo' htakes' hnodup
    refine ⟨t, ?_, ?_, ?_, ?_⟩
    · rw [List.length_cons, List.replicate_succ, Steps.run_cons, hm]
      exact hr
    · exact hdrained.pairs.trans hadvanced.pairs
    · intro i hi
      rw [List.map_cons, List.mem_cons, not_or] at hi
      rw [hdrained.channel i hi.2, hadvanced.channel i (by rw [List.mem_singleton]; exact hi.1)]
    · obtain ⟨conn'', hc'', hrole'', hphase'', htodo''⟩ := hdrained.conn
      exact ⟨conn'', hc'', hrole''.trans hrole, hphase''.trans hphase, htodo''⟩

/-- A loop that has come to its end does nothing. -/
theorem ended_stuck {c : ConnId} {conn : Conn} {result : RelayResult Unit} (hc : s.conns[c]? = some conn)
    (hphase : conn.phase = .ended result) (htodo : conn.todo = []) {n : Nat} {msg : Incoming} {now : Nat}
    {more : List Move} : Steps.run step s (List.replicate n (.advance c) ++ .read c msg now :: more) = none := by
  cases n with
  | zero => simp [Steps.run_cons, Relay.step, hc, hphase]
  | succ n => simp [List.replicate_succ, Steps.run_cons, Relay.step, hc, htodo]

/-- **A loop that reads again on its own has had its sends taken.** -/
theorem takes_of_run {c : ConnId} {serverId : ServerId} {g : Nat} {msg : Incoming} {now : Nat} {more : List Move} :
    ∀ (n : Nat) {s t : Relay} {conn : Conn}, s.conns[c]? = some conn → conn.role = .server serverId g →
    (∀ op ∈ conn.todo, ∃ tx msg required, op = .send tx msg required) → (conn.todo.map Op.target).Nodup →
    Steps.run step s (List.replicate n (.advance c) ++ .read c msg now :: more) = some t →
    ∀ op ∈ conn.todo, Takes s op
  | 0, s, t, conn, hc, _, _, _, hr => by
    obtain ⟨m, hm, _⟩ := Steps.run_cons_some hr
    simp only [Relay.step, hc] at hm
    split at hm
    · next htodo =>
      rw [htodo]
      exact fun _ hop => absurd hop List.not_mem_nil
    · next htodo =>
      rw [htodo]
      exact fun _ hop => absurd hop List.not_mem_nil
    · cases hm
  | n + 1, s, t, conn, hc, hrole, hsends, hnodup, hr => by
    rw [List.replicate_succ, List.cons_append] at hr
    obtain ⟨m, hm, hr⟩ := Steps.run_cons_some hr
    cases htodo : conn.todo with
    | nil => exact fun _ hop => absurd hop List.not_mem_nil
    | cons op rest =>
      rw [htodo] at hsends hnodup
      obtain ⟨⟨tx, msg', required, rfl⟩, hothers⟩ := List.forall_mem_cons.mp hsends
      obtain ⟨hnot, hnodup⟩ := List.nodup_cons.mp hnodup
      rcases step_advance_send hc htodo hm with ⟨htakes, hadvanced⟩ | ⟨_, _, rfl⟩
      · obtain ⟨conn', hc', hrole', _, rfl⟩ := hadvanced.conn
        have hrest := takes_of_run n hc' (hrole'.trans hrole) hothers hnodup hr
        refine List.forall_mem_cons.mpr ⟨htakes, ?_⟩
        intro op' hop'
        apply (hrest op' hop').of_channel
        intro i hi
        refine (hadvanced.channel i ?_).symm
        intro he
        rw [List.mem_singleton] at he
        exact hnot (List.mem_map.mpr ⟨op', hop', hi.trans he⟩)
      · obtain ⟨conn', hc', hphase, htodo'⟩ := fail_phase conn writerClosed hc hrole
        rw [ended_stuck hc' hphase htodo'] at hr
        cases hr

/-! ## When it can forward the next frame -/

/-- A send that there is room for. -/
theorem step_advance_room {c : ConnId} {conn : Conn} {tx : ConnId} {msg : ServerMsg} {required : Bool} {rest : List Op}
    (hc : s.conns[c]? = some conn) (htodo : conn.todo = .send tx msg required :: rest)
    {channel : Channel.Mpsc ServerMsg} (hchannel : s.channel tx = some channel) (hopen : channel.closed = false)
    (hroom : channel.queue.length < channel.capacity) :
    ∃ t, s.step (.advance c) = some t ∧ t.channel tx = some { channel with queue := channel.queue ++ [msg] } := by
  obtain ⟨target, htx, rfl⟩ := Option.map_eq_some_iff.mp hchannel
  have hsent := Channel.Mpsc.send_of_room hopen hroom msg
  have hstep : s.step (.advance c) = some ((s.mapConn tx fun k => { k with
      channel := { target.channel with queue := target.channel.queue ++ [msg] } }).mapConn c fun k =>
        { k with todo := [] ++ rest }) := by
    simp only [Relay.step, hc, htodo, Relay.perform, htx, hsent]
  refine ⟨_, hstep, ?_⟩
  rw [channel_mapConn]
  · exact channel_mapConn_self htx _
  · intro _
    rfl

/-- A task that has nothing left to do reads. -/
theorem step_read_idle {c : ConnId} {conn : Conn} (hc : s.conns[c]? = some conn) (hrunning : conn.phase.running)
    (htodo : conn.todo = []) (msg : Incoming) (now : Nat) :
    s.step (.read c msg now) =
      some ((s.turn c conn.role msg now).1.settle c conn (s.turn c conn.role msg now).2) := by
  cases hphase : conn.phase with
  | opening => simp only [Relay.step, hc, hphase, htodo]
  | reading => simp only [Relay.step, hc, hphase, htodo]
  | closing result =>
    rw [hphase] at hrunning
    exact hrunning.elim
  | ended result =>
    rw [hphase] at hrunning
    exact hrunning.elim

/-- The next frame on the socket of the server at `c` is for a pair of that server, other than the one the loop is busy
with, and there is room in the queue of its client. -/
structure Next (s : Relay) (c : ConnId) (conn : Conn) (bytes : List UInt8) (pairId : PairId) (payload : List UInt8)
    (pair : Pair) : Prop where
  there : s.conns[c]? = some conn
  server : ∃ g, conn.role = .server pair.serverId g
  running : conn.phase.running
  frame : decodeRelay bytes = .ok (.data (.forward pairId payload))
  known : s.pairs.lookup pairId = some pair
  other : some pair.clientTx ∉ conn.todo.map Op.target
  room : ∃ channel, s.channel pair.clientTx = some channel ∧ channel.closed = false ∧
    channel.queue.length < channel.capacity

/-- The loop at `c` comes to queue `frame` for `tx` on its own, with `bytes` next on its socket. -/
def CanForward (s : Relay) (c : ConnId) (bytes : List UInt8) (now : Nat) (tx : ConnId) (frame : ServerMsg) : Prop :=
  ∃ n t channel, Steps.run step s (List.replicate n (.advance c) ++ [.read c (.binary bytes) now, .advance c]) = some t ∧
    s.channel tx = some channel ∧ t.channel tx = some { channel with queue := channel.queue ++ [frame] }

/-- **A loop can forward the next frame, of another pair, exactly when what it has left to send is taken.** -/
theorem canForward_iff (hserving : Serving s) {c : ConnId} {conn : Conn} {bytes : List UInt8} {pairId : PairId}
    {payload : List UInt8} {pair : Pair} (hnext : Next s c conn bytes pairId payload pair) (now : Nat) :
    CanForward s c bytes now pair.clientTx (encodeDataFrame (.forward pairId payload)) ↔
      ∀ op ∈ conn.todo, Takes s op := by
  obtain ⟨g, hrole⟩ := hnext.server
  have hsends := hserving c conn _ g hnext.there hrole hnext.running
  constructor
  · rintro ⟨n, t, channel, hr, _⟩
    refine takes_of_run n hnext.there hrole ?_ hsends.nodup hr
    intro op hop
    obtain ⟨tx, msg, required, _, he, _⟩ := hsends.send op hop
    exact ⟨tx, msg, required, he⟩
  · intro htakes
    obtain ⟨u, hu, hdrained⟩ := drain conn.todo hnext.there rfl htakes hsends.nodup
    obtain ⟨conn', hc', hrole', hphase', htodo'⟩ := hdrained.conn
    obtain ⟨channel, hchannel, hopen, hroom⟩ := hnext.room
    have hturn : u.turn c conn'.role (.binary bytes) now =
        (u.touch pairId now, .next [.send pair.clientTx (encodeDataFrame (.forward pairId payload)) true]) := by
      rw [hrole', hrole]
      simp only [turn, serverRead, hnext.frame, hdrained.pairs, hnext.known, ne_eq, not_true_eq_false, if_false]
    have hread := step_read_idle hc' (by rw [hphase']; exact hnext.running) htodo' (.binary bytes) now
    rw [hturn] at hread
    have hthere : (u.touch pairId now).conns[c]? = some conn' := by rw [conns_touch, hc']
    have hsettled := conns_mapConn_self hthere fun k => { k with
      phase := .reading, todo := [.send pair.clientTx (encodeDataFrame (.forward pairId payload)) true] }
    have hqueue : ((u.touch pairId now).mapConn c fun k => { k with
        phase := .reading
        todo := [.send pair.clientTx (encodeDataFrame (.forward pairId payload)) true] }).channel pair.clientTx =
        some channel := by
      rw [channel_mapConn]
      · simp only [Relay.channel, conns_touch]
        exact (hdrained.channel _ hnext.other).trans hchannel
      · intro _
        rfl
    obtain ⟨t, ht, hsent⟩ := step_advance_room hsettled rfl hqueue hopen hroom
    refine ⟨conn.todo.length, t, channel, ?_, hchannel, hsent⟩
    rw [Steps.run_append hu, Steps.run_cons, hread, Option.bind_some, Steps.run_cons]
    exact congrArg (Option.bind · _) ht

/-! ## When it fails, and because of whom -/

/-- The server's loop at `c` comes to its end with an error by `move`. -/
def Fails (s : Relay) (c : ConnId) (move : Move) : Prop :=
  ∃ t conn error, s.step move = some t ∧ t.conns[c]? = some conn ∧ conn.phase = .ended (.error error)

/-- The relay with a writer at `tx` that is there and has written all it had to. -/
def withReader (s : Relay) (tx : ConnId) : Relay :=
  s.mapConn tx fun k => { k with channel := { k.channel with queue := [], closed := false } }

/-- The loop fails because of the receiver at `tx`: with a reader there it would not. -/
def FailsFor (s : Relay) (c tx : ConnId) (move : Move) : Prop := Fails s c move ∧ ¬Fails (s.withReader tx) c move

/-- The next send of the loop at `c` is to `tx`, is required, and nobody reads there. -/
def Lost (s : Relay) (c tx : ConnId) : Prop :=
  ∃ conn msg rest channel, s.conns[c]? = some conn ∧ conn.todo = .send tx msg true :: rest ∧
    s.channel tx = some channel ∧ channel.closed = true

/-- **A loop with sends to do fails exactly when the next of them is lost.** -/
theorem fails_advance_iff {c : ConnId} {conn : Conn} {serverId : ServerId} {g : Nat} (hc : s.conns[c]? = some conn)
    (hrole : conn.role = .server serverId g) (hrunning : conn.phase.running)
    (hsends : ∀ op ∈ conn.todo, ∃ tx msg required, op = .send tx msg required) :
    Fails s c (.advance c) ↔ ∃ tx, Lost s c tx := by
  constructor
  · rintro ⟨t, conn', error, ht, hc', hphase'⟩
    cases htodo : conn.todo with
    | nil =>
      simp only [Relay.step, hc, htodo] at ht
      cases ht
    | cons op rest =>
      obtain ⟨tx, msg, required, rfl⟩ := hsends op (by rw [htodo]; exact List.mem_cons_self)
      rcases step_advance_send hc htodo ht with ⟨_, hadvanced⟩ | ⟨rfl, ⟨channel, hchannel, hclosed⟩, _⟩
      · obtain ⟨k, hk, _, hphase, _⟩ := hadvanced.conn
        rw [hk] at hc'
        cases hc'
        rw [← hphase, hphase'] at hrunning
        exact hrunning.elim
      · exact ⟨tx, conn, msg, rest, channel, hc, htodo, hchannel, hclosed⟩
  · rintro ⟨tx, k, msg, rest, channel, hk, htodo, hchannel, hclosed⟩
    rw [hk] at hc
    cases hc
    obtain ⟨target, htx, rfl⟩ := Option.map_eq_some_iff.mp hchannel
    obtain ⟨conn', hc', hphase, _⟩ := fail_phase conn writerClosed hk hrole
    refine ⟨s.fail c conn writerClosed, conn', writerClosed, ?_, hc', hphase⟩
    simp only [Relay.step, hk, htodo, perform, htx, Channel.Mpsc.send_eq_closed.mpr hclosed, if_true]

/-- What a loop makes of a message depends on the pairs, not on the queues. -/
theorem serverRead_congr (h : t.pairs = s.pairs) (serverId : ServerId) (c : ConnId) (msg : Incoming) (now : Nat) :
    (t.serverRead serverId c msg now).2 = (s.serverRead serverId c msg now).2 := by
  simp only [serverRead, closePair, h]
  cases msg with
  | binary bytes =>
    simp only
    split
    · rfl
    · split <;> rfl
    · rfl
    · split
      · rfl
      · split <;> rfl
  | close | pingPong | textOrFrame | ended | error => rfl

theorem fails_read_iff {c : ConnId} {conn : Conn} {serverId : ServerId} {g : Nat} (hc : s.conns[c]? = some conn)
    (hrole : conn.role = .server serverId g) (hrunning : conn.phase.running) (msg : Incoming) (now : Nat) :
    Fails s c (.read c msg now) ↔ conn.todo = [] ∧ ∃ error, (s.serverRead serverId c msg now).2 = .fail error := by
  have hturn : s.turn c conn.role msg now = s.serverRead serverId c msg now := by rw [hrole]; rfl
  have hconn : (s.serverRead serverId c msg now).1.conns[c]? = some conn := by rw [← hturn, turn_conns, hc]
  constructor
  · rintro ⟨t, conn', error, ht, hc', hphase'⟩
    have htodo : conn.todo = [] := by
      simp only [Relay.step, hc] at ht
      split at ht
      · assumption
      · assumption
      · cases ht
    rw [step_read_idle hc hrunning htodo, hturn] at ht
    cases ht
    refine ⟨htodo, ?_⟩
    cases hflow : (s.serverRead serverId c msg now).2 with
    | fail error => exact ⟨error, rfl⟩
    | next todo | stop todo =>
      rw [hflow, Relay.settle, conns_mapConn_self hconn] at hc'
      cases hc'
      cases hphase'
  · rintro ⟨htodo, error, hflow⟩
    obtain ⟨conn', hc', hphase, _⟩ := fail_phase { conn with phase := .reading } error hconn hrole
    refine ⟨_, conn', error, step_read_idle hc hrunning htodo msg now, ?_, hphase⟩
    rw [hturn, hflow]
    exact hc'

/-- With a reader at `tx`, the task at `c` is where it was. -/
theorem withReader_conn {c : ConnId} {conn : Conn} (hc : s.conns[c]? = some conn) (tx : ConnId) :
    ∃ conn', (s.withReader tx).conns[c]? = some conn' ∧ conn'.role = conn.role ∧ conn'.phase = conn.phase ∧
      conn'.todo = conn.todo := by
  refine ⟨_, getElem?_mapConn.mpr ⟨conn, hc, rfl⟩, ?_⟩
  split <;> exact ⟨rfl, rfl, rfl⟩

/-- With a reader at `tx`, nothing is lost there, and elsewhere what was. -/
theorem lost_withReader {c tx i : ConnId} : Lost (s.withReader tx) c i ↔ Lost s c i ∧ i ≠ tx := by
  constructor
  · rintro ⟨conn', msg, rest, channel, hc', htodo, hchannel, hclosed⟩
    obtain ⟨conn, hc, rfl⟩ := getElem?_mapConn.mp hc'
    have hne : i ≠ tx := by
      rintro rfl
      obtain ⟨target, htx, rfl⟩ := Option.map_eq_some_iff.mp hchannel
      obtain ⟨k, hk, rfl⟩ := getElem?_mapConn.mp htx
      rw [if_pos rfl] at hclosed
      cases hclosed
    refine ⟨⟨conn, msg, rest, channel, hc, ?_, ?_, hclosed⟩, hne⟩
    · rw [← htodo]
      split <;> rfl
    · rw [← hchannel]
      exact (channel_mapConn_ne hne _).symm
  · rintro ⟨⟨conn, msg, rest, channel, hc, htodo, hchannel, hclosed⟩, hne⟩
    obtain ⟨conn', hc', _, _, htodo'⟩ := withReader_conn hc tx
    refine ⟨conn', msg, rest, channel, hc', htodo'.trans htodo, ?_, hclosed⟩
    rw [← hchannel]
    exact channel_mapConn_ne hne _

/-- **The loop fails because of a receiver exactly when a send to it is lost**, and never in reading. -/
theorem failsFor_iff (hserving : Serving s) {c : ConnId} {conn : Conn} {serverId : ServerId} {g : Nat}
    (hc : s.conns[c]? = some conn) (hrole : conn.role = .server serverId g) (hrunning : conn.phase.running) (tx : ConnId) :
    (FailsFor s c tx (.advance c) ↔ Lost s c tx) ∧ ∀ msg now, ¬FailsFor s c tx (.read c msg now) := by
  obtain ⟨conn', hc', hrole', hphase', htodo'⟩ := withReader_conn hc tx
  rw [hrole] at hrole'
  rw [← hphase'] at hrunning
  have hsends : ∀ op ∈ conn.todo, ∃ tx msg required, op = .send tx msg required := by
    intro op hop
    obtain ⟨i, msg, required, _, he, _⟩ := (hserving c conn serverId g hc hrole (hphase' ▸ hrunning)).send op hop
    exact ⟨i, msg, required, he⟩
  have hfails := fails_advance_iff hc hrole (hphase' ▸ hrunning) hsends
  have hfails' := fails_advance_iff hc' hrole' hrunning (htodo' ▸ hsends)
  refine ⟨?_, ?_⟩
  · rw [FailsFor, hfails, hfails']
    constructor
    · rintro ⟨⟨i, hlost⟩, hnot⟩
      have hi : i = tx := by
        by_contra hne
        exact hnot ⟨i, lost_withReader.mpr ⟨hlost, hne⟩⟩
      exact hi ▸ hlost
    · intro hlost
      refine ⟨⟨tx, hlost⟩, ?_⟩
      rintro ⟨i, hi⟩
      obtain ⟨⟨k, _, _, _, hk, htodo, _⟩, hne⟩ := lost_withReader.mp hi
      obtain ⟨k', _, _, _, hk', htodo', _⟩ := hlost
      rw [hk] at hk'
      cases hk'
      rw [htodo] at htodo'
      cases htodo'
      exact hne rfl
  · rintro msg now ⟨hread, hnot⟩
    obtain ⟨htodo, error, hflow⟩ := (fails_read_iff hc hrole (hphase' ▸ hrunning) msg now).mp hread
    refine hnot ((fails_read_iff hc' hrole' hrunning msg now).mpr ⟨htodo'.trans htodo, error, ?_⟩)
    have hpairs : (s.withReader tx).pairs = s.pairs := rfl
    rw [serverRead_congr hpairs, hflow]

end Relay

end CliPocket
