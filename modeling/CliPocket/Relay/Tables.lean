import CliPocket.Relay.Forward

/-!
# What the relay's tables say about its connections

Roles are given to connections once. Relative to the roles, the registry leads to servers and each pair to its own
client and to its server.

- `Roles`: what holds of the roles alone; `Rooted R s`: what the tables of `s` say, against the roles `R`;
- `perform_rooted`, `turn_rooted`, `step_rooted`: every operation, every turn of a read loop, every move keeps it;
- `reachable_wf`: **every reachable state has it.**
-/

namespace CliPocket

namespace Relay

/-- Who the connections are. -/
abbrev RoleMap := ConnId → Option Role

def role (s : Relay) (i : ConnId) : Option Role := s.conns[i]?.map Conn.role

def channel (s : Relay) (i : ConnId) : Option (Channel.Mpsc ServerMsg) := s.conns[i]?.map Conn.channel

/-- A pair that belongs to the client at its `client_tx`. -/
def PairAt (R : RoleMap) (pair : Pair) : Prop :=
  R pair.clientTx = some (.client pair.pairId pair.serverId pair.serverTx)

/-- Clients have servers, and no two of them share a pair identifier. -/
structure Roles (R : RoleMap) : Prop where
  client : ∀ {i pairId serverId tx}, R i = some (.client pairId serverId tx) → ∃ g, R tx = some (.server serverId g)
  unique : ∀ {i j pairId serverId tx serverId' tx'}, R i = some (.client pairId serverId tx) →
    R j = some (.client pairId serverId' tx') → i = j

structure Rooted (R : RoleMap) (s : Relay) : Prop where
  registry : ∀ {serverId : ServerId} {slot : StoredServerSlot}, s.servers.lookup serverId = some slot →
    ∃ g, R slot.tx = some (.server serverId g)
  pairs : ∀ {pairId : PairId} {pair : Pair}, s.pairs.lookup pairId = some pair → pair.pairId = pairId ∧ PairAt R pair
  todo : ∀ {i : ConnId} {conn : Conn} {pair : Pair}, s.conns[i]? = some conn → .insertPair pair ∈ conn.todo → PairAt R pair
  sweeper : ∀ {pair : Pair}, .insertPair pair ∈ s.sweeper → PairAt R pair

/-- The invariant of the relay. -/
structure Wf (s : Relay) : Prop where
  roles : Roles s.role
  rooted : Rooted s.role s

/-! ## Updates -/

theorem getElem?_mapConn {s : Relay} {c i : ConnId} {f : Conn → Conn} {k : Conn} :
    (s.mapConn c f).conns[i]? = some k ↔ ∃ k₀, s.conns[i]? = some k₀ ∧ k = if c = i then f k₀ else k₀ := by
  unfold mapConn
  rw [List.getElem?_modify, Option.map_eq_map, Option.map_eq_some_iff]
  simp only [eq_comm]

@[simp] theorem pairs_mapConn (s : Relay) (c : ConnId) (f : Conn → Conn) : (s.mapConn c f).pairs = s.pairs := rfl

@[simp] theorem servers_mapConn (s : Relay) (c : ConnId) (f : Conn → Conn) : (s.mapConn c f).servers = s.servers := rfl

@[simp] theorem sweeper_mapConn (s : Relay) (c : ConnId) (f : Conn → Conn) : (s.mapConn c f).sweeper = s.sweeper := rfl

theorem role_mapConn (s : Relay) (c : ConnId) {f : Conn → Conn} (hf : ∀ k, (f k).role = k.role) :
    (s.mapConn c f).role = s.role := by
  funext i
  simp only [role, mapConn, List.getElem?_modify, Option.map_eq_map, Option.map_map]
  congr 1
  funext k
  by_cases h : c = i <;> simp [h, hf]

theorem channel_mapConn (s : Relay) (c : ConnId) {f : Conn → Conn} (hf : ∀ k, (f k).channel = k.channel) (i : ConnId) :
    (s.mapConn c f).channel i = s.channel i := by
  simp only [channel, mapConn, List.getElem?_modify, Option.map_eq_map, Option.map_map]
  congr 1
  funext k
  by_cases h : c = i <;> simp [h, hf]

@[simp] theorem conns_unregister (s : Relay) (serverId : ServerId) (g : Nat) :
    (s.unregister serverId g).conns = s.conns := by
  unfold unregister
  split
  · split <;> rfl
  · rfl

@[simp] theorem pairs_unregister (s : Relay) (serverId : ServerId) (g : Nat) :
    (s.unregister serverId g).pairs = s.pairs := by
  unfold unregister
  split
  · split <;> rfl
  · rfl

@[simp] theorem sweeper_unregister (s : Relay) (serverId : ServerId) (g : Nat) :
    (s.unregister serverId g).sweeper = s.sweeper := by
  unfold unregister
  split
  · split <;> rfl
  · rfl

theorem lookup_unregister {s : Relay} {serverId id : ServerId} {g : Nat} {slot : StoredServerSlot}
    (h : (s.unregister serverId g).servers.lookup id = some slot) : s.servers.lookup id = some slot := by
  unfold unregister at h
  split at h
  · split at h
    · by_cases hid : id = serverId
      · subst hid
        rw [AList.lookup_erase] at h
        cases h
      · rwa [AList.lookup_erase_ne hid] at h
    · exact h
  · exact h

@[simp] theorem conns_touch (s : Relay) (pairId : PairId) (now : Nat) : (s.touch pairId now).conns = s.conns := by
  unfold touch
  split <;> rfl

@[simp] theorem servers_touch (s : Relay) (pairId : PairId) (now : Nat) :
    (s.touch pairId now).servers = s.servers := by
  unfold touch
  split <;> rfl

@[simp] theorem sweeper_touch (s : Relay) (pairId : PairId) (now : Nat) :
    (s.touch pairId now).sweeper = s.sweeper := by
  unfold touch
  split <;> rfl

/-- A touched pair keeps everything but its time. -/
theorem lookup_touch {s : Relay} {pairId id : PairId} {now : Nat} {pair : Pair}
    (h : (s.touch pairId now).pairs.lookup id = some pair) :
    ∃ t, s.pairs.lookup id = some { pair with lastProgress := t } := by
  unfold touch at h
  split at h
  · next old hold =>
    by_cases hid : id = pairId
    · subst hid
      rw [AList.lookup_insert] at h
      cases h
      exact ⟨old.lastProgress, hold⟩
    · rw [AList.lookup_insert_ne hid] at h
      exact ⟨pair.lastProgress, h⟩
  · exact ⟨pair.lastProgress, h⟩

theorem lookup_touch_ne {s : Relay} {pairId id : PairId} {now : Nat} (h : id ≠ pairId) :
    (s.touch pairId now).pairs.lookup id = s.pairs.lookup id := by
  unfold touch
  split
  · exact AList.lookup_insert_ne h
  · rfl

theorem lookup_erase_eq_some {pairs : AList fun _ : PairId => Pair} {id pairId : PairId} {pair : Pair}
    (h : (pairs.erase pairId).lookup id = some pair) : id ≠ pairId ∧ pairs.lookup id = some pair := by
  by_cases hid : id = pairId
  · subst hid
    rw [AList.lookup_erase] at h
    cases h
  · rw [AList.lookup_erase_ne hid] at h
    exact ⟨hid, h⟩

/-- What `close_pair` does: nothing to an unknown pair, else the pair leaves and both its ends are told. -/
theorem closePair_cases (s : Relay) (pairId : PairId) (reason : PairCloseReason) :
    (s.pairs.lookup pairId = none ∧ s.closePair pairId reason = (s, [])) ∨
    ∃ pair, s.pairs.lookup pairId = some pair ∧
      s.closePair pairId reason = ({ s with pairs := s.pairs.erase pairId },
        [.send pair.serverTx (encodeCtrlFrame (.pairClose pairId reason)) false,
          .send pair.clientTx (encodeCtrlFrame (.pairClose pairId reason)) false]) := by
  unfold closePair
  cases h : s.pairs.lookup pairId with
  | none => exact .inl ⟨rfl, rfl⟩
  | some pair => exact .inr ⟨pair, rfl, rfl⟩

/-! ## Operations keep the tables rooted -/

variable {R : RoleMap} {s t : Relay}

theorem Rooted.mapConn (h : Rooted R s) (c : ConnId) {f : Conn → Conn}
    (hf : ∀ {k pair}, s.conns[c]? = some k → .insertPair pair ∈ (f k).todo → PairAt R pair) :
    Rooted R (s.mapConn c f) := by
  refine ⟨h.registry, h.pairs, ?_, h.sweeper⟩
  intro i conn pair hi hp
  obtain ⟨k₀, hk₀, rfl⟩ := getElem?_mapConn.mp hi
  by_cases hc : c = i
  · subst hc
    rw [if_pos rfl] at hp
    exact hf hk₀ hp
  · rw [if_neg hc] at hp
    exact h.todo hk₀ hp

theorem Rooted.unregister (h : Rooted R s) (serverId : ServerId) (g : Nat) : Rooted R (s.unregister serverId g) := by
  refine ⟨fun hl => h.registry (lookup_unregister hl), ?_, ?_, ?_⟩
  · rw [pairs_unregister]
    exact h.pairs
  · rw [conns_unregister]
    exact h.todo
  · rw [sweeper_unregister]
    exact h.sweeper

theorem Rooted.touch (h : Rooted R s) (pairId : PairId) (now : Nat) : Rooted R (s.touch pairId now) := by
  refine ⟨?_, ?_, ?_, ?_⟩
  · rw [servers_touch]
    exact h.registry
  · intro id pair hl
    obtain ⟨_, hold⟩ := lookup_touch hl
    obtain ⟨hid, hat⟩ := h.pairs hold
    exact ⟨hid, hat⟩
  · rw [conns_touch]
    exact h.todo
  · rw [sweeper_touch]
    exact h.sweeper

theorem Rooted.erase (h : Rooted R s) (pairId : PairId) : Rooted R { s with pairs := s.pairs.erase pairId } :=
  ⟨h.registry, fun hl => h.pairs (lookup_erase_eq_some hl).2, h.todo, h.sweeper⟩

theorem Rooted.insert (h : Rooted R s) {pair : Pair} (hp : PairAt R pair) :
    Rooted R { s with pairs := s.pairs.insert pair.pairId pair } := by
  refine ⟨h.registry, ?_, h.todo, h.sweeper⟩
  intro id found hl
  by_cases hid : id = pair.pairId
  · subst hid
    rw [AList.lookup_insert] at hl
    cases hl
    exact ⟨rfl, hp⟩
  · rw [AList.lookup_insert_ne hid] at hl
    exact h.pairs hl

theorem conns_closePair (s : Relay) (pairId : PairId) (reason : PairCloseReason) :
    (s.closePair pairId reason).1.conns = s.conns := by
  obtain ⟨_, hc⟩ | ⟨pair, _, hc⟩ := s.closePair_cases pairId reason
  · rw [hc]
  · rw [hc]

/-- The operations behind `close_pair` insert no pair. -/
theorem closePair_rooted (h : Rooted R s) (pairId : PairId) (reason : PairCloseReason) :
    Rooted R (s.closePair pairId reason).1 ∧ ∀ pair, .insertPair pair ∉ (s.closePair pairId reason).2 := by
  obtain ⟨_, hc⟩ | ⟨pair, _, hc⟩ := s.closePair_cases pairId reason
  · rw [hc]
    exact ⟨h, fun _ => List.not_mem_nil⟩
  · rw [hc]
    exact ⟨h.erase pairId, fun _ hm => by simp at hm⟩

theorem perform_rooted {op : Op} {outcome : Outcome} (h : Rooted R s) (hop : ∀ pair, op = .insertPair pair → PairAt R pair)
    (hs : s.perform op = some (t, outcome)) :
    Rooted R t ∧ t.role = s.role ∧ ∀ more, outcome = .done more → ∀ pair, .insertPair pair ∉ more := by
  cases op with
  | send tx msg required =>
    simp only [perform] at hs
    split at hs
    · cases hs
    · next target htx =>
      split at hs
      · cases hs
        refine ⟨h.mapConn tx fun hk hm => h.todo hk hm, role_mapConn _ _ fun _ => rfl, ?_⟩
        rintro more ⟨⟩ pair
        exact List.not_mem_nil
      · cases hs
      · cases hs
        refine ⟨h, rfl, ?_⟩
        intro more hmore pair hm
        split at hmore
        · cases hmore
        · cases hmore
          cases hm
  | insertPair pair =>
    cases hs
    refine ⟨h.insert (hop pair rfl), rfl, ?_⟩
    rintro more ⟨⟩ pair
    exact List.not_mem_nil
  | closePair pairId reason =>
    cases hs
    obtain ⟨hr, hno⟩ := closePair_rooted h pairId reason
    have hrole : (s.closePair pairId reason).1.role = s.role := by
      funext i
      simp only [role, conns_closePair]
    refine ⟨hr, hrole, ?_⟩
    rintro more ⟨⟩ pair
    exact hno pair
  | closePairsOf serverId =>
    cases hs
    refine ⟨h, rfl, ?_⟩
    rintro more ⟨⟩ pair hm
    simp at hm
  | removePair pairId =>
    cases hs
    refine ⟨h.erase pairId, rfl, ?_⟩
    rintro more ⟨⟩ pair
    exact List.not_mem_nil

/-! ## Read loops and moves -/

/-- The operations a read loop goes on with. -/
def Flow.ops : Flow → List Op
  | .next todo => todo
  | .stop todo => todo
  | .fail _ => []

theorem turn_conns (s : Relay) (c : ConnId) (who : Role) (msg : Incoming) (now : Nat) :
    (s.turn c who msg now).1.conns = s.conns := by
  cases who with
  | server serverId g =>
    simp only [turn, serverRead]
    split <;> try rfl
    split
    · rfl
    · exact conns_closePair _ _ _
    · rfl
    · split
      · rfl
      · split
        · rfl
        · exact conns_touch _ _ _
  | client pairId serverId tx =>
    simp only [turn, clientRead]
    split <;> try rfl
    split
    · exact conns_closePair _ _ _
    · exact conns_touch _ _ _

theorem turn_rooted (h : Rooted R s) (c : ConnId) (who : Role) (msg : Incoming) (now : Nat) :
    Rooted R (s.turn c who msg now).1 ∧ ∀ pair, .insertPair pair ∉ (s.turn c who msg now).2.ops := by
  have hnil : Rooted R s ∧ ∀ pair : Pair, Op.insertPair pair ∉ ([] : List Op) := ⟨h, fun _ => List.not_mem_nil⟩
  cases who with
  | server serverId g =>
    simp only [turn, serverRead]
    split <;> try exact hnil
    split
    · exact hnil
    · exact closePair_rooted h _ _
    · exact hnil
    · split
      · exact ⟨h, fun _ hm => by simp [Flow.ops] at hm⟩
      · split
        · exact hnil
        · exact ⟨h.touch _ _, fun _ hm => by simp [Flow.ops] at hm⟩
  | client pairId serverId tx =>
    simp only [turn, clientRead]
    split <;> try exact hnil
    split
    · exact closePair_rooted h _ _
    · exact ⟨h.touch _ _, fun _ hm => by simp [Flow.ops] at hm⟩

theorem farewell_inserts_nothing (c : ConnId) (who : Role) (pair : Pair) : .insertPair pair ∉ Role.farewell c who := by
  cases who <;> simp [Role.farewell]

theorem Rooted.fail (h : Rooted R s) (c : ConnId) (conn : Conn) (error : RelayError) :
    Rooted R (s.fail c conn error) := by
  unfold Relay.fail
  split
  · exact (h.unregister _ _).mapConn c fun _ hm => by cases hm
  · exact h.mapConn c fun _ hm => by cases hm
  · exact h.mapConn c fun _ hm => by simp at hm

theorem role_fail (s : Relay) (c : ConnId) (conn : Conn) (error : RelayError) : (s.fail c conn error).role = s.role := by
  unfold Relay.fail
  split
  · rw [role_mapConn]
    · funext i
      simp only [role, conns_unregister]
    · intro _
      rfl
  · exact role_mapConn _ _ fun _ => rfl
  · exact role_mapConn _ _ fun _ => rfl

theorem Rooted.settle (h : Rooted R s) (c : ConnId) (conn : Conn) {flow : Flow}
    (hflow : ∀ pair, .insertPair pair ∉ flow.ops) : Rooted R (s.settle c conn flow) := by
  cases flow with
  | next todo => exact h.mapConn c fun _ hm => absurd hm (hflow _)
  | stop todo =>
    refine h.mapConn c fun _ hm => ?_
    rcases List.mem_append.mp hm with hm | hm
    · exact absurd hm (hflow _)
    · exact absurd hm (farewell_inserts_nothing _ _ _)
  | fail error => exact h.fail c _ error

theorem role_settle (s : Relay) (c : ConnId) (conn : Conn) (flow : Flow) : (s.settle c conn flow).role = s.role := by
  cases flow with
  | next todo => exact role_mapConn _ _ fun _ => rfl
  | stop todo => exact role_mapConn _ _ fun _ => rfl
  | fail error => exact role_fail _ _ _ _

/-- What `finish` does: the clean-up behind the read loop is over, or the task returns. -/
theorem step_finish {c : ConnId} (hs : s.step (.finish c) = some t) : ∃ conn, s.conns[c]? = some conn ∧
    ((∃ result serverId g, conn.phase = .closing result ∧ conn.todo = [] ∧ conn.role = .server serverId g ∧
        t = (s.unregister serverId g).mapConn c fun k => { k with phase := .ended result }) ∨
      (∃ result pairId serverId tx, conn.phase = .closing result ∧ conn.todo = [] ∧
        conn.role = .client pairId serverId tx ∧ t = s.mapConn c fun k => { k with phase := .ended result }) ∨
      (∃ result, conn.phase = .ended result) ∧ conn.channel.closed = true ∧ conn.returned = false ∧
        t = s.mapConn c fun k => { k with returned := true }) := by
  simp only [step] at hs
  split at hs
  · cases hs
  · next conn hc =>
    refine ⟨conn, hc, ?_⟩
    split at hs
    · next result serverId g hphase htodo hrole =>
      exact .inl ⟨result, serverId, g, hphase, htodo, hrole, (Option.some.inj hs).symm⟩
    · next result pairId serverId tx hphase htodo hrole =>
      exact .inr (.inl ⟨result, pairId, serverId, tx, hphase, htodo, hrole, (Option.some.inj hs).symm⟩)
    · next _ _ result hphase =>
      split at hs
      · next hends =>
        rw [Bool.and_eq_true, Bool.not_eq_true'] at hends
        exact .inr (.inr ⟨⟨result, hphase⟩, hends.1, hends.2, (Option.some.inj hs).symm⟩)
      · cases hs
    · cases hs

/-- What a turn of a writer does: it takes a message, or it ends with its last sender. -/
theorem writerTurn_cases {c : ConnId} {conn : Conn} {ok : Bool} {channel : Channel.Mpsc ServerMsg}
    {written : List Written} (h : s.writerTurn c conn ok = some (channel, written)) :
    writeOne conn ok = some (channel, written) ∨ conn.channel.closed = false ∧ conn.channel.queue = [] ∧
      s.held c = false ∧ channel = { conn.channel with queue := [], closed := true } ∧ written = conn.written := by
  unfold writerTurn at h
  split at h
  · next turn hturn =>
    cases h
    exact .inl hturn
  · split at h
    · cases h
    · next hleft =>
      cases h
      simp only [Bool.or_eq_true, Bool.not_eq_true', not_or, Bool.not_eq_true, Bool.not_eq_false,
        List.isEmpty_iff] at hleft
      exact .inr ⟨hleft.1.1, hleft.1.2, hleft.2, rfl, rfl⟩

/-- A move that opens no connection leaves the roles alone, and the tables rooted in them. -/
theorem step_rooted_of_old {move : Move} (h : Rooted R s) (hs : s.step move = some t)
    (hmove : ∀ first admitted, move ≠ .server first admitted)
    (hmove' : ∀ target first admitted pairId now, move ≠ .client target first admitted pairId now) :
    Rooted R t ∧ t.role = s.role := by
  cases move with
  | server first admitted => exact absurd rfl (hmove _ _)
  | client target first admitted pairId now => exact absurd rfl (hmove' _ _ _ _ _)
  | read c msg now =>
    simp only [step] at hs
    split at hs
    · cases hs
    · next conn hc =>
      obtain ⟨hr, hno⟩ := turn_rooted h c conn.role msg now
      have hrole : (s.turn c conn.role msg now).1.role = s.role := by
        funext i
        simp only [role, turn_conns]
      split at hs
      · cases hs
        exact ⟨hr.settle c conn hno, (role_settle _ _ _ _).trans hrole⟩
      · cases hs
        exact ⟨hr.settle c conn hno, (role_settle _ _ _ _).trans hrole⟩
      · cases hs
  | advance c =>
    simp only [step] at hs
    split at hs
    · cases hs
    · next conn hc =>
      split at hs
      · cases hs
      · next op rest htodo =>
        have hop : ∀ pair, op = .insertPair pair → PairAt R pair :=
          fun pair hp => h.todo hc (by rw [htodo, hp]; exact List.mem_cons_self)
        split at hs
        · cases hs
        · next u more hu =>
          cases hs
          obtain ⟨hr, hrole, hno⟩ := perform_rooted h hop hu
          refine ⟨hr.mapConn c fun _ hm => ?_, ?_⟩
          · rcases List.mem_append.mp hm with hm | hm
            · exact absurd hm (hno more rfl _)
            · exact h.todo hc (by rw [htodo]; exact List.mem_cons_of_mem _ hm)
          · rw [← hrole]
            exact role_mapConn _ _ fun _ => rfl
        · next u error hu =>
          cases hs
          obtain ⟨hr, hrole, _⟩ := perform_rooted h hop hu
          exact ⟨hr.fail c conn error, (role_fail _ _ _ _).trans hrole⟩
  | finish c =>
    obtain ⟨conn, hc, ⟨result, serverId, g, _, _, _, rfl⟩ | ⟨_, _, _, _, _, _, _, rfl⟩ | ⟨_, _, _, rfl⟩⟩ := step_finish hs
    · refine ⟨(h.unregister serverId g).mapConn c fun hk hm => ?_, ?_⟩
      · rw [conns_unregister] at hk
        exact h.todo hk hm
      · rw [role_mapConn]
        · funext i
          simp only [role, conns_unregister]
        · intro _
          rfl
    · exact ⟨h.mapConn c fun hk hm => h.todo hk hm, role_mapConn _ _ fun _ => rfl⟩
    · exact ⟨h.mapConn c fun hk hm => h.todo hk hm, role_mapConn _ _ fun _ => rfl⟩
  | write c ok =>
    simp only [step] at hs
    split at hs
    · cases hs
    · next conn hc =>
      obtain ⟨⟨channel, written⟩, _, rfl⟩ := Option.map_eq_some_iff.mp hs
      exact ⟨h.mapConn c fun hk hm => h.todo hk hm, role_mapConn _ _ fun _ => rfl⟩
  | sweep now =>
    simp only [step] at hs
    split at hs
    · cases hs
      refine ⟨⟨h.registry, h.pairs, h.todo, ?_⟩, rfl⟩
      intro pair hm
      obtain ⟨_, _, hm⟩ := List.mem_flatMap.mp hm
      simp [guillotine] at hm
    · cases hs
  | sweepAdvance =>
    simp only [step] at hs
    split at hs
    · cases hs
    · next op rest hsweep =>
      split at hs
      · next u more hu =>
        cases hs
        have hop : ∀ pair, op = .insertPair pair → PairAt R pair :=
          fun pair hp => h.sweeper (by rw [hsweep, hp]; exact List.mem_cons_self)
        obtain ⟨hr, hrole, hno⟩ := perform_rooted h hop hu
        refine ⟨⟨hr.registry, hr.pairs, hr.todo, ?_⟩, hrole⟩
        intro pair hm
        rcases List.mem_append.mp hm with hm | hm
        · exact absurd hm (hno more rfl _)
        · exact h.sweeper (by rw [hsweep]; exact List.mem_cons_of_mem _ hm)
      · cases hs

/-! ## New connections -/

theorem PairAt.mono {R' : RoleMap} (hR : ∀ {i r}, R i = some r → R' i = some r) {pair : Pair} (h : PairAt R pair) :
    PairAt R' pair := hR h

theorem Rooted.mono {R' : RoleMap} (hR : ∀ {i r}, R i = some r → R' i = some r) (h : Rooted R s) : Rooted R' s where
  registry hl :=
    have ⟨g, hg⟩ := h.registry hl
    ⟨g, hR hg⟩
  pairs hl := ⟨(h.pairs hl).1, hR (h.pairs hl).2⟩
  todo hi hm := hR (h.todo hi hm)
  sweeper hm := hR (h.sweeper hm)

/-- The state with one more connection. -/
def accept (s : Relay) (conn : Conn) : Relay := { s with conns := s.conns ++ [conn] }

theorem role_accept_self (s : Relay) (conn : Conn) : (s.accept conn).role s.conns.length = some conn.role := by
  simp [role, accept]

theorem role_accept {conn : Conn} {i : ConnId} {r : Role} (h : s.role i = some r) : (s.accept conn).role i = some r := by
  obtain ⟨k, hk, hr⟩ := Option.map_eq_some_iff.mp h
  simp only [role, accept]
  rw [List.getElem?_append_left (List.getElem?_eq_some_iff.mp hk).1, hk, Option.map_some, hr]

/-- A connection is an old one or the new one. -/
theorem of_role_accept {conn : Conn} {i : ConnId} {r : Role} (h : (s.accept conn).role i = some r) :
    s.role i = some r ∨ i = s.conns.length ∧ r = conn.role := by
  obtain ⟨k, hk, hr⟩ := Option.map_eq_some_iff.mp h
  simp only [accept] at hk
  rcases Nat.lt_or_ge i s.conns.length with hi | hi
  · rw [List.getElem?_append_left hi] at hk
    exact .inl (by simp only [role, hk, Option.map_some, hr])
  · rw [List.getElem?_append_right hi, List.getElem?_singleton] at hk
    split at hk
    · next hz =>
      cases hk
      exact .inr ⟨Nat.le_antisymm (Nat.sub_eq_zero_iff_le.mp hz) hi, hr.symm⟩
    · cases hk

theorem Rooted.accept {conn : Conn} (h : Rooted R s) (hconn : ∀ {pair}, .insertPair pair ∈ conn.todo → PairAt R pair) :
    Rooted R (s.accept conn) := by
  refine ⟨h.registry, h.pairs, ?_, h.sweeper⟩
  intro i k pair hk hm
  simp only [Relay.accept] at hk
  rcases Nat.lt_or_ge i s.conns.length with hi | hi
  · rw [List.getElem?_append_left hi] at hk
    exact h.todo hk hm
  · rw [List.getElem?_append_right hi, List.getElem?_singleton] at hk
    split at hk
    · cases hk
      exact hconn hm
    · cases hk

/-- The connection of a server that has registered. -/
def serverConn (s : Relay) (serverId : ServerId) : Conn where
  role := .server serverId s.nextGeneration
  todo := [.send s.conns.length (encodeCtrlFrame .serverRegisterOk) true]

/-- The registry with a new server. -/
def registered (s : Relay) (serverId : ServerId) : Relay :=
  { s with
    servers := s.servers.insert serverId { tx := s.conns.length, generation := s.nextGeneration }
    nextGeneration := s.nextGeneration + 1 }

theorem runServerSide_cases (s : Relay) (first : List UInt8) (admitted : Bool) :
    s.runServerSide first admitted = s ∨
    ∃ serverId, s.servers.lookup serverId = none ∧
      s.runServerSide first admitted = (s.registered serverId).accept (s.serverConn serverId) := by
  unfold runServerSide
  split
  · next serverId _ _ _ =>
    split
    · unfold register
      cases hl : s.servers.lookup serverId with
      | some _ => exact .inl rfl
      | none => exact .inr ⟨serverId, hl, rfl⟩
    · exact .inl rfl
  · exact .inl rfl

/-- The pair of a client that connects to the server in `slot`. -/
def newPair (s : Relay) (target : ServerId) (slot : StoredServerSlot) (pairId : PairId) (now : Nat) : Pair :=
  { pairId, serverId := target, lastProgress := now, serverTx := slot.tx, clientTx := s.conns.length }

/-- The connection of that client. -/
def clientConn (s : Relay) (target : ServerId) (slot : StoredServerSlot) (pairId : PairId) (now : Nat) : Conn where
  role := .client pairId target slot.tx
  todo := [
    .insertPair (s.newPair target slot pairId now),
    .send slot.tx (encodeCtrlFrame (.pairInbound pairId)) true,
    .send s.conns.length (encodeCtrlFrame (.pairOpen pairId)) true]

theorem runClientSide_cases (s : Relay) (target : ServerId) (first : List UInt8) (admitted : Bool) (pairId : PairId)
    (now : Nat) :
    s.runClientSide target first admitted pairId now = s ∨
    ∃ slot, s.servers.lookup target = some slot ∧
      s.runClientSide target first admitted pairId now = s.accept (s.clientConn target slot pairId now) := by
  unfold runClientSide
  split
  · split
    · cases hl : s.servers.lookup target with
      | none => exact .inl rfl
      | some slot => exact .inr ⟨slot, rfl, rfl⟩
    · exact .inl rfl
  · exact .inl rfl

theorem Roles.accept {conn : Conn} (h : Roles s.role)
    (hclient : ∀ {pairId serverId tx}, conn.role = .client pairId serverId tx →
      (∃ g, s.role tx = some (.server serverId g)) ∧ s.fresh pairId) : Roles (s.accept conn).role := by
  have hnew : ∀ {i pairId serverId tx}, s.role i = some (.client pairId serverId tx) → ¬s.fresh pairId := by
    intro i pairId serverId tx hi hfresh
    obtain ⟨k, hk, hr⟩ := Option.map_eq_some_iff.mp hi
    have := hfresh k (List.mem_of_getElem? hk)
    rw [hr] at this
    exact this rfl
  refine ⟨?_, ?_⟩
  · intro i pairId serverId tx hi
    rcases of_role_accept hi with hi | ⟨_, hr⟩
    · obtain ⟨g, hg⟩ := h.client hi
      exact ⟨g, role_accept hg⟩
    · obtain ⟨⟨g, hg⟩, _⟩ := hclient hr.symm
      exact ⟨g, role_accept hg⟩
  · intro i j pairId serverId tx serverId' tx' hi hj
    rcases of_role_accept hi with hi | ⟨hi, hri⟩
    · rcases of_role_accept hj with hj | ⟨_, hrj⟩
      · exact h.unique hi hj
      · exact absurd (hclient hrj.symm).2 (hnew hi)
    · rcases of_role_accept hj with hj | ⟨hj, _⟩
      · exact absurd (hclient hri.symm).2 (hnew hj)
      · rw [hi, hj]

/-- A server that registers. -/
theorem Wf.registered (h : Wf s) {serverId : ServerId} (hnone : s.servers.lookup serverId = none) :
    Wf ((s.registered serverId).accept (s.serverConn serverId)) := by
  have hmono : ∀ {i r}, s.role i = some r →
      ((s.registered serverId).accept (s.serverConn serverId)).role i = some r := fun hi => role_accept hi
  refine ⟨?_, ?_⟩
  · refine Roles.accept h.roles ?_
    intro _ _ _ hr
    cases hr
  · refine ⟨?_, fun hl => (h.rooted.mono hmono).pairs hl, ?_, fun hm => (h.rooted.mono hmono).sweeper hm⟩
    · intro id slot hl
      by_cases hid : id = serverId
      · subst hid
        simp only [accept, Relay.registered, AList.lookup_insert, Option.some.injEq] at hl
        subst hl
        exact ⟨_, role_accept_self (s.registered id) (s.serverConn id)⟩
      · simp only [accept, Relay.registered, AList.lookup_insert_ne hid] at hl
        exact (h.rooted.mono hmono).registry hl
    · have hold : Rooted ((s.registered serverId).accept (s.serverConn serverId)).role s := h.rooted.mono hmono
      have hacc : Rooted _ (s.accept (s.serverConn serverId)) := hold.accept fun hm => by simp [serverConn] at hm
      intro i conn pair hi hm
      exact hacc.todo hi hm

/-- A client that connects to a registered server. -/
theorem Wf.connected (h : Wf s) {target : ServerId} {slot : StoredServerSlot} {pairId : PairId} (now : Nat)
    (hslot : s.servers.lookup target = some slot) (hfresh : s.fresh pairId) :
    Wf (s.accept (s.clientConn target slot pairId now)) := by
  obtain ⟨g, hg⟩ := h.rooted.registry hslot
  refine ⟨?_, (h.rooted.mono role_accept).accept ?_⟩
  · refine h.roles.accept ?_
    intro _ _ _ hr
    cases hr
    exact ⟨⟨g, hg⟩, hfresh⟩
  · intro pair hm
    simp only [clientConn, List.mem_cons, Op.insertPair.injEq, reduceCtorEq, List.not_mem_nil, or_false] at hm
    subst hm
    exact role_accept_self s _

/-- **Every move keeps the invariant.** -/
theorem Wf.step {move : Move} (h : Wf s) (hs : s.step move = some t) : Wf t := by
  have hold : (∀ first admitted, move ≠ .server first admitted) →
      (∀ target first admitted pairId now, move ≠ .client target first admitted pairId now) → Wf t := by
    intro hserver hclient
    obtain ⟨hr, hrole⟩ := step_rooted_of_old h.rooted hs hserver hclient
    rw [← hrole] at hr
    exact ⟨hrole ▸ h.roles, hr⟩
  cases move with
  | server first admitted =>
    cases hs
    obtain he | ⟨serverId, hnone, he⟩ := s.runServerSide_cases first admitted
    · rwa [he]
    · rw [he]
      exact h.registered hnone
  | client target first admitted pairId now =>
    simp only [Relay.step] at hs
    split at hs
    · next hfresh =>
      cases hs
      obtain he | ⟨slot, hslot, he⟩ := s.runClientSide_cases target first admitted pairId now
      · rwa [he]
      · rw [he]
        exact h.connected now hslot hfresh
    · cases hs
  | read | advance | finish | write | sweep | sweepAdvance =>
    apply hold
    · intros
      exact Move.noConfusion
    · intros
      exact Move.noConfusion

/-- The relay with no connection. -/
theorem wf_empty (idleThreshold : Nat) : Wf { idleThreshold } where
  roles := ⟨fun h => by simp [role] at h, fun h => by simp [role] at h⟩
  rooted := ⟨fun h => (by cases h), fun h => (by cases h), fun h => (by simp at h), fun h => (by cases h)⟩

/-- **Every reachable state has the invariant.** -/
theorem reachable_wf {idleThreshold : Nat} (h : Steps.Reachable step { idleThreshold } s) : Wf s :=
  h.invariant (wf_empty idleThreshold) fun _ _ _ hw hs => hw.step hs

end Relay

end CliPocket
