import CliPocket.Relay.Tables

/-!
# What one side of a relay pair can reach

- `Region`: pairs that a task may close and queues that it may fill; `Region.Isolated s t`: a step keeps to it;
- `perform_isolated`: an operation within a region is isolated, and so is what it leaves to do;
- `keeps_step`: whatever the other tasks do, a task with operations within a region keeps them;
- `server_frame_isolated`, `client_frame_isolated`: **a frame is handled in isolation, from the reading to the last of
  its operations, exactly when it does not close the pair of another.**
-/

namespace CliPocket

namespace Relay

/-! ## Regions -/

/-- Roles are added, never changed. -/
def Grows (R R' : RoleMap) : Prop := ∀ i r, R i = some r → R' i = some r

def closeFrame (pairId : PairId) (reason : PairCloseReason) : ServerMsg := encodeCtrlFrame (.pairClose pairId reason)

structure Region where
  closes : RoleMap → PairId → Prop
  receives : RoleMap → ConnId → ServerMsg → Prop
  cleansUp : ServerId → Prop
  closes_mono : ∀ {R R' pairId}, Grows R R' → closes R pairId → closes R' pairId
  receives_mono : ∀ {R R' i msg}, Grows R R' → receives R i msg → receives R' i msg
  ends : ∀ {R pair}, Roles R → PairAt R pair → closes R pair.pairId → ∀ reason,
    receives R pair.serverTx (closeFrame pair.pairId reason) ∧ receives R pair.clientTx (closeFrame pair.pairId reason)
  owns : ∀ {R pair}, PairAt R pair → cleansUp pair.serverId → closes R pair.pairId

/-- The pairs of a server; the server itself and the clients of these pairs. -/
def Region.server (serverId : ServerId) : Region where
  closes R pairId := ∃ i tx, R i = some (.client pairId serverId tx)
  receives R i _ := ∃ who, R i = some who ∧ who.serverId = serverId
  cleansUp id := id = serverId
  closes_mono := by
    rintro R R' pairId hR ⟨i, tx, hi⟩
    exact ⟨i, tx, hR _ _ hi⟩
  receives_mono := by
    rintro R R' i msg hR ⟨who, hi, hid⟩
    exact ⟨who, hR _ _ hi, hid⟩
  ends := by
    rintro R pair hroles hpair ⟨i, tx, hi⟩ reason
    obtain rfl := hroles.unique hpair hi
    rw [PairAt, hi] at hpair
    simp only [Option.some.injEq, Role.client.injEq, true_and] at hpair
    obtain ⟨rfl, rfl⟩ := hpair
    obtain ⟨g, hg⟩ := hroles.client hi
    exact ⟨⟨_, hg, rfl⟩, ⟨_, hi, rfl⟩⟩
  owns := by
    rintro R pair hpair rfl
    exact ⟨_, _, hpair⟩

/-- A frame that speaks of this pair. -/
def InNameOf (pairId : PairId) (msg : ServerMsg) : Prop :=
  (∃ reason, msg = closeFrame pairId reason) ∨ ∃ bytes, msg = encodeDataFrame (.forward pairId bytes)

/-- One pair; its client, and servers as far as they hear of this pair. -/
def Region.pair (p : PairId) : Region where
  closes _ pairId := pairId = p
  receives R i msg := InNameOf p msg ∧ ((∃ serverId g, R i = some (.server serverId g)) ∨
    ∃ serverId tx, R i = some (.client p serverId tx))
  cleansUp _ := False
  closes_mono _ h := h
  receives_mono := by
    rintro R R' i msg hR ⟨hname, ⟨serverId, g, hi⟩ | ⟨serverId, tx, hi⟩⟩
    · exact ⟨hname, .inl ⟨serverId, g, hR _ _ hi⟩⟩
    · exact ⟨hname, .inr ⟨serverId, tx, hR _ _ hi⟩⟩
  ends := by
    rintro R pair hroles hpair rfl reason
    obtain ⟨g, hg⟩ := hroles.client hpair
    exact ⟨⟨.inl ⟨reason, rfl⟩, .inl ⟨_, g, hg⟩⟩, ⟨.inl ⟨reason, rfl⟩, .inr ⟨_, _, hpair⟩⟩⟩
  owns _ h := h.elim

/-- A step that changes no pair and fills no queue outside of the region. -/
structure Region.Isolated (G : Region) (s t : Relay) : Prop where
  pairs : ∀ pairId, ¬G.closes s.role pairId → t.pairs.lookup pairId = s.pairs.lookup pairId
  queues : ∀ i, t.channel i = s.channel i ∨ ∃ msg old new, G.receives s.role i msg ∧
    s.channel i = some old ∧ old.send msg = .sent new ∧ t.channel i = some new

/-- An operation that stays in the region. -/
def Region.Allows (G : Region) (R : RoleMap) : Op → Prop
  | .send tx msg _ => G.receives R tx msg
  | .insertPair _ => False
  | .closePair pairId _ => G.closes R pairId
  | .closePairsOf serverId => G.cleansUp serverId
  | .removePair _ => False

variable {G : Region} {s t : Relay}

theorem Region.Allows.mono {R R' : RoleMap} (hR : Grows R R') {op : Op} (h : G.Allows R op) : G.Allows R' op := by
  cases op with
  | send tx msg required => exact G.receives_mono hR h
  | insertPair pair => exact h
  | closePair pairId reason => exact G.closes_mono hR h
  | closePairsOf serverId => exact h
  | removePair pairId => exact h

theorem Region.Isolated.refl (s : Relay) : G.Isolated s s := ⟨fun _ _ => rfl, fun _ => .inl rfl⟩

/-- A step that touches neither pairs nor queues is isolated. -/
theorem Region.Isolated.of_eq (hpairs : t.pairs = s.pairs) (hqueues : ∀ i, t.channel i = s.channel i) : G.Isolated s t :=
  ⟨fun _ _ => by rw [hpairs], fun i => .inl (hqueues i)⟩

theorem Region.Isolated.trans_of_eq {u : Relay} (h : G.Isolated s t) (hpairs : u.pairs = t.pairs)
    (hqueues : ∀ i, u.channel i = t.channel i) : G.Isolated s u := by
  refine ⟨fun pairId hp => ?_, fun i => ?_⟩
  · rw [hpairs]
    exact h.pairs pairId hp
  · rw [hqueues]
    exact h.queues i

/-! ## Operations in a region -/

/-- `close_pair` of a pair of the region. -/
theorem closePair_isolated (hw : Wf s) {pairId : PairId} (hp : G.closes s.role pairId) (reason : PairCloseReason) :
    G.Isolated s (s.closePair pairId reason).1 ∧ ∀ op ∈ (s.closePair pairId reason).2, G.Allows s.role op := by
  obtain ⟨_, hc⟩ | ⟨pair, hl, hc⟩ := s.closePair_cases pairId reason
  · rw [hc]
    exact ⟨.refl s, fun _ hm => absurd hm List.not_mem_nil⟩
  · rw [hc]
    obtain ⟨rfl, hat⟩ := hw.rooted.pairs hl
    obtain ⟨hserver, hclient⟩ := G.ends hw.roles hat hp reason
    refine ⟨⟨?_, fun _ => .inl rfl⟩, ?_⟩
    · intro id hid
      exact AList.lookup_erase_ne fun he => hid (he ▸ hp)
    · intro op hm
      simp only [List.mem_cons, List.not_mem_nil, or_false] at hm
      rcases hm with rfl | rfl
      · exact hserver
      · exact hclient

theorem mem_pairsOf (hw : Wf s) {serverId : ServerId} {pairId : PairId} (h : pairId ∈ s.pairsOf serverId) :
    ∃ pair, PairAt s.role pair ∧ pair.pairId = pairId ∧ pair.serverId = serverId := by
  unfold pairsOf at h
  obtain ⟨⟨key, pair⟩, hm, rfl⟩ := List.mem_map.mp h
  obtain ⟨hm, hid⟩ := List.mem_filter.mp hm
  have hl : s.pairs.lookup key = some pair := AList.mem_lookup_iff.mpr hm
  exact ⟨pair, (hw.rooted.pairs hl).2, rfl, of_decide_eq_true hid⟩

/-- **An operation of the region is isolated, and leaves operations of the region.** -/
theorem perform_isolated (hw : Wf s) {op : Op} {outcome : Outcome} (hop : G.Allows s.role op)
    (hs : s.perform op = some (t, outcome)) :
    G.Isolated s t ∧ ∀ more, outcome = .done more → ∀ op ∈ more, G.Allows s.role op := by
  cases op with
  | send tx msg required =>
    simp only [perform] at hs
    split at hs
    · cases hs
    · next target htx =>
      split at hs
      · next new hsent =>
        cases hs
        refine ⟨⟨fun _ _ => rfl, fun i => ?_⟩, ?_⟩
        · by_cases hi : tx = i
          · subst hi
            refine .inr ⟨msg, target.channel, new, hop, ?_, hsent, ?_⟩
            · rw [channel, htx, Option.map_some]
            · simp [channel, mapConn, htx]
          · exact .inl (by simp [channel, mapConn, hi])
        · rintro more ⟨⟩ op hm
          exact absurd hm List.not_mem_nil
      · cases hs
      · cases hs
        refine ⟨.refl s, ?_⟩
        intro more hmore op hm
        split at hmore
        · cases hmore
        · cases hmore
          exact absurd hm List.not_mem_nil
  | insertPair pair => exact hop.elim
  | closePair pairId reason =>
    cases hs
    obtain ⟨hiso, hall⟩ := closePair_isolated hw hop reason
    refine ⟨hiso, ?_⟩
    rintro more ⟨⟩
    exact hall
  | closePairsOf serverId =>
    cases hs
    refine ⟨.refl s, ?_⟩
    rintro more ⟨⟩ op hm
    obtain ⟨pairId, hid, rfl⟩ := List.mem_map.mp hm
    obtain ⟨pair, hat, rfl, rfl⟩ := mem_pairsOf hw hid
    exact G.owns hat hop
  | removePair pairId => exact hop.elim

/-! ## A task that keeps to its region -/

/-- All that the task has left to do, its clean-up included, is in the region. -/
def Region.Keeps (G : Region) (s : Relay) (c : ConnId) : Prop :=
  ∃ conn, s.conns[c]? = some conn ∧ ∀ op ∈ conn.todo ++ Role.farewell c conn.role, G.Allows s.role op

theorem channel_fail (s : Relay) (c : ConnId) (conn : Conn) (error : RelayError) (i : ConnId) :
    (s.fail c conn error).channel i = s.channel i := by
  unfold Relay.fail
  split
  · rw [channel_mapConn]
    · simp only [channel, conns_unregister]
    · intro _
      rfl
  · apply channel_mapConn
    intro _
    rfl
  · apply channel_mapConn
    intro _
    rfl

theorem pairs_fail (s : Relay) (c : ConnId) (conn : Conn) (error : RelayError) : (s.fail c conn error).pairs = s.pairs := by
  unfold Relay.fail
  split
  · rw [pairs_mapConn, pairs_unregister]
  · rfl
  · rfl

theorem channel_settle (s : Relay) (c : ConnId) (conn : Conn) (flow : Flow) (i : ConnId) :
    (s.settle c conn flow).channel i = s.channel i := by
  cases flow with
  | next todo | stop todo =>
    apply channel_mapConn
    intro _
    rfl
  | fail error => exact channel_fail _ _ _ _ _

theorem pairs_settle (s : Relay) (c : ConnId) (conn : Conn) (flow : Flow) : (s.settle c conn flow).pairs = s.pairs := by
  cases flow with
  | next todo => rfl
  | stop todo => rfl
  | fail error => exact pairs_fail _ _ _ _

/-- **The next step of a task that keeps to its region is isolated.** -/
theorem own_step_isolated (hw : Wf s) {c : ConnId} (hk : G.Keeps s c) {move : Move}
    (hmove : move = .advance c ∨ move = .finish c) (hs : s.step move = some t) : G.Isolated s t := by
  obtain ⟨conn, hc, hall⟩ := hk
  rcases hmove with rfl | rfl
  · simp only [step, hc] at hs
    split at hs
    · cases hs
    · next op rest htodo =>
      have hop : G.Allows s.role op := hall op (by rw [htodo]; exact List.mem_cons_self)
      split at hs
      · cases hs
      · next u more hu =>
        cases hs
        apply (perform_isolated hw hop hu).1.trans_of_eq
        · rfl
        · apply channel_mapConn
          intro _
          rfl
      · next u error hu =>
        cases hs
        exact (perform_isolated hw hop hu).1.trans_of_eq (pairs_fail _ _ _ _) fun i => channel_fail _ _ _ _ _
  · obtain ⟨_, _, ⟨_, _, _, _, _, _, rfl⟩ | ⟨_, _, _, _, _, _, _, rfl⟩ | ⟨_, _, _, rfl⟩⟩ := step_finish hs
    · refine .of_eq (pairs_unregister _ _ _) fun i => ?_
      rw [channel_mapConn]
      · simp only [channel, conns_unregister]
      · intro _
        rfl
    · apply Region.Isolated.of_eq
      · rfl
      · apply channel_mapConn
        intro _
        rfl
    · apply Region.Isolated.of_eq
      · rfl
      · apply channel_mapConn
        intro _
        rfl

/-! ## Other tasks do not interfere -/

/-- The task at `c` has the same operations left, and is where it was or at its end. -/
def SameTask (s t : Relay) (c : ConnId) : Prop :=
  ∀ conn, s.conns[c]? = some conn → ∃ conn', t.conns[c]? = some conn' ∧ conn'.role = conn.role ∧
    conn'.todo = conn.todo ∧ (conn'.phase = conn.phase ∨ ∃ result, conn'.phase = .ended result)

theorem SameTask.of_conns {c : ConnId} (h : t.conns = s.conns) : SameTask s t c := by
  intro conn hc
  exact ⟨conn, h ▸ hc, rfl, rfl, .inl rfl⟩

theorem SameTask.trans {u : Relay} {c : ConnId} (h : SameTask s t c) (h' : SameTask t u c) : SameTask s u c := by
  intro conn hc
  obtain ⟨conn', hc', hrole, htodo, hphase⟩ := h conn hc
  obtain ⟨conn'', hc'', hrole', htodo', hphase'⟩ := h' conn' hc'
  refine ⟨conn'', hc'', hrole'.trans hrole, htodo'.trans htodo, ?_⟩
  rcases hphase' with hphase' | hended
  · rw [hphase']
    exact hphase
  · exact .inr hended

theorem SameTask.mapConn_ne {c c' : ConnId} (hne : c' ≠ c) (f : Conn → Conn) : SameTask s (s.mapConn c' f) c := by
  intro conn hc
  exact ⟨conn, getElem?_mapConn.mpr ⟨conn, hc, by rw [if_neg hne]⟩, rfl, rfl, .inl rfl⟩

theorem SameTask.mapConn {c c' : ConnId} {f : Conn → Conn} (hrole : ∀ k, (f k).role = k.role)
    (htodo : ∀ k, (f k).todo = k.todo) (hphase : ∀ k, (f k).phase = k.phase ∨ ∃ result, (f k).phase = .ended result) :
    SameTask s (s.mapConn c' f) c := by
  intro conn hc
  refine ⟨_, getElem?_mapConn.mpr ⟨conn, hc, rfl⟩, ?_⟩
  split
  · exact ⟨hrole conn, htodo conn, hphase conn⟩
  · exact ⟨rfl, rfl, .inl rfl⟩

theorem SameTask.fail {c c' : ConnId} (hne : c' ≠ c) (conn : Conn) (error : RelayError) :
    SameTask s (s.fail c' conn error) c := by
  unfold Relay.fail
  split
  · exact (SameTask.of_conns (conns_unregister _ _ _)).trans (.mapConn_ne hne _)
  · exact .mapConn_ne hne _
  · exact .mapConn_ne hne _

theorem SameTask.settle {c c' : ConnId} (hne : c' ≠ c) (conn : Conn) (flow : Flow) :
    SameTask s (s.settle c' conn flow) c := by
  cases flow with
  | next todo => exact .mapConn_ne hne _
  | stop todo => exact .mapConn_ne hne _
  | fail error => exact .fail hne _ _

theorem SameTask.perform {c : ConnId} {op : Op} {outcome : Outcome} (hs : s.perform op = some (t, outcome)) :
    SameTask s t c := by
  cases op with
  | send tx msg required =>
    simp only [Relay.perform] at hs
    split at hs
    · cases hs
    · split at hs
      · cases hs
        apply SameTask.mapConn
        · intro _
          rfl
        · intro _
          rfl
        · intro _
          exact .inl rfl
      · cases hs
      · cases hs
        exact .of_conns rfl
  | insertPair pair =>
    cases hs
    exact .of_conns rfl
  | closePair pairId reason =>
    cases hs
    exact .of_conns (conns_closePair _ _ _)
  | closePairsOf serverId =>
    cases hs
    exact .of_conns rfl
  | removePair pairId =>
    cases hs
    exact .of_conns rfl

/-- The task at `c` reads a message. -/
def Move.reads (c : ConnId) (move : Move) : Prop := ∃ msg now, move = .read c msg now

/-- A move of another task, or of a writer. -/
theorem SameTask.step {c : ConnId} {move : Move} (hs : s.step move = some t) (hread : ¬move.reads c)
    (hadvance : move ≠ .advance c) : SameTask s t c := by
  have haccept : ∀ (u : Relay) (conn : Conn), u.conns = s.conns → SameTask s (u.accept conn) c := by
    intro u new hu conn hc
    refine ⟨conn, ?_, rfl, rfl, .inl rfl⟩
    rw [← hu] at hc
    simp only [accept]
    rw [List.getElem?_append_left (List.getElem?_eq_some_iff.mp hc).1, hc]
  cases move with
  | server first admitted =>
    cases hs
    obtain he | ⟨serverId, _, he⟩ := s.runServerSide_cases first admitted
    · exact .of_conns (by rw [he])
    · rw [he]
      exact haccept (s.registered serverId) _ rfl
  | client target first admitted pairId now =>
    simp only [Relay.step] at hs
    split at hs
    · cases hs
      obtain he | ⟨slot, _, he⟩ := s.runClientSide_cases target first admitted pairId now
      · exact .of_conns (by rw [he])
      · rw [he]
        exact haccept s _ rfl
    · cases hs
  | read c' msg now =>
    have hne : c' ≠ c := fun he => hread ⟨msg, now, by rw [he]⟩
    simp only [Relay.step] at hs
    split at hs
    · cases hs
    · split at hs
      · cases hs
        exact (SameTask.of_conns (turn_conns _ _ _ _ _)).trans (.settle hne _ _)
      · cases hs
        exact (SameTask.of_conns (turn_conns _ _ _ _ _)).trans (.settle hne _ _)
      · cases hs
  | advance c' =>
    have hne : c' ≠ c := fun he => hadvance (by rw [he])
    simp only [Relay.step] at hs
    split at hs
    · cases hs
    · split at hs
      · cases hs
      · split at hs
        · cases hs
        · next u more hu =>
          cases hs
          exact (SameTask.perform hu).trans (.mapConn_ne hne _)
        · next u error hu =>
          cases hs
          exact (SameTask.perform hu).trans (.fail hne _ _)
  | finish c' =>
    obtain ⟨_, _, ⟨_, _, _, _, _, _, rfl⟩ | ⟨_, _, _, _, _, _, _, rfl⟩ | ⟨_, _, _, rfl⟩⟩ := step_finish hs
    · apply SameTask.trans (SameTask.of_conns (conns_unregister _ _ _))
      apply SameTask.mapConn
      · intro _
        rfl
      · intro _
        rfl
      · intro _
        exact .inr ⟨_, rfl⟩
    · apply SameTask.mapConn
      · intro _
        rfl
      · intro _
        rfl
      · intro _
        exact .inr ⟨_, rfl⟩
    · apply SameTask.mapConn
      · intro _
        rfl
      · intro _
        rfl
      · intro _
        exact .inl rfl
  | write c' ok =>
    simp only [Relay.step] at hs
    split at hs
    · cases hs
    · obtain ⟨⟨channel, written⟩, _, rfl⟩ := Option.map_eq_some_iff.mp hs
      apply SameTask.mapConn
      · intro _
        rfl
      · intro _
        rfl
      · intro _
        exact .inl rfl
  | sweep now =>
    simp only [Relay.step] at hs
    split at hs
    · cases hs
      exact .of_conns rfl
    · cases hs
  | sweepAdvance =>
    simp only [Relay.step] at hs
    split at hs
    · cases hs
    · split at hs
      · next u more hu =>
        cases hs
        exact (SameTask.perform hu).trans (.of_conns rfl)
      · cases hs

theorem grows_step {move : Move} (hw : Wf s) (hs : s.step move = some t) : Grows s.role t.role := by
  have hold : (∀ first admitted, move ≠ .server first admitted) →
      (∀ target first admitted pairId now, move ≠ .client target first admitted pairId now) → Grows s.role t.role := by
    intro hserver hclient i r hi
    rw [(step_rooted_of_old hw.rooted hs hserver hclient).2]
    exact hi
  cases move with
  | server first admitted =>
    cases hs
    obtain he | ⟨serverId, _, he⟩ := s.runServerSide_cases first admitted
    · rw [he]
      exact fun _ _ hi => hi
    · rw [he]
      exact fun _ _ hi => role_accept hi
  | client target first admitted pairId now =>
    simp only [Relay.step] at hs
    split at hs
    · cases hs
      obtain he | ⟨slot, _, he⟩ := s.runClientSide_cases target first admitted pairId now
      · rw [he]
        exact fun _ _ hi => hi
      · rw [he]
        exact fun _ _ hi => role_accept hi
    · cases hs
  | read | advance | finish | write | sweep | sweepAdvance =>
    apply hold
    · intros
      exact Move.noConfusion
    · intros
      exact Move.noConfusion

/-- What is left after an error is at most the clean-up. -/
theorem fail_keeps {c : ConnId} {conn k : Conn} (error : RelayError) (hc : s.conns[c]? = some k)
    (hrole : k.role = conn.role) (hall : ∀ op ∈ Role.farewell c conn.role, G.Allows s.role op) :
    G.Keeps (s.fail c conn error) c := by
  have hleft : ∃ conn', (s.fail c conn error).conns[c]? = some conn' ∧
      ∀ op ∈ conn'.todo ++ Role.farewell c conn'.role, G.Allows s.role op := by
    unfold Relay.fail
    split
    · refine ⟨_, getElem?_mapConn.mpr ⟨k, by rw [conns_unregister]; exact hc, rfl⟩, ?_⟩
      simpa [hrole] using hall
    · refine ⟨_, getElem?_mapConn.mpr ⟨k, hc, rfl⟩, ?_⟩
      simpa [hrole] using hall
    · next pairId _ _ hclient _ =>
      refine ⟨_, getElem?_mapConn.mpr ⟨k, hc, rfl⟩, ?_⟩
      have hclose : G.closes s.role pairId := hall (.closePair pairId .clientGone) (by simp [hclient, Role.farewell])
      intro op hm
      simp only [if_pos, hrole, List.cons_append, List.nil_append, List.mem_cons] at hm
      rcases hm with rfl | hm
      · exact hclose
      · exact hall op hm
  obtain ⟨conn', hc', hall'⟩ := hleft
  refine ⟨conn', hc', ?_⟩
  rw [role_fail]
  exact hall'

/-- **A task that keeps to its region goes on doing so until it reads again.** -/
theorem keeps_step {c : ConnId} {move : Move} (hw : Wf s) (hk : G.Keeps s c) (hs : s.step move = some t)
    (hread : ¬move.reads c) : G.Keeps t c := by
  have hgrows := grows_step hw hs
  obtain ⟨conn, hc, hall⟩ := hk
  by_cases hmove : move = .advance c
  · subst hmove
    have hfarewell : ∀ op ∈ Role.farewell c conn.role, G.Allows s.role op :=
      fun op hm => hall op (List.mem_append_right _ hm)
    simp only [step, hc] at hs
    split at hs
    · cases hs
    · next op rest htodo =>
      have hop : G.Allows s.role op := hall op (by rw [htodo]; exact List.mem_cons_self)
      split at hs
      · cases hs
      · next u more hu =>
        cases hs
        obtain ⟨conn', hc', hrole, _⟩ := SameTask.perform hu conn hc
        refine ⟨_, getElem?_mapConn.mpr ⟨conn', hc', rfl⟩, ?_⟩
        intro op hm
        apply Region.Allows.mono hgrows
        simp only [if_pos, hrole, List.append_assoc, List.mem_append] at hm
        rcases hm with hm | hm | hm
        · exact (perform_isolated hw hop hu).2 more rfl op hm
        · exact hall op (by rw [htodo]; simp [hm])
        · exact hfarewell op hm
      · next u error hu =>
        cases hs
        obtain ⟨conn', hc', hrole, _⟩ := SameTask.perform hu conn hc
        have hrole' : u.role = s.role := by
          have hno : ∀ pair, op = .insertPair pair → PairAt s.role pair := fun pair hp => by
            rw [hp] at hop
            exact hop.elim
          exact (perform_rooted hw.rooted hno hu).2.1
        rw [← hrole'] at hfarewell
        exact fail_keeps error hc' hrole hfarewell
  · obtain ⟨conn', hc', hrole, htodo, _⟩ := SameTask.step hs hread hmove conn hc
    refine ⟨conn', hc', ?_⟩
    rw [hrole, htodo]
    exact fun op hm => (hall op hm).mono hgrows

/-! ## A frame, from the reading on -/

/-- The handling of a message keeps to `Iso`: the reading itself, and what the task does until it reads again, at
whatever point of a run and whatever the others do in between. -/
def Handled (Iso : Relay → Relay → Prop) (s : Relay) (c : ConnId) (msg : Incoming) (now : Nat) : Prop :=
  ∀ t, s.step (.read c msg now) = some t → Iso s t ∧
    ∀ moves u v move, Steps.run step t moves = some u → (∀ m ∈ moves, ¬m.reads c) →
      move = .advance c ∨ move = .finish c → u.step move = some v → Iso u v

theorem Handled.mono {Iso Iso' : Relay → Relay → Prop} {c : ConnId} {msg : Incoming} {now : Nat} (hw : Wf s)
    (h : Handled Iso s c msg now)
    (himp : ∀ {u v move}, Wf u → u.step move = some v → Iso u v → Iso' u v) :
    Handled Iso' s c msg now := by
  intro t ht
  obtain ⟨hread, hrest⟩ := h t ht
  refine ⟨himp hw ht hread, ?_⟩
  intro moves u v move hr hm hmove hs
  have hwu : Wf u := Steps.run_invariant (fun _ _ _ hw _ hs => hw.step hs) (Steps.meets_true moves t) hr (hw.step ht)
  exact himp hwu hs (hrest moves u v move hr hm hmove hs)

/-- **A turn of the read loop within a region is handled within it.** -/
theorem handled_of_turn (hw : Wf s) {c : ConnId} {conn : Conn} {msg : Incoming} {now : Nat}
    (hc : s.conns[c]? = some conn) (hiso : G.Isolated s (s.turn c conn.role msg now).1)
    (hops : ∀ op ∈ (s.turn c conn.role msg now).2.ops, G.Allows s.role op)
    (hfarewell : ∀ op ∈ Role.farewell c conn.role, G.Allows s.role op) : Handled G.Isolated s c msg now := by
  intro t ht
  have hgrows := grows_step hw ht
  have htc : t = (s.turn c conn.role msg now).1.settle c conn (s.turn c conn.role msg now).2 := by
    simp only [step, hc] at ht
    split at ht
    · exact (Option.some.inj ht).symm
    · exact (Option.some.inj ht).symm
    · cases ht
  have hconn : (s.turn c conn.role msg now).1.conns[c]? = some conn := by rw [turn_conns, hc]
  have hrole : (s.turn c conn.role msg now).1.role = s.role := by
    funext i
    simp only [role, turn_conns]
  refine ⟨?_, ?_⟩
  · rw [htc]
    exact hiso.trans_of_eq (pairs_settle _ _ _ _) fun i => channel_settle _ _ _ _ _
  have hkeeps : G.Keeps t c := by
    rw [htc]
    have hmono : ∀ op, G.Allows s.role op → G.Allows t.role op := fun op => Region.Allows.mono hgrows
    cases hflow : (s.turn c conn.role msg now).2 with
    | next todo =>
      rw [hflow] at hops
      refine ⟨_, getElem?_mapConn.mpr ⟨conn, hconn, rfl⟩, ?_⟩
      rw [← hflow, ← htc]
      intro op hm
      simp only [if_pos, List.mem_append] at hm
      apply hmono
      rcases hm with hm | hm
      · exact hops op hm
      · exact hfarewell op hm
    | stop todo =>
      rw [hflow] at hops
      refine ⟨_, getElem?_mapConn.mpr ⟨conn, hconn, rfl⟩, ?_⟩
      rw [← hflow, ← htc]
      intro op hm
      simp only [if_pos, List.mem_append] at hm
      apply hmono
      rcases hm with (hm | hm) | hm
      · exact hops op hm
      · exact hfarewell op hm
      · exact hfarewell op hm
    | fail error =>
      rw [← hrole] at hfarewell
      exact fail_keeps error hconn rfl hfarewell
  intro moves u v move hr hm hmove hs
  have hinv : Wf u ∧ G.Keeps u c := by
    refine Steps.run_invariant (I := fun a => Wf a ∧ G.Keeps a c) ?_ (Steps.meets_of_forall hm) hr ⟨hw.step ht, hkeeps⟩
    rintro a m b ⟨hwa, hka⟩ hm hab
    exact ⟨hwa.step hab, keeps_step hwa hka hab hm⟩
  exact own_step_isolated hinv.1 hinv.2 hmove hs

theorem touch_isolated {pairId : PairId} (hp : G.closes s.role pairId) (now : Nat) : G.Isolated s (s.touch pairId now) := by
  refine ⟨?_, ?_⟩
  · intro id hid
    exact lookup_touch_ne fun he => hid (he ▸ hp)
  · intro i
    exact .inl (by simp only [channel, conns_touch])

/-! ## Frames of a server -/

/-- `PairClose` for a pair of another server. -/
def ClosesForeign (s : Relay) (serverId : ServerId) (msg : Incoming) : Prop :=
  ∃ bytes pairId reason pair, msg = .binary bytes ∧ decodeRelay bytes = .ok (.ctrl (.pairClose pairId reason)) ∧
    s.pairs.lookup pairId = some pair ∧ pair.serverId ≠ serverId

/-- Only pairs of the server change, and only it and the clients of its pairs receive anything. -/
structure OnlyServer (serverId : ServerId) (s t : Relay) : Prop where
  kept : ∀ pairId pair, s.pairs.lookup pairId = some pair → pair.serverId ≠ serverId →
    t.pairs.lookup pairId = some pair
  new : ∀ pairId pair, t.pairs.lookup pairId = some pair → pair.serverId ≠ serverId →
    s.pairs.lookup pairId = some pair
  queues : ∀ i who, s.role i = some who → who.serverId ≠ serverId → t.channel i = s.channel i

theorem serverId_of_closes (hroles : Roles s.role) {serverId : ServerId} {pair : Pair} (hat : PairAt s.role pair)
    (h : (Region.server serverId).closes s.role pair.pairId) : pair.serverId = serverId := by
  obtain ⟨i, tx, hi⟩ := h
  obtain rfl := hroles.unique hat hi
  rw [PairAt, hi] at hat
  cases hat
  rfl

theorem OnlyServer.of_isolated {serverId : ServerId} (hw : Wf s) (hwt : Wf t) (hgrows : Grows s.role t.role)
    (h : (Region.server serverId).Isolated s t) : OnlyServer serverId s t := by
  refine ⟨?_, ?_, ?_⟩
  · intro pairId pair hl hne
    obtain ⟨rfl, hat⟩ := hw.rooted.pairs hl
    rw [h.pairs pair.pairId fun hc => hne (serverId_of_closes hw.roles hat hc), hl]
  · intro pairId pair hl hne
    obtain ⟨rfl, hat⟩ := hwt.rooted.pairs hl
    rw [← h.pairs pair.pairId fun hc => ?_, hl]
    exact hne (serverId_of_closes hwt.roles hat ((Region.server serverId).closes_mono hgrows hc))
  · intro i who hi hne
    rcases h.queues i with hq | ⟨_, _, _, ⟨who', hi', hid⟩, _⟩
    · exact hq
    · rw [hi] at hi'
      cases hi'
      exact absurd hid hne

theorem server_farewell_allowed {c : ConnId} {serverId : ServerId} {g : Nat} (hrole : s.role c = some (.server serverId g)) :
    ∀ op ∈ Role.farewell c (.server serverId g), (Region.server serverId).Allows s.role op := by
  intro op hm
  simp only [Role.farewell, List.mem_cons, List.not_mem_nil, or_false] at hm
  rcases hm with rfl | rfl
  · exact ⟨_, hrole, rfl⟩
  · rfl

theorem server_turn_isolated (hw : Wf s) {c : ConnId} {serverId : ServerId} {g : Nat} {msg : Incoming} (now : Nat)
    (hrole : s.role c = some (.server serverId g)) (h : ¬ClosesForeign s serverId msg) :
    (Region.server serverId).Isolated s (s.turn c (.server serverId g) msg now).1 ∧
      ∀ op ∈ (s.turn c (.server serverId g) msg now).2.ops, (Region.server serverId).Allows s.role op := by
  have hnil : (Region.server serverId).Isolated s s ∧ ∀ op ∈ ([] : List Op), (Region.server serverId).Allows s.role op :=
    ⟨.refl s, fun _ hm => absurd hm List.not_mem_nil⟩
  simp only [turn, serverRead]
  split <;> try exact hnil
  next bytes =>
  split
  · exact hnil
  · next pairId reason hdecode =>
    cases hl : s.pairs.lookup pairId with
    | none =>
      have hc : s.closePair pairId reason = (s, []) := by simp only [closePair, hl]
      rw [hc]
      exact hnil
    | some pair =>
      have hid : pair.serverId = serverId := by
        by_contra hne
        exact h ⟨bytes, pairId, reason, pair, rfl, hdecode, hl, hne⟩
      obtain ⟨rfl, hat⟩ := hw.rooted.pairs hl
      exact closePair_isolated hw ((Region.server serverId).owns hat hid) reason
  · exact hnil
  · next pairId payload _ =>
    split
    · refine ⟨.refl s, ?_⟩
      intro op hm
      simp only [Flow.ops, List.mem_singleton] at hm
      subst hm
      exact ⟨_, hrole, rfl⟩
    · next pair hl =>
      split
      · exact hnil
      · next hid =>
        obtain ⟨rfl, hat⟩ := hw.rooted.pairs hl
        refine ⟨touch_isolated ((Region.server serverId).owns hat (not_not.mp hid)) now, ?_⟩
        intro op hm
        simp only [Flow.ops, List.mem_singleton] at hm
        subst hm
        exact ⟨_, hat, not_not.mp hid⟩

/-- **A frame of a server is handled within its pairs exactly when it closes no pair of another.** -/
theorem server_frame_isolated (hw : Wf s) {c : ConnId} {serverId : ServerId} {g : Nat} {msg : Incoming} {now : Nat}
    (hrole : s.role c = some (.server serverId g)) (hread : (s.step (.read c msg now)).isSome) :
    Handled (OnlyServer serverId) s c msg now ↔ ¬ClosesForeign s serverId msg := by
  obtain ⟨conn, hc, hconn⟩ := Option.map_eq_some_iff.mp hrole
  constructor
  · rintro hh ⟨bytes, pairId, reason, pair, rfl, hdecode, hl, hne⟩
    obtain ⟨t, ht⟩ := Option.isSome_iff_exists.mp hread
    have hgone : t.pairs.lookup pairId = none := by
      have hturn : (s.turn c conn.role (.binary bytes) now).1.pairs = s.pairs.erase pairId := by
        simp only [hconn, turn, serverRead, hdecode, closePair, hl]
      simp only [step, hc] at ht
      split at ht
      · cases ht
        rw [pairs_settle, hturn, AList.lookup_erase]
      · cases ht
        rw [pairs_settle, hturn, AList.lookup_erase]
      · cases ht
    rw [(hh t ht).1.kept pairId pair hl hne] at hgone
    cases hgone
  · intro h
    obtain ⟨hiso, hops⟩ := server_turn_isolated hw now hrole h
    rw [← hconn] at hiso hops
    have hfarewell := server_farewell_allowed hrole
    rw [← hconn] at hfarewell
    refine (handled_of_turn hw hc hiso hops hfarewell).mono hw ?_
    intro u v move hwu hs hisou
    exact .of_isolated hwu (hwu.step hs) (grows_step hwu hs) hisou

/-! ## Messages of a client -/

/-- `PairClose` for another pair. -/
def ClosesOther (s : Relay) (p : PairId) (msg : Incoming) : Prop :=
  ∃ bytes pairId reason pair, msg = .binary bytes ∧ decodeRelay bytes = .ok (.ctrl (.pairClose pairId reason)) ∧
    s.pairs.lookup pairId = some pair ∧ pairId ≠ p

/-- No pair but `p` changes, is removed or gets a frame for its client or in its name for its server. -/
structure OnlyPair (p : PairId) (s t : Relay) : Prop where
  pairs : ∀ pairId, pairId ≠ p → t.pairs.lookup pairId = s.pairs.lookup pairId
  clients : ∀ i pairId serverId tx, s.role i = some (.client pairId serverId tx) → pairId ≠ p →
    t.channel i = s.channel i
  servers : ∀ i serverId g, s.role i = some (.server serverId g) → t.channel i = s.channel i ∨
    ∃ msg old new, InNameOf p msg ∧ s.channel i = some old ∧ old.send msg = .sent new ∧ t.channel i = some new

theorem OnlyPair.of_isolated {p : PairId} (h : (Region.pair p).Isolated s t) : OnlyPair p s t := by
  refine ⟨h.pairs, ?_, ?_⟩
  · intro i pairId serverId tx hi hne
    rcases h.queues i with hq | ⟨_, _, _, ⟨_, ⟨_, _, hi'⟩ | ⟨_, _, hi'⟩⟩, _⟩
    · exact hq
    · rw [hi] at hi'
      cases hi'
    · rw [hi] at hi'
      cases hi'
      exact absurd rfl hne
  · intro i serverId g hi
    rcases h.queues i with hq | ⟨msg, old, new, ⟨hname, _⟩, hold, hsent, hnew⟩
    · exact .inl hq
    · exact .inr ⟨msg, old, new, hname, hold, hsent, hnew⟩

theorem client_turn_isolated (hw : Wf s) {c : ConnId} {p : PairId} {serverId : ServerId} {tx : ConnId} {msg : Incoming}
    (now : Nat) (hrole : s.role c = some (.client p serverId tx)) (h : ¬ClosesOther s p msg) :
    (Region.pair p).Isolated s (s.turn c (.client p serverId tx) msg now).1 ∧
      ∀ op ∈ (s.turn c (.client p serverId tx) msg now).2.ops, (Region.pair p).Allows s.role op := by
  have hnil : (Region.pair p).Isolated s s ∧ ∀ op ∈ ([] : List Op), (Region.pair p).Allows s.role op :=
    ⟨.refl s, fun _ hm => absurd hm List.not_mem_nil⟩
  simp only [turn, clientRead]
  split <;> try exact hnil
  next bytes =>
  split
  · next pairId reason hdecode =>
    by_cases hp : pairId = p
    · exact closePair_isolated hw hp reason
    · cases hl : s.pairs.lookup pairId with
      | none =>
        have hc : s.closePair pairId reason = (s, []) := by simp only [closePair, hl]
        rw [hc]
        exact hnil
      | some pair => exact absurd ⟨bytes, pairId, reason, pair, rfl, hdecode, hl, hp⟩ h
  · refine ⟨touch_isolated rfl now, ?_⟩
    intro op hm
    simp only [Flow.ops, List.mem_singleton] at hm
    subst hm
    obtain ⟨g, hg⟩ := hw.roles.client hrole
    exact ⟨.inr ⟨bytes, rfl⟩, .inl ⟨_, _, hg⟩⟩

/-- **A message of a client is handled within its pair exactly when it closes no other.** -/
theorem client_frame_isolated (hw : Wf s) {c : ConnId} {p : PairId} {serverId : ServerId} {tx : ConnId} {msg : Incoming}
    {now : Nat} (hrole : s.role c = some (.client p serverId tx)) (hread : (s.step (.read c msg now)).isSome) :
    Handled (OnlyPair p) s c msg now ↔ ¬ClosesOther s p msg := by
  obtain ⟨conn, hc, hconn⟩ := Option.map_eq_some_iff.mp hrole
  constructor
  · rintro hh ⟨bytes, pairId, reason, pair, rfl, hdecode, hl, hne⟩
    obtain ⟨t, ht⟩ := Option.isSome_iff_exists.mp hread
    have hgone : t.pairs.lookup pairId = none := by
      have hturn : (s.turn c conn.role (.binary bytes) now).1.pairs = s.pairs.erase pairId := by
        simp only [hconn, turn, clientRead, hdecode, closePair, hl]
      simp only [step, hc] at ht
      split at ht
      · cases ht
        rw [pairs_settle, hturn, AList.lookup_erase]
      · cases ht
        rw [pairs_settle, hturn, AList.lookup_erase]
      · cases ht
    rw [(hh t ht).1.pairs pairId hne, hl] at hgone
    cases hgone
  · intro h
    obtain ⟨hiso, hops⟩ := client_turn_isolated hw now hrole h
    rw [← hconn] at hiso hops
    have hfarewell : ∀ op ∈ Role.farewell c conn.role, (Region.pair p).Allows s.role op := by
      rw [hconn]
      intro op hm
      simp only [Role.farewell, List.mem_singleton] at hm
      subst hm
      rfl
    refine (handled_of_turn hw hc hiso hops hfarewell).mono hw ?_
    intro u v move _ _ hisou
    exact .of_isolated hisou

end Relay

end CliPocket
