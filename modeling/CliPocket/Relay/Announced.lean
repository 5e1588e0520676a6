import CliPocket.Relay.Shape

/-!
# Pairs are announced to their servers

A server is told of a pair once, and before any payload of the pair. Unlike the shapes this holds of every run.

- `Relay.Spoken`: the messages that the relay has for its connections;
- `Relay.Announcing`: where a message that announces a pair waits to be sent;
- `Relay.Announced`: what has been announced;
- `announced_effect`: **every move keeps it.**
-/

namespace CliPocket

namespace Relay

open Function (update)

variable {v v' : View} {move : Move} {h es : List Event}

/-! ## The message -/

/-- The message that announces a pair. -/
def inbound (pairId : PairId) : ServerMsg := encodeCtrlFrame (.pairInbound pairId)

theorem inbound_inj {p q : PairId} (h : inbound p = inbound q) : p = q := by
  have hp : decodeRelay (encodeRelayCtrl (.pairInbound p)) = .ok (.ctrl (.pairInbound p)) :=
    @decodeRelay_encode (.ctrl (.pairInbound p)) trivial
  have hq : decodeRelay (encodeRelayCtrl (.pairInbound q)) = .ok (.ctrl (.pairInbound q)) :=
    @decodeRelay_encode (.ctrl (.pairInbound q)) trivial
  rw [ServerMsg.ctrl.inj h, hq] at hp
  cases hp
  rfl

/-- A control frame with another tag announces no pair. -/
theorem inbound_ne_of_tag {p : PairId} (ctrl : RelayCtrl) {tag : UInt8} (htag : ctrl.put.head? = some tag)
    (hne : tag ≠ 5) :
    inbound p ≠ encodeCtrlFrame ctrl := by
  intro h
  simp only [inbound, encodeCtrlFrame, encodeRelayCtrl, ServerMsg.ctrl.injEq, List.cons.injEq, true_and] at h
  have hinbound : (RelayCtrl.pairInbound p).put.head? = some 5 := rfl
  rw [h, htag] at hinbound
  exact hne (Option.some.inj hinbound)

theorem inbound_ne_close (p q : PairId) (reason : PairCloseReason) : inbound p ≠ encodeCtrlFrame
    (.pairClose q reason) :=
  @inbound_ne_of_tag p (.pairClose q reason) 7 rfl (by decide)

theorem inbound_ne_opened {p q : PairId} : inbound p ≠ encodeCtrlFrame (.pairOpen q) :=
  @inbound_ne_of_tag p (.pairOpen q) 6 rfl (by decide)

theorem inbound_ne_registered {p : PairId} : inbound p ≠ encodeCtrlFrame .serverRegisterOk :=
  @inbound_ne_of_tag p .serverRegisterOk 1 rfl (by decide)

/-! ## What the relay says -/

/-- The messages that the relay has for its connections. -/
inductive Spoken : ServerMsg → Prop
  | data (bytes : List UInt8) : Spoken (.data bytes)
  | close : Spoken .close
  | registered : Spoken (encodeCtrlFrame .serverRegisterOk)
  | inbound (pairId : PairId) : Spoken (inbound pairId)
  | opened (pairId : PairId) : Spoken (encodeCtrlFrame (.pairOpen pairId))
  | closed (pairId : PairId) (reason : PairCloseReason) : Spoken (encodeCtrlFrame (.pairClose pairId reason))

/-- There are no others to send. -/
def AllSpoken (v : View) : Prop := ∀ {a tx msg required}, .send tx msg required ∈ v.todo a → Spoken msg

theorem newOps_spoken {a : Option ConnId} {more : List Op} (hn : NewOps v v' move es a more) {tx : ConnId}
    {msg : ServerMsg}
    {required : Bool} (hm : .send tx msg required ∈ more) : Spoken msg := by
  cases hn with
  | nothing => cases hm
  | registering hrole =>
    simp only [List.mem_singleton, Op.send.injEq] at hm
    rw [hm.2.1]
    exact .registered
  | opening pair hclient hserver hphase =>
    simp only [openingOps, List.mem_cons, reduceCtorEq, Op.send.injEq, List.not_mem_nil, or_false, false_or] at hm
    rcases hm with ⟨_, rfl, _⟩ | ⟨_, rfl, _⟩
    · exact .inbound _
    · exact .opened _
  | payload hrole =>
    simp only [List.mem_singleton, Op.send.injEq] at hm
    rw [hm.2.1]
    exact .data _
  | answering hrole hx hnone =>
    simp only [List.mem_singleton, Op.send.injEq] at hm
    rw [hm.2.1]
    exact .closed _ _
  | closing hcloses hpairs hmore =>
    rcases List.mem_append.mp hm with hm | hm
    · unfold View.closeOps at hm
      split at hm
      · cases hm
      · simp only [List.mem_cons, Op.send.injEq, List.not_mem_nil, or_false] at hm
        rcases hm with ⟨_, rfl, _⟩ | ⟨_, rfl, _⟩ <;> exact .closed _ _
    · exact absurd rfl (hmore _ hm _ _ _)
  | @farewell _ _ _ who hrole =>
    cases who with
    | server serverId g =>
      simp only [Role.farewell, List.mem_cons, Op.send.injEq, reduceCtorEq, List.not_mem_nil, or_false] at hm
      rw [hm.2.1]
      exact .close
    | client p serverId tx' => simp [Role.farewell] at hm
  | closings hops =>
    obtain ⟨_, _, hop⟩ := hops _ hm
    cases hop
  | stuck hstuck hnodup htodo =>
    obtain ⟨pair, _, hm⟩ := List.mem_flatMap.mp hm
    simp only [guillotine, List.mem_cons, Op.send.injEq, reduceCtorEq, List.not_mem_nil, or_false] at hm
    rcases hm with ⟨_, rfl, _⟩ | ⟨_, rfl, _⟩ <;> exact .closed _ _

theorem allSpoken_effect (ha : AllSpoken v) (hw : Sound v) (he : Effect v move v' es) : AllSpoken v' := by
  intro b tx msg required hm
  obtain ⟨a, more, rest, htodo, hrest, hnew⟩ := todo_effect hw he
  rw [htodo, Function.update_apply] at hm
  split at hm
  · rcases List.mem_append.mp hm with hm | hm
    · exact newOps_spoken hnew hm
    · exact ha (hrest.subset hm)
  · exact ha hm

/-! ## Where it waits -/

/-- Only a client that opens has a pair to announce: its own, to its server. -/
def Announcing (v : View) : Prop :=
  ∀ a tx pairId required, .send tx (inbound pairId) required ∈ v.todo a →
    ∃ c serverId, a = some c ∧ v.role c = some (.client pairId serverId tx) ∧ v.phase c = some .opening

/-- What is new to be announced is announced by its client, which has just begun. -/
theorem newOps_inbound {a : Option ConnId} {more : List Op} (hn : NewOps v v' move es a more) {tx : ConnId}
    {pairId : PairId}
    {required : Bool} (hm : .send tx (inbound pairId) required ∈ more) :
    ∃ pair : Pair, a = some pair.clientTx ∧ more = openingOps pair ∧ pair.pairId = pairId ∧ pair.serverTx = tx ∧
      v'.role pair.clientTx = some (.client pair.pairId pair.serverId pair.serverTx) ∧
        v'.phase pair.clientTx = some .opening := by
  cases hn with
  | nothing => cases hm
  | registering hrole =>
    simp only [List.mem_singleton, Op.send.injEq] at hm
    exact absurd hm.2.1 inbound_ne_registered
  | opening pair hclient hserver hphase =>
    simp only [openingOps, List.mem_cons, reduceCtorEq, Op.send.injEq, List.not_mem_nil, or_false, false_or] at hm
    rcases hm with ⟨rfl, hid, _⟩ | ⟨_, hid, _⟩
    · exact ⟨pair, rfl, rfl, (inbound_inj hid).symm, rfl, hclient, hphase⟩
    · exact absurd hid inbound_ne_opened
  | payload hrole =>
    simp only [List.mem_singleton, Op.send.injEq] at hm
    cases hm.2.1
  | answering hrole hx hnone =>
    simp only [List.mem_singleton, Op.send.injEq] at hm
    exact absurd hm.2.1 (inbound_ne_close _ _ _)
  | closing hcloses hpairs hmore =>
    rcases List.mem_append.mp hm with hm | hm
    · unfold View.closeOps at hm
      split at hm
      · cases hm
      · simp only [List.mem_cons, Op.send.injEq, List.not_mem_nil, or_false] at hm
        rcases hm with ⟨_, hid, _⟩ | ⟨_, hid, _⟩
        · exact absurd hid (inbound_ne_close _ _ _)
        · exact absurd hid (inbound_ne_close _ _ _)
    · exact absurd rfl (hmore _ hm _ _ _)
  | @farewell _ _ _ who hrole =>
    cases who with
    | server serverId g =>
      simp only [Role.farewell, List.mem_cons, Op.send.injEq, reduceCtorEq, List.not_mem_nil, or_false] at hm
      cases hm.2.1
    | client p serverId tx' => simp [Role.farewell] at hm
  | closings hops =>
    obtain ⟨_, _, hop⟩ := hops _ hm
    cases hop
  | stuck hstuck hnodup htodo =>
    obtain ⟨pair, _, hm⟩ := List.mem_flatMap.mp hm
    simp only [guillotine, List.mem_cons, Op.send.injEq, reduceCtorEq, List.not_mem_nil, or_false] at hm
    rcases hm with ⟨_, hid, _⟩ | ⟨_, hid, _⟩
    · exact absurd hid (inbound_ne_close _ _ _)
    · exact absurd hid (inbound_ne_close _ _ _)

/-- What waits to be announced has waited before, or has just begun. -/
theorem announcement_effect (hw : Sound v) (he : Effect v move v' es) {b : Option ConnId} {tx : ConnId}
    {pairId : PairId}
    {required : Bool} (hm : .send tx (inbound pairId) required ∈ v'.todo b) :
    .send tx (inbound pairId) required ∈ v.todo b ∨ ∃ (pair : Pair) (rest : List Op), b = some pair.clientTx ∧
      v'.todo b = openingOps pair ++ rest ∧ pair.pairId = pairId ∧ pair.serverTx = tx ∧
      v'.role pair.clientTx = some (.client pair.pairId pair.serverId pair.serverTx) ∧
        v'.phase pair.clientTx = some .opening := by
  obtain ⟨a, more, rest, htodo, hrest, hnew⟩ := todo_effect hw he
  rw [htodo, Function.update_apply] at hm ⊢
  split at hm
  · next hb =>
    subst hb
    rw [if_pos rfl]
    rcases List.mem_append.mp hm with hm | hm
    · obtain ⟨pair, hb, rfl, hid, htx, hrole, hphase⟩ := newOps_inbound hnew hm
      exact .inr ⟨pair, rest, hb, rfl, hid, htx, hrole, hphase⟩
    · exact .inl (hrest.subset hm)
  · exact .inl hm

theorem announcing_effect (ha : Announcing v) (hw : Sound v) (he : Effect v move v' es) : Announcing v' := by
  intro b tx pairId required hm
  rcases announcement_effect hw he hm with hold | ⟨pair, rest, rfl, _, rfl, rfl, hrole, hphase⟩
  · obtain ⟨c, serverId, rfl, hrole, hphase⟩ := ha b tx pairId required hold
    refine ⟨c, serverId, rfl, role_effect he hrole, ?_⟩
    rcases phase_kept he c with hkept | hnone | hnil | hno
    · rw [hkept]
      exact hphase
    · cases hrole.symm.trans hnone
    · rw [hnil] at hold
      cases hold
    · exact absurd hm (hno _ _ _)
  · exact ⟨pair.clientTx, pair.serverId, rfl, hrole, hphase⟩

/-! ## What has been announced -/

/-- **Pairs are announced once, and before their payloads.** -/
structure Announced (v : View) (h : List Event) : Prop where
  announcing : Announcing v
  allSpoken : AllSpoken v
  spoken : ∀ {tx msg}, msg ∈ pushedTo tx h → Spoken msg
  known : ∀ {tx pairId}, inbound pairId ∈ pushedTo tx h → InsertedIn pairId h ∧
    ∃ c serverId, v.role c = some (.client pairId serverId tx)
  once : ∀ {tx pairId}, (pushedTo tx h).count (inbound pairId) ≤ 1
  before : ∀ {c pairId serverId tx}, v.role c = some (.client pairId serverId tx) →
    ∀ front x back, pushedTo tx h = front ++ encodeDataFrame (.forward pairId x) :: back → inbound pairId ∈ front
  waits : ∀ {a tx pairId required}, .send tx (inbound pairId) required ∈ v.todo a → inbound pairId ∉ pushedTo tx h

theorem announced_empty (idleThreshold : Nat) : Announced (view { idleThreshold }) [] where
  announcing a tx pairId required hm := by cases a <;> cases hm
  allSpoken {a} _ _ _ hm := by cases a <;> cases hm
  spoken hm := by cases hm
  known hm := by cases hm
  once := Nat.zero_le _
  before hc := by cases hc
  waits _ hm := by cases hm

/-- The client of a pair that is not announced yet is about to announce it, and then tells its own client. -/
theorem Announced.next (ha : Announced v h) (hv : Flowing v h) {a : Option ConnId} {tx : ConnId} {pairId : PairId}
    {required : Bool} {rest : List Op} (htodo : v.todo a = .send tx (inbound pairId) required :: rest) :
    ∃ c serverId, a = some c ∧ v.role c = some (.client pairId serverId tx) ∧ InsertedIn pairId h ∧
      rest = [.send c (encodeCtrlFrame (.pairOpen pairId)) true] := by
  obtain ⟨c, serverId, rfl, hrole, hphase⟩ := ha.announcing a tx pairId required
    (by rw [htodo]; exact List.mem_cons_self)
  obtain ⟨n, hn⟩ := hv.opened.1 c pairId serverId tx hrole
  refine ⟨c, serverId, rfl, hrole, ?_⟩
  obtain ⟨now, ⟨_, hrest, _⟩, ⟨_, hop⟩ | ⟨hn', _⟩ | ⟨_, hop⟩⟩ := hn.next hphase htodo
  · cases hop
  · refine ⟨hn.inserted.mp (by omega), ?_⟩
    rw [hrest, hn']
    rfl
  · exact absurd (Op.send.inj hop).2.1 inbound_ne_opened

/-- A pair whose client has just begun has not been inserted. -/
theorem not_inserted_of_opening (hv : Flowing v h) {pair : Pair} {rest : List Op}
    (hrole : v.role pair.clientTx = some (.client pair.pairId pair.serverId pair.serverTx))
    (hphase : v.phase pair.clientTx = some .opening) (htodo : v.todo (some pair.clientTx) = openingOps pair ++ rest) :
    ¬InsertedIn pair.pairId h := by
  obtain ⟨n, hn⟩ := hv.opened.1 _ _ _ _ hrole
  obtain ⟨now, hops⟩ := hn.opening hphase
  have hlength := congrArg List.length (htodo.symm.trans hops)
  simp only [openingOps, List.length_append, List.length_cons, List.length_nil, List.length_drop] at hlength
  intro hin
  have hpos := hn.inserted.mpr hin
  omega

/-- **Every move keeps it.** -/
theorem announced_effect (ha : Announced v h) (hv : Flowing v h) (hv' : Flowing v' (h ++ es))
    (he : Effect v move v' es) :
    Announced v' (h ++ es) := by
  have hinserted : ∀ {pairId}, InsertedIn pairId h → InsertedIn pairId (h ++ es) := fun hin =>
    insertedIn_append.mpr (.inl hin)
  -- what is announced by this move is announced by its client, for the first time
  have hpushed : ∀ {tx pairId}, .pushed tx (inbound pairId) ∈ es → es = [.pushed tx (inbound pairId)] ∧
      inbound pairId ∉ pushedTo tx h ∧ InsertedIn pairId h ∧ ∃ c serverId, v.role c = some
        (.client pairId serverId tx) ∧
        v'.todo = update v.todo (some c) [.send c (encodeCtrlFrame (.pairOpen pairId)) true] := by
    intro tx pairId hm
    obtain ⟨a, required, rest, _, htodo, htodo', _, hes, _⟩ := pushed_effect he hm
    obtain ⟨c, serverId, rfl, hrole, hin, rfl⟩ := ha.next hv htodo
    exact ⟨hes, ha.waits (by rw [htodo]; exact List.mem_cons_self), hin, c, serverId, hrole, htodo'⟩
  refine ⟨announcing_effect ha.announcing hv.sound he, allSpoken_effect ha.allSpoken hv.sound he, ?_, ?_, ?_, ?_, ?_⟩
  · intro tx msg hm
    rw [pushedTo_append, List.mem_append] at hm
    rcases hm with hm | hm
    · exact ha.spoken hm
    · obtain ⟨a, required, rest, _, htodo, _⟩ := pushed_effect he (mem_pushedTo.mp hm)
      exact ha.allSpoken (a := a) (by rw [htodo]; exact List.mem_cons_self)
  · intro tx pairId hm
    rw [pushedTo_append, List.mem_append] at hm
    rcases hm with hm | hm
    · obtain ⟨hin, c, serverId, hrole⟩ := ha.known hm
      exact ⟨hinserted hin, c, serverId, role_effect he hrole⟩
    · obtain ⟨_, _, hin, c, serverId, hrole, _⟩ := hpushed (mem_pushedTo.mp hm)
      exact ⟨hinserted hin, c, serverId, role_effect he hrole⟩
  · intro tx pairId
    by_cases hm : .pushed tx (inbound pairId) ∈ es
    · obtain ⟨hes, hno, _⟩ := hpushed hm
      rw [hes, pushedTo_snoc, List.count_append, List.count_eq_zero_of_not_mem hno]
      simp
    · have hno : inbound pairId ∉ pushedTo tx es := fun h => hm (mem_pushedTo.mp h)
      rw [pushedTo_append, List.count_append, List.count_eq_zero_of_not_mem hno]
      exact ha.once
  · intro c pairId serverId tx hc front x back hsplit
    obtain hold | ⟨hn, rfl, hfresh⟩ := client_effect he hc
    · by_cases hpush : ∃ msg, .pushed tx msg ∈ es
      · obtain ⟨msg, hm⟩ := hpush
        obtain ⟨a, required, rest, _, htodo, _, _, hes, _⟩ := pushed_effect he hm
        rw [hes, pushedTo_snoc] at hsplit
        rcases List.eq_nil_or_concat back with rfl | ⟨middle, last, rfl⟩
        · -- the payload is the message that is queued: its client reads, so it has announced the pair
          obtain ⟨rfl, hlast⟩ := List.append_inj' hsplit rfl
          obtain ⟨q, y, hbytes, hcarries⟩ := hv.carried a tx _ required
            (by rw [htodo, List.singleton_inj.mp hlast]; exact List.mem_cons_self)
          obtain rfl := encodeRelayData_pairId hbytes
          obtain ⟨d, hd, hreading, _⟩ := hcarries.task
          have had := Carries.of_client hv hold hcarries
          rw [hd] at had
          cases had
          obtain ⟨n, hn⟩ := hv.opened.1 _ _ _ _ hold
          have hdone := hn.later (.inl hreading)
          exact mem_pushedTo.mpr (hn.told (by omega))
        · have hsplit' : pushedTo tx h ++ [msg] = (front ++ encodeDataFrame (.forward pairId x) :: middle) ++ [last] :=
          by
            rw [hsplit]
            simp
          obtain ⟨hfront, _⟩ := List.append_inj' hsplit' rfl
          exact ha.before hold _ _ _ hfront
      · rw [pushedTo_of_not_mem fun msg hm => hpush ⟨msg, hm⟩] at hsplit
        exact ha.before hold _ _ _ hsplit
    · rw [List.append_nil] at hsplit
      exact (server_shape_fresh hv.known hfresh tx front x back hsplit).1
  · intro b tx pairId required hm hpush
    rw [pushedTo_append, List.mem_append] at hpush
    rcases announcement_effect hv.sound he hm with hold | ⟨pair, rest, rfl, htodo, rfl, rfl, hrole, hphase⟩
    · rcases hpush with hpush | hpush
      · exact ha.waits hold hpush
      · obtain ⟨_, _, _, c, serverId, hrole, htodo⟩ := hpushed (mem_pushedTo.mp hpush)
        obtain ⟨d, serverId', rfl, hrole', _⟩ := ha.announcing b tx pairId required hold
        have hcd := hv.sound.roles.unique hrole hrole'
        subst hcd
        rw [htodo, Function.update_self, List.mem_singleton, Op.send.injEq] at hm
        exact inbound_ne_opened hm.2.1
    · have hno := not_inserted_of_opening hv' hrole hphase htodo
      rcases hpush with hpush | hpush
      · exact hno (hinserted (ha.known hpush).1)
      · obtain ⟨_, _, hin, _⟩ := hpushed (mem_pushedTo.mp hpush)
        exact hno (hinserted hin)

end Relay

end CliPocket
