import CliPocket.Relay.Fifo

/-!
# The shape of a pair's traffic

What a client is sent (`PairOpen`, payloads, at most one `PairClose`) and where a pair's payloads stand among what its
server is sent. A pair is announced to the server before its client is told, the reading tasks keep their own ends of
the queues, and three tasks can close a pair; so the shape is kept as long as each move that concerns a pair finds it
in the table, with its client told and out of the guillotine's hands (`Relay.inOrder`).

- `NewOps`, `todo_effect`: what a move leaves to do;
- `Relay.ClientShape`, `Relay.ServerShape`: the shapes;
- `pair_trace_shape`: **a run of moves in order has them**; `pair_trace_misshapen`: others need not.
-/

namespace CliPocket

namespace Relay

open Function (update)

variable {v v' : View} {move : Move} {h es : List Event}

/-! ## What a move leaves to do -/

/-- The move closes the pair. -/
inductive Closes (v : View) (pairId : PairId) (reason : PairCloseReason) : Move → Prop
  | read {c : ConnId} {bytes : List UInt8} {now : Nat} (h : decodeRelay bytes = .ok (.ctrl (.pairClose pairId reason))) :
      Closes v pairId reason (.read c (.binary bytes) now)
  | advance {a : Option ConnId} {rest : List Op} (h : v.todo a = .closePair pairId reason :: rest) :
      Closes v pairId reason (advanceOf a)

/-- The operations that a move puts before what is left. -/
inductive NewOps (v v' : View) : Move → List Event → Option ConnId → List Op → Prop
  | nothing {move : Move} {es : List Event} {a : Option ConnId} : NewOps v v' move es a []
  | registering {move : Move} {es : List Event} {n : ConnId} {serverId : ServerId} {g : Nat}
      (h : v'.role n = some (.server serverId g)) :
      NewOps v v' move es (some n) [.send n (encodeCtrlFrame .serverRegisterOk) true]
  | opening {move : Move} {es : List Event} (pair : Pair) {g : Nat}
      (hclient : v'.role pair.clientTx = some (.client pair.pairId pair.serverId pair.serverTx))
      (hserver : v'.role pair.serverTx = some (.server pair.serverId g))
      (hphase : v'.phase pair.clientTx = some .opening) : NewOps v v' move es (some pair.clientTx) (openingOps pair)
  | payload {move : Move} {es : List Event} {c tx : ConnId} {bytes : List UInt8} {who : Role} (h : v.role tx = some who) :
      NewOps v v' move es (some c) [.send tx (.data bytes) true]
  | answering {move : Move} {c : ConnId} {serverId : ServerId} {g : Nat} {bytes x : List UInt8} {pairId : PairId}
      (hrole : v.role c = some (.server serverId g)) (hx : forwarded pairId bytes = some x) (hnone : v'.pairs pairId = none) :
      NewOps v v' move [.read c (.server serverId g) bytes] (some c)
        [.send c (encodeCtrlFrame (.pairClose pairId .clientGone)) true]
  | closing {move : Move} {es : List Event} {a : Option ConnId} {pairId : PairId} {reason : PairCloseReason} {more : List Op}
      (hcloses : Closes v pairId reason move) (hpairs : v'.pairs pairId = none)
      (hmore : ∀ op ∈ more, ∀ tx msg required, op ≠ .send tx msg required) :
      NewOps v v' move es a (v.closeOps pairId reason ++ more)
  | farewell {move : Move} {es : List Event} {c : ConnId} {who : Role} (h : v.role c = some who) :
      NewOps v v' move es (some c) (Role.farewell c who)
  | closings {move : Move} {es : List Event} {a : Option ConnId} {ops : List Op}
      (h : ∀ op ∈ ops, ∃ pairId reason, op = .closePair pairId reason) : NewOps v v' move es a ops
  | stuck {es : List Event} {now : Nat} {stuck : List Pair}
      (hstuck : ∀ pair ∈ stuck, v.pairs pair.pairId = some (timeless pair)) (hnodup : (stuck.map Pair.pairId).Nodup)
      (htodo : v'.todo none = stuck.flatMap guillotine) : NewOps v v' (.sweep now) es none (stuck.flatMap guillotine)

/-- **What a move leaves to do**: new operations before a part of the old ones, for one task. -/
theorem todo_effect (hw : Sound v) (he : Effect v move v' es) :
    ∃ a more rest, v'.todo = update v.todo a (more ++ rest) ∧ rest <:+ v.todo a ∧ NewOps v v' move es a more := by
  have hrole : ∀ i who, v.role i = some who → v'.role i = some who := fun i who => role_effect he
  have hnil : ∀ a : Option ConnId, ([] : List Op) <:+ v.todo a := fun a => List.nil_suffix
  have htail : ∀ {a : Option ConnId} {op : Op} {rest : List Op}, v.todo a = op :: rest → rest <:+ v.todo a := by
    intro a op rest htodo
    rw [htodo]
    exact List.suffix_cons _ _
  have hfail : ∀ {c : ConnId} {who : Role} {phase : Phase} {error : RelayError}, ∀ op ∈ (View.failing who phase error).2,
      ∃ pairId reason, op = .closePair pairId reason := by
    intro c who phase error op hm
    cases who with
    | server serverId g => cases hm
    | client pairId serverId tx =>
      cases phase with
      | opening => cases hm
      | _ => exact ⟨pairId, .clientGone, List.mem_singleton.mp hm⟩
  cases he with
  | refused => exact ⟨none, [], v.todo none, (update_same rfl).symm, List.suffix_rfl, .nothing⟩
  | @registered n serverId =>
    exact ⟨some n, _, [], rfl, hnil _, .registering (Function.update_self _ _ _)⟩
  | @connected slot first admitted now pair hn hslot htx hfresh =>
    obtain ⟨g, hg⟩ := hw.registry hslot
    rw [htx] at hg
    exact ⟨some pair.clientTx, openingOps pair, [], rfl, hnil _,
      .opening pair (Function.update_self _ _ _) (hrole _ _ hg) (Function.update_self _ _ _)⟩
  | pinged | ignored => exact ⟨_, [], [], rfl, hnil _, .nothing⟩
  | answered hidle hdecode hnone =>
    exact ⟨_, _, [], rfl, hnil _, .answering hidle.role (forwarded_eq_some.mpr hdecode) hnone⟩
  | toClient pair hidle hdecode hpair => exact ⟨_, _, [], rfl, hnil _, .payload (hw.pairs hpair).2⟩
  | toServer hidle hpayload =>
    obtain ⟨g, hg⟩ := hw.roles.client hidle.role
    exact ⟨_, _, [], rfl, hnil _, .payload hg⟩
  | @closedByServer c serverId g _ bytes closing reason hidle hdecode =>
    refine ⟨some c, v.closeOps closing reason ++ [], [], ?_, hnil _, .closing (.read hdecode) ?_ fun _ hm => by cases hm⟩
    · rw [List.append_nil, List.append_nil]
      rfl
    · rw [View.setTodo_pairs, View.setPhase_pairs, View.erase_pairs, if_pos rfl]
  | @closedByClient c pairId serverId tx _ bytes closing reason hidle hdecode =>
    refine ⟨some c, v.closeOps closing reason ++ [.closePair pairId .clientGone], [], ?_, hnil _,
      .closing (.read hdecode) ?_ fun op hm => ?_⟩
    · rw [List.append_nil]
      rfl
    · rw [View.setTodo_pairs, View.setPhase_pairs, View.erase_pairs, if_pos rfl]
    · intro tx msg required hop
      rw [List.mem_singleton.mp hm] at hop
      cases hop
  | stopped hidle =>
    refine ⟨_, _, [], ?_, hnil _, .farewell hidle.role⟩
    rw [List.append_nil]
    rfl
  | @readFailed c who error =>
    refine ⟨some c, _, [], ?_, hnil _, .closings (@hfail c who .reading error)⟩
    rw [List.append_nil, View.fail_todo]
  | @rejected c serverId g _ bytes error =>
    refine ⟨some c, _, [], ?_, hnil _, .closings (@hfail c (.server serverId g) .reading error)⟩
    rw [List.append_nil, View.fail_todo]
  | @sendFailed c who phase =>
    refine ⟨some c, _, [], ?_, hnil _, .closings (@hfail c who phase writerClosed)⟩
    rw [List.append_nil, View.fail_todo]
  | pushed htodo | skipped htodo | inserted htodo | removed htodo => exact ⟨_, [], _, rfl, htail htodo, .nothing⟩
  | @closed a pairId reason rest htodo =>
    refine ⟨a, v.closeOps pairId reason ++ [], rest, ?_, htail htodo, .closing (.advance htodo) ?_ fun _ hm => by cases hm⟩
    · rw [List.append_nil]
      rfl
    · rw [View.setTodo_pairs, View.erase_pairs, if_pos rfl]
  | listed htodo =>
    refine ⟨_, _, _, rfl, htail htodo, .closings fun op hm => ?_⟩
    obtain ⟨pairId, _, rfl⟩ := List.mem_map.mp hm
    exact ⟨pairId, .serverGone, rfl⟩
  | finished who => exact ⟨none, [], v.todo none, by simp, List.suffix_rfl, .nothing⟩
  | returned | wrote | writerEnded => exact ⟨none, [], v.todo none, (update_same rfl).symm, List.suffix_rfl, .nothing⟩
  | @swept now stuck htodo hstuck hnodup =>
    have htodo' : (v.setTodo none (stuck.flatMap guillotine)).todo none = stuck.flatMap guillotine := by
      rw [View.setTodo_todo, if_pos rfl]
    refine ⟨none, _, [], ?_, hnil _, .stuck hstuck hnodup htodo'⟩
    rw [List.append_nil]
    rfl

/-! ## Shapes -/

/-- `PairOpen`, payloads, and at most one `PairClose`. -/
def ClientShape (pairId : PairId) (msgs : List ServerMsg) : Prop :=
  msgs = [] ∨ ∃ payloads closing, msgs = encodeCtrlFrame (.pairOpen pairId) :: (payloads ++ closing) ∧
    (∀ msg ∈ payloads, ∃ bytes, msg = .data bytes) ∧
    (closing = [] ∨ ∃ reason, closing = [encodeCtrlFrame (.pairClose pairId reason)])

/-- Payloads of the pair stand behind its `PairInbound`, and none behind a `PairClose` for it. -/
def ServerShape (pairId : PairId) (msgs : List ServerMsg) : Prop :=
  ∀ before x after, msgs = before ++ encodeDataFrame (.forward pairId x) :: after →
    encodeCtrlFrame (.pairInbound pairId) ∈ before ∧ ∀ reason, encodeCtrlFrame (.pairClose pairId reason) ∉ before

theorem ClientShape.of_initial {pairId : PairId} {msgs msgs' : List ServerMsg} (h : ClientShape pairId msgs)
    (hpre : msgs' <+: msgs) : ClientShape pairId msgs' := by
  obtain ⟨rest, rfl⟩ := hpre
  cases msgs' with
  | nil => exact .inl rfl
  | cons first msgs' =>
    obtain he | ⟨payloads, closing, he, hpayloads, hclosing⟩ := h
    · cases he
    · simp only [List.cons_append, List.cons.injEq] at he
      obtain ⟨rfl, he⟩ := he
      refine .inr ?_
      obtain ⟨more, rfl, rfl⟩ | ⟨more, rfl, hmore⟩ := List.append_eq_append_iff.mp he
      · refine ⟨msgs', [], by rw [List.append_nil], ?_, .inl rfl⟩
        exact fun msg hm => hpayloads msg (List.mem_append_left _ hm)
      · refine ⟨payloads, more, rfl, hpayloads, ?_⟩
        rcases hclosing with rfl | ⟨reason, rfl⟩
        · exact .inl (List.append_eq_nil_iff.mp hmore.symm).1
        · rcases List.singleton_eq_append_iff.mp hmore with ⟨rfl, _⟩ | ⟨rfl, _⟩
          · exact .inl rfl
          · exact .inr ⟨reason, rfl⟩

theorem ServerShape.of_initial {pairId : PairId} {msgs msgs' : List ServerMsg} (h : ServerShape pairId msgs)
    (hpre : msgs' <+: msgs) : ServerShape pairId msgs' := by
  obtain ⟨rest, rfl⟩ := hpre
  rintro before x after rfl
  exact h before x (after ++ rest) (by simp)

/-- One more message for a server. -/
theorem ServerShape.snoc {pairId : PairId} {msgs : List ServerMsg} {msg : ServerMsg} (h : ServerShape pairId msgs)
    (hmsg : ∀ x, msg = encodeDataFrame (.forward pairId x) → encodeCtrlFrame (.pairInbound pairId) ∈ msgs ∧
      ∀ reason, encodeCtrlFrame (.pairClose pairId reason) ∉ msgs) : ServerShape pairId (msgs ++ [msg]) := by
  intro before x after he
  rcases List.eq_nil_or_concat after with rfl | ⟨front, last, rfl⟩
  · obtain ⟨rfl, hlast⟩ := List.append_inj' he rfl
    exact hmsg x (List.singleton_inj.mp hlast)
  · have hsplit : msgs ++ [msg] = (before ++ encodeDataFrame (.forward pairId x) :: front) ++ [last] := by
      rw [he]
      simp
    obtain ⟨rfl, _⟩ := List.append_inj' hsplit rfl
    exact h before x front rfl

/-! ## Moves in order -/

/-- The client's task has opened, and has not ended. -/
def told (conn : Conn) : Bool :=
  match conn.phase with
  | .opening => conn.todo.isEmpty
  | .reading => true
  | .closing _ => true
  | .ended _ => false

/-- The pair is in the table, its client has been told of it, and the guillotine is not about to close it. -/
def steady (s : Relay) (pairId : PairId) : Bool :=
  match s.pairs.lookup pairId with
  | none => false
  | some pair => decide (.removePair pairId ∉ s.sweeper) && s.conns[pair.clientTx]?.any told

/-- A server has named the pair. -/
def namesPair (pairId : PairId) (h : List Event) : Bool :=
  h.any fun
    | .read _ (.server _ _) bytes => (forwarded pairId bytes).isSome
    | _ => false

def opInOrder (s : Relay) (h : List Event) : Op → Bool
  | .send _ (.data bytes) _ =>
    match decodeRelay bytes with
    | .ok (.data (.forward pairId _)) => s.steady pairId
    | _ => true
  | .closePair pairId _ => (s.pairs.lookup pairId).isNone || s.steady pairId
  | .insertPair pair => !namesPair pair.pairId h
  | _ => true

/-- A payload is queued, and a pair is closed, while the pair is steady; the guillotine takes pairs whose clients have
been told, and a pair is inserted that no server has named. -/
def inOrder : Relay × List Event → Move → Bool
  | (s, _), .read _ (.binary bytes) _ =>
    match decodeRelay bytes with
    | .ok (.ctrl (.pairClose pairId _)) => (s.pairs.lookup pairId).isNone || s.steady pairId
    | _ => true
  | (s, h), .advance c => ((s.todo (some c)).head?.map (s.opInOrder h)).getD true
  | (s, h), .sweepAdvance => ((s.todo none).head?.map (s.opInOrder h)).getD true
  | (s, _), .sweep now => s.pairs.entries.all fun entry =>
      decide (now ≤ entry.2.lastProgress + s.idleThreshold) || s.conns[entry.2.clientTx]?.any told
  | _, _ => true

def Told (v : View) (i : ConnId) : Prop :=
  (v.phase i = some .opening ∧ v.todo (some i) = []) ∨ v.phase i = some .reading ∨ ∃ result, v.phase i = some (.closing result)

structure Steady (v : View) (pairId : PairId) : Prop where
  swept : .removePair pairId ∉ v.todo none
  pair : ∃ pair, v.pairs pairId = some pair ∧ Told v pair.clientTx

/-- A server has named the pair. -/
def Named (pairId : PairId) (h : List Event) : Prop :=
  ∃ c serverId g bytes x, .read c (.server serverId g) bytes ∈ h ∧ forwarded pairId bytes = some x

/-- A move in order, on the state as functions. -/
structure Fine (v : View) (h : List Event) (move : Move) (v' : View) : Prop where
  payload : ∀ {a tx pairId x rest}, move = advanceOf a → x.length < 2 ^ 64 →
    v.todo a = .send tx (encodeDataFrame (.forward pairId x)) true :: rest → Steady v pairId
  closes : ∀ {pairId reason}, Closes v pairId reason move → v.pairs pairId = none ∨ Steady v pairId
  inserts : ∀ {a pair rest}, move = advanceOf a → v.todo a = .insertPair pair :: rest → ¬Named pair.pairId h
  sweeps : ∀ {now pairId pair}, move = .sweep now → .removePair pairId ∈ v'.todo none → v.pairs pairId = some pair →
    Told v pair.clientTx

variable {s t : Relay}

theorem told_of_told {i : ConnId} (ht : s.conns[i]?.any told = true) : Told s.view i := by
  cases hc : s.conns[i]? with
  | none =>
    rw [hc] at ht
    cases ht
  | some conn =>
    rw [hc, Option.any_some] at ht
    have hphase : s.view.phase i = some conn.phase := phase_eq hc
    have htodo : s.view.todo (some i) = conn.todo := todo_eq hc
    unfold told at ht
    unfold Told
    rw [hphase, htodo]
    cases hp : conn.phase with
    | opening =>
      rw [hp] at ht
      exact .inl ⟨rfl, List.isEmpty_iff.mp ht⟩
    | reading => exact .inr (.inl rfl)
    | closing result => exact .inr (.inr ⟨result, rfl⟩)
    | ended result =>
      rw [hp] at ht
      cases ht

theorem steady_of_steady {pairId : PairId} (hs : s.steady pairId = true) : Steady s.view pairId := by
  unfold steady at hs
  cases hl : s.pairs.lookup pairId with
  | none =>
    rw [hl] at hs
    cases hs
  | some pair =>
    simp only [hl, Bool.and_eq_true, decide_eq_true_eq] at hs
    exact ⟨hs.1, timeless pair, by simp only [view, hl, Option.map_some], told_of_told hs.2⟩

theorem steady_or_none {pairId : PairId} (hs : ((s.pairs.lookup pairId).isNone || s.steady pairId) = true) :
    s.view.pairs pairId = none ∨ Steady s.view pairId := by
  rw [Bool.or_eq_true, Option.isNone_iff_eq_none] at hs
  rcases hs with hl | hs
  · exact .inl (by simp only [view, hl, Option.map_none])
  · exact .inr (steady_of_steady hs)

theorem namesPair_of_named {pairId : PairId} (hn : Named pairId h) : namesPair pairId h = true := by
  obtain ⟨c, serverId, g, bytes, x, hm, hx⟩ := hn
  rw [namesPair, List.any_eq_true]
  exact ⟨_, hm, by simp [hx]⟩

/-- The operation that a move performs is in order. -/
theorem opInOrder_of_inOrder {a : Option ConnId} {op : Op} {rest : List Op} (hc : inOrder (s, h) (advanceOf a) = true)
    (htodo : s.todo a = op :: rest) : s.opInOrder h op = true := by
  cases a with
  | none =>
    simp only [advanceOf, inOrder, htodo, List.head?_cons, Option.map_some, Option.getD_some] at hc
    exact hc
  | some c =>
    simp only [advanceOf, inOrder, htodo, List.head?_cons, Option.map_some, Option.getD_some] at hc
    exact hc

theorem fine_of_inOrder (hw : Wf s) (hs : s.step move = some t) (hc : inOrder (s, h) move = true) :
    Fine s.view h move t.view where
  payload := by
    intro a tx pairId x rest hmove hx htodo
    subst hmove
    have hop := opInOrder_of_inOrder hc htodo
    simp only [encodeDataFrame, opInOrder, decodeRelay_forward hx] at hop
    exact steady_of_steady hop
  closes := by
    intro pairId reason hcloses
    cases hcloses with
    | read hdecode =>
      simp only [inOrder, hdecode] at hc
      exact steady_or_none hc
    | advance htodo => exact steady_or_none (opInOrder_of_inOrder hc htodo)
  inserts := by
    intro a pair rest hmove htodo hn
    subst hmove
    have hop := opInOrder_of_inOrder hc htodo
    simp only [opInOrder, namesPair_of_named hn] at hop
    cases hop
  sweeps := by
    intro now pairId pair hmove hm hpair
    subst hmove
    simp only [step] at hs
    split at hs
    · cases hs
      have hmem : Op.removePair pairId ∈ List.flatMap (fun entry => guillotine entry.2)
          (s.pairs.entries.filter fun entry => entry.2.lastProgress + s.idleThreshold < now) := hm
      obtain ⟨entry, hentry, hm⟩ := List.mem_flatMap.mp hmem
      simp only [guillotine, List.mem_cons, reduceCtorEq, Op.removePair.injEq, List.not_mem_nil, or_false, false_or] at hm
      obtain ⟨hentry, hstuck⟩ := List.mem_filter.mp hentry
      have hl : s.pairs.lookup entry.1 = some entry.2 := AList.mem_lookup_iff.mpr hentry
      have hid := (hw.rooted.pairs hl).1
      rw [← hm] at hid
      obtain ⟨stored, hl', rfl⟩ := Option.map_eq_some_iff.mp hpair
      rw [hid, hl] at hl'
      cases hl'
      have hall := List.all_eq_true.mp hc entry hentry
      rw [decide_eq_true_eq] at hstuck
      rw [Bool.or_eq_true, decide_eq_true_eq] at hall
      exact told_of_told (hall.resolve_left (by omega))
    · cases hs

/-! ## Closing messages -/

def IsClose (pairId : PairId) (msg : ServerMsg) : Prop := ∃ reason, msg = encodeCtrlFrame (.pairClose pairId reason)

theorem isClose_inj {p q : PairId} {msg : ServerMsg} (hp : IsClose p msg) (hq : IsClose q msg) : p = q := by
  obtain ⟨reason, rfl⟩ := hp
  obtain ⟨reason', h⟩ := hq
  exact encodeRelayCtrl_pairClose_inj (ServerMsg.ctrl.inj h)

/-- A control frame with another tag closes no pair. -/
theorem not_isClose_of_tag {p : PairId} (ctrl : RelayCtrl) {tag : UInt8} (htag : ctrl.put.head? = some tag) (hne : tag ≠ 7) :
    ¬IsClose p (encodeCtrlFrame ctrl) := by
  rintro ⟨reason, h⟩
  simp only [encodeCtrlFrame, encodeRelayCtrl, ServerMsg.ctrl.injEq, List.cons.injEq, true_and] at h
  have hclose : (RelayCtrl.pairClose p reason).put.head? = some 7 := rfl
  rw [h, hclose] at htag
  exact hne (Option.some.inj htag).symm

theorem not_isClose_pairOpen (p q : PairId) : ¬IsClose p (encodeCtrlFrame (.pairOpen q)) :=
  not_isClose_of_tag (.pairOpen q) rfl (by decide)

theorem not_isClose_pairInbound (p q : PairId) : ¬IsClose p (encodeCtrlFrame (.pairInbound q)) :=
  not_isClose_of_tag (.pairInbound q) rfl (by decide)

theorem not_isClose_data (p : PairId) (bytes : List UInt8) : ¬IsClose p (.data bytes) := by
  rintro ⟨reason, h⟩
  cases h

/-- No message that closes the pair has been queued, or is left to send. -/
structure NoClose (v : View) (h : List Event) (pairId : PairId) : Prop where
  todo : ∀ {a tx msg required}, .send tx msg required ∈ v.todo a → ¬IsClose pairId msg
  pushed : ∀ {tx msg}, .pushed tx msg ∈ h → ¬IsClose pairId msg

/-- What is queued was at the front of a list. -/
theorem pushed_effect (he : Effect v move v' es) {tx : ConnId} {msg : ServerMsg} (hm : .pushed tx msg ∈ es) :
    ∃ a required rest, move = advanceOf a ∧ v.todo a = .send tx msg required :: rest ∧ v'.todo = update v.todo a rest ∧
      v'.phase = v.phase ∧ es = [.pushed tx msg] ∧ v'.pairs = v.pairs ∧ v'.role = v.role := by
  cases he with
  | @pushed a tx' msg' required rest channel htodo =>
    obtain ⟨rfl, rfl⟩ : tx = tx' ∧ msg = msg' := by simpa using hm
    exact ⟨a, required, rest, rfl, htodo, rfl, rfl, rfl, rfl, rfl⟩
  | writerEnded _ _ hevents =>
    rcases hevents with rfl | ⟨_, rfl⟩ <;> simp at hm
  | _ => simp at hm

/-- A new closing message, and why: the pair has just left the table, or is under the guillotine, or a server has named
a pair that is not there. -/
theorem closer_effect (hw : Sound v) (he : Effect v move v' es) {a : Option ConnId} {tx : ConnId} {msg : ServerMsg}
    {required : Bool} {pairId : PairId} (hm : .send tx msg required ∈ v'.todo a) (hclose : IsClose pairId msg) :
    .send tx msg required ∈ v.todo a ∨
      v.pairs pairId ≠ none ∧ (v'.pairs pairId = none ∨ .removePair pairId ∈ v'.todo none) ∨
      v'.pairs pairId = none ∧ Named pairId es := by
  obtain ⟨b, more, rest, htodo, hrest, hnew⟩ := todo_effect hw he
  rw [htodo, Function.update_apply] at hm
  split at hm
  · next hab =>
    subst hab
    rcases List.mem_append.mp hm with hm | hm
    · refine .inr ?_
      cases hnew with
      | nothing => cases hm
      | registering =>
        obtain ⟨_, rfl, _⟩ : tx = _ ∧ msg = _ ∧ required = _ := by simpa using hm
        exact absurd hclose (not_isClose_of_tag .serverRegisterOk rfl (by decide))
      | opening pair =>
        simp only [openingOps, List.mem_cons, reduceCtorEq, Op.send.injEq, List.not_mem_nil, or_false, false_or] at hm
        rcases hm with ⟨_, rfl, _⟩ | ⟨_, rfl, _⟩
        · exact absurd hclose (not_isClose_pairInbound _ _)
        · exact absurd hclose (not_isClose_pairOpen _ _)
      | payload =>
        obtain ⟨_, rfl, _⟩ : tx = _ ∧ msg = _ ∧ required = _ := by simpa using hm
        exact absurd hclose (not_isClose_data _ _)
      | @answering move c serverId g bytes x q hrole hx hnone =>
        obtain ⟨_, rfl, _⟩ : tx = _ ∧ msg = _ ∧ required = _ := by simpa using hm
        obtain rfl := isClose_inj hclose ⟨.clientGone, rfl⟩
        exact .inr ⟨hnone, c, serverId, g, bytes, x, List.mem_singleton_self _, hx⟩
      | @closing move es a q reason more hcloses hpairs hmore =>
        rcases List.mem_append.mp hm with hm | hm
        · unfold View.closeOps at hm
          split at hm
          · cases hm
          · next pair hpair =>
            have hq : IsClose q msg := by
              simp only [List.mem_cons, Op.send.injEq, List.not_mem_nil, or_false] at hm
              rcases hm with ⟨_, rfl, _⟩ | ⟨_, rfl, _⟩ <;> exact ⟨reason, rfl⟩
            obtain rfl := isClose_inj hclose hq
            exact .inl ⟨by simp [hpair], .inl hpairs⟩
        · exact absurd rfl (hmore _ hm tx msg required)
      | @farewell move es c who =>
        cases who with
        | server serverId g =>
          simp only [Role.farewell, List.mem_cons, reduceCtorEq, Op.send.injEq, List.not_mem_nil, or_false] at hm
          obtain ⟨_, rfl, _⟩ := hm
          obtain ⟨reason, h⟩ := hclose
          cases h
        | client p serverId tx' => simp [Role.farewell] at hm
      | closings hops =>
        obtain ⟨q, reason, h⟩ := hops _ hm
        cases h
      | @stuck es now stuck hstuck hnodup htodo' =>
        obtain ⟨pair, hpair, hm⟩ := List.mem_flatMap.mp hm
        have hq : IsClose pair.pairId msg := by
          simp only [guillotine, List.mem_cons, reduceCtorEq, Op.send.injEq, List.not_mem_nil, or_false] at hm
          rcases hm with ⟨_, rfl, _⟩ | ⟨_, rfl, _⟩ <;> exact ⟨.stuck, rfl⟩
        obtain rfl := isClose_inj hclose hq
        refine .inl ⟨by simp [hstuck pair hpair], .inr ?_⟩
        rw [htodo']
        exact List.mem_flatMap.mpr ⟨pair, hpair, by simp [guillotine]⟩
    · exact .inl (hrest.subset hm)
  · exact .inl hm

theorem noClose_effect {pairId : PairId} (hn : NoClose v h pairId) (hw : Sound v) (he : Effect v move v' es)
    (hnew : ¬(v.pairs pairId ≠ none ∧ (v'.pairs pairId = none ∨ .removePair pairId ∈ v'.todo none)))
    (hname : ¬(v'.pairs pairId = none ∧ Named pairId es)) : NoClose v' (h ++ es) pairId where
  todo := by
    intro a tx msg required hm hclose
    obtain hold | hcause | hcause := closer_effect hw he hm hclose
    · exact hn.todo hold hclose
    · exact hnew hcause
    · exact hname hcause
  pushed := by
    intro tx msg hm hclose
    rcases List.mem_append.mp hm with hm | hm
    · exact hn.pushed hm hclose
    · obtain ⟨a, required, rest, _, htodo, _⟩ := pushed_effect he hm
      exact hn.todo (by rw [htodo]; exact List.mem_cons_self) hclose

/-! ## Who is sent what -/

/-- Messages left to send go to servers, or are one of those that a client is sent. -/
def Addressed (v : View) : Prop :=
  ∀ a tx msg required, .send tx msg required ∈ v.todo a →
    (∃ serverId g, v.role tx = some (.server serverId g)) ∨ ∃ pairId serverId stx,
      v.role tx = some (.client pairId serverId stx) ∧
        ((msg = encodeCtrlFrame (.pairOpen pairId) ∧ a = some tx ∧ v.phase tx = some .opening) ∨
          (∃ bytes, msg = .data bytes) ∨ IsClose pairId msg)

/-- A task that still has something to send from before has gone on with the same. -/
theorem phase_kept (he : Effect v move v' es) (i : ConnId) :
    v'.phase i = v.phase i ∨ v.role i = none ∨ v.todo (some i) = [] ∨
      ∀ tx msg required, .send tx msg required ∉ v'.todo (some i) := by
  have hupdate : ∀ {n : ConnId} {ph : Option Phase}, v.role n = none →
      update v.phase n ph i = v.phase i ∨ v.role i = none := by
    intro n ph hn
    by_cases hi : i = n
    · rw [hi]
      exact .inr hn
    · exact .inl (Function.update_of_ne hi _ _)
  have hidle : ∀ {c : ConnId} {who : Role}, v.Idle c who → (∀ j, some j ≠ some c → v'.phase j = v.phase j) →
      v'.phase i = v.phase i ∨ v.todo (some i) = [] := by
    intro c who hidle hsame
    by_cases hi : i = c
    · rw [hi]
      exact .inr hidle.todo
    · exact .inl (hsame i (by simpa using hi))
  cases he with
  | registered hn =>
    rcases hupdate hn with h | h
    · exact .inl h
    · exact .inr (.inl h)
  | connected pair hn =>
    rcases hupdate hn with h | h
    · exact .inl h
    · exact .inr (.inl h)
  | pinged hid | ignored hid | answered hid | toClient _ hid | toServer hid | closedByServer hid | closedByClient hid
    | stopped hid =>
    rcases hidle hid fun j hj => phase_of_ne hj with h | h
    · exact .inl h
    · exact .inr (.inr (.inl h))
  | readFailed hid | rejected hid =>
    rw [View.fail_eq] at hidle ⊢
    rcases hidle hid fun j hj => (phase_of_ne hj).trans (congrFun (v.leave_phase _) j) with h | h
    · exact .inl h
    · exact .inr (.inr (.inl h))
  | @sendFailed c who phase =>
    by_cases hi : i = c
    · refine .inr (.inr (.inr fun tx msg required hm => ?_))
      rw [hi, View.fail_todo, Function.update_self] at hm
      cases who with
      | server serverId g => cases hm
      | client pairId serverId stx => cases phase <;> simp [View.failing] at hm
    · rw [View.fail_eq]
      exact .inl (by rw [phase_of_ne (by simpa using hi), View.leave_phase])
  | @finished c who result hrole hphase htodo =>
    by_cases hi : i = c
    · rw [hi]
      exact .inr (.inr (.inl htodo))
    · exact .inl (by rw [View.setPhase_phase, if_neg hi, View.leave_phase])
  | refused | pushed | skipped | inserted | closed | listed | removed | returned | wrote | writerEnded | swept =>
    exact .inl rfl

theorem addressed_effect (hv : Addressed v) (hw : Sound v) (he : Effect v move v' es) : Addressed v' := by
  intro b tx msg required hm
  have hrole : ∀ i who, v.role i = some who → v'.role i = some who := fun i who => role_effect he
  -- An old operation.
  have hkept : .send tx msg required ∈ v.todo b → (∃ serverId g, v'.role tx = some (.server serverId g)) ∨
      ∃ pairId serverId stx, v'.role tx = some (.client pairId serverId stx) ∧
        ((msg = encodeCtrlFrame (.pairOpen pairId) ∧ b = some tx ∧ v'.phase tx = some .opening) ∨
          (∃ bytes, msg = .data bytes) ∨ IsClose pairId msg) := by
    intro hold
    obtain ⟨serverId, g, htx⟩ | ⟨pairId, serverId, stx, htx, hkind⟩ := hv b tx msg required hold
    · exact .inl ⟨serverId, g, hrole _ _ htx⟩
    · refine .inr ⟨pairId, serverId, stx, hrole _ _ htx, ?_⟩
      obtain ⟨hmsg, rfl, hphase⟩ | hkind := hkind
      · refine .inl ⟨hmsg, rfl, ?_⟩
        obtain h | h | h | h := phase_kept he tx
        · rw [h, hphase]
        · rw [htx] at h
          cases h
        · rw [h] at hold
          cases hold
        · exact absurd hm (h _ _ _)
      · exact .inr hkind
  have hends : ∀ {q : PairId} {reason : PairCloseReason} {pair : Pair}, v.pairs q = some pair →
      tx = pair.serverTx ∨ tx = pair.clientTx → msg = encodeCtrlFrame (.pairClose q reason) →
      (∃ serverId g, v'.role tx = some (.server serverId g)) ∨ ∃ pairId serverId stx,
        v'.role tx = some (.client pairId serverId stx) ∧
          ((msg = encodeCtrlFrame (.pairOpen pairId) ∧ b = some tx ∧ v'.phase tx = some .opening) ∨
            (∃ bytes, msg = .data bytes) ∨ IsClose pairId msg) := by
    rintro q reason pair hpair (rfl | rfl) rfl
    · obtain ⟨g, hg⟩ := hw.roles.client (hw.pairs hpair).2
      exact .inl ⟨_, g, hrole _ _ hg⟩
    · obtain ⟨rfl, hat⟩ := hw.pairs hpair
      exact .inr ⟨_, _, _, hrole _ _ hat, .inr (.inr ⟨reason, rfl⟩)⟩
  obtain ⟨a, more, rest, htodo, hrest, hnew⟩ := todo_effect hw he
  have hm' := hm
  rw [htodo, Function.update_apply] at hm'
  split at hm'
  · next hba =>
    subst hba
    rcases List.mem_append.mp hm' with hm' | hm'
    · cases hnew with
      | nothing => cases hm'
      | registering hserver =>
        obtain ⟨rfl, _, _⟩ : tx = _ ∧ msg = _ ∧ required = _ := by simpa using hm'
        exact .inl ⟨_, _, hserver⟩
      | opening pair hclient hserver hphase =>
        simp only [openingOps, List.mem_cons, reduceCtorEq, Op.send.injEq, List.not_mem_nil, or_false, false_or] at hm'
        rcases hm' with ⟨rfl, _, _⟩ | ⟨rfl, rfl, _⟩
        · exact .inl ⟨_, _, hserver⟩
        · exact .inr ⟨_, _, _, hclient, .inl ⟨rfl, rfl, hphase⟩⟩
      | @payload move es c tx' bytes who hwho =>
        obtain ⟨rfl, rfl, _⟩ : tx = _ ∧ msg = _ ∧ required = _ := by simpa using hm'
        cases who with
        | server serverId g => exact .inl ⟨_, _, hrole _ _ hwho⟩
        | client pairId serverId stx => exact .inr ⟨_, _, _, hrole _ _ hwho, .inr (.inl ⟨bytes, rfl⟩)⟩
      | answering hserver =>
        obtain ⟨rfl, _, _⟩ : tx = _ ∧ msg = _ ∧ required = _ := by simpa using hm'
        exact .inl ⟨_, _, hrole _ _ hserver⟩
      | @closing move es a q reason more hcloses hpairs hmore =>
        rcases List.mem_append.mp hm' with hm' | hm'
        · unfold View.closeOps at hm'
          split at hm'
          · cases hm'
          · next pair hpair =>
            simp only [List.mem_cons, Op.send.injEq, List.not_mem_nil, or_false] at hm'
            rcases hm' with ⟨htx, hmsg, _⟩ | ⟨htx, hmsg, _⟩
            · exact hends hpair (.inl htx) hmsg
            · exact hends hpair (.inr htx) hmsg
        · exact absurd rfl (hmore _ hm' tx msg required)
      | @farewell move es c who hwho =>
        cases who with
        | server serverId g =>
          simp only [Role.farewell, List.mem_cons, reduceCtorEq, Op.send.injEq, List.not_mem_nil, or_false] at hm'
          obtain ⟨rfl, _, _⟩ := hm'
          exact .inl ⟨_, _, hrole _ _ hwho⟩
        | client p serverId tx' => simp [Role.farewell] at hm'
      | closings hops =>
        obtain ⟨q, reason, h⟩ := hops _ hm'
        cases h
      | @stuck es now stuck hstuck hnodup htodo' =>
        obtain ⟨pair, hpair, hm'⟩ := List.mem_flatMap.mp hm'
        simp only [guillotine, List.mem_cons, reduceCtorEq, Op.send.injEq, List.not_mem_nil, or_false] at hm'
        rcases hm' with ⟨htx, hmsg, _⟩ | ⟨htx, hmsg, _⟩
        · exact @hends pair.pairId .stuck (timeless pair) (hstuck pair hpair) (.inl htx) hmsg
        · exact @hends pair.pairId .stuck (timeless pair) (hstuck pair hpair) (.inr htx) hmsg
    · exact hkept (hrest.subset hm')
  · exact hkept hm'

/-! ## One closing message for each client -/

/-- The operation sends the client at `i` a message that closes the pair. -/
def ClosesAt (i : ConnId) (pairId : PairId) : Op → Prop
  | .send tx msg _ => tx = i ∧ IsClose pairId msg
  | _ => False

open scoped Classical in
/-- The closing messages for the client among what is left to do. -/
noncomputable def closers (i : ConnId) (pairId : PairId) (ops : List Op) : List Op :=
  ops.filter fun op => decide (ClosesAt i pairId op)

theorem closers_append (i : ConnId) (pairId : PairId) (ops ops' : List Op) :
    closers i pairId (ops ++ ops') = closers i pairId ops ++ closers i pairId ops' := List.filter_append _ _

theorem closers_eq_nil {i : ConnId} {pairId : PairId} {ops : List Op} :
    closers i pairId ops = [] ↔ ∀ op ∈ ops, ¬ClosesAt i pairId op := by
  simp [closers, List.filter_eq_nil_iff]

theorem closers_sublist {i : ConnId} {pairId : PairId} {ops ops' : List Op} (h : ops <:+ ops') :
    (closers i pairId ops).Sublist (closers i pairId ops') := h.sublist.filter _

/-- A client has at most one closing message to come, and none when one has been queued. -/
structure Once (v : View) (h : List Event) (i : ConnId) (pairId : PairId) : Prop where
  alone : ∀ {a b}, closers i pairId (v.todo a) ≠ [] → closers i pairId (v.todo b) ≠ [] → a = b
  single : ∀ a, (closers i pairId (v.todo a)).length ≤ 1
  opened : ∀ {a}, closers i pairId (v.todo a) ≠ [] → .pushed i (encodeCtrlFrame (.pairOpen pairId)) ∈ h
  unsent : ∀ {a}, closers i pairId (v.todo a) ≠ [] → ∀ msg, .pushed i msg ∈ h → ¬IsClose pairId msg

theorem closers_of_noClose {i : ConnId} {pairId : PairId} (hn : NoClose v h pairId) (a : Option ConnId) :
    closers i pairId (v.todo a) = [] := by
  rw [closers_eq_nil]
  intro op hm hcloses
  cases op with
  | send tx msg required => exact hn.todo hm hcloses.2
  | _ => exact hcloses

/-- The messages that end a pair hold one for its client. -/
theorem closers_ends {i : ConnId} {pairId : PairId} {reason : PairCloseReason} {pair : Pair} {more : List Op}
    (hserver : pair.serverTx ≠ i) (hmore : ∀ op ∈ more, ¬ClosesAt i pairId op) :
    (closers i pairId (.send pair.serverTx (encodeCtrlFrame (.pairClose pairId reason)) false ::
      .send pair.clientTx (encodeCtrlFrame (.pairClose pairId reason)) false :: more)).length ≤ 1 := by
  have hnil : closers i pairId more = [] := closers_eq_nil.mpr hmore
  have hfirst : ¬ClosesAt i pairId (.send pair.serverTx (encodeCtrlFrame (.pairClose pairId reason)) false) :=
    fun h => hserver h.1
  unfold closers at hnil ⊢
  rw [List.filter_cons_of_neg (by simpa using hfirst), List.filter_cons, hnil]
  split <;> simp

/-- Pairs other than the client's do not close it. -/
theorem closers_guillotine_other {i : ConnId} {pairId : PairId} {stuck : List Pair}
    (hne : ∀ pair ∈ stuck, pair.pairId ≠ pairId) : closers i pairId (stuck.flatMap guillotine) = [] := by
  rw [closers_eq_nil]
  intro op hm hcloses
  obtain ⟨pair, hpair, hm⟩ := List.mem_flatMap.mp hm
  simp only [guillotine, List.mem_cons, List.not_mem_nil, or_false] at hm
  rcases hm with rfl | rfl | rfl
  · exact hne pair hpair (isClose_inj ⟨.stuck, rfl⟩ hcloses.2)
  · exact hne pair hpair (isClose_inj ⟨.stuck, rfl⟩ hcloses.2)
  · exact hcloses

theorem closers_guillotine {i : ConnId} {pairId : PairId} {stuck : List Pair} (hnodup : (stuck.map Pair.pairId).Nodup)
    (hserver : ∀ pair ∈ stuck, pair.serverTx ≠ i) : (closers i pairId (stuck.flatMap guillotine)).length ≤ 1 := by
  induction stuck with
  | nil => simp [closers]
  | cons pair stuck ih =>
    rw [List.map_cons, List.nodup_cons] at hnodup
    rw [List.flatMap_cons, closers_append, List.length_append]
    have ih := ih hnodup.2 fun p hp => hserver p (List.mem_cons_of_mem _ hp)
    by_cases hp : pair.pairId = pairId
    · have hother : closers i pairId (stuck.flatMap guillotine) = [] := by
        refine closers_guillotine_other fun p hm he => hnodup.1 ?_
        rw [hp, ← he]
        exact List.mem_map_of_mem hm
      rw [hother, List.length_nil, Nat.add_zero]
      subst hp
      refine closers_ends (hserver pair List.mem_cons_self) fun op hm => ?_
      rw [List.mem_singleton.mp hm]
      exact id
    · have hhead : closers i pairId (guillotine pair) = [] := by
        have h := @closers_guillotine_other i pairId [pair] fun p hm => by rw [List.mem_singleton.mp hm]; exact hp
        simpa using h
      rw [hhead, List.length_nil, Nat.zero_add]
      exact ih

/-- New closing messages for a client: one, and only for a pair in the table. -/
theorem closers_new {a : Option ConnId} {more : List Op} {i : ConnId} {pairId : PairId} {serverId : ServerId} {tx : ConnId}
    (hw : Sound v) (hi : v.role i = some (.client pairId serverId tx)) (hnew : NewOps v v' move es a more) :
    closers i pairId more = [] ∨ (closers i pairId more).length = 1 ∧ v.pairs pairId ≠ none ∧
      ((∃ reason, Closes v pairId reason move) ∨ ∃ now, move = .sweep now ∧ .removePair pairId ∈ v'.todo none) := by
  have hctrl : ∀ {tx : ConnId} {msg : ServerMsg} {required : Bool}, ¬IsClose pairId msg →
      closers i pairId [.send tx msg required] = [] := by
    intro tx msg required hmsg
    rw [closers_eq_nil]
    intro op hm hcloses
    rw [List.mem_singleton.mp hm] at hcloses
    exact hmsg hcloses.2
  cases hnew with
  | nothing => exact .inl rfl
  | registering => exact .inl (hctrl (not_isClose_of_tag .serverRegisterOk rfl (by decide)))
  | opening pair =>
    refine .inl (closers_eq_nil.mpr fun op hm hcloses => ?_)
    simp only [openingOps, List.mem_cons, List.not_mem_nil, or_false] at hm
    rcases hm with rfl | rfl | rfl
    · exact hcloses
    · exact not_isClose_pairInbound _ _ hcloses.2
    · exact not_isClose_pairOpen _ _ hcloses.2
  | payload => exact .inl (hctrl (not_isClose_data _ _))
  | @answering move c id g bytes x q hrole =>
    refine .inl (closers_eq_nil.mpr fun op hm hcloses => ?_)
    rw [List.mem_singleton.mp hm] at hcloses
    obtain ⟨rfl, _⟩ := hcloses
    rw [hi] at hrole
    cases hrole
  | @closing move es a q reason more hcloses hpairs hmore =>
    have hmore' : ∀ op ∈ more, ¬ClosesAt i pairId op := by
      intro op hm hat
      cases op with
      | send tx msg required => exact hmore _ hm _ _ _ rfl
      | _ => exact hat
    unfold View.closeOps
    split
    · exact .inl (closers_eq_nil.mpr hmore')
    · next pair hpair =>
      obtain ⟨rfl, hat⟩ := hw.pairs hpair
      obtain ⟨g, hg⟩ := hw.roles.client hat
      have hserver : pair.serverTx ≠ i := by
        rintro rfl
        rw [hi] at hg
        cases hg
      by_cases hp : pair.pairId = pairId
      · subst hp
        have hle := @closers_ends i pair.pairId reason pair more hserver hmore'
        simp only [List.cons_append, List.nil_append] at hle ⊢
        rcases Nat.lt_or_eq_of_le hle with hlt | heq
        · exact .inl (List.eq_nil_of_length_eq_zero (by omega))
        · exact .inr ⟨heq, by simp [hpair], .inl ⟨reason, hcloses⟩⟩
      · refine .inl (closers_eq_nil.mpr fun op hm hat' => ?_)
        simp only [List.cons_append, List.nil_append, List.mem_cons] at hm
        rcases hm with rfl | rfl | hm
        · exact hp (isClose_inj ⟨reason, rfl⟩ hat'.2)
        · exact hp (isClose_inj ⟨reason, rfl⟩ hat'.2)
        · exact hmore' op hm hat'
  | @farewell move es c who =>
    refine .inl (closers_eq_nil.mpr fun op hm hcloses => ?_)
    cases who with
    | server id g =>
      simp only [Role.farewell, List.mem_cons, List.not_mem_nil, or_false] at hm
      rcases hm with rfl | rfl
      · obtain ⟨_, reason, h⟩ := hcloses
        cases h
      · exact hcloses
    | client p id tx' =>
      simp only [Role.farewell, List.mem_cons, List.not_mem_nil, or_false] at hm
      rw [hm] at hcloses
      exact hcloses
  | closings hops =>
    refine .inl (closers_eq_nil.mpr fun op hm hcloses => ?_)
    obtain ⟨q, reason, rfl⟩ := hops op hm
    exact hcloses
  | @stuck es now stuck hstuck hnodup htodo =>
    have hserver : ∀ pair ∈ stuck, pair.serverTx ≠ i := by
      rintro pair hm rfl
      obtain ⟨g, hg⟩ := hw.roles.client (hw.pairs (hstuck pair hm)).2
      rw [show (timeless pair).serverTx = pair.serverTx from rfl, hi] at hg
      cases hg
    by_cases hp : ∃ pair ∈ stuck, pair.pairId = pairId
    · obtain ⟨pair, hm, rfl⟩ := hp
      have hle := @closers_guillotine i pair.pairId stuck hnodup hserver
      rcases Nat.lt_or_eq_of_le hle with hlt | heq
      · exact .inl (List.eq_nil_of_length_eq_zero (by omega))
      · refine .inr ⟨heq, by simp [hstuck pair hm], .inr ⟨now, rfl, ?_⟩⟩
        rw [htodo]
        exact List.mem_flatMap.mpr ⟨pair, hm, by simp [guillotine]⟩
    · exact .inl (closers_guillotine_other fun pair hm he => hp ⟨pair, hm, he⟩)

/-! ## Runs in order -/

/-- What holds in every run in order. -/
structure Trim (v : View) (h : List Event) : Prop where
  addressed : Addressed v
  listed : ∀ {pairId}, v.pairs pairId ≠ none → .removePair pairId ∉ v.todo none → NoClose v h pairId
  unborn : ∀ {pairId}, ¬InsertedIn pairId h → ¬Named pairId h → NoClose v h pairId
  once : ∀ {i pairId serverId tx}, v.role i = some (.client pairId serverId tx) → Once v h i pairId
  client : ∀ {i pairId serverId tx}, v.role i = some (.client pairId serverId tx) → ClientShape pairId (pushedTo i h)
  waits : ∀ {i pairId serverId tx}, v.role i = some (.client pairId serverId tx) → v.phase i = some .opening →
    v.todo (some i) ≠ [] → pushedTo i h = []
  server : ∀ {i pairId serverId tx}, v.role i = some (.client pairId serverId tx) → ServerShape pairId (pushedTo tx h)

theorem Steady.noClose {pairId : PairId} (hs : Steady v pairId) (ht : Trim v h) : NoClose v h pairId := by
  obtain ⟨hswept, pair, hpair, _⟩ := hs
  exact ht.listed (by simp [hpair]) hswept

/-- A client that has been told has been sent its `PairOpen`. -/
theorem Told.opened {i : ConnId} {pairId : PairId} {serverId : ServerId} {tx : ConnId} (ht : Told v i) (hv : Flowing v h)
    (hi : v.role i = some (.client pairId serverId tx)) : .pushed i (encodeCtrlFrame (.pairOpen pairId)) ∈ h := by
  obtain ⟨n, hn⟩ := hv.opened.1 i pairId serverId tx hi
  refine hn.opened ?_
  rcases ht with ⟨hphase, htodo⟩ | hphase | ⟨result, hphase⟩
  · exact hn.idle ⟨hi, .inl hphase, htodo⟩
  · exact hn.later (.inl hphase)
  · exact hn.later (.inr ⟨result, hphase⟩)

/-- The client of a steady pair has been told. -/
theorem Steady.told {i : ConnId} {pairId : PairId} {serverId : ServerId} {tx : ConnId} (hs : Steady v pairId)
    (hw : Sound v) (hi : v.role i = some (.client pairId serverId tx)) : Told v i := by
  obtain ⟨_, pair, hpair, ht⟩ := hs
  obtain ⟨rfl, hat⟩ := hw.pairs hpair
  rwa [hw.roles.unique hat hi] at ht

/-- The guillotine keeps its pairs in mind until they are gone. -/
theorem sweeper_effect (he : Effect v move v' es) {pairId : PairId} (hm : .removePair pairId ∈ v.todo none) :
    .removePair pairId ∈ v'.todo none ∨ v'.pairs pairId = none := by
  have htask : ∀ {a : Option ConnId} {ops : List Op} {w : View}, a ≠ none →
      (.removePair pairId ∈ (w.setTodo a ops).todo none ↔ .removePair pairId ∈ w.todo none) := by
    intro a ops w ha
    rw [View.setTodo_todo, if_neg (Ne.symm ha)]
  have htail : ∀ {a : Option ConnId} {op : Op} {rest : List Op} (more : List Op), v.todo a = op :: rest →
      op ≠ .removePair pairId → .removePair pairId ∈ (v.setTodo a (more ++ rest)).todo none := by
    intro a op rest more htodo hop
    rw [View.setTodo_todo]
    split
    · next ha =>
      rw [ha, htodo] at hm
      rcases List.mem_cons.mp hm with hm | hm
      · exact absurd hm.symm hop
      · exact List.mem_append_right _ hm
    · exact hm
  cases he with
  | refused | returned | wrote | writerEnded => exact .inl hm
  | registered => exact .inl (by simpa using hm)
  | connected => exact .inl (by simpa using hm)
  | pinged | ignored | answered | toClient | toServer | closedByServer | closedByClient | stopped =>
    exact .inl ((htask (by simp)).mpr hm)
  | readFailed | rejected | sendFailed => exact .inl (by rw [View.fail_todo]; simpa using hm)
  | finished => exact .inl (by simpa using hm)
  | pushed htodo | skipped htodo | inserted htodo =>
    exact .inl (htail [] htodo (by simp))
  | closed htodo => exact .inl (htail _ htodo (by simp))
  | listed htodo => exact .inl (htail _ htodo (by simp))
  | @removed a q rest htodo =>
    by_cases hq : q = pairId
    · refine .inr ?_
      rw [View.setTodo_pairs, View.erase_pairs, if_pos hq.symm]
    · exact .inl (htail [] htodo (by simpa using hq))
  | swept htodo =>
    rw [htodo] at hm
    cases hm

/-- A sweep begins when the last is over. -/
theorem sweep_effect (he : Effect v move v' es) {now : Nat} (hmove : move = .sweep now) : v.todo none = [] := by
  cases he with
  | swept htodo => exact htodo
  | @pushed a | @skipped a | @inserted a | @closed a | @listed a | @removed a => cases a <;> cases hmove
  | refused hconnects =>
    rw [hmove] at hconnects
    cases hconnects
  | _ => cases hmove

/-- A pair comes into the table by being inserted. -/
theorem inserted_effect (he : Effect v move v' es) {pairId : PairId} (hnone : v.pairs pairId = none)
    (hp : v'.pairs pairId ≠ none) :
    ∃ a pair rest, move = advanceOf a ∧ v.todo a = .insertPair pair :: rest ∧ pair.pairId = pairId := by
  have herase : ∀ q, (v.erase q).pairs pairId = none := by
    intro q
    rw [View.erase_pairs, hnone, ite_self]
  cases he with
  | @inserted a pair rest htodo =>
    refine ⟨a, pair, rest, rfl, htodo, ?_⟩
    by_contra hne
    rw [View.setTodo_pairs, View.insert_pairs, if_neg (Ne.symm hne)] at hp
    exact hp hnone
  | closedByServer | closedByClient | closed | removed => exact absurd (herase _) hp
  | readFailed | rejected | sendFailed =>
    rw [View.fail_eq] at hp
    exact absurd hnone (by simpa using hp)
  | finished => exact absurd hnone (by simpa using hp)
  | _ => exact absurd hnone hp

theorem listed_effect (ht : Trim v h) (hv : Flowing v h) (hfine : Fine v h move v') (he : Effect v move v' es)
    {pairId : PairId} (hpairs : v'.pairs pairId ≠ none) (hswept : .removePair pairId ∉ v'.todo none) :
    NoClose v' (h ++ es) pairId := by
  have hbefore : NoClose v h pairId := by
    by_cases hold : v.pairs pairId = none
    · obtain ⟨a, pair, rest, hmove, htodo, rfl⟩ := inserted_effect he hold hpairs
      have hin : ¬InsertedIn pair.pairId h := (pairs_effect hv he hpairs).resolve_left (not_not_intro hold)
      exact ht.unborn hin (hfine.inserts hmove htodo)
    · refine ht.listed hold fun hm => ?_
      rcases sweeper_effect he hm with h | h
      · exact hswept h
      · exact hpairs h
  refine noClose_effect hbefore hv.sound he ?_ fun hname => hpairs hname.1
  rintro ⟨_, h | h⟩
  · exact hpairs h
  · exact hswept h

theorem named_append {pairId : PairId} : Named pairId (h ++ es) ↔ Named pairId h ∨ Named pairId es := by
  constructor
  · rintro ⟨c, serverId, g, bytes, x, hm, hx⟩
    rcases List.mem_append.mp hm with hm | hm
    · exact .inl ⟨c, serverId, g, bytes, x, hm, hx⟩
    · exact .inr ⟨c, serverId, g, bytes, x, hm, hx⟩
  · rintro (⟨c, serverId, g, bytes, x, hm, hx⟩ | ⟨c, serverId, g, bytes, x, hm, hx⟩)
    · exact ⟨c, serverId, g, bytes, x, List.mem_append_left _ hm, hx⟩
    · exact ⟨c, serverId, g, bytes, x, List.mem_append_right _ hm, hx⟩

theorem unborn_effect (ht : Trim v h) (hv : Flowing v h) (he : Effect v move v' es) {pairId : PairId}
    (hin : ¬InsertedIn pairId (h ++ es)) (hname : ¬Named pairId (h ++ es)) : NoClose v' (h ++ es) pairId := by
  rw [insertedIn_append, not_or] at hin
  rw [named_append, not_or] at hname
  refine noClose_effect (ht.unborn hin.1 hname.1) hv.sound he ?_ fun hnew => hname.2 hnew.2
  rintro ⟨hpairs, _⟩
  cases hp : v.pairs pairId with
  | none => exact hpairs hp
  | some pair => exact hin.1 (hv.opened.2 _ _ hp)

/-- A new client's task is the opening one. -/
theorem client_new (he : Effect v move v' es) {i : ConnId} {pairId : PairId} {serverId : ServerId} {tx : ConnId}
    (hn : v.role i = none) (hi : v'.role i = some (.client pairId serverId tx)) :
    ∃ now, v'.todo = update v.todo (some i) (openingOps ⟨pairId, serverId, now, tx, i⟩) := by
  cases he with
  | @registered n id =>
    simp only [Function.update_apply] at hi
    split at hi
    · cases hi
    · rw [hn] at hi
      cases hi
  | connected pair =>
    simp only [Function.update_apply] at hi
    split at hi
    · next hc =>
      cases hi
      subst hc
      exact ⟨pair.lastProgress, rfl⟩
    · rw [hn] at hi
      cases hi
  | _ =>
    rw [show View.role _ i = v.role i by simp [View.fail_eq], hn] at hi
    cases hi

theorem once_new (ht : Trim v h) (he : Effect v move v' es) {i : ConnId} {pairId : PairId} {serverId : ServerId}
    {tx : ConnId} (hn : v.role i = none) (hi : v'.role i = some (.client pairId serverId tx)) (a : Option ConnId) :
    closers i pairId (v'.todo a) = [] := by
  obtain ⟨now, htodo⟩ := client_new he hn hi
  rw [closers_eq_nil, htodo, Function.update_apply]
  intro op hm hcloses
  split at hm
  · simp only [openingOps, List.mem_cons, List.not_mem_nil, or_false] at hm
    rcases hm with rfl | rfl | rfl
    · exact hcloses
    · exact not_isClose_pairInbound _ _ hcloses.2
    · exact not_isClose_pairOpen _ _ hcloses.2
  · cases op with
    | send tx' msg required =>
      obtain ⟨rfl, _⟩ := hcloses
      obtain ⟨id, g, h⟩ | ⟨q, id, stx, h, _⟩ := ht.addressed a tx' msg required hm
      · rw [hn] at h
        cases h
      · rw [hn] at h
        cases h
    | _ => exact hcloses

theorem once_effect (ht : Trim v h) (hv : Flowing v h) (hfine : Fine v h move v') (he : Effect v move v' es)
    {i : ConnId} {pairId : PairId} {serverId : ServerId} {tx : ConnId} (hi : v.role i = some (.client pairId serverId tx)) :
    Once v' (h ++ es) i pairId := by
  have hold := ht.once hi
  by_cases hpush : ∃ msg, .pushed i msg ∈ es ∧ IsClose pairId msg
  · -- The closing message is queued, and none is left.
    obtain ⟨msg, hm, hclose⟩ := hpush
    obtain ⟨a, required, rest, _, htodo, htodo', _⟩ := pushed_effect he hm
    have hhead : ClosesAt i pairId (.send i msg required) := ⟨rfl, hclose⟩
    have hne : closers i pairId (v.todo a) ≠ [] := by
      rw [htodo, Ne, closers_eq_nil]
      exact fun hall => hall _ List.mem_cons_self hhead
    have hnone : ∀ b, closers i pairId (v'.todo b) = [] := by
      intro b
      rw [htodo', Function.update_apply]
      split
      · have hsingle := hold.single a
        have hsplit := closers_append i pairId [.send i msg required] rest
        have hone : (closers i pairId [.send i msg required]).length ≠ 0 := by
          rw [Ne, List.length_eq_zero_iff, closers_eq_nil]
          exact fun hall => hall _ List.mem_cons_self hhead
        rw [List.singleton_append, ← htodo] at hsplit
        rw [hsplit, List.length_append] at hsingle
        exact List.eq_nil_of_length_eq_zero (by omega)
      · next hb =>
        by_contra hne'
        exact hb (hold.alone hne' hne)
    exact ⟨fun ha => absurd (hnone _) ha, fun a => by rw [hnone a]; exact Nat.zero_le _, fun ha => absurd (hnone _) ha,
      fun ha => absurd (hnone _) ha⟩
  · have hunsent : (∀ msg, .pushed i msg ∈ h → ¬IsClose pairId msg) → ∀ msg, .pushed i msg ∈ h ++ es → ¬IsClose pairId msg := by
      intro hh msg hm hclose
      rcases List.mem_append.mp hm with hm | hm
      · exact hh msg hm hclose
      · exact hpush ⟨msg, hm, hclose⟩
    obtain ⟨a, more, rest, htodo, hrest, hnew⟩ := todo_effect hv.sound he
    obtain hnil | ⟨hone, hpairs, hcause⟩ := closers_new hv.sound hi hnew
    · -- Nothing new.
      have hsub : ∀ b, (closers i pairId (v'.todo b)).Sublist (closers i pairId (v.todo b)) := by
        intro b
        rw [htodo, Function.update_apply]
        split
        · next hb =>
          rw [hb, closers_append, hnil, List.nil_append]
          exact closers_sublist hrest
        · exact List.Sublist.refl _
      have hsome : ∀ {b}, closers i pairId (v'.todo b) ≠ [] → closers i pairId (v.todo b) ≠ [] := by
        intro b hb hnil
        have := hsub b
        rw [hnil, List.sublist_nil] at this
        exact hb this
      exact ⟨fun ha hb => hold.alone (hsome ha) (hsome hb), fun b => (hsub b).length_le.trans (hold.single b),
        fun ha => List.mem_append_left _ (hold.opened (hsome ha)), fun ha => hunsent (hold.unsent (hsome ha))⟩
    · -- The pair is closed, and was steady.
      have hsteady : NoClose v h pairId ∧ Told v i := by
        rcases hcause with ⟨reason, hcloses⟩ | ⟨now, hmove, hremove⟩
        · have hs := (hfine.closes hcloses).resolve_left hpairs
          exact ⟨hs.noClose ht, hs.told hv.sound hi⟩
        · obtain ⟨pair, hpair⟩ := Option.ne_none_iff_exists'.mp hpairs
          obtain ⟨rfl, hat⟩ := hv.sound.pairs hpair
          have htold := hfine.sweeps hmove hremove hpair
          rw [hv.sound.roles.unique hat hi] at htold
          refine ⟨ht.listed hpairs fun hm => ?_, htold⟩
          rw [sweep_effect he hmove] at hm
          cases hm
      obtain ⟨hno, htold⟩ := hsteady
      have hb : ∀ {b}, closers i pairId (v'.todo b) ≠ [] → b = a := by
        intro b hb
        by_contra hne
        rw [htodo, Function.update_of_ne hne] at hb
        exact hb (closers_of_noClose hno b)
      have hrest' : closers i pairId rest = [] := by
        have := @closers_sublist i pairId _ _ hrest
        rwa [closers_of_noClose hno a, List.sublist_nil] at this
      refine ⟨fun hx hy => (hb hx).trans (hb hy).symm, fun b => ?_, fun _ => List.mem_append_left _ (htold.opened hv hi),
        fun _ => hunsent fun msg hm => hno.pushed hm⟩
      by_cases hba : b = a
      · rw [hba, htodo, Function.update_self, closers_append, hrest', List.append_nil, hone]
      · rw [htodo, Function.update_of_ne hba, closers_of_noClose hno b]
        exact Nat.zero_le _

/-! ## The shapes are kept -/

theorem pushedTo_of_not_mem {i : ConnId} (hnone : ∀ msg, .pushed i msg ∉ es) : pushedTo i (h ++ es) = pushedTo i h := by
  have hnil : pushedTo i es = [] := by
    rw [List.eq_nil_iff_forall_not_mem]
    exact fun msg hm => hnone msg (mem_pushedTo.mp hm)
  rw [pushedTo_append, hnil, List.append_nil]

theorem pushedTo_snoc {i : ConnId} {msg : ServerMsg} : pushedTo i (h ++ [.pushed i msg]) = pushedTo i h ++ [msg] := by
  rw [pushedTo_append]
  simp [pushedTo]

/-- What has been sent to a client behind its `PairOpen`, while nothing has closed the pair. -/
theorem ClientShape.open {pairId : PairId} {msgs : List ServerMsg} (h : ClientShape pairId msgs)
    (hopen : encodeCtrlFrame (.pairOpen pairId) ∈ msgs) (hno : ∀ msg ∈ msgs, ¬IsClose pairId msg) :
    ∃ payloads, msgs = encodeCtrlFrame (.pairOpen pairId) :: payloads ∧ ∀ msg ∈ payloads, ∃ bytes, msg = .data bytes := by
  obtain rfl | ⟨payloads, closing, rfl, hpayloads, rfl | ⟨reason, rfl⟩⟩ := h
  · cases hopen
  · exact ⟨payloads, by rw [List.append_nil], hpayloads⟩
  · exact absurd ⟨reason, rfl⟩ (hno (encodeCtrlFrame (.pairClose pairId reason)) (by simp))

/-- A payload, or the message that closes the pair, is queued for a client that has been told. -/
theorem ClientShape.snoc {pairId : PairId} {msgs : List ServerMsg} {msg : ServerMsg} (h : ClientShape pairId msgs)
    (hopen : encodeCtrlFrame (.pairOpen pairId) ∈ msgs) (hno : ∀ msg ∈ msgs, ¬IsClose pairId msg)
    (hmsg : (∃ bytes, msg = .data bytes) ∨ IsClose pairId msg) : ClientShape pairId (msgs ++ [msg]) := by
  obtain ⟨payloads, rfl, hpayloads⟩ := h.open hopen hno
  refine .inr ?_
  rcases hmsg with hdata | ⟨reason, rfl⟩
  · refine ⟨payloads ++ [msg], [], by simp, ?_, .inl rfl⟩
    intro msg' hm
    rcases List.mem_append.mp hm with hm | hm
    · exact hpayloads msg' hm
    · rw [List.mem_singleton.mp hm]
      exact hdata
  · exact ⟨payloads, [encodeCtrlFrame (.pairClose pairId reason)], by simp, hpayloads, .inr ⟨reason, rfl⟩⟩

/-- What is queued for a client, and when. -/
theorem pushed_client (ht : Trim v h) (hv : Flowing v h) (hfine : Fine v h move v') (he : Effect v move v' es) {i : ConnId}
    {msg : ServerMsg} (hm : .pushed i msg ∈ es) {pairId : PairId} {serverId : ServerId} {tx : ConnId}
    (hi : v.role i = some (.client pairId serverId tx)) :
    (msg = encodeCtrlFrame (.pairOpen pairId) ∧ pushedTo i h = [] ∧ v'.todo (some i) = []) ∨
      encodeCtrlFrame (.pairOpen pairId) ∈ pushedTo i h ∧ (∀ msg ∈ pushedTo i h, ¬IsClose pairId msg) ∧
        ((∃ bytes, msg = .data bytes) ∨ IsClose pairId msg) := by
  obtain ⟨a, required, rest, hmove, htodo, htodo', _⟩ := pushed_effect he hm
  have hmem : .send i msg required ∈ v.todo a := by rw [htodo]; exact List.mem_cons_self
  obtain ⟨id, g, hserver⟩ | ⟨q, id, stx, hclient, hkind⟩ := ht.addressed a i msg required hmem
  · rw [hi] at hserver
    cases hserver
  · rw [hi] at hclient
    cases hclient
    obtain ⟨rfl, rfl, hphase⟩ | ⟨bytes, rfl⟩ | hclose := hkind
    · refine .inl ⟨rfl, ht.waits hi hphase (by simp [htodo]), ?_⟩
      obtain ⟨n, hn⟩ := hv.opened.1 _ _ _ _ hi
      obtain ⟨now, ⟨_, hrest, _⟩, ⟨_, hop⟩ | ⟨_, hop⟩ | ⟨hn', hop⟩⟩ := hn.next hphase htodo
      · cases hop
      · simp only [Op.send.injEq] at hop
        obtain ⟨g, hg⟩ := hv.sound.roles.client hi
        rw [← hop.1, hi] at hg
        cases hg
      · rw [htodo', Function.update_self, hrest, hn']
        rfl
    · refine .inr ?_
      obtain ⟨q, x, rfl, hcarries⟩ := hv.carried a i bytes required hmem
      have hrequired : required = true := by
        have h := hcarries.todo
        rw [htodo] at h
        simp only [List.cons.injEq, Op.send.injEq] at h
        exact h.1.2.2
      subst hrequired
      have hq : q = pairId := by
        obtain ⟨j, id, stx, hj, rfl | rfl⟩ := hcarries.client
        · rw [hi] at hj
          cases hj
          rfl
        · obtain ⟨g, hg⟩ := hv.sound.roles.client hj
          rw [hi] at hg
          cases hg
      subst hq
      have hs := hfine.payload hmove hcarries.short htodo
      exact ⟨mem_pushedTo.mpr ((hs.told hv.sound hi).opened hv hi),
        fun msg hm => (hs.noClose ht).pushed (mem_pushedTo.mp hm), .inl ⟨_, rfl⟩⟩
    · refine .inr ?_
      have honce := ht.once hi
      have hne : closers i pairId (v.todo a) ≠ [] := by
        rw [Ne, closers_eq_nil]
        exact fun hall => hall _ hmem ⟨rfl, hclose⟩
      exact ⟨mem_pushedTo.mpr (honce.opened hne), fun msg hm => honce.unsent hne msg (mem_pushedTo.mp hm), .inr hclose⟩

/-- A task that still opens did so before, and gets nothing more to do. -/
theorem opening_effect (he : Effect v move v' es) {i : ConnId} {who : Role} (hi : v.role i = some who)
    (hopening : v'.phase i = some .opening) :
    v.phase i = some .opening ∧ (v'.todo (some i) ≠ [] → v.todo (some i) ≠ []) := by
  have hnew : ∀ {n : ConnId}, v.role n = none → some i ≠ some n := fun hn heq => ne_new hi hn (Option.some.inj heq)
  have hbusy : ∀ {c : ConnId} {w : View} {ph : Phase} {ops : List Op}, v' = (w.setPhase c ph).setTodo (some c) ops →
      ph ≠ .opening → w.phase = v.phase → w.todo = v.todo →
      v.phase i = some .opening ∧ (v'.todo (some i) ≠ [] → v.todo (some i) ≠ []) := by
    rintro c w ph ops rfl hph hphase htodo
    by_cases hic : i = c
    · rw [View.setTodo_phase, View.setPhase_phase, if_pos hic] at hopening
      exact absurd (Option.some.inj hopening) hph
    · rw [phase_of_ne (by simpa using hic), hphase] at hopening
      refine ⟨hopening, ?_⟩
      rw [View.setTodo_todo, if_neg (by simpa using hic), View.setPhase_todo, htodo]
      exact id
  have htail : ∀ {a : Option ConnId} {op : Op} {rest ops : List Op}, v.todo a = op :: rest → v'.phase = v.phase →
      v'.todo = update v.todo a ops → v.phase i = some .opening ∧ (v'.todo (some i) ≠ [] → v.todo (some i) ≠ []) := by
    intro a op rest ops htodo hphase htodo'
    refine ⟨hphase ▸ hopening, fun hne => ?_⟩
    rw [htodo', Function.update_apply] at hne
    split at hne
    · next hia =>
      rw [hia, htodo]
      simp
    · exact hne
  have hfail : ∀ {c : ConnId} {who : Role} {ph : Phase} {error : RelayError}, v' = v.fail c who ph error →
      v.phase i = some .opening ∧ (v'.todo (some i) ≠ [] → v.todo (some i) ≠ []) := by
    intro c who ph error h
    rw [View.fail_eq] at h
    refine hbusy h ?_ (v.leave_phase who) (v.leave_todo who)
    cases who with
    | server serverId g => exact Phase.noConfusion
    | client pairId serverId tx => cases ph <;> exact Phase.noConfusion
  cases he with
  | registered hn =>
    simp only [Function.update_of_ne (ne_new hi hn)] at hopening
    refine ⟨hopening, fun hne => ?_⟩
    simp only [Function.update_of_ne (hnew hn)] at hne
    exact hne
  | connected pair hn =>
    simp only [Function.update_of_ne (ne_new hi hn)] at hopening
    refine ⟨hopening, fun hne => ?_⟩
    simp only [Function.update_of_ne (hnew hn)] at hne
    exact hne
  | pinged | ignored | answered | toClient | toServer | closedByServer | closedByClient | stopped =>
    exact hbusy rfl Phase.noConfusion rfl rfl
  | readFailed | rejected | sendFailed => exact hfail rfl
  | pushed htodo | skipped htodo | inserted htodo | closed htodo | listed htodo | removed htodo => exact htail htodo rfl rfl
  | @finished c who result =>
    rw [View.setPhase_phase] at hopening
    split at hopening
    · cases hopening
    · rw [View.setPhase_todo, View.leave_todo]
      exact ⟨by simpa using hopening, id⟩
  | refused | returned | wrote | writerEnded => exact ⟨hopening, id⟩
  | swept =>
    refine ⟨hopening, ?_⟩
    rw [View.setTodo_todo, if_neg (by simp)]
    exact id

theorem client_shape_effect (ht : Trim v h) (hv : Flowing v h) (hfine : Fine v h move v') (he : Effect v move v' es)
    {i : ConnId} {pairId : PairId} {serverId : ServerId} {tx : ConnId} (hi : v.role i = some (.client pairId serverId tx)) :
    ClientShape pairId (pushedTo i (h ++ es)) ∧
      (v'.phase i = some .opening → v'.todo (some i) ≠ [] → pushedTo i (h ++ es) = []) := by
  have hwaits : v'.phase i = some .opening → v'.todo (some i) ≠ [] → pushedTo i h = [] := by
    intro hopening hne
    obtain ⟨hphase, hold⟩ := opening_effect he hi hopening
    exact ht.waits hi hphase (hold hne)
  by_cases hpush : ∃ msg, .pushed i msg ∈ es
  · obtain ⟨msg, hm⟩ := hpush
    obtain ⟨_, _, _, _, _, _, _, hes, _⟩ := pushed_effect he hm
    have hpushed : pushedTo i (h ++ es) = pushedTo i h ++ [msg] := by rw [hes, pushedTo_snoc]
    rw [hpushed]
    obtain ⟨rfl, hnil, hdone⟩ | ⟨hopen, hno, hkind⟩ := pushed_client ht hv hfine he hm hi
    · refine ⟨?_, fun _ hne => absurd hdone hne⟩
      rw [hnil]
      exact .inr ⟨[], [], rfl, fun msg hm => absurd hm List.not_mem_nil, .inl rfl⟩
    · refine ⟨(ht.client hi).snoc hopen hno hkind, fun hopening hne => ?_⟩
      rw [hwaits hopening hne] at hopen
      cases hopen
  · rw [pushedTo_of_not_mem fun msg hm => hpush ⟨msg, hm⟩]
    exact ⟨ht.client hi, hwaits⟩

theorem server_shape_effect (ht : Trim v h) (hv : Flowing v h) (hfine : Fine v h move v') (he : Effect v move v' es)
    {i : ConnId} {pairId : PairId} {serverId : ServerId} {tx : ConnId} (hi : v.role i = some (.client pairId serverId tx)) :
    ServerShape pairId (pushedTo tx (h ++ es)) := by
  by_cases hpush : ∃ msg, .pushed tx msg ∈ es
  · obtain ⟨msg, hm⟩ := hpush
    obtain ⟨a, required, rest, hmove, htodo, _, _, hes, _⟩ := pushed_effect he hm
    have hpushed : pushedTo tx (h ++ es) = pushedTo tx h ++ [msg] := by rw [hes, pushedTo_snoc]
    rw [hpushed]
    refine (ht.server hi).snoc ?_
    rintro x rfl
    obtain ⟨q, y, hbytes, hcarries⟩ := hv.carried a tx _ required (by rw [htodo]; exact List.mem_cons_self)
    obtain rfl := encodeRelayData_pairId hbytes
    have hs : Steady v pairId := by
      have hfront := hcarries.todo
      exact hfine.payload hmove hcarries.short hfront
    obtain ⟨c, hc, hreading, _⟩ := hcarries.task
    have hac := Carries.of_client hv hi hcarries
    rw [hc] at hac
    cases hac
    obtain ⟨n, hn⟩ := hv.opened.1 _ _ _ _ hi
    have hdone := hn.later (.inl hreading)
    refine ⟨mem_pushedTo.mpr (hn.told (by omega)), fun reason hclose => ?_⟩
    exact (hs.noClose ht).pushed (mem_pushedTo.mp hclose) ⟨reason, rfl⟩
  · rw [pushedTo_of_not_mem fun msg hm => hpush ⟨msg, hm⟩]
    exact ht.server hi

/-- Nothing has been sent for a pair that is new. -/
theorem server_shape_fresh {pairId : PairId} (hk : Known v h) (hfresh : ∀ j id tx', v.role j ≠ some (.client pairId id tx'))
    (tx : ConnId) : ServerShape pairId (pushedTo tx h) := by
  intro before x after hmsgs
  have hm : encodeDataFrame (.forward pairId x) ∈ pushedTo tx h := by
    rw [hmsgs]
    simp
  obtain ⟨q, y, j, id, tx', hbytes, _, hj, _⟩ := hk _ (mem_pushedTo.mp hm)
  obtain rfl := encodeRelayData_pairId hbytes
  exact absurd hj (hfresh j id tx')

theorem trim_effect (ht : Trim v h) (hv : Flowing v h) (hfine : Fine v h move v') (he : Effect v move v' es) :
    Trim v' (h ++ es) where
  addressed := addressed_effect ht.addressed hv.sound he
  listed := listed_effect ht hv hfine he
  unborn := unborn_effect ht hv he
  once := by
    intro i pairId serverId tx hi
    obtain hold | ⟨hn, _, _⟩ := client_effect he hi
    · exact once_effect ht hv hfine he hold
    · have hnil := once_new ht he hn hi
      exact ⟨fun ha => absurd (hnil _) ha, fun a => by rw [hnil a]; exact Nat.zero_le _, fun ha => absurd (hnil _) ha,
        fun ha => absurd (hnil _) ha⟩
  client := by
    intro i pairId serverId tx hi
    obtain hold | ⟨hn, rfl, _⟩ := client_effect he hi
    · exact (client_shape_effect ht hv hfine he hold).1
    · rw [List.append_nil, pushedTo_nil hv.known hv.sound.roles hn]
      exact .inl rfl
  waits := by
    intro i pairId serverId tx hi
    obtain hold | ⟨hn, rfl, _⟩ := client_effect he hi
    · exact (client_shape_effect ht hv hfine he hold).2
    · rw [List.append_nil, pushedTo_nil hv.known hv.sound.roles hn]
      exact fun _ _ => rfl
  server := by
    intro i pairId serverId tx hi
    obtain hold | ⟨hn, rfl, hfresh⟩ := client_effect he hi
    · exact server_shape_effect ht hv hfine he hold
    · rw [List.append_nil]
      exact server_shape_fresh hv.known hfresh tx

theorem trim_empty (idleThreshold : Nat) : Trim (view { idleThreshold }) [] where
  addressed a tx msg required hm := by cases a <;> cases hm
  listed hp := absurd rfl hp
  unborn _ _ := ⟨fun {a} _ _ _ hm => (by cases a <;> cases hm), fun hm => absurd hm List.not_mem_nil⟩
  once hi := by cases hi
  client hi := by cases hi
  waits hi := by cases hi
  server hi := by cases hi

/-- **A run in order has the shapes.** A client has been written `PairOpen`, payloads and at most one `PairClose`, and
among what its server has been sent, payloads of the pair stand behind its `PairInbound` and before every `PairClose`. -/
theorem pair_trace_shape {idleThreshold : Nat} {moves : List Move} {s : Relay}
    (hr : Steps.run (Steps.traced step emit) ({ idleThreshold }, []) moves = some (s, h)) (hfits : Fits h)
    (horder : Steps.Meets (Steps.traced step emit) (fun sh move => inOrder sh move = true) ({ idleThreshold }, []) moves)
    {i : ConnId} {pairId : PairId} {serverId : ServerId} {tx : ConnId} (hi : s.role i = some (.client pairId serverId tx)) :
    ClientShape pairId (wroteAt i h) ∧ ServerShape pairId (wroteAt tx h) ∧ ServerShape pairId (pushedTo tx h) := by
  obtain ⟨hv, ht⟩ := run_flowing (P := Trim)
    (fun hw hs hc hv _ _ he ht => trim_effect ht hv (fine_of_inOrder hw hs hc) he) (trim_empty idleThreshold) hr hfits horder
  have hpre : ∀ {j who}, s.role j = some who → wroteAt j h <+: pushedTo j h := by
    intro j who hj
    obtain ⟨k, hk, _⟩ := Option.map_eq_some_iff.mp hj
    exact (hv.queued j k.channel (channel_eq hk)).1
  obtain ⟨g, htx⟩ := hv.sound.roles.client hi
  exact ⟨(ht.client hi).of_initial (hpre hi), (ht.server hi).of_initial (hpre htx), ht.server hi⟩

end Relay

/-! ## Runs in order and out of order -/

theorem order_passed :
    Steps.Meets (Steps.traced Relay.step Relay.emit) (fun sh move => Relay.inOrder sh move = true) ({}, []) passedMoves := by
  decide +kernel

theorem pair_trace_shape_sample : Relay.ClientShape pairA (Relay.wroteAt 2 passedTrace.2) ∧
    Relay.ServerShape pairA (Relay.wroteAt 0 passedTrace.2) ∧ Relay.ServerShape pairA (Relay.pushedTo 0 passedTrace.2) :=
  Relay.pair_trace_shape run_passedMoves fits_passed order_passed (by rfl)

/-- A server that is told of a pair sends a payload before the client has been told. -/
def earlyMoves : List Relay.Move :=
  [.server (encodeRelayCtrl (.serverRegister serverA [] [])) true, .advance 0,
    .client serverA (encodeRelayCtrl (.clientConnect serverA)) true pairA 0, .advance 1, .advance 1,
    .read 0 (.binary (encodeRelayData (.forward pairA [0x2a]))) 1, .advance 0, .write 1 true]

def earlyTrace : Relay × List Relay.Event :=
  (Steps.run (Steps.traced Relay.step Relay.emit) ({}, []) earlyMoves).getD ({}, [])

/-- A server closes the pair, and the client's next message is still forwarded. -/
def lateMoves : List Relay.Move :=
  [.server (encodeRelayCtrl (.serverRegister serverA [] [])) true, .advance 0,
    .client serverA (encodeRelayCtrl (.clientConnect serverA)) true pairA 0, .advance 1, .advance 1, .advance 1,
    .read 0 (.binary (encodeRelayCtrl (.pairClose pairA .normal))) 1, .advance 0, .advance 0, .read 1 (.binary [0x2b]) 1,
    .advance 1, .write 0 true, .write 0 true, .write 0 true, .write 0 true]

def lateTrace : Relay × List Relay.Event :=
  (Steps.run (Steps.traced Relay.step Relay.emit) ({}, []) lateMoves).getD ({}, [])

/-- **Other runs need not have them**: a payload before `PairOpen`, and one behind `PairClose`. -/
theorem pair_trace_misshapen :
    (¬∀ idleThreshold moves s h, Steps.run (Steps.traced Relay.step Relay.emit) ({ idleThreshold }, []) moves = some (s, h) →
      Relay.Fits h → ∀ i pairId serverId tx, s.role i = some (.client pairId serverId tx) →
      Relay.ClientShape pairId (Relay.wroteAt i h)) ∧
    ¬∀ idleThreshold moves s h, Steps.run (Steps.traced Relay.step Relay.emit) ({ idleThreshold }, []) moves = some (s, h) →
      Relay.Fits h → ∀ i pairId serverId tx, s.role i = some (.client pairId serverId tx) →
      Relay.ServerShape pairId (Relay.wroteAt tx h) := by
  constructor
  · intro hall
    have hfits : Relay.Fits earlyTrace.2 := by decide +kernel
    have hshape := hall 0 earlyMoves earlyTrace.1 earlyTrace.2 (by rfl) hfits 1 pairA serverA 0 (by rfl)
    have hwrote : Relay.wroteAt 1 earlyTrace.2 = [Relay.encodeDataFrame (.forward pairA [0x2a])] := by decide +kernel
    rw [hwrote] at hshape
    obtain h | ⟨_, _, h, _⟩ := hshape <;> cases h
  · intro hall
    have hfits : Relay.Fits lateTrace.2 := by decide +kernel
    have hshape := hall 0 lateMoves lateTrace.1 lateTrace.2 (by rfl) hfits 1 pairA serverA 0 (by rfl)
    have hwrote : Relay.wroteAt 0 lateTrace.2 =
        [Relay.encodeCtrlFrame .serverRegisterOk, Relay.encodeCtrlFrame (.pairInbound pairA),
          Relay.encodeCtrlFrame (.pairClose pairA .normal)] ++ Relay.encodeDataFrame (.forward pairA [0x2b]) :: [] := by
      decide +kernel
    exact (hshape _ _ _ hwrote).2 .normal (by simp)

end CliPocket
