import CliPocket.Relay.Cleanup

/-!
# The guillotine

`sweep_once` among the other tasks of the relay, on a clock. The guillotine lists the idle pairs; for each it sends the
close to both ends and then removes the pair. Its task waits where a queue is full.

- `Relay.progress`: the pair that a read touches; `lookup_step`: nothing else stamps a pair;
- `Relay.Inserts`, `Relay.Settled`: a pair that has been in the table is not inserted again;
- `Sweeping.step`, `Sweeping.events`: the relay on a clock, and what its guillotine does;
- `guillotine_kills_idle`: **what holds of the guillotine in every run that does not hinder it**.
-/

namespace CliPocket

namespace Relay

open Function (update)

variable {v v' : View} {move : Move} {es : List Event} {s t : Relay}

/-! ## Progress -/

/-- The pair that a read touches. -/
def progress (s : Relay) (c : ConnId) : Incoming → Option PairId
  | .binary bytes =>
    match s.role c with
    | some (.server serverId _) =>
      match decodeRelay bytes with
      | .ok (.data (.forward pairId _)) =>
        (s.pairs.lookup pairId).bind fun pair => if pair.serverId = serverId then some pairId else none
      | _ => none
    | some (.client pairId _ _) =>
      match decodeRelay bytes with
      | .ok (.ctrl (.pairClose ..)) => none
      | _ => some pairId
    | none => none
  | _ => none

/-- What is no close of a client's pair is its progress. -/
theorem progress_client {c : ConnId} {own : PairId} {serverId : ServerId} {tx : ConnId} {bytes : List UInt8}
    (hrole : s.role c = some (.client own serverId tx))
    (hother : ∀ closing reason, decodeRelay bytes ≠ .ok (.ctrl (.pairClose closing reason))) :
    s.progress c (.binary bytes) = some own := by
  unfold progress
  rw [hrole]
  dsimp only
  cases hdecode : decodeRelay bytes with
  | error e => rfl
  | ok wire =>
    cases wire with
    | data data => rfl
    | ctrl ctrl =>
      cases ctrl with
      | pairClose closing reason => exact absurd hdecode (hother closing reason)
      | _ => rfl

/-- A turn of a read loop stamps no pair but that one. -/
theorem lookup_turn {c : ConnId} {k : Conn} (hc : s.conns[c]? = some k) (msg : Incoming) (now : Nat) {pairId : PairId}
    {pair : Pair} (h : (s.turn c k.role msg now).1.pairs.lookup pairId = some pair) :
    s.pairs.lookup pairId = some pair ∨ s.progress c msg = some pairId := by
  have hclose : ∀ closing reason, (s.closePair closing reason).1.pairs.lookup pairId = some pair →
      s.pairs.lookup pairId = some pair := by
    intro closing reason h
    obtain ⟨_, heq⟩ | ⟨_, _, heq⟩ := s.closePair_cases closing reason
    · rwa [heq] at h
    · rw [heq] at h
      exact (lookup_erase_eq_some h).2
  have htouch : ∀ touched, (s.touch touched now).pairs.lookup pairId = some pair →
      s.pairs.lookup pairId = some pair ∨ touched = pairId := by
    intro touched h
    by_cases hne : pairId = touched
    · exact .inr hne.symm
    · rw [lookup_touch_ne hne] at h
      exact .inl h
  have hrole : s.role c = some k.role := role_eq hc
  cases hk : k.role with
  | server serverId g =>
    rw [hk] at h hrole
    cases msg with
    | binary bytes =>
      simp only [turn, serverRead] at h
      simp only [progress, hrole]
      split at h
      · exact .inl h
      · next closing reason _ => exact .inl (hclose closing reason h)
      · exact .inl h
      · next target payload hdecode =>
        split at h
        · exact .inl h
        · next found hfound =>
          split at h
          · exact .inl h
          · next hsame =>
            refine (htouch target h).imp_right fun heq => ?_
            rw [hdecode]
            dsimp only
            rw [hfound, Option.bind_some, if_pos (not_not.mp hsame), heq]
    | _ => exact .inl h
  | client own serverId tx =>
    rw [hk] at h hrole
    cases msg with
    | binary bytes =>
      simp only [turn, clientRead] at h
      split at h
      · next closing reason _ => exact .inl (hclose closing reason h)
      · next hother =>
        refine (htouch own h).imp_right fun heq => ?_
        rw [progress_client hrole hother, heq]
    | _ => exact .inl h

/-- **Stamps.** A pair in the table has been there with the same stamp, or the move touches it, or it is inserted. -/
theorem lookup_step (hs : s.step move = some t) {pairId : PairId} {pair : Pair}
    (h : t.pairs.lookup pairId = some pair) :
    s.pairs.lookup pairId = some pair ∨ (∃ c msg now, move = .read c msg now ∧ s.progress c msg = some pairId) ∨
      ∃ a, .insertPair pair ∈ s.todo a ∧ pair.pairId = pairId := by
  have hperform : ∀ {op : Op} {u : Relay} {outcome : Outcome} {a : Option ConnId}, op ∈ s.todo a →
      s.perform op = some (u, outcome) → u.pairs.lookup pairId = some pair →
      s.pairs.lookup pairId = some pair ∨ ∃ a, .insertPair pair ∈ s.todo a ∧ pair.pairId = pairId := by
    intro op u outcome a hop hp hu
    cases op with
    | send tx msg required =>
      simp only [perform] at hp
      split at hp
      · cases hp
      · split at hp
        · cases hp
          exact .inl hu
        · cases hp
        · cases hp
          exact .inl hu
    | insertPair new =>
      cases hp
      by_cases hne : pairId = new.pairId
      · subst hne
        have hu : (s.pairs.insert new.pairId new).lookup new.pairId = some pair := hu
        rw [AList.lookup_insert] at hu
        cases hu
        exact .inr ⟨a, hop, rfl⟩
      · have hu : (s.pairs.insert new.pairId new).lookup pairId = some pair := hu
        rw [AList.lookup_insert_ne hne] at hu
        exact .inl hu
    | closePair closing reason =>
      obtain ⟨_, heq⟩ | ⟨_, _, heq⟩ := s.closePair_cases closing reason
      · simp only [perform, heq] at hp
        cases hp
        exact .inl hu
      · simp only [perform, heq] at hp
        cases hp
        exact .inl (lookup_erase_eq_some hu).2
    | closePairsOf serverId =>
      cases hp
      exact .inl hu
    | removePair removed =>
      cases hp
      exact .inl (lookup_erase_eq_some hu).2
  cases move with
  | server first admitted =>
    cases hs
    obtain heq | ⟨serverId, _, heq⟩ := s.runServerSide_cases first admitted
    · rw [heq] at h
      exact .inl h
    · rw [heq] at h
      exact .inl h
  | client target first admitted new now =>
    simp only [step] at hs
    split at hs
    · cases hs
      obtain heq | ⟨slot, _, heq⟩ := s.runClientSide_cases target first admitted new now
      · rw [heq] at h
        exact .inl h
      · rw [heq] at h
        exact .inl h
    · cases hs
  | read c msg now =>
    simp only [step] at hs
    split at hs
    · cases hs
    · next k hc =>
      have hturn : t = (s.turn c k.role msg now).1.settle c k (s.turn c k.role msg now).2 := by
        split at hs
        · exact (Option.some.inj hs).symm
        · exact (Option.some.inj hs).symm
        · cases hs
      rw [hturn, pairs_settle] at h
      exact (lookup_turn hc msg now h).imp_right fun hp => .inl ⟨c, msg, now, rfl, hp⟩
  | advance c =>
    simp only [step] at hs
    split at hs
    · cases hs
    · next k hc =>
      split at hs
      · cases hs
      · next op rest htodo =>
        have hop : op ∈ s.todo (some c) := by
          rw [todo_eq hc, htodo]
          exact List.mem_cons_self
        split at hs
        · cases hs
        · next u more hp =>
          cases hs
          exact (hperform hop hp h).imp_right .inr
        · next u error hp =>
          cases hs
          rw [pairs_fail] at h
          exact (hperform hop hp h).imp_right .inr
  | finish c =>
    obtain ⟨_, _, ⟨_, _, _, _, _, _, rfl⟩ | ⟨_, _, _, _, _, _, _, rfl⟩ | ⟨_, _, _, rfl⟩⟩ := step_finish hs
    · rw [pairs_mapConn, pairs_unregister] at h
      exact .inl h
    · exact .inl h
    · exact .inl h
  | write c ok =>
    simp only [step] at hs
    split at hs
    · cases hs
    · obtain ⟨⟨channel, written⟩, _, rfl⟩ := Option.map_eq_some_iff.mp hs
      exact .inl h
  | sweep now =>
    simp only [step] at hs
    split at hs
    · cases hs
      exact .inl h
    · cases hs
  | sweepAdvance =>
    simp only [step] at hs
    split at hs
    · cases hs
    · next op rest htodo =>
      have hop : op ∈ s.todo none := by
        show op ∈ s.sweeper
        rw [htodo]
        exact List.mem_cons_self
      split at hs
      · next u more hp =>
        cases hs
        exact (hperform hop hp h).imp_right .inr
      · cases hs

/-! ## Insertions -/

/-- The insertion of a pair is what its task does first. -/
def Inserts (v : View) : Prop :=
  ∀ a pair, .insertPair pair ∈ v.todo a → ∃ rest, v.todo a = .insertPair pair :: rest ∧ ∀ other, .insertPair other ∉ rest

/-- How a move changes what is left to do, as far as insertions go. -/
inductive TodoChange (v v' : View) : Prop
  | same (h : v'.todo = v.todo)
  | set {a : Option ConnId} {ops : List Op} (hops : ∀ pair, .insertPair pair ∉ ops) (h : v'.todo = update v.todo a ops)
  | advanced {a : Option ConnId} {op : Op} {more rest : List Op} (htodo : v.todo a = op :: rest)
      (hmore : ∀ pair, .insertPair pair ∉ more) (h : v'.todo = update v.todo a (more ++ rest))
  | opened (pair : Pair) (hfresh : ∀ i serverId tx, v.role i ≠ some (.client pair.pairId serverId tx))
      (h : v'.todo = update v.todo (some pair.clientTx) (openingOps pair))

theorem todo_change (he : Effect v move v' es) : TodoChange v v' := by
  have hfail : ∀ {c who phase error}, TodoChange v (v.fail c who phase error) := by
    intro c who phase error
    exact .set (routine_failing who phase error).noInsert (by rw [View.fail_todo])
  cases he with
  | refused | returned | wrote | writerEnded => exact .same rfl
  | registered => exact .set (routine_ctrl _ _ _).noInsert rfl
  | connected pair _ _ _ hfresh => exact .opened pair hfresh rfl
  | pinged | ignored => exact .set (fun pair hm => by cases hm) rfl
  | answered => exact .set (routine_ctrl _ _ _).noInsert rfl
  | toClient | toServer => exact .set (fun pair hm => by simp at hm) rfl
  | closedByServer => exact .set (routine_closeOps v _ _).noInsert rfl
  | @closedByClient c pairId serverId tx =>
    exact .set (routine_append (routine_closeOps v _ _) (routine_farewell 0 (.client pairId serverId tx))).noInsert rfl
  | stopped => exact .set (routine_farewell _ _).noInsert rfl
  | readFailed | rejected | sendFailed => exact hfail
  | pushed htodo | skipped htodo | inserted htodo | removed htodo => exact .advanced htodo routine_nil.noInsert rfl
  | closed htodo => exact .advanced htodo (routine_closeOps v _ _).noInsert rfl
  | listed htodo => exact .advanced htodo (routine_closePairs _).noInsert rfl
  | finished who => exact .same (by simp)
  | swept => exact .set (routine_guillotine _).noInsert rfl

/-- An insertion is old, or of a new client's pair. -/
theorem insert_effect (he : Effect v move v' es) {a : Option ConnId} {pair : Pair} (hm : .insertPair pair ∈ v'.todo a) :
    .insertPair pair ∈ v.todo a ∨ ∀ i serverId tx, v.role i ≠ some (.client pair.pairId serverId tx) := by
  cases todo_change he with
  | same h => exact .inl (h ▸ hm)
  | @set b ops hops h =>
    rw [h, Function.update_apply] at hm
    split at hm
    · exact absurd hm (hops pair)
    · exact .inl hm
  | @advanced b op more rest htodo hmore h =>
    rw [h, Function.update_apply] at hm
    split at hm
    · next hab =>
      rw [hab, htodo]
      rcases List.mem_append.mp hm with hm | hm
      · exact absurd hm (hmore pair)
      · exact .inl (List.mem_cons_of_mem _ hm)
    · exact .inl hm
  | opened new hfresh h =>
    rw [h, Function.update_apply] at hm
    split at hm
    · simp only [openingOps, List.mem_cons, Op.insertPair.injEq, reduceCtorEq, List.not_mem_nil, or_false] at hm
      rw [hm]
      exact .inr hfresh
    · exact .inl hm

theorem inserts_effect (hv : Inserts v) (he : Effect v move v' es) : Inserts v' := by
  intro a pair hm
  cases todo_change he with
  | same h =>
    rw [h] at hm ⊢
    exact hv a pair hm
  | @set b ops hops h =>
    rw [h, Function.update_apply] at hm ⊢
    split at hm
    · exact absurd hm (hops pair)
    · next hne =>
      rw [if_neg hne]
      exact hv a pair hm
  | @advanced b op more rest htodo hmore h =>
    rw [h, Function.update_apply] at hm ⊢
    split at hm
    · next hab =>
      rcases List.mem_append.mp hm with hm | hm
      · exact absurd hm (hmore pair)
      · obtain ⟨rest', heq, hnone⟩ := hv b pair (by rw [htodo]; exact List.mem_cons_of_mem _ hm)
        rw [htodo] at heq
        cases heq
        exact absurd hm (hnone pair)
    · next hne =>
      rw [if_neg hne]
      exact hv a pair hm
  | opened new hfresh h =>
    rw [h, Function.update_apply] at hm ⊢
    split at hm
    · next hab =>
      rw [if_pos hab]
      simp only [openingOps, List.mem_cons, Op.insertPair.injEq, reduceCtorEq, List.not_mem_nil, or_false] at hm
      rw [hm]
      exact ⟨_, rfl, fun other => by simp⟩
    · next hne =>
      rw [if_neg hne]
      exact hv a pair hm

/-- The client of the pair has come, and the insertion is behind it. -/
structure Settled (v : View) (pairId : PairId) : Prop where
  client : ∃ c serverId tx, v.role c = some (.client pairId serverId tx)
  done : ∀ a pair, .insertPair pair ∈ v.todo a → pair.pairId ≠ pairId

theorem settled_effect {pairId : PairId} (hv : Settled v pairId) (he : Effect v move v' es) : Settled v' pairId where
  client := by
    obtain ⟨c, serverId, tx, hc⟩ := hv.client
    exact ⟨c, serverId, tx, role_effect he hc⟩
  done := by
    intro a pair hm
    rcases insert_effect he hm with hold | hfresh
    · exact hv.done a pair hold
    · rintro rfl
      obtain ⟨c, serverId, tx, hc⟩ := hv.client
      exact hfresh c serverId tx hc

/-- What is in the table is settled. -/
def Tabled (v : View) : Prop := ∀ pairId pair, v.pairs pairId = some pair → Settled v pairId

theorem tabled_effect (hv : Tabled v) (hw : Sound v) (hw' : Sound v') (hinserts : Inserts v) (hinserting : Inserting v)
    (he : Effect v move v' es) : Tabled v' := by
  intro pairId pair hp'
  obtain hp | ⟨a, new, rest, rfl, htodo, rfl, _, htodo'⟩ := pair_effect he hp'
  · exact settled_effect (hv pairId pair hp) he
  · obtain rfl : new.pairId = pairId := (hw'.pairs hp').1
    have hfront : .insertPair new ∈ v.todo a := by
      rw [htodo]
      exact List.mem_cons_self
    have hat : v.role new.clientTx = some (.client new.pairId new.serverId new.serverTx) := hw.todo hfront
    refine ⟨⟨_, _, _, role_effect he hat⟩, fun b other hm heq => ?_⟩
    rw [htodo', Function.update_apply] at hm
    split at hm
    · -- Behind the insertion there is no other.
      obtain ⟨rest', hrest, hnone⟩ := hinserts a new hfront
      rw [htodo] at hrest
      cases hrest
      exact hnone other hm
    · next hne =>
      obtain ⟨ha, _⟩ := hinserting a new hfront
      obtain ⟨hb, _⟩ := hinserting b other hm
      have hother : v.role other.clientTx = some (.client other.pairId other.serverId other.serverTx) := hw.todo hm
      rw [heq] at hother
      exact hne (by rw [hb, ha, hw.roles.unique hother hat])

/-! ## What the other tasks leave alone -/

/-- The guillotine's task and its threshold stay as they are. -/
structure Aside (s t : Relay) : Prop where
  sweeper : t.sweeper = s.sweeper
  idleThreshold : t.idleThreshold = s.idleThreshold

theorem Aside.trans {u : Relay} (h : Aside s t) (h' : Aside t u) : Aside s u :=
  ⟨h'.sweeper.trans h.sweeper, h'.idleThreshold.trans h.idleThreshold⟩

theorem aside_unregister (s : Relay) (serverId : ServerId) (g : Nat) : Aside s (s.unregister serverId g) := by
  unfold unregister
  split
  · split <;> exact ⟨rfl, rfl⟩
  · exact ⟨rfl, rfl⟩

theorem aside_touch (s : Relay) (pairId : PairId) (now : Nat) : Aside s (s.touch pairId now) := by
  unfold touch
  split <;> exact ⟨rfl, rfl⟩

theorem aside_closePair (s : Relay) (pairId : PairId) (reason : PairCloseReason) :
    Aside s (s.closePair pairId reason).1 := by
  obtain ⟨_, heq⟩ | ⟨_, _, heq⟩ := s.closePair_cases pairId reason
  · rw [heq]
    exact ⟨rfl, rfl⟩
  · rw [heq]
    exact ⟨rfl, rfl⟩

theorem aside_turn (s : Relay) (c : ConnId) (who : Role) (msg : Incoming) (now : Nat) :
    Aside s (s.turn c who msg now).1 := by
  cases who with
  | server serverId g =>
    cases msg with
    | binary bytes =>
      simp only [turn, serverRead]
      split
      · exact ⟨rfl, rfl⟩
      · exact aside_closePair s _ _
      · exact ⟨rfl, rfl⟩
      · split
        · exact ⟨rfl, rfl⟩
        · split
          · exact ⟨rfl, rfl⟩
          · exact aside_touch s _ _
    | _ => exact ⟨rfl, rfl⟩
  | client own serverId tx =>
    cases msg with
    | binary bytes =>
      simp only [turn, clientRead]
      split
      · exact aside_closePair s _ _
      · exact aside_touch s _ _
    | _ => exact ⟨rfl, rfl⟩

theorem aside_fail (s : Relay) (c : ConnId) (conn : Conn) (error : RelayError) : Aside s (s.fail c conn error) := by
  unfold Relay.fail
  split
  · exact (aside_unregister s _ _).trans ⟨rfl, rfl⟩
  · exact ⟨rfl, rfl⟩
  · exact ⟨rfl, rfl⟩

theorem aside_perform {op : Op} {outcome : Outcome} (hp : s.perform op = some (t, outcome)) : Aside s t := by
  cases op with
  | send tx msg required =>
    simp only [perform] at hp
    split at hp
    · cases hp
    · split at hp <;> cases hp <;> exact ⟨rfl, rfl⟩
  | insertPair pair | closePairsOf serverId | removePair pairId =>
    cases hp
    exact ⟨rfl, rfl⟩
  | closePair pairId reason =>
    cases hp
    exact aside_closePair s pairId reason

/-- The moves of the guillotine. -/
def Move.guillotine : Move → Bool
  | .sweep _ | .sweepAdvance => true
  | _ => false

theorem step_aside (hs : s.step move = some t) (hmove : move.guillotine = false) : Aside s t := by
  cases move with
  | server first admitted =>
    cases hs
    obtain heq | ⟨serverId, _, heq⟩ := s.runServerSide_cases first admitted <;> rw [heq] <;> exact ⟨rfl, rfl⟩
  | client target first admitted new now =>
    simp only [step] at hs
    split at hs
    · cases hs
      obtain heq | ⟨slot, _, heq⟩ := s.runClientSide_cases target first admitted new now <;> rw [heq] <;> exact ⟨rfl, rfl⟩
    · cases hs
  | read c msg now =>
    simp only [step] at hs
    split at hs
    · cases hs
    · next k _ =>
      have hsettle : Aside s ((s.turn c k.role msg now).1.settle c k (s.turn c k.role msg now).2) := by
        refine (aside_turn s c k.role msg now).trans ?_
        cases (s.turn c k.role msg now).2 with
        | next todo | stop todo => exact ⟨rfl, rfl⟩
        | fail error => exact aside_fail _ _ _ _
      split at hs <;> cases hs <;> exact hsettle
  | advance c =>
    simp only [step] at hs
    split at hs
    · cases hs
    · split at hs
      · cases hs
      · split at hs
        · cases hs
        · next hp =>
          cases hs
          exact (aside_perform hp).trans ⟨rfl, rfl⟩
        · next hp =>
          cases hs
          exact (aside_perform hp).trans (aside_fail _ _ _ _)
  | finish c =>
    obtain ⟨_, _, ⟨_, _, _, _, _, _, rfl⟩ | ⟨_, _, _, _, _, _, _, rfl⟩ | ⟨_, _, _, rfl⟩⟩ := step_finish hs
    · exact (aside_unregister s _ _).trans ⟨rfl, rfl⟩
    · exact ⟨rfl, rfl⟩
    · exact ⟨rfl, rfl⟩
  | write c ok =>
    simp only [step] at hs
    split at hs
    · cases hs
    · obtain ⟨⟨channel, written⟩, _, rfl⟩ := Option.map_eq_some_iff.mp hs
      exact ⟨rfl, rfl⟩
  | sweep now | sweepAdvance => cases hmove

/-- What is gone stays gone. -/
theorem gone_effect {pairId : PairId} (hv : Settled v pairId) (hw' : Sound v') (he : Effect v move v' es)
    (hgone : v.pairs pairId = none) : v'.pairs pairId = none := by
  by_contra hne
  obtain ⟨pair, hp'⟩ := Option.ne_none_iff_exists'.mp hne
  obtain hp | ⟨a, new, rest, rfl, htodo, rfl, _, _⟩ := pair_effect he hp'
  · rw [hgone] at hp
    cases hp
  · refine hv.done a new ?_ (hw'.pairs hp').1
    rw [htodo]
    exact List.mem_cons_self

end Relay

/-! ## The guillotine on a clock -/

/-- The relay and the time. -/
structure Sweeping where
  relay : Relay
  clock : Nat := 0

/-- What the guillotine does. -/
inductive SweepEvent
  | listed (pair : Pair)
  /-- It is polled and still waits for room. -/
  | waited
  | signalled (tx : ConnId) (msg : ServerMsg)
  /-- The queue is closed. -/
  | unheard (tx : ConnId) (msg : ServerMsg)
  | removed (pairId : PairId)
  deriving DecidableEq

/-- The time that a move reads. -/
def Relay.Move.time : Relay.Move → Option Nat
  | .client _ _ _ _ now | .read _ _ now | .sweep now => some now
  | _ => none

namespace Sweeping

/-- A move at a time. The guillotine's task may be polled where it waits. -/
def step (x : Sweeping) (i : Nat × Relay.Move) : Option Sweeping :=
  if x.clock ≤ i.1 ∧ (i.2.time = none ∨ i.2.time = some i.1) then
    match i.2 with
    | .sweepAdvance =>
      if x.relay.sweeper = [] then none
      else some { relay := (x.relay.step .sweepAdvance).getD x.relay, clock := i.1 }
    | move => (x.relay.step move).map fun relay => { relay, clock := i.1 }
  else none

/-- What the guillotine finds at its next operation. -/
def opEvents (relay : Relay) : Op → List SweepEvent
  | .send tx msg _ =>
    match relay.channel tx with
    | none => [.waited]
    | some channel =>
      match channel.send msg with
      | .sent _ => [.signalled tx msg]
      | .closed => [.unheard tx msg]
      | .full => [.waited]
  | .removePair pairId => [.removed pairId]
  | _ => []

def events (x : Sweeping) (i : Nat × Relay.Move) : List SweepEvent :=
  match i.2 with
  | .sweep now =>
    (x.relay.pairs.entries.filter fun entry => entry.2.lastProgress + x.relay.idleThreshold < now).map fun entry =>
      .listed entry.2
  | .sweepAdvance => (x.relay.sweeper.take 1).flatMap (opEvents x.relay)
  | _ => []

/-- The pairs that the guillotine is about to close. -/
def closing (x : Sweeping) : List PairId :=
  x.relay.sweeper.filterMap fun op =>
    match op with
    | .removePair pairId => some pairId
    | _ => none

/-- The end has been told, or its queue is closed. -/
def Told (history : List SweepEvent) (tx : ConnId) (msg : ServerMsg) : Prop :=
  .signalled tx msg ∈ history ∨ .unheard tx msg ∈ history

/-- What is asked of the guillotine. -/
structure Executes (idleThreshold : Nat) (x : Sweeping) (history : List SweepEvent) : Prop where
  /-- It never waits for a peer. -/
  neverWaits : .waited ∉ history
  /-- With a listed pair there is something left to do, or it is gone and both its ends have been told. -/
  kills : ∀ pair, .listed pair ∈ history → (∃ op ∈ Relay.guillotine pair, op ∈ x.relay.sweeper) ∨
    x.relay.pairs.lookup pair.pairId = none ∧
      Told history pair.serverTx (Relay.encodeCtrlFrame (.pairClose pair.pairId .stuck)) ∧
      Told history pair.clientTx (Relay.encodeCtrlFrame (.pairClose pair.pairId .stuck))
  /-- No other pair is removed. -/
  only : ∀ pairId, .removed pairId ∈ history → ∃ pair, .listed pair ∈ history ∧ pair.pairId = pairId
  /-- A pair that is being closed is idle at that time. -/
  idle : ∀ pairId ∈ x.closing, ∀ pair, x.relay.pairs.lookup pairId = some pair →
    pair.lastProgress + idleThreshold < x.clock

/-- The queue takes the message, or is closed. -/
def hasRoom (relay : Relay) : Op → Bool
  | .send tx _ _ =>
    match relay.channel tx with
    | some channel => channel.closed || channel.queue.length < channel.capacity
    | none => false
  | _ => true

/-- Where the guillotine sends there is room, and no payload of a pair comes while the guillotine is about to close it. -/
def Unhindered (x : Sweeping) (i : Nat × Relay.Move) : Prop :=
  match i.2 with
  | .sweepAdvance => (x.relay.sweeper.head?.all (hasRoom x.relay)) = true
  | .read c msg _ => ∀ pairId ∈ x.closing, x.relay.progress c msg ≠ some pairId
  | _ => True

/-- What is done of an operation. -/
def Done (x : Sweeping) (history : List SweepEvent) : Op → Prop
  | .send tx msg _ => Told history tx msg
  | .removePair pairId => x.relay.pairs.lookup pairId = none
  | _ => False

/-- What holds of the guillotine. -/
structure Sweeps (idleThreshold : Nat) (x : Sweeping) (history : List SweepEvent) : Prop where
  wf : x.relay.Wf
  inserting : Relay.Inserting x.relay.view
  inserts : Relay.Inserts x.relay.view
  tabled : Relay.Tabled x.relay.view
  threshold : x.relay.idleThreshold = idleThreshold
  waits : .waited ∉ history
  settled : ∀ pair, .listed pair ∈ history → Relay.Settled x.relay.view pair.pairId
  ops : ∀ pair, .listed pair ∈ history → ∀ op ∈ Relay.guillotine pair, op ∈ x.relay.sweeper ∨ x.Done history op
  form : ∀ op ∈ x.relay.sweeper, ∃ pair, .listed pair ∈ history ∧ op ∈ Relay.guillotine pair
  only : ∀ pairId, .removed pairId ∈ history → ∃ pair, .listed pair ∈ history ∧ pair.pairId = pairId
  idle : ∀ pairId ∈ x.closing, ∀ pair, x.relay.pairs.lookup pairId = some pair →
    pair.lastProgress + idleThreshold < x.clock

variable {idleThreshold : Nat} {x y : Sweeping} {history : List SweepEvent}

theorem mem_closing {pairId : PairId} : pairId ∈ x.closing ↔ .removePair pairId ∈ x.relay.sweeper := by
  unfold closing
  rw [List.mem_filterMap]
  constructor
  · rintro ⟨op, hop, heq⟩
    split at heq
    · cases heq
      exact hop
    · cases heq
  · exact fun hop => ⟨_, hop, rfl⟩

theorem removePair_mem_guillotine {pairId : PairId} {pair : Pair} :
    .removePair pairId ∈ Relay.guillotine pair ↔ pair.pairId = pairId := by
  simp [Relay.guillotine, eq_comm]

theorem Sweeps.executes (h : Sweeps idleThreshold x history) : Executes idleThreshold x history where
  neverWaits := h.waits
  kills := by
    intro pair hlisted
    by_cases hleft : ∃ op ∈ Relay.guillotine pair, op ∈ x.relay.sweeper
    · exact .inl hleft
    · have hdone : ∀ op ∈ Relay.guillotine pair, x.Done history op := fun op hop =>
        (h.ops pair hlisted op hop).resolve_left fun hm => hleft ⟨op, hop, hm⟩
      exact .inr ⟨hdone (.removePair pair.pairId) (by simp [Relay.guillotine]),
        hdone (.send pair.serverTx (Relay.encodeCtrlFrame (.pairClose pair.pairId .stuck)) false) (by simp [Relay.guillotine]),
        hdone (.send pair.clientTx (Relay.encodeCtrlFrame (.pairClose pair.pairId .stuck)) false) (by simp [Relay.guillotine])⟩
  only := h.only
  idle := h.idle

/-- What is told stays told. -/
theorem Done.mono {op : Op} {events : List SweepEvent} (h : x.Done history op)
    (hgone : ∀ pairId, op = .removePair pairId → x.relay.pairs.lookup pairId = none → y.relay.pairs.lookup pairId = none) :
    y.Done (history ++ events) op := by
  cases op with
  | send tx msg required => exact h.imp (List.mem_append_left _) (List.mem_append_left _)
  | removePair pairId => exact hgone pairId rfl h
  | _ => exact h

/-- A listed pair is among the old ones. -/
theorem settled_of_closing (h : Sweeps idleThreshold x history) {pairId : PairId} (hm : pairId ∈ x.closing) :
    Relay.Settled x.relay.view pairId := by
  obtain ⟨pair, hlisted, hop⟩ := h.form _ (mem_closing.mp hm)
  rw [← removePair_mem_guillotine.mp hop]
  exact h.settled pair hlisted

/-- Another task's move. -/
theorem sweeps_aside (h : Sweeps idleThreshold x history) {time : Nat} {move : Relay.Move} {relay : Relay}
    (hclock : x.clock ≤ time) (hs : x.relay.step move = some relay) (hmove : move.guillotine = false)
    (hfree : x.Unhindered (time, move)) : Sweeps idleThreshold { relay, clock := time } history := by
  have haside := Relay.step_aside hs hmove
  have heffect := Relay.step_effect h.wf hs
  have hwf := h.wf.step hs
  refine ⟨hwf, Relay.inserting_effect h.inserting h.wf.sound heffect, Relay.inserts_effect h.inserts heffect,
    Relay.tabled_effect h.tabled h.wf.sound hwf.sound h.inserts h.inserting heffect, haside.idleThreshold.trans h.threshold,
    h.waits, fun pair hlisted => Relay.settled_effect (h.settled pair hlisted) heffect, ?_, ?_, h.only, ?_⟩
  · intro pair hlisted op hop
    refine (h.ops pair hlisted op hop).imp (fun hm => by rw [haside.sweeper]; exact hm) fun hdone => ?_
    have hmono := @Done.mono x { relay, clock := time } history op [] hdone ?_
    · rwa [List.append_nil] at hmono
    · rintro pairId rfl hnone
      have hsettled := h.settled pair hlisted
      rw [removePair_mem_guillotine.mp hop] at hsettled
      exact Relay.lookup_eq_none (Relay.gone_effect hsettled hwf.sound heffect (by simp [Relay.view, hnone]))
  · intro op hop
    have hop' : op ∈ relay.sweeper := hop
    rw [haside.sweeper] at hop'
    exact h.form op hop'
  · intro pairId hm pair hp
    have hm' : pairId ∈ x.closing := by
      rw [mem_closing] at hm ⊢
      rw [← haside.sweeper]
      exact hm
    rcases Relay.lookup_step hs hp with hold | ⟨c, msg, now, rfl, hprogress⟩ | ⟨a, hinsert, hid⟩
    · exact Nat.lt_of_lt_of_le (h.idle pairId hm' pair hold) hclock
    · exact absurd hprogress (hfree pairId hm')
    · exact absurd hid ((settled_of_closing h hm').done a pair hinsert)

/-- The list of a sweep. -/
theorem sweeps_sweep (h : Sweeps idleThreshold x history) {time : Nat} {relay : Relay}
    (hs : x.relay.step (.sweep time) = some relay) :
    Sweeps idleThreshold { relay, clock := time } (history ++ x.events (time, .sweep time)) := by
  have heffect := Relay.step_effect h.wf hs
  have hwf := h.wf.step hs
  have hinserting := Relay.inserting_effect h.inserting h.wf.sound heffect
  have hinserts := Relay.inserts_effect h.inserts heffect
  have htabled := Relay.tabled_effect h.tabled h.wf.sound hwf.sound h.inserts h.inserting heffect
  simp only [Relay.step] at hs
  split at hs
  · next hsweeper =>
    cases hs
    have hlisted : ∀ pair, .listed pair ∈ x.events (time, .sweep time) ↔
        ∃ key, x.relay.pairs.lookup key = some pair ∧ pair.lastProgress + x.relay.idleThreshold < time := by
      intro pair
      simp only [events, List.mem_map, List.mem_filter, decide_eq_true_iff, SweepEvent.listed.injEq]
      constructor
      · rintro ⟨⟨key, found⟩, ⟨hm, hidle⟩, rfl⟩
        exact ⟨key, AList.mem_lookup_iff.mpr hm, hidle⟩
      · rintro ⟨key, hl, hidle⟩
        exact ⟨⟨key, pair⟩, ⟨AList.mem_lookup_iff.mp hl, hidle⟩, rfl⟩
    have hother : ∀ event ∈ x.events (time, .sweep time), ∃ pair, event = .listed pair := by
      intro event hm
      obtain ⟨entry, _, rfl⟩ := List.mem_map.mp hm
      exact ⟨entry.2, rfl⟩
    have hnew : ∀ op, op ∈ ((x.relay.pairs.entries.filter fun entry =>
        entry.2.lastProgress + x.relay.idleThreshold < time).flatMap fun entry => Relay.guillotine entry.2) ↔
        ∃ pair, .listed pair ∈ x.events (time, .sweep time) ∧ op ∈ Relay.guillotine pair := by
      intro op
      simp only [events, List.mem_flatMap, List.mem_map, SweepEvent.listed.injEq]
      constructor
      · rintro ⟨entry, hm, hop⟩
        exact ⟨entry.2, ⟨entry, hm, rfl⟩, hop⟩
      · rintro ⟨pair, ⟨entry, hm, rfl⟩, hop⟩
        exact ⟨entry, hm, hop⟩
    refine ⟨hwf, hinserting, hinserts, htabled, h.threshold, ?_, ?_, ?_, ?_, ?_, ?_⟩
    · intro hm
      rcases List.mem_append.mp hm with hm | hm
      · exact h.waits hm
      · obtain ⟨pair, heq⟩ := hother _ hm
        cases heq
    · intro pair hm
      rcases List.mem_append.mp hm with hm | hm
      · exact Relay.settled_effect (h.settled pair hm) heffect
      · obtain ⟨key, hl, _⟩ := (hlisted pair).mp hm
        have hid : pair.pairId = key := (h.wf.rooted.pairs hl).1
        rw [hid]
        exact Relay.settled_effect (h.tabled key (Relay.timeless pair) (by simp [Relay.view, hl])) heffect
    · intro pair hm op hop
      rcases List.mem_append.mp hm with hm | hm
      · rcases h.ops pair hm op hop with hleft | hdone
        · rw [hsweeper] at hleft
          cases hleft
        · exact .inr (Done.mono hdone fun _ _ hnone => hnone)
      · exact .inl ((hnew op).mpr ⟨pair, hm, hop⟩)
    · intro op hm
      obtain ⟨pair, hl, hop⟩ := (hnew op).mp hm
      exact ⟨pair, List.mem_append_right _ hl, hop⟩
    · intro pairId hm
      rcases List.mem_append.mp hm with hm | hm
      · obtain ⟨pair, hl, hid⟩ := h.only pairId hm
        exact ⟨pair, List.mem_append_left _ hl, hid⟩
      · obtain ⟨pair, heq⟩ := hother _ hm
        cases heq
    · intro pairId hm pair hp
      obtain ⟨found, hl, hop⟩ := (hnew _).mp (mem_closing.mp hm)
      obtain ⟨key, hfound, hidle⟩ := (hlisted found).mp hl
      have hkey : key = pairId := (h.wf.rooted.pairs hfound).1.symm.trans (removePair_mem_guillotine.mp hop)
      have hp : x.relay.pairs.lookup pairId = some pair := hp
      rw [hkey, hp] at hfound
      cases hfound
      rw [← h.threshold]
      exact hidle
  · cases hs

/-- One operation of the guillotine, where it does not wait. -/
structure Advances (x : Sweeping) (op : Op) (relay : Relay) (event : SweepEvent) : Prop where
  step : x.relay.step .sweepAdvance = some relay
  sweeper : relay.sweeper = x.relay.sweeper.tail
  idleThreshold : relay.idleThreshold = x.relay.idleThreshold
  pairs : ∀ pairId pair, relay.pairs.lookup pairId = some pair → x.relay.pairs.lookup pairId = some pair
  emits : opEvents x.relay op = [event]
  done : ∀ (history : List SweepEvent) (time : Nat), Done { relay, clock := time } (history ++ [event]) op
  goesOn : event ≠ .waited
  lists : ∀ pair, event ≠ .listed pair
  removed : ∀ pairId, event = .removed pairId → op = .removePair pairId

theorem advances_of_room {op : Op} {rest : List Op} {pair : Pair} (hsweeper : x.relay.sweeper = op :: rest)
    (hop : op ∈ Relay.guillotine pair) (hroom : hasRoom x.relay op = true) : ∃ relay event, Advances x op relay event := by
  have hsend : ∀ tx msg, op = .send tx msg false → ∃ relay event, Advances x op relay event := by
    rintro tx msg rfl
    simp only [hasRoom] at hroom
    split at hroom
    · next channel hchannel =>
      obtain ⟨conn, hconn, rfl⟩ := Option.map_eq_some_iff.mp hchannel
      cases hsent : conn.channel.send msg with
      | sent taken =>
        refine ⟨{ x.relay.mapConn tx (fun k => { k with channel := taken }) with sweeper := rest }, .signalled tx msg,
          ?_, by rw [hsweeper]; rfl, rfl, fun _ _ hp => hp, ?_, ?_, SweepEvent.noConfusion,
          fun _ => SweepEvent.noConfusion, fun _ => SweepEvent.noConfusion⟩
        · simp only [Relay.step, hsweeper, Relay.perform, hconn, hsent]
          rfl
        · simp only [opEvents, hchannel, hsent]
        · exact fun history time => .inl (List.mem_append_right _ List.mem_cons_self)
      | closed =>
        refine ⟨{ x.relay with sweeper := rest }, .unheard tx msg,
          ?_, by rw [hsweeper]; rfl, rfl, fun _ _ hp => hp, ?_, ?_, SweepEvent.noConfusion,
          fun _ => SweepEvent.noConfusion, fun _ => SweepEvent.noConfusion⟩
        · simp only [Relay.step, hsweeper, Relay.perform, hconn, hsent]
          rfl
        · simp only [opEvents, hchannel, hsent]
        · exact fun history time => .inr (List.mem_append_right _ List.mem_cons_self)
      | full =>
        -- There is room.
        exfalso
        unfold Channel.Mpsc.send at hsent
        split at hsent
        · cases hsent
        · split at hsent
          · cases hsent
          · next hopen hfull =>
            simp_all
    · cases hroom
  simp only [Relay.guillotine, List.mem_cons, List.not_mem_nil, or_false] at hop
  rcases hop with hop | hop | hop
  · exact hsend _ _ hop
  · exact hsend _ _ hop
  · subst hop
    refine ⟨{ x.relay with pairs := x.relay.pairs.erase pair.pairId, sweeper := rest }, .removed pair.pairId,
      ?_, by rw [hsweeper]; rfl, rfl, ?_, rfl, ?_, SweepEvent.noConfusion, fun _ => SweepEvent.noConfusion, ?_⟩
    · simp only [Relay.step, hsweeper, Relay.perform]
      rfl
    · exact fun pairId found hp => (Relay.lookup_erase_eq_some hp).2
    · exact fun history time => AList.lookup_erase _ _
    · rintro pairId heq
      cases heq
      rfl

/-- An operation of the guillotine. -/
theorem sweeps_advance (h : Sweeps idleThreshold x history) {time : Nat} (hclock : x.clock ≤ time)
    (hbusy : x.relay.sweeper ≠ []) (hfree : x.Unhindered (time, .sweepAdvance)) :
    Sweeps idleThreshold { relay := (x.relay.step .sweepAdvance).getD x.relay, clock := time }
      (history ++ x.events (time, .sweepAdvance)) := by
  obtain ⟨op, rest, hsweeper⟩ := List.exists_cons_of_ne_nil hbusy
  have hroom : hasRoom x.relay op = true := by
    have hroom : (x.relay.sweeper.head?.all (hasRoom x.relay)) = true := hfree
    rw [hsweeper] at hroom
    exact hroom
  obtain ⟨pair, _, hop⟩ := h.form op (by rw [hsweeper]; exact List.mem_cons_self)
  obtain ⟨relay, event, ha⟩ := advances_of_room hsweeper hop hroom
  have hevents : x.events (time, .sweepAdvance) = [event] := by
    simp only [events, hsweeper, List.take_succ_cons, List.take_zero, List.flatMap_cons, List.flatMap_nil, List.append_nil]
    exact ha.emits
  have hrest : relay.sweeper = rest := by
    rw [ha.sweeper, hsweeper]
    rfl
  have hlisted : ∀ found, .listed found ∈ history ++ [event] → .listed found ∈ history := by
    intro found hm
    rcases List.mem_append.mp hm with hm | hm
    · exact hm
    · exact absurd (List.mem_singleton.mp hm).symm (ha.lists found)
  rw [ha.step, hevents, Option.getD_some]
  have heffect := Relay.step_effect h.wf ha.step
  have hwf := h.wf.step ha.step
  refine ⟨hwf, Relay.inserting_effect h.inserting h.wf.sound heffect, Relay.inserts_effect h.inserts heffect,
    Relay.tabled_effect h.tabled h.wf.sound hwf.sound h.inserts h.inserting heffect, ha.idleThreshold.trans h.threshold,
    ?_, fun found hm => Relay.settled_effect (h.settled found (hlisted found hm)) heffect, ?_, ?_, ?_, ?_⟩
  · intro hm
    rcases List.mem_append.mp hm with hm | hm
    · exact h.waits hm
    · exact ha.goesOn (List.mem_singleton.mp hm).symm
  · intro found hm op' hop'
    rcases h.ops found (hlisted found hm) op' hop' with hleft | hdone
    · rw [hsweeper] at hleft
      rcases List.mem_cons.mp hleft with rfl | hleft
      · exact .inr (ha.done history time)
      · exact .inl (by rw [hrest]; exact hleft)
    · refine .inr (Done.mono hdone ?_)
      rintro pairId _ hnone
      by_contra hne
      obtain ⟨found', hp⟩ := Option.ne_none_iff_exists'.mp hne
      have hold := ha.pairs pairId found' hp
      rw [hnone] at hold
      cases hold
  · intro op' hm
    obtain ⟨found, hl, hop'⟩ := h.form op' (by
      rw [hsweeper]
      exact List.mem_cons_of_mem _ (hrest ▸ hm))
    exact ⟨found, List.mem_append_left _ hl, hop'⟩
  · intro pairId hm
    rcases List.mem_append.mp hm with hm | hm
    · obtain ⟨found, hl, hid⟩ := h.only pairId hm
      exact ⟨found, List.mem_append_left _ hl, hid⟩
    · obtain rfl := ha.removed pairId (List.mem_singleton.mp hm).symm
      obtain ⟨found, hl, hop'⟩ := h.form (.removePair pairId) (by rw [hsweeper]; exact List.mem_cons_self)
      exact ⟨found, List.mem_append_left _ hl, removePair_mem_guillotine.mp hop'⟩
  · intro pairId hm found hp
    have hm' : pairId ∈ x.closing := by
      rw [mem_closing] at hm ⊢
      rw [hsweeper]
      exact List.mem_cons_of_mem _ (hrest ▸ hm)
    exact Nat.lt_of_lt_of_le (h.idle pairId hm' found (ha.pairs pairId found hp)) hclock

/-- One move. -/
theorem sweeps_step (h : Sweeps idleThreshold x history) {i : Nat × Relay.Move} (hfree : x.Unhindered i)
    (hs : x.step i = some y) : Sweeps idleThreshold y (history ++ x.events i) := by
  obtain ⟨time, move⟩ := i
  unfold step at hs
  split at hs
  · next hready =>
    obtain ⟨hclock, htime⟩ := hready
    have haside : ∀ {relay : Relay}, x.relay.step move = some relay → move.guillotine = false →
        x.events (time, move) = [] → Sweeps idleThreshold { relay, clock := time } (history ++ x.events (time, move)) := by
      intro relay hstep hmove hnone
      rw [hnone, List.append_nil]
      exact sweeps_aside h hclock hstep hmove hfree
    cases move with
    | sweepAdvance =>
      dsimp only at hs
      split at hs
      · cases hs
      · next hbusy =>
        cases hs
        exact sweeps_advance h hclock hbusy hfree
    | sweep now =>
      obtain rfl : now = time := by
        rcases htime with htime | htime
        · cases htime
        · exact Option.some.inj htime
      obtain ⟨relay, hstep, rfl⟩ := Option.map_eq_some_iff.mp hs
      exact sweeps_sweep h hstep
    | _ =>
      obtain ⟨relay, hstep, rfl⟩ := Option.map_eq_some_iff.mp hs
      exact haside hstep rfl rfl
  · cases hs

theorem sweeps_new (idleThreshold : Nat) : Sweeps idleThreshold { relay := { idleThreshold } } [] where
  wf := Relay.wf_empty idleThreshold
  inserting := (Relay.flowing_empty idleThreshold).inserting
  inserts a pair hm := by cases a <;> cases hm
  tabled pairId pair hp := by cases hp
  threshold := rfl
  waits hm := by cases hm
  settled pair hm := by cases hm
  ops pair hm := by cases hm
  form op hm := by cases hm
  only pairId hm := by cases hm
  idle pairId hm := by cases hm

/-- **The guillotine.** In a run that does not hinder it, it never waits, every pair that it has found idle is gone with
both its ends told when its sweep is through, no other pair is removed, and what it is about to close is idle. -/
theorem guillotine_kills_idle (idleThreshold : Nat) {moves : List (Nat × Relay.Move)}
    (hfree : Steps.Meets step Unhindered { relay := { idleThreshold } } moves)
    (hr : Steps.run (Steps.traced step events) ({ relay := { idleThreshold } }, []) moves = some (x, history)) :
    Executes idleThreshold x history := by
  have hstep : ∀ (p : Sweeping × List SweepEvent) (i : Nat × Relay.Move) (q : Sweeping × List SweepEvent),
      Sweeps idleThreshold p.1 p.2 → p.1.Unhindered i → Steps.traced step events p i = some q →
      Sweeps idleThreshold q.1 q.2 := by
    rintro ⟨y, h⟩ i ⟨z, h'⟩ hinv hi hs
    obtain ⟨hmove, rfl⟩ := Steps.traced_eq_some.mp hs
    exact sweeps_step hinv hi hmove
  exact (Steps.run_invariant hstep (Steps.meets_traced hfree) hr (sweeps_new idleThreshold)).executes

instance (x : Sweeping) : DecidablePred x.Unhindered := fun i => by
  obtain ⟨time, move⟩ := i
  cases move with
  | sweepAdvance => exact inferInstanceAs (Decidable ((x.relay.sweeper.head?.all (hasRoom x.relay)) = true))
  | read c msg now => exact inferInstanceAs (Decidable (∀ pairId ∈ x.closing, x.relay.progress c msg ≠ some pairId))
  | _ => exact isTrue trivial

/-- A client connects, and the guillotine comes when its pair is idle. -/
def idleMoves : List (Nat × Relay.Move) :=
  connectedMoves.map (fun move => (0, move)) ++
    [(1000, .sweep 1000), (1000, .sweepAdvance), (1000, .sweepAdvance), (1001, .sweepAdvance)]

theorem guillotine_kills_idle_sample : ∃ x history,
    Steps.run (Steps.traced step events) ({ relay := { idleThreshold := 120 } }, []) idleMoves = some (x, history) ∧
      Executes 120 x history := by
  obtain ⟨x, history, hs⟩ : ∃ x history,
    Steps.run (Steps.traced step events) ({ relay := { idleThreshold := 120 } }, []) idleMoves = some (x, history) :=
    ⟨_, _, rfl⟩
  exact ⟨x, history, hs, guillotine_kills_idle 120 (by decide +kernel) hs⟩

/-- A client that sends until its server's queue is full, and then no more. -/
def fullMoves : List (Nat × Relay.Move) :=
  connectedMoves.map (fun move => (0, move)) ++
    (List.replicate 30 [(0, .read 2 (.binary [0x2a]) 0), (0, .advance 2)]).flatten ++
    [(1000, .sweep 1000), (1000, .sweepAdvance)]

/-- The guillotine waits for room in the queue of a server that does not drain it. -/
theorem guillotine_waits : ¬∀ (idleThreshold : Nat) (moves : List (Nat × Relay.Move)) (x : Sweeping)
    (history : List SweepEvent),
    Steps.run (Steps.traced step events) ({ relay := { idleThreshold } }, []) moves = some (x, history) →
      Executes idleThreshold x history := by
  intro h
  have hwaits : ((Steps.run (Steps.traced step events) ({ relay := { idleThreshold := 120 } }, []) fullMoves).map
      fun p => decide (.waited ∈ p.2)) = some true := by decide +kernel
  obtain ⟨⟨x, history⟩, hs, hmem⟩ := Option.map_eq_some_iff.mp hwaits
  exact (h 120 fullMoves x history hs).neverWaits (of_decide_eq_true hmem)

end Sweeping


end CliPocket
