import CliPocket.Lib.Link
import CliPocket.Relay.Queues
import CliPocket.Relay.WorkerIsolation
import Mathlib.Data.List.TakeWhile

/-!
# Payloads keep their order

Each direction of a pair is a link: the task of the sending end reads a payload, has it in hand and queues it for the
writer of the other end.

- `Relay.sentFor`, `Relay.sentBy`: what a server has sent for a pair, and what a client has sent;
- `Relay.payloadsTo`, `Relay.forwardsTo`: what the relay has written of it;
- `hand_effect`: what a move does to a link;
- `pair_fifo`: **what is written is a prefix of what has been sent, in both directions.**
-/

namespace CliPocket

namespace Relay

open Function (update)

variable {v v' : View} {move : Move} {h es : List Event}

/-! ## What has been sent and written -/

/-- The payload of a frame that forwards it for the pair. -/
def forwarded (pairId : PairId) (bytes : List UInt8) : Option (List UInt8) :=
  match decodeRelay bytes with
  | .ok (.data (.forward p payload)) => if p = pairId then some payload else none
  | _ => none

def IsPairClose (bytes : List UInt8) : Bool :=
  match decodeRelay bytes with
  | .ok (.ctrl (.pairClose _ _)) => true
  | _ => false

/-- What happens from the first event on that is marked. -/
def since (mark : Event → Bool) (h : List Event) : List Event := h.dropWhile fun event => !mark event

def insertsPair (pairId : PairId) : Event → Bool
  | .inserted pair => pair.pairId = pairId
  | _ => false

def queuesPairOpen (c : ConnId) (pairId : PairId) (event : Event) : Bool :=
  event = .pushed c (encodeCtrlFrame (.pairOpen pairId))

/-- The payloads for the pair in the frames of a server. -/
def forwardsOf (pairId : PairId) (serverId : ServerId) (h : List Event) : List (List UInt8) :=
  h.filterMap fun
    | .read _ (.server id _) bytes => if id = serverId then forwarded pairId bytes else none
    | _ => none

/-- The binary messages of the connection. -/
def messagesOf (c : ConnId) (h : List Event) : List (List UInt8) :=
  h.filterMap fun
    | .read i _ bytes => if i = c then some bytes else none
    | _ => none

/-- The payloads that the server has sent for the pair since there is the pair. -/
def sentFor (pairId : PairId) (serverId : ServerId) (h : List Event) : List (List UInt8) :=
  forwardsOf pairId serverId (since (insertsPair pairId) h)

/-- The messages of a client behind its `PairOpen` and before its `PairClose`. -/
def sentBy (c : ConnId) (pairId : PairId) (h : List Event) : List (List UInt8) :=
  (messagesOf c (since (queuesPairOpen c pairId) h)).takeWhile fun bytes => !IsPairClose bytes

/-- The payloads written to the socket of a client. -/
def payloadsTo (c : ConnId) (h : List Event) : List (List UInt8) :=
  h.filterMap fun
    | .wrote i (.data _) (.binary payload) => if i = c then some payload else none
    | _ => none

/-- The payloads of the pair in the frames written to the socket of a server. -/
def forwardsTo (pairId : PairId) (c : ConnId) (h : List Event) : List (List UInt8) :=
  h.filterMap fun
    | .wrote i (.data _) (.binary frame) => if i = c then forwarded pairId frame else none
    | _ => none

/-! ## Events since an event -/

section Since

variable {α : Type} {f : Event → Option α} {mark : Event → Bool}

theorem since_append_of_mem (hmark : ∃ event ∈ h, mark event = true) : since mark (h ++ es) = since mark h ++ es := by
  obtain ⟨event, hm, he⟩ := hmark
  rw [since, List.dropWhile_append, if_neg]
  · rfl
  · rw [List.isEmpty_iff, List.dropWhile_eq_nil_iff]
    intro hall
    have := hall event hm
    rw [he] at this
    cases this

theorem since_of_not_mem (hmark : ∀ event ∈ h, mark event = false) : since mark h = [] := by
  rw [since, List.dropWhile_eq_nil_iff]
  intro event hm
  rw [hmark event hm]
  rfl

/-- What picks nothing from the new events picks the same as before. -/
theorem filterMap_since_append (hes : es.filterMap f = []) :
    (since mark (h ++ es)).filterMap f = (since mark h).filterMap f := by
  by_cases hmark : ∃ event ∈ h, mark event = true
  · rw [since_append_of_mem hmark, List.filterMap_append, hes, List.append_nil]
  · have hnone : since mark h = [] := since_of_not_mem fun event hm => by
      by_contra hne
      exact hmark ⟨event, hm, by simpa using hne⟩
    rw [since, List.dropWhile_append, if_pos]
    · rw [hnone, List.filterMap_nil, List.filterMap_eq_nil_iff]
      intro event hm
      exact List.filterMap_eq_nil_iff.mp hes event ((List.dropWhile_suffix _).subset hm)
    · exact List.isEmpty_iff.mpr hnone

end Since

theorem forwarded_eq_some {pairId : PairId} {bytes payload : List UInt8} :
    forwarded pairId bytes = some payload ↔ decodeRelay bytes = .ok (.data (.forward pairId payload)) := by
  unfold forwarded
  constructor
  · intro hf
    split at hf
    · next p payload' hdecode =>
      split at hf
      · next hp =>
        cases hf
        rw [hdecode, hp]
      · cases hf
    · cases hf
  · intro hdecode
    rw [hdecode]
    exact if_pos rfl

theorem decodeRelay_forward {pairId : PairId} {payload : List UInt8} (h : payload.length < 2 ^ 64) :
    decodeRelay (encodeRelayData (.forward pairId payload)) = .ok (.data (.forward pairId payload)) := by
  have hwithin : RelayWire.Within (2 ^ 64) (.data (.forward pairId payload)) := h
  exact decodeRelay_encode hwithin

theorem forwarded_encode {pairId q : PairId} {payload : List UInt8} (hshort : payload.length < 2 ^ 64) :
    forwarded pairId (encodeRelayData (.forward q payload)) = if q = pairId then some payload else none := by
  unfold forwarded
  rw [decodeRelay_forward hshort]

theorem isPairClose_eq {bytes : List UInt8} :
    IsPairClose bytes = true ↔ ∃ closing reason, decodeRelay bytes = .ok (.ctrl (.pairClose closing reason)) := by
  unfold IsPairClose
  constructor
  · intro hc
    split at hc
    · next closing reason hdecode => exact ⟨closing, reason, hdecode⟩
    · cases hc
  · rintro ⟨closing, reason, hdecode⟩
    rw [hdecode]

/-! ## What a move does to a link -/

/-- The payload of a message that forwards it for the pair. -/
def forwardOf (pairId : PairId) : ServerMsg → Option (List UInt8)
  | .data bytes => forwarded pairId bytes
  | _ => none

/-- The payloads of the pair that have been queued for the writer at `tx`. -/
def queuedFor (pairId : PairId) (tx : ConnId) (h : List Event) : List (List UInt8) :=
  (pushedTo tx h).filterMap (forwardOf pairId)

/-- A task has the payload in hand. -/
def InHand (v : View) (tx : ConnId) (pairId : PairId) (payload : List UInt8) : Prop :=
  payload.length < 2 ^ 64 ∧ ∃ a, .send tx (encodeDataFrame (.forward pairId payload)) true ∈ v.todo a

/-- The writer at `i` still takes messages. -/
def IsOpen (v : View) (i : ConnId) : Prop := ∃ channel, v.channel i = some channel ∧ channel.closed = false

theorem queuedFor_append (pairId : PairId) (tx : ConnId) (h es : List Event) :
    queuedFor pairId tx (h ++ es) = queuedFor pairId tx h ++ queuedFor pairId tx es := by
  rw [queuedFor, pushedTo_append, List.filterMap_append]
  rfl

theorem encodeDataFrame_inj {p q : PairId} {x y : List UInt8} (hx : x.length < 2 ^ 64) (hy : y.length < 2 ^ 64)
    (h : encodeDataFrame (.forward p x) = encodeDataFrame (.forward q y)) : p = q ∧ x = y := by
  have hbytes : encodeRelayData (.forward p x) = encodeRelayData (.forward q y) := by
    simpa [encodeDataFrame] using h
  have hdecode := @decodeRelay_forward p x hx
  rw [hbytes, decodeRelay_forward hy] at hdecode
  cases hdecode
  exact ⟨rfl, rfl⟩

/-- Whoever has a payload in hand does nothing else. -/
theorem InHand.carries {tx : ConnId} {pairId : PairId} {payload : List UInt8} (hcarried : Carried v)
    (hin : InHand v tx pairId payload) : ∃ a, Carries v a tx pairId payload := by
  obtain ⟨hshort, a, hm⟩ := hin
  obtain ⟨q, y, hbytes, hcarries⟩ := hcarried a tx _ true hm
  obtain ⟨rfl, rfl⟩ := encodeDataFrame_inj hshort hcarries.short (by rw [encodeDataFrame, hbytes]; rfl)
  exact ⟨a, hcarries⟩

/-- No writer that has ended takes messages again. -/
theorem isOpen_effect (he : Effect v move v' es) {i : ConnId} {who : Role} (hi : v.role i = some who) (ho : IsOpen v' i) :
    IsOpen v i := by
  obtain ⟨channel, hchannel, hopen⟩ := ho
  have hset : ∀ {d : ConnId} {old new : Channel.Mpsc ServerMsg} {w : View}, v.channel d = some old → old.closed = false →
      (w.setChannel d new).channel i = some channel → w.channel = v.channel → IsOpen v i := by
    intro d old new w hold holdopen hnew hsame
    rw [View.setChannel_channel] at hnew
    split at hnew
    · next hid => exact ⟨old, hid ▸ hold, holdopen⟩
    · exact ⟨channel, hsame ▸ hnew, hopen⟩
  have hnew : ∀ {n : ConnId} {new : Option (Channel.Mpsc ServerMsg)}, v.role n = none →
      update v.channel n new i = some channel → IsOpen v i := by
    intro n new hn hnew
    rw [Function.update_of_ne (ne_new hi hn)] at hnew
    exact ⟨channel, hnew, hopen⟩
  cases he with
  | registered hn => exact hnew hn hchannel
  | connected pair hn => exact hnew hn hchannel
  | pushed htodo hold holdopen => exact hset hold holdopen hchannel rfl
  | wrote _ hold holdopen => exact hset hold holdopen hchannel rfl
  | writerEnded hold holdopen => exact hset hold holdopen hchannel rfl
  | readFailed | rejected | sendFailed =>
    rw [View.fail_eq] at hchannel
    exact ⟨channel, by simpa using hchannel, hopen⟩
  | finished => exact ⟨channel, by simpa using hchannel, hopen⟩
  | _ => exact ⟨channel, hchannel, hopen⟩

/-- What a move does to the link of the pair that ends in the queue `tx`. -/
inductive Hand (v v' : View) (tx : ConnId) (pairId : PairId) : List Event → Prop
  | kept {es : List Event} (hqueued : queuedFor pairId tx es = []) (hhand : ∀ x, InHand v' tx pairId x ↔ InHand v tx pairId x)
      (hserver : ∀ c serverId g bytes payload serverTx, .read c (.server serverId g) bytes ∈ es →
        forwarded pairId bytes = some payload → v.role tx = some (.client pairId serverId serverTx) → v'.pairs pairId = none)
      (hclient : ∀ c serverId bytes, .read c (.client pairId serverId tx) bytes ∈ es → IsPairClose bytes = true) :
      Hand v v' tx pairId es
  /-- A server's payload is taken in hand. -/
  | fromServer {c : ConnId} {g : Nat} {bytes x : List UInt8} (pair : Pair) (hpair : v.pairs pairId = some pair)
      (htx : pair.clientTx = tx) (hidle : v.Idle c (.server pair.serverId g)) (hx : forwarded pairId bytes = some x)
      (hlive : v'.pairs pairId = some pair) (hhand : ∀ y, InHand v' tx pairId y ↔ y = x ∨ InHand v tx pairId y) :
      Hand v v' tx pairId [.read c (.server pair.serverId g) bytes]
  /-- A client's message is taken in hand. -/
  | fromClient {c : ConnId} {serverId : ServerId} {x : List UInt8} (hidle : v.Idle c (.client pairId serverId tx))
      (hx : IsPairClose x = false) (hhand : ∀ y, InHand v' tx pairId y ↔ y = x ∨ InHand v tx pairId y) :
      Hand v v' tx pairId [.read c (.client pairId serverId tx) x]
  | passed {a : Option ConnId} {x : List UInt8} (hcarries : Carries v a tx pairId x) (hopen : IsOpen v tx)
      (hpairs : v'.pairs = v.pairs) (hhand : ∀ y, InHand v' tx pairId y → ∃ b, b ≠ a ∧ Carries v b tx pairId y) :
      Hand v v' tx pairId [.pushed tx (encodeDataFrame (.forward pairId x))]
  | lost (hclosed : ¬IsOpen v' tx) : Hand v v' tx pairId []

/-- The task at `a` gets other operations, none of which sends a payload of the pair to `tx`. -/
theorem inHand_task {a : Option ConnId} {ops : List Op} {tx : ConnId} {pairId : PairId}
    (hold : ∀ x, x.length < 2 ^ 64 → .send tx (encodeDataFrame (.forward pairId x)) true ∉ v.todo a)
    (hnew : ∀ x, x.length < 2 ^ 64 → .send tx (encodeDataFrame (.forward pairId x)) true ∉ ops)
    (htodo : v'.todo = update v.todo a ops) (x : List UInt8) : InHand v' tx pairId x ↔ InHand v tx pairId x := by
  constructor
  · rintro ⟨hx, b, hm⟩
    rw [htodo, Function.update_apply] at hm
    split at hm
    · exact absurd hm (hnew x hx)
    · exact ⟨hx, b, hm⟩
  · rintro ⟨hx, b, hm⟩
    refine ⟨hx, b, ?_⟩
    rw [htodo, Function.update_of_ne]
    · exact hm
    · rintro rfl
      exact hold x hx hm

/-- The task at `a`, which had nothing to do, takes a payload in hand. -/
theorem inHand_take {a : Option ConnId} {tx : ConnId} {pairId : PairId} {x : List UInt8} (hx : x.length < 2 ^ 64)
    (hold : v.todo a = []) (htodo : v'.todo = update v.todo a [.send tx (encodeDataFrame (.forward pairId x)) true])
    (y : List UInt8) : InHand v' tx pairId y ↔ y = x ∨ InHand v tx pairId y := by
  constructor
  · rintro ⟨hy, b, hm⟩
    rw [htodo, Function.update_apply] at hm
    split at hm
    · rw [List.mem_singleton] at hm
      injection hm with _ hmsg
      exact .inl (encodeDataFrame_inj hy hx hmsg).2
    · exact .inr ⟨hy, b, hm⟩
  · rintro (rfl | ⟨hy, b, hm⟩)
    · exact ⟨hx, a, by rw [htodo, Function.update_self]; exact List.mem_cons_self⟩
    · refine ⟨hy, b, ?_⟩
      rw [htodo, Function.update_of_ne]
      · exact hm
      · rintro rfl
        rw [hold] at hm
        cases hm

theorem Hand.of_nil {tx : ConnId} {pairId : PairId} (hhand : ∀ x, InHand v' tx pairId x ↔ InHand v tx pairId x) :
    Hand v v' tx pairId [] :=
  .kept rfl hhand (fun _ _ _ _ _ _ hm => absurd hm List.not_mem_nil) fun _ _ _ hm => absurd hm List.not_mem_nil

/-- A task that has no payload to send takes none in hand. -/
theorem inHand_routine {a : Option ConnId} {ops : List Op} {tx : ConnId} {pairId : PairId} (hold : NoData (v.todo a))
    (hnew : NoData ops) (htodo : v'.todo = update v.todo a ops) (x : List UInt8) :
    InHand v' tx pairId x ↔ InHand v tx pairId x :=
  inHand_task (fun _ _ => hold _ _ _) (fun _ _ => hnew _ _ _) htodo x

/-- One that is done with an operation neither. -/
theorem inHand_tail {a : Option ConnId} {op : Op} {more rest : List Op} {tx : ConnId} {pairId : PairId}
    (hcarried : Carried v) (hold : v.todo a = op :: rest)
    (hop : ∀ x, x.length < 2 ^ 64 → op ≠ .send tx (encodeDataFrame (.forward pairId x)) true) (hnew : NoData more)
    (htodo : v'.todo = update v.todo a (more ++ rest)) (x : List UInt8) :
    InHand v' tx pairId x ↔ InHand v tx pairId x := by
  refine inHand_task ?_ (fun _ _ => noData_append hnew (noData_tail hcarried hold) _ _ _) htodo x
  intro y hy hm
  rw [hold] at hm
  rcases List.mem_cons.mp hm with hm | hm
  · exact hop y hy hm.symm
  · exact noData_tail hcarried hold _ _ _ hm

theorem noData_of_role_none {n : ConnId} (hcarried : Carried v) (hn : v.role n = none) : NoData (v.todo (some n)) := by
  intro tx bytes required hm
  obtain ⟨q, y, rfl, hcarries⟩ := hcarried (some n) tx bytes required hm
  obtain ⟨c, hc, _, ⟨_, _, _, hrole, _⟩ | ⟨_, hrole⟩⟩ := hcarries.task
  · cases hc
    simp [hn] at hrole
  · cases hc
    simp [hn] at hrole

theorem forwarded_ctrl {pairId : PairId} {bytes payload : List UInt8} {ctrl : RelayCtrl}
    (hdecode : decodeRelay bytes = .ok (.ctrl ctrl)) : forwarded pairId bytes ≠ some payload := by
  rw [Ne, forwarded_eq_some, hdecode]
  simp

theorem queuedFor_pushed_none {tx tx' : ConnId} {pairId : PairId} {msg : ServerMsg}
    (h : tx' = tx → forwardOf pairId msg = none) : queuedFor pairId tx [.pushed tx' msg] = [] := by
  by_cases htx : tx' = tx
  · simp [queuedFor, pushedTo, htx, h htx]
  · simp [queuedFor, pushedTo, htx]

/-- A payload pushed for another pair, or to another queue. -/
theorem queuedFor_pushed_other {tx tx' : ConnId} {pairId q : PairId} {y : List UInt8} (hy : y.length < 2 ^ 64)
    (hne : ¬(q = pairId ∧ tx' = tx)) : queuedFor pairId tx [.pushed tx' (encodeDataFrame (.forward q y))] = [] := by
  refine queuedFor_pushed_none fun htx => ?_
  rw [encodeDataFrame, forwardOf, forwarded_encode hy, if_neg fun hq => hne ⟨hq, htx⟩]

theorem hand_effect {tx : ConnId} {pairId : PairId} (hw : Sound v) (hcarried : Carried v) (hfits : Fits es)
    (he : Effect v move v' es) : Hand v v' tx pairId es := by
  have hbusy : ∀ {c : ConnId} {who : Role} {w : View} {phase : Phase} {ops : List Op}, v.Idle c who → w.todo = v.todo →
      Routine ops → ∀ x, InHand ((w.setPhase c phase).setTodo (some c) ops) tx pairId x ↔ InHand v tx pairId x := by
    intro c who w phase ops hidle htodo hops
    refine inHand_routine (a := some c) ?_ hops.noData (by rw [← htodo]; rfl)
    rw [hidle.todo]
    exact routine_nil.noData
  cases he with
  | refused => exact .of_nil fun x => Iff.rfl
  | registered hn =>
    exact .of_nil (inHand_routine (noData_of_role_none hcarried hn) (routine_ctrl _ _ _).noData rfl)
  | connected pair hn =>
    refine .of_nil (inHand_routine (noData_of_role_none hcarried hn) ?_ rfl)
    intro tx' bytes required hm
    simp [encodeCtrlFrame] at hm
  | pinged hidle => exact .of_nil (hbusy hidle rfl routine_nil)
  | stopped hidle => exact .of_nil (hbusy hidle rfl (routine_farewell _ _))
  | readFailed hidle =>
    rw [View.fail_eq]
    exact .of_nil (hbusy hidle (by simp) (routine_failing _ _ _))
  | @ignored c serverId g _ bytes ctrl hidle hdecode hother =>
    refine .kept rfl (hbusy hidle rfl routine_nil) ?_ fun _ _ _ hm => by simp at hm
    intro _ _ _ _ payload _ hm hf
    cases List.mem_singleton.mp hm
    exact absurd hf (forwarded_ctrl hdecode)
  | @answered c serverId g _ bytes payload q hidle hdecode hnone =>
    refine .kept rfl (hbusy hidle rfl (routine_ctrl _ _ _)) ?_ fun _ _ _ hm => by simp at hm
    intro _ _ _ _ payload' _ hm hf _
    cases List.mem_singleton.mp hm
    rw [forwarded_eq_some, hdecode] at hf
    cases hf
    exact hnone
  | @toClient c g _ bytes payload q pair hidle hdecode hpair =>
    have hfit := hfits c _ bytes List.mem_cons_self
    have hlength := length_le_of_decodeRelay hdecode
    by_cases hhere : q = pairId ∧ pair.clientTx = tx
    · obtain ⟨rfl, rfl⟩ := hhere
      exact .fromServer pair hpair rfl hidle (forwarded_eq_some.mpr hdecode) hpair
        (inHand_take (by omega) hidle.todo rfl)
    · refine .kept rfl (inHand_task (a := some c) ?_ ?_ rfl) ?_ fun _ _ _ hm => by simp at hm
      · rw [hidle.todo]
        exact fun x _ => List.not_mem_nil
      · intro x hx hm
        injection List.mem_singleton.mp hm with htx hmsg
        exact hhere ⟨(encodeDataFrame_inj hx (by omega) hmsg).1.symm, htx.symm⟩
      · intro _ _ _ _ payload' _ hm hf hrole
        cases List.mem_singleton.mp hm
        rw [forwarded_eq_some, hdecode] at hf
        cases hf
        obtain ⟨rfl, hat⟩ := hw.pairs hpair
        exact absurd ⟨rfl, hw.roles.unique hat hrole⟩ hhere
  | @toServer c q serverId tx' _ bytes hidle hpayload =>
    have hfit := hfits c _ bytes List.mem_cons_self
    by_cases hhere : q = pairId ∧ tx' = tx
    · obtain ⟨rfl, rfl⟩ := hhere
      refine .fromClient hidle ?_ (inHand_take hfit hidle.todo rfl)
      rw [Bool.eq_false_iff, Ne, isPairClose_eq]
      rintro ⟨closing, reason, hdecode⟩
      exact hpayload closing reason hdecode
    · refine .kept rfl (inHand_task (a := some c) ?_ ?_ rfl) (fun _ _ _ _ _ _ hm => by simp at hm) ?_
      · rw [hidle.todo]
        exact fun x _ => List.not_mem_nil
      · intro x hx hm
        injection List.mem_singleton.mp hm with htx hmsg
        exact hhere ⟨(encodeDataFrame_inj hx hfit hmsg).1.symm, htx.symm⟩
      · intro _ _ _ hm
        cases List.mem_singleton.mp hm
        exact absurd ⟨rfl, rfl⟩ hhere
  | @closedByServer c serverId g _ bytes closing reason hidle hdecode =>
    refine .kept rfl (hbusy hidle rfl (routine_closeOps v _ _)) ?_ fun _ _ _ hm => by simp at hm
    intro _ _ _ _ payload _ hm hf
    cases List.mem_singleton.mp hm
    exact absurd hf (forwarded_ctrl hdecode)
  | @closedByClient c q serverId tx' _ bytes closing reason hidle hdecode =>
    refine .kept rfl (hbusy hidle rfl (routine_append (routine_closeOps v _ _) (routine_farewell 0 (.client q serverId tx'))))
      (fun _ _ _ _ _ _ hm => by simp at hm) ?_
    intro _ _ _ hm
    cases List.mem_singleton.mp hm
    exact isPairClose_eq.mpr ⟨closing, reason, hdecode⟩
  | @rejected c serverId g _ bytes error hidle hforeign =>
    refine .kept rfl ?_ ?_ fun _ _ _ hm => by simp at hm
    · rw [View.fail_eq]
      exact hbusy hidle (by simp) (routine_failing _ _ _)
    · intro _ _ _ _ payload serverTx hm hf hrole
      cases List.mem_singleton.mp hm
      obtain ⟨pair, hpair, hne⟩ := hforeign pairId payload (forwarded_eq_some.mp hf)
      obtain ⟨rfl, hat⟩ := hw.pairs hpair
      obtain rfl := hw.roles.unique hat hrole
      rw [PairAt, hrole] at hat
      cases hat
      exact absurd rfl hne
  | @pushed a tx' msg required rest channel htodo hchannel hopen =>
    cases msg with
    | ctrl bytes =>
      refine .kept (queuedFor_pushed_none fun _ => rfl) ?_ (fun _ _ _ _ _ _ hm => by simp at hm) fun _ _ _ hm => by simp at hm
      exact inHand_tail hcarried htodo (fun x _ hop => by simp [encodeDataFrame] at hop) routine_nil.noData rfl
    | close =>
      refine .kept (queuedFor_pushed_none fun _ => rfl) ?_ (fun _ _ _ _ _ _ hm => by simp at hm) fun _ _ _ hm => by simp at hm
      exact inHand_tail hcarried htodo (fun x _ hop => by simp [encodeDataFrame] at hop) routine_nil.noData rfl
    | data bytes =>
      obtain ⟨q, y, rfl, hcarries⟩ := hcarried a tx' bytes required (by rw [htodo]; exact List.mem_cons_self)
      by_cases hhere : q = pairId ∧ tx' = tx
      · obtain ⟨rfl, rfl⟩ := hhere
        have hrest : rest = [] := by
          rw [hcarries.todo] at htodo
          cases htodo
          rfl
        refine .passed hcarries ⟨channel, hchannel, hopen⟩ rfl ?_
        intro z hz
        obtain ⟨hshort, b, hm⟩ := hz
        rw [View.setTodo_todo, hrest] at hm
        split at hm
        · cases hm
        · next hb =>
          obtain ⟨q', z', hbytes, hcarries'⟩ := hcarried b tx' _ true hm
          obtain ⟨rfl, rfl⟩ := encodeDataFrame_inj hshort hcarries'.short (congrArg ServerMsg.data hbytes)
          exact ⟨b, hb, hcarries'⟩
      · refine .kept (queuedFor_pushed_other hcarries.short hhere) ?_ (fun _ _ _ _ _ _ hm => by simp at hm)
          fun _ _ _ hm => by simp at hm
        refine inHand_tail hcarried htodo ?_ routine_nil.noData rfl
        intro x hx hop
        injection hop with htx hmsg
        exact hhere ⟨(encodeDataFrame_inj hcarries.short hx hmsg).1, htx⟩
  | skipped htodo =>
    exact .of_nil (inHand_tail hcarried htodo (fun x _ hop => by simp at hop) routine_nil.noData rfl)
  | @sendFailed c who phase tx' msg rest channel hrole hphase htodo hchannel hclosed =>
    by_cases htx : tx' = tx
    · subst htx
      refine .lost ?_
      rintro ⟨channel', hchannel', hopen⟩
      rw [View.fail_eq, View.setTodo_channel, View.setPhase_channel, View.leave_channel, hchannel] at hchannel'
      cases hchannel'
      rw [hclosed] at hopen
      cases hopen
    · refine .of_nil (inHand_task (a := some c) ?_ ?_ (v.fail_todo c phase who writerClosed))
      · intro x hx hm
        rw [htodo] at hm
        rcases List.mem_cons.mp hm with hm | hm
        · injection hm with hsame
          exact htx hsame.symm
        · exact noData_tail hcarried htodo _ _ _ hm
      · exact fun x _ => (routine_failing who phase writerClosed).noData _ _ _
  | inserted htodo =>
    exact .kept rfl (inHand_tail hcarried htodo (fun x _ => Op.noConfusion) routine_nil.noData rfl)
      (fun _ _ _ _ _ _ hm => by simp at hm) fun _ _ _ hm => by simp at hm
  | removed htodo => exact .of_nil (inHand_tail hcarried htodo (fun x _ => Op.noConfusion) routine_nil.noData rfl)
  | closed htodo =>
    exact .of_nil (inHand_tail hcarried htodo (fun x _ => Op.noConfusion) (routine_closeOps v _ _).noData rfl)
  | listed htodo =>
    exact .of_nil (inHand_tail hcarried htodo (fun x _ => Op.noConfusion) (routine_closePairs _).noData rfl)
  | finished who hrole hphase htodo => exact .of_nil fun x => by simp [InHand]
  | returned => exact .of_nil fun x => Iff.rfl
  | wrote => exact .kept rfl (fun x => Iff.rfl) (fun _ _ _ _ _ _ hm => by simp at hm) fun _ _ _ hm => by simp at hm
  | writerEnded _ _ hevents =>
    rcases hevents with rfl | ⟨_, rfl⟩
    · exact .of_nil fun x => Iff.rfl
    · exact .kept rfl (fun x => Iff.rfl) (fun _ _ _ _ _ _ hm => by simp at hm) fun _ _ _ hm => by simp at hm
  | swept htodo =>
    refine .of_nil (inHand_routine ?_ (routine_guillotine _).noData rfl)
    rw [htodo]
    exact routine_nil.noData

/-! ## Links of a new client -/

/-- A client has had its role before, or nobody has had its pair. -/
theorem client_effect (he : Effect v move v' es) {i : ConnId} {pairId : PairId} {serverId : ServerId} {tx : ConnId}
    (hi : v'.role i = some (.client pairId serverId tx)) :
    v.role i = some (.client pairId serverId tx) ∨
      v.role i = none ∧ es = [] ∧ ∀ j id tx', v.role j ≠ some (.client pairId id tx') := by
  cases he with
  | @registered n id _ _ hn =>
    simp only [Function.update_apply] at hi
    split at hi
    · cases hi
    · exact .inl hi
  | connected pair hn hslot htx hfresh =>
    simp only [Function.update_apply] at hi
    split at hi
    · next hc =>
      cases hi
      rw [hc]
      exact .inr ⟨hn, rfl, hfresh⟩
    · exact .inl hi
  | _ => exact .inl (by simpa [View.fail_eq] using hi)

theorem queuedFor_fresh {pairId : PairId} (hk : Known v h) (hfresh : ∀ j id tx', v.role j ≠ some (.client pairId id tx'))
    (tx : ConnId) : queuedFor pairId tx h = [] := by
  rw [queuedFor, List.filterMap_eq_nil_iff]
  intro msg hm
  cases msg with
  | data bytes =>
    obtain ⟨q, y, j, id, tx', rfl, hshort, hj, _⟩ := hk _ (mem_pushedTo.mp hm)
    rw [forwardOf, forwarded_encode hshort, if_neg]
    rintro rfl
    exact hfresh j id tx' hj
  | ctrl bytes => rfl
  | close => rfl

/-- Before there is a client its links are empty. -/
theorem link_new {pairId : PairId} (tx : ConnId) (live : Prop) (hv : Flowing v h)
    (hfresh : ∀ j id tx', v.role j ≠ some (.client pairId id tx')) (hfits : Fits es) (hes : es = [])
    (he : Effect v move v' es) : Fifo.Link [] (queuedFor pairId tx h) (IsOpen v' tx) live (InHand v' tx pairId) := by
  have hnone : IsOpen v' tx → ∀ x, ¬InHand v' tx pairId x := by
    intro ho x hx
    have hold : ¬InHand v tx pairId x := by
      intro hin
      obtain ⟨a, hcarries⟩ := hin.carries hv.carried
      obtain ⟨j, id, tx', hj, _⟩ := hcarries.client
      exact hfresh j id tx' hj
    cases @hand_effect v v' move es tx pairId hv.sound hv.carried hfits he with
    | kept _ hhand => exact hold ((hhand x).mp hx)
    | lost hclosed => exact hclosed ho
    | _ => cases hes
  rw [queuedFor_fresh hv.known hfresh]
  exact ⟨List.prefix_rfl, fun ho x hx => absurd hx (hnone ho x), fun _ _ _ => rfl⟩

/-! ## From the server to the client -/

/-- The links of servers to clients. -/
def Down (v : View) (h : List Event) : Prop :=
  ∀ i pairId serverId tx, v.role i = some (.client pairId serverId tx) →
    Fifo.Link (sentFor pairId serverId h) (queuedFor pairId i h) (IsOpen v i) (v.pairs pairId ≠ none) (InHand v i pairId)

theorem sentFor_of_not_inserted {pairId : PairId} {serverId : ServerId} (hin : ¬InsertedIn pairId h) :
    sentFor pairId serverId h = [] := by
  rw [sentFor, since_of_not_mem]
  · rfl
  · intro event hm
    cases event with
    | inserted pair =>
      simp only [insertsPair, decide_eq_false_iff_not]
      exact fun hp => hin ⟨pair, hm, hp⟩
    | _ => rfl

theorem sentFor_append {pairId : PairId} {serverId : ServerId} (hin : InsertedIn pairId h) :
    sentFor pairId serverId (h ++ es) = sentFor pairId serverId h ++ forwardsOf pairId serverId es := by
  obtain ⟨pair, hm, hp⟩ := hin
  rw [sentFor, since_append_of_mem ⟨_, hm, by simpa [insertsPair] using hp⟩]
  exact List.filterMap_append

/-- A move that inserts the pair reads nothing. -/
theorem sentFor_append_of_not_inserted {pairId : PairId} {serverId : ServerId} (hin : ¬InsertedIn pairId h)
    (he : Effect v move v' es) : sentFor pairId serverId (h ++ es) = [] := by
  by_cases hes : ∃ pair, .inserted pair ∈ es
  · have hread : forwardsOf pairId serverId es = [] := by
      cases he with
      | inserted => rfl
      | writerEnded _ _ hevents =>
        rcases hevents with rfl | ⟨_, rfl⟩ <;> rfl
      | _ =>
        obtain ⟨pair, hm⟩ := hes
        simp at hm
    rw [sentFor, forwardsOf, filterMap_since_append hread]
    exact sentFor_of_not_inserted hin
  · refine sentFor_of_not_inserted ?_
    rw [insertedIn_append]
    rintro (hold | ⟨pair, hm, _⟩)
    · exact hin hold
    · exact hes ⟨pair, hm⟩

/-- A pair that comes into the table had not been inserted before. -/
theorem pairs_effect (hv : Flowing v h) (he : Effect v move v' es) {pairId : PairId} (hp : v'.pairs pairId ≠ none) :
    v.pairs pairId ≠ none ∨ ¬InsertedIn pairId h := by
  have herase : ∀ q, (v.erase q).pairs pairId ≠ none → v.pairs pairId ≠ none := by
    intro q hp
    rw [View.erase_pairs] at hp
    split at hp
    · exact absurd rfl hp
    · exact hp
  cases he with
  | closedByServer | closedByClient | closed | removed => exact .inl (herase _ hp)
  | @inserted a pair rest htodo =>
    by_cases hid : pairId = pair.pairId
    · subst hid
      have hmem : .insertPair pair ∈ v.todo a := by rw [htodo]; exact List.mem_cons_self
      obtain ⟨ha, hopening⟩ := hv.inserting a pair hmem
      subst ha
      obtain ⟨n, hn⟩ := hv.opened.1 _ _ _ _ (hv.sound.todo hmem)
      refine .inr fun hin => ?_
      obtain ⟨now, _, ⟨hn', _⟩ | ⟨_, hop⟩ | ⟨_, hop⟩⟩ := hn.next hopening htodo
      · have := hn.inserted.mpr hin
        omega
      · cases hop
      · cases hop
    · rw [View.setTodo_pairs, View.insert_pairs, if_neg hid] at hp
      exact .inl hp
  | readFailed | rejected | sendFailed =>
    rw [View.fail_eq] at hp
    exact .inl (by simpa using hp)
  | finished => exact .inl (by simpa using hp)
  | _ => exact .inl hp

/-- One task has the payloads for a client in hand. -/
theorem Carries.unique_down {a b : Option ConnId} {i : ConnId} {pairId : PairId} {serverId : ServerId} {tx : ConnId}
    {x y : List UInt8} (hv : Flowing v h) (hi : v.role i = some (.client pairId serverId tx))
    (ha : Carries v a i pairId x) (hb : Carries v b i pairId y) : a = b := by
  have hserver : ∀ {a x}, Carries v a i pairId x → ∃ c g, a = some c ∧ Running v c ∧ v.role c = some (.server serverId g) := by
    intro a x ha
    obtain ⟨c, rfl, hphase, ⟨id, g, serverTx, hc, hrole⟩ | ⟨id, hc⟩⟩ := ha.task
    · rw [hi] at hrole
      cases hrole
      exact ⟨c, g, rfl, ⟨_, hphase, fun result => Phase.noConfusion⟩, hc⟩
    · obtain ⟨g, hg⟩ := hv.sound.roles.client hc
      rw [hi] at hg
      cases hg
  obtain ⟨c, g, rfl, hrunning, hc⟩ := hserver ha
  obtain ⟨d, g', rfl, hrunning', hd⟩ := hserver hb
  rw [live_unique hv.live hc hd hrunning hrunning']

/-- A server that reads has no payload in hand for its client. -/
theorem not_inHand_down {c i : ConnId} {g : Nat} {pairId : PairId} {serverId : ServerId} {tx : ConnId} (hv : Flowing v h)
    (hi : v.role i = some (.client pairId serverId tx)) (hidle : v.Idle c (.server serverId g)) (y : List UInt8) :
    ¬InHand v i pairId y := by
  intro hin
  obtain ⟨a, hcarries⟩ := hin.carries hv.carried
  obtain ⟨d, rfl, hphase, ⟨id, g', serverTx, hd, hrole⟩ | ⟨id, hd⟩⟩ := hcarries.task
  · rw [hi] at hrole
    cases hrole
    obtain rfl := live_unique hv.live hidle.role hd hidle.running ⟨_, hphase, fun result => Phase.noConfusion⟩
    have htodo := hcarries.todo
    rw [hidle.todo] at htodo
    cases htodo
  · obtain ⟨g', hg⟩ := hv.sound.roles.client hd
    rw [hi] at hg
    cases hg

theorem down_effect (hv : Flowing v h) (hv' : Flowing v' (h ++ es)) (hfits : Fits es) (hd : Down v h)
    (he : Effect v move v' es) : Down v' (h ++ es) := by
  intro i pairId serverId tx hi
  obtain hi | ⟨hn, hes, hfresh⟩ := client_effect he hi
  · have hlink := hd i pairId serverId tx hi
    have hopen : IsOpen v' i → IsOpen v i := isOpen_effect he hi
    rw [queuedFor_append]
    cases @hand_effect v v' move es i pairId hv.sound hv.carried hfits he with
    | kept hqueued hhand hserver =>
      rw [hqueued, List.append_nil]
      by_cases hin : InsertedIn pairId h
      · rw [sentFor_append hin]
        by_cases hreads : forwardsOf pairId serverId es = []
        · rw [hreads, List.append_nil]
          exact hlink.mono hopen (fun hp => (pairs_effect hv he hp).resolve_right (not_not_intro hin)) hhand
        · refine hlink.ignore (List.prefix_append _ _) ?_ hopen hhand
          obtain ⟨payload, hm⟩ := List.exists_mem_of_ne_nil _ hreads
          obtain ⟨event, hevent, hf⟩ := List.mem_filterMap.mp hm
          cases event with
          | read c who bytes =>
            cases who with
            | server id g =>
              simp only at hf
              split at hf
              · next hid =>
                subst hid
                exact not_not_intro (hserver c id g bytes payload tx hevent hf hi)
              · cases hf
            | client q id tx' => cases hf
          | _ => cases hf
      · rw [sentFor_append_of_not_inserted hin he, ← @sentFor_of_not_inserted h pairId serverId hin]
        exact hlink.start (sentFor_of_not_inserted hin) hopen hhand
    | @fromServer c g bytes x pair hpair htx hidle hx hlive hhand =>
      obtain ⟨rfl, hat⟩ := hv.sound.pairs hpair
      rw [PairAt, htx, hi] at hat
      cases hat
      have hnone : queuedFor pair.pairId i [.read c (.server pair.serverId g) bytes] = [] := rfl
      have hforwards : forwardsOf pair.pairId pair.serverId [.read c (.server pair.serverId g) bytes] = [x] := by
        simp [forwardsOf, hx]
      have hempty := not_inHand_down hv hi hidle
      rw [hnone, List.append_nil, sentFor_append (hv.opened.2 _ _ hpair), hforwards]
      refine hlink.take hempty (by simp [hpair]) hopen fun y => ?_
      rw [hhand]
      exact ⟨fun hy => hy.resolve_right (hempty y), Or.inl⟩
    | @fromClient c id x hidle =>
      obtain ⟨g, hg⟩ := hv.sound.roles.client hidle.role
      rw [hi] at hg
      cases hg
    | @passed a x hcarries ho hpairs hhand =>
      have hqueued : queuedFor pairId i [.pushed i (encodeDataFrame (.forward pairId x))] = [x] := by
        simp [queuedFor, pushedTo, encodeDataFrame, forwardOf, forwarded_encode hcarries.short]
      have hsent : sentFor pairId serverId (h ++ [.pushed i (encodeDataFrame (.forward pairId x))]) =
          sentFor pairId serverId h := filterMap_since_append rfl
      rw [hqueued, hsent]
      refine hlink.pass ho ⟨hcarries.short, a, by rw [hcarries.todo]; exact List.mem_cons_self⟩ (by rw [hpairs]; exact id) ?_
      intro y hy
      obtain ⟨b, hb, hcarries'⟩ := hhand y hy
      exact hb (Carries.unique_down hv hi hcarries' hcarries)
    | lost hclosed =>
      have hnone : queuedFor pairId i [] = [] := rfl
      rw [hnone, List.append_nil, List.append_nil]
      exact hlink.lose List.prefix_rfl hclosed
  · have hlink := link_new i (v'.pairs pairId ≠ none) hv hfresh hfits hes he
    rw [hes, List.append_nil, sentFor_of_not_inserted (not_inserted_of_fresh hv.known hfresh)]
    exact hlink

/-! ## From the client to the server -/

/-- A client that reads has not closed its pair. -/
def Unclosed (v : View) (h : List Event) : Prop :=
  ∀ i pairId serverId tx, v.role i = some (.client pairId serverId tx) →
    (v.phase i = some .opening ∨ v.phase i = some .reading) → ∀ bytes ∈ messagesOf i h, IsPairClose bytes = false

/-- The links of clients to servers. -/
def Up (v : View) (h : List Event) : Prop :=
  ∀ i pairId serverId tx, v.role i = some (.client pairId serverId tx) →
    Fifo.Link (sentBy i pairId h) (queuedFor pairId tx h) (IsOpen v tx) True (InHand v tx pairId)

theorem messagesOf_append (i : ConnId) (h es : List Event) : messagesOf i (h ++ es) = messagesOf i h ++ messagesOf i es :=
  List.filterMap_append

theorem messagesOf_read {i c : ConnId} {who : Role} {bytes : List UInt8} :
    messagesOf i [.read c who bytes] = if c = i then [bytes] else [] := by
  by_cases hc : c = i <;> simp [messagesOf, hc]

theorem messagesOf_new {i : ConnId} (hk : Known v h) (hi : v.role i = none) : messagesOf i h = [] := by
  rw [messagesOf, List.filterMap_eq_nil_iff]
  intro event hm
  have hof := hk event hm
  cases event with
  | read c who bytes =>
    simp only [ite_eq_right_iff, reduceCtorEq, imp_false]
    rintro rfl
    rw [Event.Of, hi] at hof
    cases hof
  | _ => rfl

/-- A client that still reads did so before, and what it has read now does not close its pair. -/
theorem reading_effect (he : Effect v move v' es) {i : ConnId} {pairId : PairId} {serverId : ServerId} {tx : ConnId}
    (hi : v.role i = some (.client pairId serverId tx)) (hphase : v'.phase i = some .opening ∨ v'.phase i = some .reading) :
    (v.phase i = some .opening ∨ v.phase i = some .reading) ∧ ∀ bytes ∈ messagesOf i es, IsPairClose bytes = false := by
  have hnone : ∀ bytes ∈ messagesOf i [], IsPairClose bytes = false := fun _ hm => absurd hm List.not_mem_nil
  have hother : ∀ {c : ConnId} {id : ServerId} {g : Nat} {bytes : List UInt8}, v.role c = some (.server id g) →
      messagesOf i [.read c (.server id g) bytes] = [] := by
    intro c id g bytes hc
    rw [messagesOf_read, if_neg]
    rintro rfl
    rw [hi] at hc
    cases hc
  have hidle : ∀ {c : ConnId} {who : Role}, v.Idle c who → (∀ j, some j ≠ some c → v'.phase j = v.phase j) →
      v.phase i = some .opening ∨ v.phase i = some .reading := by
    intro c who hidle hsame
    by_cases hic : i = c
    · rw [hic]
      exact hidle.phase
    · rwa [hsame i (by simpa using hic)] at hphase
  cases he with
  | registered hn =>
    simp only [Function.update_of_ne (ne_new hi hn)] at hphase
    exact ⟨hphase, hnone⟩
  | connected pair hn =>
    simp only [Function.update_of_ne (ne_new hi hn)] at hphase
    exact ⟨hphase, hnone⟩
  | pinged hid | stopped hid => exact ⟨hidle hid fun j hj => phase_of_ne hj, hnone⟩
  | ignored hid | answered hid | toClient _ hid | closedByServer hid =>
    refine ⟨hidle hid fun j hj => phase_of_ne hj, ?_⟩
    rw [hother hid.role]
    exact hnone
  | readFailed hid =>
    rw [View.fail_eq] at hidle
    exact ⟨hidle hid fun j hj => by rw [phase_of_ne hj, View.leave_phase], hnone⟩
  | rejected hid =>
    rw [View.fail_eq] at hidle
    refine ⟨hidle hid fun j hj => by rw [phase_of_ne hj, View.leave_phase], ?_⟩
    rw [hother hid.role]
    exact hnone
  | @toServer c q id tx' _ bytes hid hpayload =>
    refine ⟨hidle hid fun j hj => phase_of_ne hj, ?_⟩
    intro bytes' hm
    rw [messagesOf_read] at hm
    split at hm
    · rw [List.mem_singleton.mp hm, Bool.eq_false_iff, Ne, isPairClose_eq]
      rintro ⟨closing, reason, hdecode⟩
      exact hpayload closing reason hdecode
    · cases hm
  | @closedByClient c q id tx' _ bytes closing reason hid =>
    by_cases hic : i = c
    · rw [View.setTodo_phase, View.setPhase_phase, if_pos hic] at hphase
      rcases hphase with hp | hp <;> cases hp
    · refine ⟨hidle hid fun j hj => phase_of_ne hj, ?_⟩
      rw [messagesOf_read, if_neg (Ne.symm hic)]
      exact hnone
  | @sendFailed c who phase tx' msg rest channel hrole hold =>
    refine ⟨?_, hnone⟩
    rw [View.fail_eq] at hphase
    by_cases hic : i = c
    · subst hic
      rw [hrole] at hi
      cases hi
      rw [View.setTodo_phase, View.setPhase_phase, if_pos rfl] at hphase
      cases phase <;> simp [View.failing] at hphase
    · rw [phase_of_ne (by simpa using hic), View.leave_phase] at hphase
      exact hphase
  | @finished c who result hrole hold =>
    refine ⟨?_, hnone⟩
    rw [View.setPhase_phase] at hphase
    split at hphase
    · rcases hphase with hp | hp <;> cases hp
    · simpa using hphase
  | wrote | pushed | inserted => exact ⟨hphase, fun _ hm => absurd hm List.not_mem_nil⟩
  | writerEnded _ _ hevents =>
    refine ⟨hphase, ?_⟩
    rcases hevents with rfl | ⟨_, rfl⟩ <;> exact hnone
  | refused | skipped | closed | listed | removed | returned | swept => exact ⟨hphase, hnone⟩

theorem unclosed_effect (hu : Unclosed v h) (hk : Known v h) (he : Effect v move v' es) : Unclosed v' (h ++ es) := by
  intro i pairId serverId tx hi hphase bytes hm
  obtain hi | ⟨hn, rfl, _⟩ := client_effect he hi
  · obtain ⟨hold, hnew⟩ := reading_effect he hi hphase
    rw [messagesOf_append] at hm
    rcases List.mem_append.mp hm with hm | hm
    · exact hu i pairId serverId tx hi hold bytes hm
    · exact hnew bytes hm
  · rw [List.append_nil, messagesOf_new hk hn] at hm
    cases hm

/-- The payloads for a server are in the hands of their client. -/
theorem Carries.of_client {a : Option ConnId} {i : ConnId} {pairId : PairId} {serverId : ServerId} {tx : ConnId}
    {x : List UInt8} (hv : Flowing v h) (hi : v.role i = some (.client pairId serverId tx)) (ha : Carries v a tx pairId x) :
    a = some i := by
  obtain ⟨g, hg⟩ := hv.sound.roles.client hi
  obtain ⟨c, rfl, _, ⟨id, g', serverTx, _, hrole⟩ | ⟨id, hc⟩⟩ := ha.task
  · rw [hg] at hrole
    cases hrole
  · rw [hv.sound.roles.unique hc hi]

/-- A message that does not close the pair is one more that the client has sent. -/
theorem sentBy_append {i : ConnId} {pairId : PairId} {who : Role} {x : List UInt8}
    (hopened : .pushed i (encodeCtrlFrame (.pairOpen pairId)) ∈ h) (hu : ∀ bytes ∈ messagesOf i h, IsPairClose bytes = false)
    (hx : IsPairClose x = false) : sentBy i pairId (h ++ [.read i who x]) = sentBy i pairId h ++ [x] := by
  have hall : ∀ bytes ∈ messagesOf i (since (queuesPairOpen i pairId) h), !IsPairClose bytes := by
    intro bytes hm
    obtain ⟨event, hevent, hf⟩ := List.mem_filterMap.mp hm
    rw [hu bytes (List.mem_filterMap.mpr ⟨event, (List.dropWhile_suffix _).subset hevent, hf⟩)]
    rfl
  rw [sentBy, since_append_of_mem ⟨_, hopened, by simp [queuesPairOpen]⟩, messagesOf_append, messagesOf_read, if_pos rfl,
    List.takeWhile_append_of_pos hall, sentBy, List.takeWhile_eq_self_iff.mpr hall]
  simp [hx]

theorem takeWhile_append_stop {α : Type} {p : α → Bool} {es : List α} (hes : ∀ x ∈ es, p x = false) :
    ∀ l : List α, (l ++ es).takeWhile p = l.takeWhile p
  | [] => by
    cases es with
    | nil => rfl
    | cons x es => simp [hes x List.mem_cons_self]
  | y :: l => by
    rw [List.cons_append, List.takeWhile_cons, List.takeWhile_cons, takeWhile_append_stop hes l]

/-- A message that closes the pair is the last. -/
theorem sentBy_append_close {i : ConnId} {pairId : PairId} (hes : ∀ bytes ∈ messagesOf i es, IsPairClose bytes = true) :
    sentBy i pairId (h ++ es) = sentBy i pairId h := by
  have hstop : ∀ bytes ∈ messagesOf i es, (!IsPairClose bytes) = false := by
    intro bytes hm
    rw [hes bytes hm]
    rfl
  by_cases hopened : ∃ event ∈ h, queuesPairOpen i pairId event = true
  · rw [sentBy, since_append_of_mem hopened, messagesOf_append]
    exact takeWhile_append_stop hstop _
  · have hnone : since (queuesPairOpen i pairId) h = [] := since_of_not_mem fun event hm => by
      by_contra hne
      exact hopened ⟨event, hm, by simpa using hne⟩
    have hempty : (h.dropWhile fun event => !queuesPairOpen i pairId event).isEmpty := List.isEmpty_iff.mpr hnone
    rw [sentBy, sentBy, hnone, since, List.dropWhile_append, if_pos hempty]
    have hsub : ∀ bytes ∈ messagesOf i (es.dropWhile fun event => !queuesPairOpen i pairId event),
        (!IsPairClose bytes) = false := by
      intro bytes hm
      obtain ⟨event, hevent, hf⟩ := List.mem_filterMap.mp hm
      exact hstop bytes (List.mem_filterMap.mpr ⟨event, (List.dropWhile_suffix _).subset hevent, hf⟩)
    exact takeWhile_append_stop hsub []

theorem up_effect (hv : Flowing v h) (hfits : Fits es) (hclosed : Unclosed v h) (hu : Up v h)
    (hk' : Known v' (h ++ es)) (he : Effect v move v' es) : Up v' (h ++ es) := by
  intro i pairId serverId tx hi'
  obtain hi | ⟨hn, hes, hfresh⟩ := client_effect he hi'
  · have hlink := hu i pairId serverId tx hi
    obtain ⟨g, htx⟩ := hv.sound.roles.client hi
    have hopen : IsOpen v' tx → IsOpen v tx := isOpen_effect he htx
    rw [queuedFor_append]
    cases @hand_effect v v' move es tx pairId hv.sound hv.carried hfits he with
    | kept hqueued hhand hserver hclient =>
      rw [hqueued, List.append_nil, sentBy_append_close]
      · exact hlink.mono hopen id hhand
      · intro bytes hm
        obtain ⟨event, hevent, hf⟩ := List.mem_filterMap.mp hm
        cases event with
        | read c who bytes' =>
          simp only at hf
          split at hf
          · next hc =>
            cases hf
            have hwho := hk' _ (List.mem_append_right _ hevent)
            rw [Event.Of, hc, hi'] at hwho
            cases hwho
            exact hclient c serverId bytes hevent
          · cases hf
        | _ => cases hf
    | @fromServer c g' bytes x pair hpair hserver =>
      obtain ⟨rfl, hat⟩ := hv.sound.pairs hpair
      rw [PairAt, hserver, htx] at hat
      cases hat
    | @fromClient c id x hidle hx hhand =>
      obtain rfl := hv.sound.roles.unique hidle.role hi
      obtain ⟨n, hn⟩ := hv.opened.1 _ _ _ _ hi
      have hnone : queuedFor pairId tx [.read c (.client pairId id tx) x] = [] := rfl
      have hempty : ∀ y, ¬InHand v tx pairId y := by
        intro y hin
        obtain ⟨a, hcarries⟩ := hin.carries hv.carried
        have htodo := hcarries.todo
        rw [Carries.of_client hv hi hcarries, hidle.todo] at htodo
        cases htodo
      rw [hnone, List.append_nil, sentBy_append (hn.opened (hn.idle hidle)) (hclosed _ _ _ _ hi hidle.phase) hx]
      refine hlink.take hempty trivial hopen fun y => ?_
      rw [hhand]
      exact ⟨fun hy => hy.resolve_right (hempty y), Or.inl⟩
    | @passed a x hcarries ho hpairs hhand =>
      have hqueued : queuedFor pairId tx [.pushed tx (encodeDataFrame (.forward pairId x))] = [x] := by
        simp [queuedFor, pushedTo, encodeDataFrame, forwardOf, forwarded_encode hcarries.short]
      rw [hqueued, sentBy_append_close fun _ hm => absurd hm List.not_mem_nil]
      refine hlink.pass ho ⟨hcarries.short, a, by rw [hcarries.todo]; exact List.mem_cons_self⟩ id ?_
      intro y hy
      obtain ⟨b, hb, hcarries'⟩ := hhand y hy
      exact hb ((Carries.of_client hv hi hcarries').trans (Carries.of_client hv hi hcarries).symm)
    | lost hclosed' =>
      have hnone : queuedFor pairId tx [] = [] := rfl
      rw [hnone, List.append_nil, List.append_nil]
      exact hlink.lose List.prefix_rfl hclosed'
  · have hlink := link_new tx True hv hfresh hfits hes he
    have hsent : sentBy i pairId h = [] := by
      have hmessages : messagesOf i h = [] := messagesOf_new hv.known hn
      have hmessages' : messagesOf i (since (queuesPairOpen i pairId) h) = [] := by
        rw [messagesOf, List.filterMap_eq_nil_iff] at hmessages ⊢
        exact fun event hm => hmessages event ((List.dropWhile_suffix _).subset hm)
      rw [sentBy, hmessages', List.takeWhile_nil]
    rw [hes, List.append_nil, hsent]
    exact hlink

/-! ## What is written -/

/-- What a writer has written of the payloads is what it has taken out of its queue. -/
theorem forwardsTo_eq {pairId : PairId} {tx : ConnId} {serverId : ServerId} {g : Nat} (hk : Known v h)
    (htx : v.role tx = some (.server serverId g)) : forwardsTo pairId tx h = (wroteAt tx h).filterMap (forwardOf pairId) := by
  rw [forwardsTo, wroteAt, List.filterMap_filterMap]
  refine List.filterMap_congr fun event hm => ?_
  have hof := hk event hm
  cases event with
  | wrote c msg frame =>
    by_cases hc : c = tx
    · subst hc
      obtain ⟨who, hwho, hwrites | ⟨rfl, rfl⟩⟩ := hof
      · rw [htx] at hwho
        cases hwho
        cases hwrites <;> simp [forwardOf]
      · simp [forwardOf]
    · cases msg <;> cases frame <;> simp [hc]
  | _ => rfl

theorem payloadsTo_eq {i : ConnId} {pairId : PairId} {serverId : ServerId} {tx : ConnId} (hv : Flowing v h)
    (hi : v.role i = some (.client pairId serverId tx)) {channel : Channel.Mpsc ServerMsg} (hchannel : v.channel i = some channel) :
    payloadsTo i h = (wroteAt i h).filterMap (forwardOf pairId) := by
  rw [payloadsTo, wroteAt, List.filterMap_filterMap]
  refine List.filterMap_congr fun event hm => ?_
  have hof := hv.known event hm
  cases event with
  | wrote c msg frame =>
    by_cases hc : c = i
    · subst hc
      obtain ⟨who, hwho, hwrites | ⟨rfl, rfl⟩⟩ := hof
      · rw [hi] at hwho
        cases hwho
        cases hwrites with
        | ctrl => simp [forwardOf]
        | @payload _ q _ _ bytes payload hdecode =>
          -- Only payloads of its own pair are queued for a client.
          have hmem : .data bytes ∈ pushedTo c h := (hv.queued c channel hchannel).1.subset
            (List.mem_filterMap.mpr ⟨_, hm, by simp⟩)
          obtain ⟨q', x, j, id, tx', rfl, hshort, hj, hends⟩ := hv.known _ (mem_pushedTo.mp hmem)
          have hq : q' = pairId := by
            rcases hends with rfl | rfl
            · rw [hi] at hj
              cases hj
              rfl
            · obtain ⟨g, hg⟩ := hv.sound.roles.client hj
              rw [hi] at hg
              cases hg
          have hforward := @forwarded_encode pairId q' x hshort
          rw [if_pos hq, forwarded_eq_some, hdecode] at hforward
          cases hforward
          simp [forwardOf, forwarded_eq_some.mpr hdecode]
      · simp [forwardOf]
    · cases msg <;> cases frame <;> simp [hc]
  | _ => rfl

/-- **Payloads keep their order.** In every run, what the relay has written to a client is a prefix of what its server
has sent for the pair, and what it has written to the server for the pair is a prefix of what the client has sent. -/
theorem pair_fifo {idleThreshold : Nat} {moves : List Move} {s : Relay}
    (hr : Steps.run (Steps.traced step emit) ({ idleThreshold }, []) moves = some (s, h)) (hfits : Fits h) {i : ConnId}
    {pairId : PairId} {serverId : ServerId} {tx : ConnId} (hi : s.role i = some (.client pairId serverId tx)) :
    payloadsTo i h <+: sentFor pairId serverId h ∧ forwardsTo pairId tx h <+: sentBy i pairId h := by
  obtain ⟨hv, hdown, _, hup⟩ := run_flowing
    (P := fun v h => Down v h ∧ Unclosed v h ∧ Up v h)
    (fun _ _ _ hv hv' hfits he ⟨hdown, hclosed, hup⟩ =>
      ⟨down_effect hv hv' hfits hdown he, unclosed_effect hclosed hv.known he,
        up_effect hv hfits hclosed hup hv'.known he⟩)
    ⟨fun _ _ _ _ hi => (nomatch hi), fun _ _ _ _ hi => (nomatch hi), fun _ _ _ _ hi => (nomatch hi)⟩ hr hfits
    (Steps.meets_true moves _)
  have hqueue : ∀ {j who}, s.role j = some who → ∃ channel, s.view.channel j = some channel := by
    intro j who hj
    obtain ⟨k, hk, _⟩ := Option.map_eq_some_iff.mp hj
    exact ⟨k.channel, channel_eq hk⟩
  constructor
  · obtain ⟨channel, hchannel⟩ := hqueue hi
    rw [payloadsTo_eq hv hi hchannel]
    exact ((hv.queued i channel hchannel).1.filterMap _).trans (hdown i pairId serverId tx hi).inOrder
  · obtain ⟨g, htx⟩ := hv.sound.roles.client hi
    obtain ⟨channel, hchannel⟩ := hqueue htx
    rw [forwardsTo_eq hv.known htx]
    exact ((hv.queued tx channel hchannel).1.filterMap _).trans (hup i pairId serverId tx hi).inOrder

end Relay

/-! ## A payload each way -/

/-- The server of `connectedRelay` sends a payload to the client and the client sends one back. -/
def passedMoves : List Relay.Move :=
  connectedMoves ++ [.read 0 (.binary (encodeRelayData (.forward pairA [0x2a]))) 1, .advance 0, .write 2 true,
    .write 2 true, .read 2 (.binary [0x2b]) 1, .advance 2, .write 0 true, .write 0 true, .write 0 true]

def passedTrace : Relay × List Relay.Event := (Steps.run (Steps.traced Relay.step Relay.emit) ({}, []) passedMoves).getD ({}, [])

theorem run_passedMoves : Steps.run (Steps.traced Relay.step Relay.emit) ({}, []) passedMoves = some passedTrace := by
  rfl

theorem fits_passed : Relay.Fits passedTrace.2 := by
  decide +kernel

theorem pair_fifo_sample : Relay.payloadsTo 2 passedTrace.2 = [[0x2a]] ∧
    Relay.payloadsTo 2 passedTrace.2 <+: Relay.sentFor pairA serverA passedTrace.2 ∧
    Relay.forwardsTo pairA 0 passedTrace.2 <+: Relay.sentBy 2 pairA passedTrace.2 :=
  ⟨by decide +kernel, Relay.pair_fifo run_passedMoves fits_passed (by rfl)⟩

end CliPocket
