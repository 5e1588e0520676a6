import CliPocket.Lib.Saturating
import CliPocket.Relay.Fifo
import Mathlib.Algebra.BigOperators.Ring.List
import Mathlib.Algebra.Ring.Nat

/-!
# The byte caps of a pair

A pair has a ticket with a bucket of bytes, refilled every tenth of a second, and a counter of queued bytes. The
forwarding loops hold the ticket and ask it for nothing.

- `PairTicket`: its operations, each of which is one atomic update;
- `Relay.timed`: the relay beside the events of its run, ticks included;
- `Admitted`: the pair's ticket, asked for the payload at hand, would not refuse it;
- `byte_caps_hold`: **in every run in which no ticket would refuse, both caps hold, for every pair and stretch.**
-/

namespace CliPocket

open Saturating (u64Max)

/-- The limits in `CapsInner` that a pair's ticket looks at. -/
structure ByteCaps where
  maxBytesPerSec : Nat
  maxQueuedBytes : Nat

structure PairTicket where
  rateBucket : Nat
  rateRemainderTenths : Nat := 0
  queuedBytes : Nat := 0

/-- `RelayError::OverCapacity`. -/
structure OverCapacity where
  what : String

namespace PairTicket

/-- The ticket of `try_add_pair`. -/
def new (caps : ByteCaps) : PairTicket := { rateBucket := caps.maxBytesPerSec }

def tryConsumeRate (t : PairTicket) (bytes : Nat) : Except OverCapacity PairTicket :=
  if bytes ≤ t.rateBucket then .ok { t with rateBucket := t.rateBucket - bytes }
  else .error { what := "max_bytes_per_sec" }

def refillOneTick (caps : ByteCaps) (t : PairTicket) : PairTicket :=
  let totalTenths := Saturating.add u64Max t.rateRemainderTenths caps.maxBytesPerSec
  let tickBytes := totalTenths / 10
  let t := { t with rateRemainderTenths := totalTenths % 10 }
  if tickBytes = 0 then t
  else { t with rateBucket := min (Saturating.add u64Max t.rateBucket tickBytes) caps.maxBytesPerSec }

def tryAddQueuedBytes (caps : ByteCaps) (t : PairTicket) (bytes : Nat) : Except OverCapacity PairTicket :=
  if u64Max < t.queuedBytes + bytes then .error { what := "max_queued_bytes" }
  else if caps.maxQueuedBytes < t.queuedBytes + bytes then .error { what := "max_queued_bytes" }
  else .ok { t with queuedBytes := t.queuedBytes + bytes }

def removeQueuedBytes (t : PairTicket) (bytes : Nat) : PairTicket := { t with queuedBytes := t.queuedBytes - bytes }

end PairTicket

namespace Relay

/-! ## Payloads, and time -/

/-- The pair and the payload of a message for a writer. -/
def payloadOf : ServerMsg → Option (PairId × List UInt8)
  | .data bytes =>
    match decodeRelay bytes with
    | .ok (.data (.forward pairId payload)) => some (pairId, payload)
    | _ => none
  | _ => none

/-- The bytes of a payload, if it is one of the pair. -/
def bytesFor (pairId : PairId) : Option (PairId × List UInt8) → Nat
  | some (p, payload) => if p = pairId then payload.length else 0
  | none => 0

/-- The payload bytes of the pair that are queued, and have not been written. -/
def queuedBytes (pairId : PairId) (s : Relay) : Nat :=
  (s.conns.map fun conn => (conn.channel.queue.map fun msg => bytesFor pairId (payloadOf msg)).sum).sum

inductive TimedMove
  | relay (move : Move)
  /-- A tenth of a second is over. -/
  | tick

inductive TimedEvent
  | relay (event : Event)
  | tick
  deriving DecidableEq

/-- The relay does nothing at a tick. -/
def timedStep (s : Relay) : TimedMove → Option Relay
  | .relay move => s.step move
  | .tick => some s

def timedEmit (s : Relay) : TimedMove → List TimedEvent
  | .relay move => (s.emit move).map .relay
  | .tick => [.tick]

/-- The relay beside what has happened. -/
def timed : Relay × List TimedEvent → TimedMove → Option (Relay × List TimedEvent) := Steps.traced timedStep timedEmit

/-- A payload is forwarded when it is queued for a writer. -/
def payloadIn : Event → Option (PairId × List UInt8)
  | .pushed _ msg => payloadOf msg
  | _ => none

def forwardedBytes (pairId : PairId) : TimedEvent → Nat
  | .relay event => bytesFor pairId (payloadIn event)
  | .tick => 0

def ticksIn (h : List TimedEvent) : Nat := h.count .tick

/-! ## What the ticket would say -/

/-- The ticket is refilled at a tick, and asked for every payload of its pair. -/
def charge (caps : ByteCaps) (pairId : PairId) (ticket : PairTicket) : TimedEvent → Option PairTicket
  | .tick => some (ticket.refillOneTick caps)
  | .relay event => (ticket.tryConsumeRate (bytesFor pairId (payloadIn event))).toOption

/-- What the ticket of the pair would be by now, had it been asked for every payload. -/
def ticketAfter (caps : ByteCaps) (pairId : PairId) (h : List TimedEvent) : Option PairTicket :=
  Steps.run (charge caps pairId) (.new caps) h

/-- The ticket of the pair admits `bytes` more. -/
def Admits (caps : ByteCaps) (ticket : PairTicket) (queued bytes : Nat) : Prop :=
  (ticket.tryConsumeRate bytes).isOk ∧ (PairTicket.tryAddQueuedBytes caps { ticket with queuedBytes := queued } bytes).isOk

/-- The ticket of its pair would admit the payload that a task is about to queue. -/
def Admitted (caps : ByteCaps) : Relay × List TimedEvent → TimedMove → Prop
  | (s, h), .relay move => ∀ event ∈ s.emit move, ∀ payload ∈ payloadIn event,
    ∃ ticket ∈ ticketAfter caps payload.1 h, Admits caps ticket (queuedBytes payload.1 s) payload.2.length
  | _, .tick => True

/-- The caps as they have been kept so far: over every stretch of the run, and of what is queued. -/
structure CapsHold (caps : ByteCaps) (s : Relay) (h : List TimedEvent) : Prop where
  rate : ∀ pairId before stretch behind, h = before ++ stretch ++ behind →
    (stretch.map (forwardedBytes pairId)).sum ≤
      caps.maxBytesPerSec + (ticksIn stretch * caps.maxBytesPerSec + 9) / 10
  queued : ∀ pairId, queuedBytes pairId s ≤ caps.maxQueuedBytes

/-! ## The bucket -/

variable {caps : ByteCaps} {pairId : PairId} {s t : Relay} {h : List TimedEvent}

/-- What a ticket has left, in tenths of a byte. -/
def level (ticket : PairTicket) : Nat := 10 * ticket.rateBucket + ticket.rateRemainderTenths

/-- What a tick adds, in tenths of a byte. -/
def gain (caps : ByteCaps) : TimedEvent → Nat
  | .tick => caps.maxBytesPerSec
  | .relay _ => 0

theorem tryConsumeRate_ok {ticket ticket' : PairTicket} {bytes : Nat} (hok : ticket.tryConsumeRate bytes = .ok ticket') :
    bytes ≤ ticket.rateBucket ∧ ticket' = { ticket with rateBucket := ticket.rateBucket - bytes } := by
  unfold PairTicket.tryConsumeRate at hok
  split at hok
  · next hle =>
    cases hok
    exact ⟨hle, rfl⟩
  · cases hok

theorem charge_relay {ticket ticket' : PairTicket} {event : Event}
    (hcharge : charge caps pairId ticket (.relay event) = some ticket') :
    ticket.tryConsumeRate (bytesFor pairId (payloadIn event)) = .ok ticket' := by
  unfold charge at hcharge
  dsimp only at hcharge
  cases htry : ticket.tryConsumeRate (bytesFor pairId (payloadIn event)) with
  | error refused =>
    rw [htry] at hcharge
    cases hcharge
  | ok next =>
    rw [htry] at hcharge
    cases hcharge
    rfl

/-- A refill adds at most a tenth of the rate, and never more than what fits. -/
theorem level_refill (caps : ByteCaps) (ticket : PairTicket) :
    level (ticket.refillOneTick caps) ≤ level ticket + caps.maxBytesPerSec := by
  unfold level PairTicket.refillOneTick Saturating.add
  dsimp only
  split
  · dsimp only
    omega
  · dsimp only
    omega

theorem charge_level (ticket : PairTicket) (event : TimedEvent) (ticket' : PairTicket)
    (hcharge : charge caps pairId ticket event = some ticket') :
    level ticket' + 10 * forwardedBytes pairId event ≤ level ticket + gain caps event := by
  cases event with
  | tick =>
    cases hcharge
    exact level_refill caps ticket
  | relay event =>
    obtain ⟨hle, rfl⟩ := tryConsumeRate_ok (charge_relay hcharge)
    simp only [level, gain, forwardedBytes]
    omega

/-- The bucket is never above its size, and the remainder is one of tenths. -/
def Bounded (caps : ByteCaps) (ticket : PairTicket) : Prop :=
  ticket.rateBucket ≤ caps.maxBytesPerSec ∧ ticket.rateRemainderTenths ≤ 9

theorem bounded_new (caps : ByteCaps) : Bounded caps (.new caps) := ⟨Nat.le_refl _, Nat.zero_le _⟩

theorem Bounded.charge {ticket ticket' : PairTicket} {event : TimedEvent} (hb : Bounded caps ticket)
    (hcharge : charge caps pairId ticket event = some ticket') : Bounded caps ticket' := by
  obtain ⟨hbucket, hremainder⟩ := hb
  cases event with
  | tick =>
    cases hcharge
    unfold Bounded PairTicket.refillOneTick
    dsimp only
    split
    · dsimp only
      omega
    · dsimp only
      omega
  | relay event =>
    obtain ⟨_, rfl⟩ := tryConsumeRate_ok (charge_relay hcharge)
    exact ⟨Nat.le_trans (Nat.sub_le _ _) hbucket, hremainder⟩

theorem Bounded.run {ticket ticket' : PairTicket} (hb : Bounded caps ticket)
    (hrun : Steps.run (Relay.charge caps pairId) ticket h = some ticket') : Bounded caps ticket' :=
  Steps.run_invariant (C := fun _ _ => True) (fun _ _ _ hb _ hcharge => hb.charge hcharge) (Steps.meets_true h ticket)
    hrun hb

theorem sum_gain (caps : ByteCaps) : ∀ h : List TimedEvent, (h.map (gain caps)).sum = ticksIn h * caps.maxBytesPerSec
  | [] => by simp [ticksIn]
  | .tick :: h => by
    rw [List.map_cons, List.sum_cons, sum_gain caps h, ticksIn, ticksIn, List.count_cons_self, Nat.succ_mul, gain]
    omega
  | .relay event :: h => by
    rw [List.map_cons, List.sum_cons, sum_gain caps h, ticksIn, ticksIn, List.count_cons_of_ne (by simp), gain]
    omega

/-- A ticket that refuses nothing bounds every stretch. -/
theorem stretch_bound {ticket : PairTicket} {before stretch behind : List TimedEvent}
    (hafter : ticketAfter caps pairId (before ++ stretch ++ behind) = some ticket) :
    (stretch.map (forwardedBytes pairId)).sum ≤
      caps.maxBytesPerSec + (ticksIn stretch * caps.maxBytesPerSec + 9) / 10 := by
  obtain ⟨mid, hmid, _⟩ := Steps.run_append_some hafter
  obtain ⟨start, hstart, hstretch⟩ := Steps.run_append_some hmid
  obtain ⟨hbucket, hremainder⟩ := (bounded_new caps).run hstart
  have hbalance := Steps.run_balance charge_level hstretch
  have hspent : (stretch.map fun event => 10 * forwardedBytes pairId event).sum =
      10 * (stretch.map (forwardedBytes pairId)).sum := List.sum_map_mul_left stretch (forwardedBytes pairId) 10
  rw [sum_gain, hspent] at hbalance
  unfold level at hbalance
  omega

/-! ## The queues -/

/-- The payload bytes of the pair in the queue of a connection. -/
def connBytes (pairId : PairId) (conn : Conn) : Nat :=
  (conn.channel.queue.map fun msg => bytesFor pairId (payloadOf msg)).sum

theorem queuedBytes_congr (hconns : t.conns = s.conns) : queuedBytes pairId t = queuedBytes pairId s := by
  unfold queuedBytes
  rw [hconns]

theorem sum_modify_le {α : Type} {f : α → α} {g : α → Nat} {n : Nat} : ∀ {l : List α} {c : Nat},
    (∀ a, l[c]? = some a → g (f a) ≤ g a + n) → ((l.modify c f).map g).sum ≤ (l.map g).sum + n
  | [], c, _ => by simp
  | a :: l, 0, hle => by
    have := hle a rfl
    simp only [List.modify_zero_cons, List.map_cons, List.sum_cons]
    omega
  | a :: l, c + 1, hle => by
    have := sum_modify_le (l := l) (c := c) fun b hb => hle b hb
    simp only [List.modify_succ_cons, List.map_cons, List.sum_cons]
    omega

theorem queuedBytes_mapConn {c : ConnId} {f : Conn → Conn} {n : Nat}
    (hle : ∀ conn, s.conns[c]? = some conn → connBytes pairId (f conn) ≤ connBytes pairId conn + n) :
    queuedBytes pairId (s.mapConn c f) ≤ queuedBytes pairId s + n := sum_modify_le hle

/-- A change that leaves the queue. -/
theorem queuedBytes_aside {c : ConnId} {f : Conn → Conn} (hsame : ∀ conn, (f conn).channel = conn.channel) :
    queuedBytes pairId (s.mapConn c f) ≤ queuedBytes pairId s := by
  refine queuedBytes_mapConn (n := 0) fun conn _ => ?_
  unfold connBytes
  rw [hsame]
  exact Nat.le_refl _

theorem queuedBytes_fail (c : ConnId) (conn : Conn) (error : RelayError) :
    queuedBytes pairId (s.fail c conn error) ≤ queuedBytes pairId s := by
  unfold Relay.fail
  split
  · next _ serverId generation _ =>
    refine Nat.le_trans (queuedBytes_aside fun _ => rfl) ?_
    exact Nat.le_of_eq (queuedBytes_congr (conns_unregister ..))
  · exact queuedBytes_aside fun _ => rfl
  · exact queuedBytes_aside fun _ => rfl

/-- What an operation queues is what its events say. -/
theorem queuedBytes_perform {op : Op} {outcome : Outcome} (hs : s.perform op = some (t, outcome)) :
    queuedBytes pairId t ≤
      queuedBytes pairId s + ((s.opEvents op).map fun event => bytesFor pairId (payloadIn event)).sum := by
  cases op with
  | send tx msg required =>
    rcases perform_send hs with ⟨target, channel, htx, hsent, rfl, _⟩ | ⟨_, _, _, rfl, _⟩
    · have hevents : s.opEvents (.send tx msg required) = [.pushed tx msg] := by
        unfold opEvents
        dsimp only
        rw [channel_eq htx]
        dsimp only
        rw [hsent]
      rw [hevents]
      refine queuedBytes_mapConn fun conn hconn => ?_
      cases hconn.symm.trans htx
      obtain ⟨_, _, rfl⟩ := Channel.Mpsc.send_eq_sent.mp hsent
      simp [connBytes, payloadIn]
    · exact Nat.le_add_right _ _
  | insertPair pair =>
    cases hs
    exact Nat.le_add_right _ _
  | closePair closing reason =>
    have hconns : t.conns = s.conns := by
      unfold perform at hs
      cases hs
      exact conns_closePair s closing reason
    rw [queuedBytes_congr hconns]
    exact Nat.le_add_right _ _
  | closePairsOf serverId =>
    cases hs
    exact Nat.le_add_right _ _
  | removePair closing =>
    cases hs
    exact Nat.le_add_right _ _

/-- A writer leaves in its queue what it has not taken, or nothing. -/
theorem writeOne_queue {conn : Conn} {ok : Bool} {channel : Channel.Mpsc ServerMsg} {written : List Written}
    (hwrite : writeOne conn ok = some (channel, written)) :
    channel.queue = conn.channel.queue.tail ∨ channel.queue = [] := by
  unfold writeOne at hwrite
  split at hwrite
  · cases hwrite
  · cases hrecv : conn.channel.recv with
    | none =>
      rw [hrecv] at hwrite
      cases hwrite
    | some taken =>
      obtain ⟨msg, rest⟩ := taken
      have hrest : rest.queue = conn.channel.queue.tail := by
        unfold Channel.Mpsc.recv at hrecv
        cases hqueue : conn.channel.queue with
        | nil => simp [hqueue] at hrecv
        | cons first others =>
          simp only [hqueue, Option.some.injEq, Prod.mk.injEq] at hrecv
          rw [← hrecv.2]
          rfl
      have hbinary : ∀ bytes : List UInt8, (if ok then (rest, conn.written ++ [.binary bytes])
          else ({ rest with queue := [], closed := true }, conn.written)) = (channel, written) →
          channel.queue = conn.channel.queue.tail ∨ channel.queue = [] := by
        intro bytes heq
        split at heq
        · cases heq
          exact .inl hrest
        · cases heq
          exact .inr rfl
      rw [hrecv] at hwrite
      dsimp only at hwrite
      split at hwrite
      · cases hwrite
        exact .inr rfl
      · exact hbinary _ (Option.some.inj hwrite)
      · exact hbinary _ (Option.some.inj hwrite)
      · split at hwrite
        · exact hbinary _ (Option.some.inj hwrite)
        · cases hwrite
          exact .inr rfl

theorem writerTurn_queue {c : ConnId} {conn : Conn} {ok : Bool} {channel : Channel.Mpsc ServerMsg}
    {written : List Written} (hturn : s.writerTurn c conn ok = some (channel, written)) :
    channel.queue = conn.channel.queue.tail ∨ channel.queue = [] := by
  rcases writerTurn_cases hturn with hwrite | ⟨_, _, _, rfl, _⟩
  · exact writeOne_queue hwrite
  · exact .inr rfl

theorem queuedBytes_step {move : Move} (hs : s.step move = some t) :
    queuedBytes pairId t ≤
      queuedBytes pairId s + ((s.emit move).map fun event => bytesFor pairId (payloadIn event)).sum := by
  have haside : ∀ {n : Nat}, queuedBytes pairId t ≤ queuedBytes pairId s → queuedBytes pairId t ≤ queuedBytes pairId s + n :=
    fun hle => Nat.le_trans hle (Nat.le_add_right _ _)
  unfold Relay.step at hs
  cases move with
  | server first admitted =>
    cases hs
    apply haside
    rcases s.runServerSide_cases first admitted with heq | ⟨serverId, _, heq⟩
    · rw [heq]
    · rw [heq]
      simp [accept, queuedBytes, registered, serverConn]
  | client target first admitted new now =>
    dsimp only at hs
    split at hs
    · cases hs
      apply haside
      rcases s.runClientSide_cases target first admitted new now with heq | ⟨slot, _, heq⟩
      · rw [heq]
      · rw [heq]
        simp [accept, queuedBytes, clientConn]
    · cases hs
  | read c msg now =>
    apply haside
    dsimp only at hs
    cases hconn : s.conns[c]? with
    | none =>
      rw [hconn] at hs
      cases hs
    | some conn =>
      rw [hconn] at hs
      dsimp only at hs
      have hsettle : queuedBytes pairId ((s.turn c conn.role msg now).1.settle c conn (s.turn c conn.role msg now).2) ≤
          queuedBytes pairId s := by
        have hsame : queuedBytes pairId (s.turn c conn.role msg now).1 = queuedBytes pairId s :=
          queuedBytes_congr (turn_conns s c conn.role msg now)
        rw [← hsame]
        cases (s.turn c conn.role msg now).2 with
        | next todo => exact queuedBytes_aside fun _ => rfl
        | stop todo => exact queuedBytes_aside fun _ => rfl
        | fail error => exact queuedBytes_fail ..
      split at hs
      · cases hs
        exact hsettle
      · cases hs
        exact hsettle
      · cases hs
  | advance c =>
    dsimp only at hs
    cases hconn : s.conns[c]? with
    | none =>
      rw [hconn] at hs
      cases hs
    | some conn =>
      rw [hconn] at hs
      dsimp only at hs
      unfold emit
      dsimp only
      rw [hconn]
      dsimp only
      cases htodo : conn.todo with
      | nil =>
        rw [htodo] at hs
        cases hs
      | cons op rest =>
        rw [htodo] at hs
        dsimp only at hs
        rw [List.take_succ_cons, List.take_zero, List.flatMap_singleton]
        cases hp : s.perform op with
        | none =>
          rw [hp] at hs
          cases hs
        | some done =>
          obtain ⟨u, outcome⟩ := done
          rw [hp] at hs
          refine Nat.le_trans ?_ (queuedBytes_perform hp)
          cases outcome with
          | done more =>
            cases hs
            exact queuedBytes_aside fun _ => rfl
          | failed error =>
            cases hs
            exact queuedBytes_fail ..
  | finish c =>
    apply haside
    obtain ⟨_, _, ⟨_, _, _, _, _, _, rfl⟩ | ⟨_, _, _, _, _, _, _, rfl⟩ | ⟨_, _, _, rfl⟩⟩ := step_finish hs
    · refine Nat.le_trans (queuedBytes_aside fun _ => rfl) ?_
      exact Nat.le_of_eq (queuedBytes_congr (conns_unregister ..))
    · exact queuedBytes_aside fun _ => rfl
    · exact queuedBytes_aside fun _ => rfl
  | write c ok =>
    apply haside
    dsimp only at hs
    cases hconn : s.conns[c]? with
    | none =>
      rw [hconn] at hs
      cases hs
    | some conn =>
      rw [hconn] at hs
      obtain ⟨⟨channel, written⟩, hturn, rfl⟩ := Option.map_eq_some_iff.mp hs
      refine queuedBytes_mapConn (n := 0) fun conn' hconn' => ?_
      cases hconn'.symm.trans hconn
      unfold connBytes
      rcases writerTurn_queue hturn with htail | hempty
      · dsimp only
        rw [htail]
        cases conn.channel.queue with
        | nil => simp
        | cons msg rest => simp
      · simp [hempty]
  | sweep now =>
    apply haside
    dsimp only at hs
    split at hs
    · cases hs
      exact Nat.le_refl _
    · cases hs
  | sweepAdvance =>
    dsimp only at hs
    unfold emit
    dsimp only
    cases hsweeper : s.sweeper with
    | nil =>
      rw [hsweeper] at hs
      cases hs
    | cons op rest =>
      rw [hsweeper] at hs
      dsimp only at hs
      rw [List.take_succ_cons, List.take_zero, List.flatMap_singleton]
      cases hp : s.perform op with
      | none =>
        rw [hp] at hs
        cases hs
      | some done =>
        obtain ⟨u, outcome⟩ := done
        rw [hp] at hs
        cases outcome with
        | done more =>
          cases hs
          have hsame : queuedBytes pairId { u with sweeper := more ++ rest } = queuedBytes pairId u := rfl
          rw [hsame]
          exact queuedBytes_perform hp
        | failed error => cases hs

/-- A move forwards no payload, or it queues one message. -/
theorem emit_cases (s : Relay) (move : Move) :
    (∀ event ∈ s.emit move, payloadIn event = none) ∨ ∃ tx msg, s.emit move = [.pushed tx msg] := by
  have hop : ∀ op, (∀ event ∈ s.opEvents op, payloadIn event = none) ∨ ∃ tx msg, s.opEvents op = [.pushed tx msg] := by
    intro op
    cases op with
    | send tx msg required =>
      unfold opEvents
      dsimp only
      split
      · exact .inl fun _ hm => absurd hm List.not_mem_nil
      · split
        · exact .inr ⟨tx, msg, rfl⟩
        · exact .inl fun _ hm => absurd hm List.not_mem_nil
    | insertPair pair =>
      refine .inl fun event hm => ?_
      rw [List.mem_singleton.mp hm]
      rfl
    | closePair | closePairsOf | removePair => exact .inl fun _ hm => absurd hm List.not_mem_nil
  have hfirst : ∀ ops : List Op, (∀ event ∈ (ops.take 1).flatMap s.opEvents, payloadIn event = none) ∨
      ∃ tx msg, (ops.take 1).flatMap s.opEvents = [.pushed tx msg]
    | [] => .inl fun _ hm => absurd hm List.not_mem_nil
    | op :: rest => by
      rw [List.take_succ_cons, List.take_zero, List.flatMap_singleton]
      exact hop op
  unfold emit
  split
  · refine .inl fun event hm => ?_
    obtain ⟨who, _, rfl⟩ := List.mem_map.mp hm
    rfl
  · split
    · exact .inl fun _ hm => absurd hm List.not_mem_nil
    · exact hfirst _
  · exact hfirst _
  · split
    · exact .inl fun _ hm => absurd hm List.not_mem_nil
    · split
      · refine .inl fun event hm => ?_
        obtain ⟨frame, _, rfl⟩ := List.mem_map.mp hm
        rfl
      · exact .inl fun _ hm => absurd hm List.not_mem_nil
  · exact .inl fun _ hm => absurd hm List.not_mem_nil

/-! ## Both caps -/

/-- No ticket has refused, and no queue is too long. -/
def Within (caps : ByteCaps) (x : Relay × List TimedEvent) : Prop :=
  (∀ pairId, ∃ ticket, ticketAfter caps pairId x.2 = some ticket) ∧
    ∀ pairId, queuedBytes pairId x.1 ≤ caps.maxQueuedBytes

theorem charge_of_le {ticket : PairTicket} {event : Event}
    (hle : bytesFor pairId (payloadIn event) ≤ ticket.rateBucket) :
    ∃ ticket', charge caps pairId ticket (.relay event) = some ticket' := by
  unfold charge PairTicket.tryConsumeRate
  dsimp only
  rw [if_pos hle]
  exact ⟨_, rfl⟩

/-- Events without a payload leave a ticket that refuses nothing. -/
theorem ticketAfter_none : ∀ {es : List Event} {ticket : PairTicket}, (∀ event ∈ es, payloadIn event = none) →
    ∃ ticket', Steps.run (charge caps pairId) ticket (es.map .relay) = some ticket'
  | [], ticket, _ => ⟨ticket, rfl⟩
  | event :: es, ticket, hnone => by
    have hzero : bytesFor pairId (payloadIn event) ≤ ticket.rateBucket := by
      rw [hnone event List.mem_cons_self]
      exact Nat.zero_le _
    obtain ⟨mid, hmid⟩ := @charge_of_le caps _ _ _ hzero
    have hrest : ∀ e ∈ es, payloadIn e = none := fun e hm => hnone e (List.mem_cons_of_mem _ hm)
    obtain ⟨ticket', hrun⟩ := @ticketAfter_none es mid hrest
    refine ⟨ticket', ?_⟩
    rw [List.map_cons, Steps.run_cons, hmid]
    exact hrun

theorem Admits.spec {ticket : PairTicket} {queued bytes : Nat} (hadmits : Admits caps ticket queued bytes) :
    bytes ≤ ticket.rateBucket ∧ queued + bytes ≤ caps.maxQueuedBytes := by
  obtain ⟨hrate, hqueued⟩ := hadmits
  constructor
  · unfold PairTicket.tryConsumeRate at hrate
    split at hrate
    · assumption
    · cases hrate
  · unfold PairTicket.tryAddQueuedBytes at hqueued
    split at hqueued
    · cases hqueued
    · split at hqueued
      · cases hqueued
      · next hle => exact Nat.le_of_not_lt hle

theorem Within.step {x y : Relay × List TimedEvent} {move : TimedMove} (hx : Within caps x)
    (hadmitted : Admitted caps x move) (hs : timed x move = some y) : Within caps y := by
  obtain ⟨s, h⟩ := x
  obtain ⟨t, h'⟩ := y
  obtain ⟨hstep, rfl⟩ := Steps.traced_eq_some.mp hs
  obtain ⟨htickets, hqueues⟩ := hx
  cases move with
  | tick =>
    cases hstep
    refine ⟨fun p => ?_, hqueues⟩
    obtain ⟨ticket, hticket⟩ := htickets p
    refine ⟨ticket.refillOneTick caps, ?_⟩
    unfold ticketAfter
    rw [Steps.run_append hticket]
    rfl
  | relay move =>
    rcases s.emit_cases move with hnone | ⟨tx, msg, hpushed⟩
    · constructor
      · intro p
        obtain ⟨ticket, hticket⟩ := htickets p
        unfold ticketAfter
        dsimp only
        rw [Steps.run_append hticket]
        exact ticketAfter_none hnone
      · intro p
        refine Nat.le_trans (queuedBytes_step hstep) ?_
        have hzero : ((s.emit move).map fun event => bytesFor p (payloadIn event)).sum = 0 := by
          rw [List.sum_eq_zero]
          intro n hn
          obtain ⟨event, hm, rfl⟩ := List.mem_map.mp hn
          rw [hnone event hm]
          rfl
        rw [hzero]
        exact hqueues p
    · -- the ticket of the pair admits the payload, and those of the others are asked for nothing
      have hfits : ∀ p, (∀ ticket, ticketAfter caps p h = some ticket →
          bytesFor p (payloadOf msg) ≤ ticket.rateBucket) ∧
            queuedBytes p s + bytesFor p (payloadOf msg) ≤ caps.maxQueuedBytes := by
        intro p
        cases hpayload : payloadOf msg with
        | none => exact ⟨fun _ _ => Nat.zero_le _, hqueues p⟩
        | some payload =>
          obtain ⟨q, bytes⟩ := payload
          by_cases hq : q = p
          · subst hq
            obtain ⟨ticket, hticket, hadmits⟩ := hadmitted (.pushed tx msg) (by rw [hpushed]; exact List.mem_cons_self)
              (q, bytes) hpayload
            obtain ⟨hrate, hqueued⟩ := hadmits.spec
            simp only [bytesFor, if_true]
            refine ⟨fun ticket' hticket' => ?_, hqueued⟩
            cases hticket'.symm.trans hticket
            exact hrate
          · simp only [bytesFor, if_neg hq]
            exact ⟨fun _ _ => Nat.zero_le _, hqueues p⟩
      constructor
      · intro p
        obtain ⟨ticket, hticket⟩ := htickets p
        obtain ⟨ticket', hticket'⟩ := @charge_of_le caps p ticket (.pushed tx msg) ((hfits p).1 ticket hticket)
        refine ⟨ticket', ?_⟩
        unfold ticketAfter timedEmit
        dsimp only
        rw [Steps.run_append hticket, hpushed, List.map_singleton, Steps.run_cons, hticket']
        rfl
      · intro p
        refine Nat.le_trans (queuedBytes_step hstep) ?_
        rw [hpushed, List.map_singleton, List.sum_singleton]
        exact (hfits p).2

theorem within_new (caps : ByteCaps) (idleThreshold : Nat) : Within caps ({ idleThreshold }, []) :=
  ⟨fun _ => ⟨_, rfl⟩, fun _ => Nat.zero_le _⟩

/-- **In every run in which the ticket of no pair would refuse a payload, the payload bytes of each pair stay within its
rate over every stretch of the run, in both directions together, and those that are queued within their cap.** -/
theorem byte_caps_hold {idleThreshold : Nat} {moves : List TimedMove}
    (hmeets : Steps.Meets timed (Admitted caps) ({ idleThreshold }, []) moves)
    (hrun : Steps.run timed ({ idleThreshold }, []) moves = some (s, h)) : CapsHold caps s h := by
  obtain ⟨htickets, hqueues⟩ := Steps.run_invariant (I := Within caps)
    (fun _ _ _ hx hadmitted hs => hx.step hadmitted hs) hmeets hrun (within_new caps idleThreshold)
  refine ⟨fun p before stretch behind heq => ?_, hqueues⟩
  obtain ⟨ticket, hticket⟩ := htickets p
  dsimp only at hticket
  rw [heq] at hticket
  exact stretch_bound hticket

instance (ticket : PairTicket) (queued bytes : Nat) : Decidable (Admits caps ticket queued bytes) :=
  inferInstanceAs (Decidable (_ ∧ _))

instance (caps : ByteCaps) (x : Relay × List TimedEvent) (move : TimedMove) : Decidable (Admitted caps x move) := by
  unfold Admitted
  split <;> infer_instance

end Relay

/-! ## A payload within the caps, and one beyond -/

def eightBytes : ByteCaps where
  maxBytesPerSec := 8
  maxQueuedBytes := 8

def passedTimed : Relay × List Relay.TimedEvent :=
  (Steps.run Relay.timed ({}, []) (passedMoves.map .relay ++ [.tick])).getD ({}, [])

theorem byte_caps_hold_sample : Relay.ticksIn passedTimed.2 = 1 ∧
    (passedTimed.2.map (Relay.forwardedBytes pairA)).sum = 2 ∧ Relay.CapsHold eightBytes passedTimed.1 passedTimed.2 := by
  have hmeets : Steps.Meets Relay.timed (Relay.Admitted eightBytes) ({}, []) (passedMoves.map .relay ++ [.tick]) := by
    decide +kernel
  exact ⟨by decide +kernel, by decide +kernel, Relay.byte_caps_hold hmeets (by rfl)⟩

/-- The server of `connectedRelay` sends ten bytes at once. -/
def beyondMoves : List Relay.Move :=
  connectedMoves ++ [.read 0 (.binary (encodeRelayData (.forward pairA (List.replicate 10 0x2a)))) 1, .advance 0]

def beyondTimed : Relay × List Relay.TimedEvent :=
  (Steps.run Relay.timed ({}, []) (beyondMoves.map .relay)).getD ({}, [])

/-- They are all queued, in a stretch without a tick. -/
theorem ten_bytes_beyond_eight : Steps.run Relay.timed ({}, []) (beyondMoves.map .relay) = some beyondTimed ∧
    (beyondTimed.2.map (Relay.forwardedBytes pairA)).sum = 10 ∧ Relay.ticksIn beyondTimed.2 = 0 ∧
    ¬Relay.CapsHold eightBytes beyondTimed.1 beyondTimed.2 := by
  refine ⟨by rfl, by decide +kernel, by decide +kernel, fun hold => ?_⟩
  have hqueued : Relay.queuedBytes pairA beyondTimed.1 = 10 := by decide +kernel
  have hcap : Relay.queuedBytes pairA beyondTimed.1 ≤ 8 := hold.queued pairA
  omega

end CliPocket
