import CliPocket.Lib.Retry
import CliPocket.Relay.Caps

/-!
# Tickets under contention

The counters of `Caps` and the cells of a pair's ticket are atomics, and each call is one retry loop over one of them,
or two for a refill. Any number of calls go on at once, and their single reads and swaps come in any order.

- `Loop`, `Loop.body`: the loops of all calls;
- `Contention.step`: a call begins, reads, or takes a turn of its loop; tickets are made and dropped;
- `Counting.step`, `Rating.step`: **one step**, for the counters and for the cells;
- `caps_exact`: **counters are exact, and no cap is exceeded**, in every interleaving.
-/

namespace CliPocket

open Saturating (u64Max)
open Steps (run Reachable)

/-! ## The loops -/

/-- `servers` and `pairs` in `CapsInner`. -/
inductive Counter
  | servers
  | pairs
  deriving DecidableEq

/-- `CapsInner` without its atomics. -/
structure CapsLimits extends ByteCaps where
  maxServers : Nat
  maxPairs : Nat

def CapsLimits.limit (caps : CapsLimits) : Counter → Nat
  | .servers => caps.maxServers
  | .pairs => caps.maxPairs

/-- A retry loop over one atomic; tickets are named by their places. -/
inductive Loop
  /-- `increment_bounded_usize`. -/
  | add (k : Counter)
  /-- `fetch_update` in `Drop`. -/
  | drop (k : Counter) (ticket : Nat)
  | tryConsumeRate (ticket bytes : Nat)
  /-- The first loop of `refill_one_tick`. -/
  | refillRemainder (ticket : Nat)
  /-- The second one, for the whole bytes that the first one has found. -/
  | refillBucket (ticket tickBytes : Nat)
  | tryAddQueuedBytes (ticket bytes : Nat)
  | removeQueuedBytes (ticket bytes : Nat)
  deriving DecidableEq

/-- The value that a turn swaps in for what has been read, if it does not end. -/
def Loop.body (caps : CapsLimits) : Loop → Nat → Option Nat
  | .add k, current => if caps.limit k ≤ current then none else some (current + 1)
  | .drop _ _, current => if current = 0 then none else some (current - 1)
  | .tryConsumeRate _ bytes, current => if bytes ≤ current then some (current - bytes) else none
  | .refillRemainder _, current => some (Saturating.add u64Max current caps.maxBytesPerSec % 10)
  | .refillBucket _ tickBytes, current =>
    let next := min (Saturating.add u64Max current tickBytes) caps.maxBytesPerSec
    if next = current then none else some next
  | .tryAddQueuedBytes _ bytes, current =>
    if u64Max < current + bytes then none
    else if caps.maxQueuedBytes < current + bytes then none
    else some (current + bytes)
  | .removeQueuedBytes _ bytes, current => some (current - bytes)

/-- `compare_exchange_weak` may fail for no reason. -/
def Loop.weak : Loop → Bool
  | .drop _ _ => true
  | _ => false

/-! ### On its own, a loop is the operation as such -/

section Alone

variable (caps : CapsLimits) (t : PairTicket) (ticket bytes : Nat)

theorem body_tryConsumeRate : ((Loop.tryConsumeRate ticket bytes).body caps t.rateBucket).map (fun next =>
    { t with rateBucket := next }) = (t.tryConsumeRate bytes).toOption := by
  unfold Loop.body PairTicket.tryConsumeRate
  dsimp only
  split <;> rfl

theorem body_tryAddQueuedBytes : ((Loop.tryAddQueuedBytes ticket bytes).body caps t.queuedBytes).map (fun next =>
    { t with queuedBytes := next }) = (t.tryAddQueuedBytes caps.toByteCaps bytes).toOption := by
  unfold Loop.body PairTicket.tryAddQueuedBytes
  dsimp only
  split
  · rfl
  · split <;> rfl

theorem body_removeQueuedBytes : ((Loop.removeQueuedBytes ticket bytes).body caps t.queuedBytes).map (fun next =>
    { t with queuedBytes := next }) = some (t.removeQueuedBytes bytes) := rfl

/-- **A refill** is its two loops, the second one where there are whole bytes. -/
theorem body_refill : let tickBytes := Saturating.add u64Max t.rateRemainderTenths caps.maxBytesPerSec / 10
    ((Loop.refillRemainder ticket).body caps t.rateRemainderTenths).map (fun next =>
      let bucket := if tickBytes = 0 then none else (Loop.refillBucket ticket tickBytes).body caps t.rateBucket
      { t with rateRemainderTenths := next, rateBucket := bucket.getD t.rateBucket }) =
        some (t.refillOneTick caps.toByteCaps) := by
  unfold Loop.body PairTicket.refillOneTick
  simp only [Option.map_some, Option.some.injEq]
  split
  · rfl
  · split
    · next hsame =>
      rw [hsame]
      rfl
    · rfl

end Alone

/-! ## Calls and tickets -/

inductive Life
  | live
  /-- Its `drop` has been called. -/
  | dropping
  | dropped
  deriving DecidableEq

/-- The cells of a pair's ticket, with the bytes it has given and the refills that have been called. -/
structure TicketCells where
  ticket : PairTicket
  consumed : Nat := 0
  refills : Nat := 0

/-- A call that is under way, and what its loop has read last. -/
structure Call where
  loop : Loop
  current : Option Nat := none

structure Contention where
  /-- The atomics. -/
  count : Counter → Nat := fun _ => 0
  /-- All tickets there have been. -/
  lives : Counter → List Life := fun _ => []
  cells : List TicketCells := []
  /-- All calls there have been; `none` for those that are over. -/
  calls : List (Option Call) := []

inductive ContentionMove
  | start (loop : Loop)
  /-- Call `i` reads its atomic for the first time. -/
  | load (i : Nat)
  /-- Call `i` takes a turn. -/
  | turn (i : Nat) (spurious : Bool)

namespace Contention

variable {caps : CapsLimits}

/-- The atomic of a loop. -/
def read (s : Contention) : Loop → Option Nat
  | .add k | .drop k _ => some (s.count k)
  | .tryConsumeRate t _ | .refillBucket t _ => s.cells[t]?.map fun c => c.ticket.rateBucket
  | .refillRemainder t => s.cells[t]?.map fun c => c.ticket.rateRemainderTenths
  | .tryAddQueuedBytes t _ | .removeQueuedBytes t _ => s.cells[t]?.map fun c => c.ticket.queuedBytes

def setLife (s : Contention) (k : Counter) (ticket : Nat) (life : Life) : Contention :=
  { s with lives := Function.update s.lives k ((s.lives k).set ticket life) }

def setCells (s : Contention) (ticket : Nat) (f : TicketCells → TicketCells) : Contention :=
  { s with cells := s.cells.modify ticket f }

def setCall (s : Contention) (i : Nat) (call : Option Call) : Contention := { s with calls := s.calls.set i call }

/-- A call of a ticket's method needs the ticket. -/
def usable (s : Contention) (ticket : Nat) : Bool := (s.lives .pairs)[ticket]? = some .live && ticket < s.cells.length

/-- A call begins. -/
def start (s : Contention) (loop : Loop) : Option Contention :=
  let begun : Contention := { s with calls := s.calls ++ [some { loop }] }
  match loop with
  | .add _ => some begun
  | .drop k ticket => if (s.lives k)[ticket]? = some .live then some (begun.setLife k ticket .dropping) else none
  | .refillRemainder ticket =>
    if s.usable ticket then some (begun.setCells ticket fun c => { c with refills := c.refills + 1 }) else none
  | .tryConsumeRate ticket _ | .tryAddQueuedBytes ticket _ | .removeQueuedBytes ticket _ =>
    if s.usable ticket then some begun else none
  | .refillBucket _ _ => none

/-- The loop of call `i` has ended without a swap. -/
def stopped (s : Contention) (i : Nat) : Loop → Contention
  | .drop k ticket => (s.setLife k ticket .dropped).setCall i none
  | _ => s.setCall i none

/-- The loop of call `i` has swapped `current` for `next`. -/
def swapped (caps : CapsLimits) (s : Contention) (i : Nat) (current next : Nat) : Loop → Contention
  | .add k =>
    { s with
      count := Function.update s.count k next
      lives := Function.update s.lives k (s.lives k ++ [.live])
      cells := match k with
        | .servers => s.cells
        | .pairs => s.cells ++ [{ ticket := .new caps.toByteCaps }]
      calls := s.calls.set i none }
  | .drop k ticket => ({ s with count := Function.update s.count k next }.setLife k ticket .dropped).setCall i none
  | .tryConsumeRate ticket bytes =>
    (s.setCells ticket fun c =>
      { c with ticket := { c.ticket with rateBucket := next }, consumed := c.consumed + bytes }).setCall i none
  | .refillRemainder ticket =>
    let tickBytes := Saturating.add u64Max current caps.maxBytesPerSec / 10
    (s.setCells ticket fun c => { c with ticket := { c.ticket with rateRemainderTenths := next } }).setCall i
      (if tickBytes = 0 then none else some { loop := .refillBucket ticket tickBytes })
  | .refillBucket ticket _ =>
    (s.setCells ticket fun c => { c with ticket := { c.ticket with rateBucket := next } }).setCall i none
  | .tryAddQueuedBytes ticket _ | .removeQueuedBytes ticket _ =>
    (s.setCells ticket fun c => { c with ticket := { c.ticket with queuedBytes := next } }).setCall i none

def step (caps : CapsLimits) (s : Contention) : ContentionMove → Option Contention
  | .start loop => s.start loop
  | .load i =>
    match s.calls[i]? with
    | some (some { loop, current := none }) =>
      (s.read loop).map fun cell => s.setCall i (some { loop, current := some cell })
    | _ => none
  | .turn i spurious =>
    match s.calls[i]? with
    | some (some { loop, current := some current }) =>
      if spurious && !loop.weak then none
      else
        (s.read loop).map fun cell =>
          match Retry.attempt (loop.body caps) cell current spurious with
          | .stopped => s.stopped i loop
          | .swapped next => s.swapped caps i current next loop
          | .again observed => s.setCall i (some { loop, current := some observed })
    | _ => none

/-- The tickets that have not been dropped. -/
def liveTickets (s : Contention) (k : Counter) : Nat := (s.lives k).countP (· ≠ .dropped)

/-- Counters are exact and within their limits, and no ticket gives or holds too much. -/
structure Exact (caps : CapsLimits) (s : Contention) : Prop where
  counters : ∀ k, s.count k = s.liveTickets k ∧ s.count k ≤ caps.limit k
  consumed : ∀ (t : Nat) (c : TicketCells), s.cells[t]? = some c →
    c.consumed ≤ caps.maxBytesPerSec + c.refills * caps.maxBytesPerSec / 10
  bucket : ∀ c ∈ s.cells, c.ticket.rateBucket ≤ caps.maxBytesPerSec
  queued : ∀ c ∈ s.cells, c.ticket.queuedBytes ≤ caps.maxQueuedBytes

/-! ## Counters -/

/-- A ticket's life goes on. -/
theorem countP_setLife : ∀ {lives : List Life} {ticket : Nat} {old : Life} (new : Life), lives[ticket]? = some old →
    old ≠ .dropped →
    (lives.set ticket new).countP (· ≠ .dropped) + 1 = lives.countP (· ≠ .dropped) + if new = .dropped then 0 else 1
  | [], _, _, _, h, _ => by simp at h
  | life :: lives, 0, old, new, h, hold => by
    simp at h
    subst h
    simp only [List.set_cons_zero, List.countP_cons]
    by_cases hnew : new = .dropped <;> simp [hold, hnew]
  | life :: lives, ticket + 1, old, new, h, hold => by
    have hlife : lives[ticket]? = some old := by simpa using h
    have hrest := countP_setLife new hlife hold
    simp only [List.set_cons_succ, List.countP_cons]
    omega

/-- Whether a call drops a ticket. -/
def drops (k : Counter) (ticket : Nat) : Option Call → Nat
  | some { loop := .drop k' ticket', .. } => if k' = k ∧ ticket' = ticket then 1 else 0
  | _ => 0

/-- How many calls drop a ticket, by its life. -/
def droppers : Option Life → Nat
  | some .dropping => 1
  | _ => 0

/-- The calls that drop a ticket. -/
def dropping (s : Contention) (k : Counter) (ticket : Nat) : Nat := (s.calls.map (drops k ticket)).sum

/-- **Counters count the tickets**, each of which is dropped by one call; what such a call has read is not zero. -/
structure Counting (caps : CapsLimits) (s : Contention) : Prop where
  count : ∀ k, s.count k = s.liveTickets k
  limit : ∀ k, s.count k ≤ caps.limit k
  once : ∀ k ticket, s.dropping k ticket = droppers (s.lives k)[ticket]?
  current : ∀ (i : Nat) k ticket v, s.calls[i]? = some (some { loop := .drop k ticket, current := some v }) → v ≠ 0

section Counting

variable {s t : Contention} {i : Nat} {call : Call} {loop : Loop}

theorem dropping_setCall (hi : s.calls[i]? = some (some call)) (new : Option Call) (k : Counter) (ticket : Nat) :
    (s.setCall i new).dropping k ticket + drops k ticket (some call) = s.dropping k ticket + drops k ticket new :=
  Retry.sum_set (drops k ticket) new hi

theorem getElem?_setCall {j : Nat} {new : Option Call} {old : Option Call}
    (h : (s.setCall i new).calls[j]? = some old) : s.calls[j]? = some old ∨ old = new := by
  rw [show (s.setCall i new).calls = s.calls.set i new from rfl, List.getElem?_set] at h
  split at h
  · split at h
    · exact .inr (Option.some.inj h).symm
    · cases h
  · exact .inl h

/-- Nothing is said of counters, and calls that drop tickets go on. -/
theorem Counting.frame (h : Counting caps s) (hcount : t.count = s.count) (hlives : t.lives = s.lives)
    (honce : ∀ k ticket, t.dropping k ticket = s.dropping k ticket)
    (hcurrent : ∀ (i : Nat) k ticket v, t.calls[i]? = some (some { loop := .drop k ticket, current := some v }) →
      s.calls[i]? = some (some { loop := .drop k ticket, current := some v }) ∨ v ≠ 0) : Counting caps t where
  count k := by
    rw [hcount, liveTickets, hlives]
    exact h.count k
  limit k := by
    rw [hcount]
    exact h.limit k
  once k ticket := by
    rw [honce, hlives]
    exact h.once k ticket
  current i k ticket v hi := by
    rcases hcurrent i k ticket v hi with hold | hv
    · exact h.current i k ticket v hold
    · exact hv

/-- A ticket that is being dropped counts. -/
theorem Counting.pos (h : Counting caps s) {k : Counter} {ticket : Nat} {current : Option Nat}
    (hi : s.calls[i]? = some (some { loop := .drop k ticket, current })) :
    (s.lives k)[ticket]? = some .dropping ∧ s.count k ≠ 0 := by
  have hle := Retry.le_sum (drops k ticket) hi
  have honce := h.once k ticket
  unfold dropping at honce
  have hdropping : (s.lives k)[ticket]? = some .dropping := by
    simp only [drops, and_self, if_true, honce] at hle
    unfold droppers at hle
    split at hle
    · assumption
    · omega
  refine ⟨hdropping, ?_⟩
  rw [h.count, liveTickets]
  have hmem := List.mem_of_getElem? hdropping
  exact Nat.ne_of_gt (List.countP_pos_iff.mpr ⟨_, hmem, by decide⟩)

/-- A call that drops no ticket goes on. -/
theorem Counting.proceed (h : Counting caps s) (hcount : t.count = s.count) (hlives : t.lives = s.lives)
    {new : Option Call} (hcalls : t.calls = s.calls.set i new) (hi : s.calls[i]? = some (some call))
    (hcall : ∀ k ticket, drops k ticket (some call) = 0) (hnew : ∀ k ticket, drops k ticket new = 0) :
    Counting caps t := by
  refine h.frame hcount hlives ?_ ?_
  · intro k ticket
    have hsum := dropping_setCall hi new k ticket
    rw [hcall, hnew] at hsum
    unfold dropping
    rw [hcalls]
    exact hsum
  · intro j k ticket v hj
    rw [hcalls] at hj
    rcases getElem?_setCall (s := s) hj with hold | rfl
    · exact .inl hold
    · have hone := hnew k ticket
      simp [drops] at hone

/-- A call that drops a ticket has read its counter. -/
theorem Counting.observe (h : Counting caps s) {current : Option Nat} {cell : Nat}
    (hi : s.calls[i]? = some (some { loop, current })) (hread : s.read loop = some cell) :
    Counting caps (s.setCall i (some { loop, current := some cell })) := by
  refine h.frame rfl rfl ?_ ?_
  · intro k ticket
    have hsum := dropping_setCall hi (some { loop, current := some cell }) k ticket
    have hsame : drops k ticket (some { loop, current := some cell }) = drops k ticket (some { loop, current }) := by
      cases loop <;> rfl
    omega
  · intro j k ticket v hj
    rcases getElem?_setCall hj with hold | heq
    · exact .inl hold
    · cases heq
      cases hread
      exact .inr (h.pos hi).2

/-- A call begins. -/
theorem Counting.start (h : Counting caps s) (hs : s.start loop = some t) : Counting caps t := by
  have hlast : ∀ {new : Call} {j : Nat} {k ticket v}, new.current = none →
      (s.calls ++ [some new])[j]? = some (some { loop := .drop k ticket, current := some v }) →
      s.calls[j]? = some (some { loop := .drop k ticket, current := some v }) := by
    intro new j k ticket v hnone hj
    rcases Nat.lt_or_ge j s.calls.length with hlt | hge
    · rwa [List.getElem?_append_left hlt] at hj
    · rw [List.getElem?_append_right hge, List.getElem?_singleton] at hj
      split at hj
      · cases hj
        cases hnone
      · cases hj
  have hbegun : ∀ {u : Contention} {new : Call}, new.current = none → (∀ k ticket, drops k ticket (some new) = 0) →
      u.count = s.count → u.lives = s.lives → u.calls = s.calls ++ [some new] → Counting caps u := by
    intro u new hnone hzero hcount hlives hcalls
    refine h.frame hcount hlives ?_ ?_
    · intro k ticket
      simp [dropping, hcalls, hzero]
    · intro j k ticket v hj
      rw [hcalls] at hj
      exact .inl (hlast hnone hj)
  unfold Contention.start at hs
  cases loop with
  | add k =>
    cases hs
    exact hbegun rfl (fun _ _ => rfl) rfl rfl rfl
  | drop k ticket =>
    dsimp only at hs
    split at hs
    · next hlive =>
      cases hs
      have hlt := (List.getElem?_eq_some_iff.mp hlive).1
      refine ⟨?_, h.limit, ?_, ?_⟩
      · intro k'
        show s.count k' = ((Function.update s.lives k _) k').countP _
        rw [h.count, liveTickets]
        by_cases hk : k' = k
        · subst hk
          have hcount := countP_setLife .dropping hlive (by decide)
          rw [if_neg (by decide)] at hcount
          rw [Function.update_self]
          exact (Nat.succ.inj hcount).symm
        · rw [Function.update_of_ne hk]
      · intro k' ticket'
        have hcalls : ∀ new : Call, ((s.calls ++ [some new]).map (drops k' ticket')).sum =
            s.dropping k' ticket' + drops k' ticket' (some new) := by
          intro new
          simp [dropping]
        show ((s.calls ++ [some ({ loop := .drop k ticket } : Call)]).map (drops k' ticket')).sum = _
        rw [hcalls, h.once]
        show _ = droppers ((Function.update s.lives k ((s.lives k).set ticket .dropping)) k')[ticket']?
        by_cases hk : k' = k
        · subst hk
          rw [Function.update_self, List.getElem?_set]
          by_cases ht : ticket = ticket'
          · subst ht
            rw [hlive]
            simp [drops, droppers, hlt]
          · simp [drops, ht]
        · simp [drops, Ne.symm hk, Function.update_of_ne hk]
      · intro j k' ticket' v hj
        exact h.current j k' ticket' v (hlast rfl hj)
    · cases hs
  | tryConsumeRate ticket bytes =>
    dsimp only at hs
    split at hs
    · cases hs
      exact hbegun rfl (fun _ _ => rfl) rfl rfl rfl
    · cases hs
  | refillRemainder ticket =>
    dsimp only at hs
    split at hs
    · cases hs
      exact hbegun rfl (fun _ _ => rfl) rfl rfl rfl
    · cases hs
  | refillBucket ticket tickBytes => cases hs
  | tryAddQueuedBytes ticket bytes =>
    dsimp only at hs
    split at hs
    · cases hs
      exact hbegun rfl (fun _ _ => rfl) rfl rfl rfl
    · cases hs
  | removeQueuedBytes ticket bytes =>
    dsimp only at hs
    split at hs
    · cases hs
      exact hbegun rfl (fun _ _ => rfl) rfl rfl rfl
    · cases hs

/-- **A call that drops a ticket swaps.** -/
theorem Counting.dropped (h : Counting caps s) {k : Counter} {ticket : Nat} {current : Option Nat}
    (hi : s.calls[i]? = some (some { loop := .drop k ticket, current })) {new : Nat} (hnew : new + 1 = s.count k) :
    Counting caps (({ s with count := Function.update s.count k new }.setLife k ticket .dropped).setCall i none) := by
  obtain ⟨hdropping, _⟩ := h.pos hi
  have hlt := (List.getElem?_eq_some_iff.mp hdropping).1
  have hcount := countP_setLife .dropped hdropping (by decide)
  rw [if_pos rfl, Nat.add_zero] at hcount
  refine ⟨?_, ?_, ?_, ?_⟩
  · intro k'
    show (Function.update s.count k new) k' =
      ((Function.update s.lives k ((s.lives k).set ticket .dropped)) k').countP (· ≠ .dropped)
    by_cases hk : k' = k
    · subst hk
      have hlive := h.count k'
      unfold liveTickets at hlive
      rw [Function.update_self, Function.update_self]
      omega
    · rw [Function.update_of_ne hk, Function.update_of_ne hk]
      exact h.count k'
  · intro k'
    have hlimit := h.limit k'
    show (Function.update s.count k new) k' ≤ _
    by_cases hk : k' = k
    · subst hk
      rw [Function.update_self]
      omega
    · rw [Function.update_of_ne hk]
      exact hlimit
  · intro k' ticket'
    have hsum := dropping_setCall hi none k' ticket'
    have honce := h.once k' ticket'
    show (s.setCall i none).dropping k' ticket' =
      droppers ((Function.update s.lives k ((s.lives k).set ticket .dropped)) k')[ticket']?
    by_cases hk : k' = k
    · subst hk
      rw [Function.update_self, List.getElem?_set]
      by_cases ht : ticket = ticket'
      · subst ht
        rw [hdropping] at honce
        simp [drops, droppers, hlt] at hsum honce ⊢
        omega
      · simp [drops, ht] at hsum ⊢
        omega
    · rw [Function.update_of_ne hk]
      simp [drops, Ne.symm hk] at hsum
      omega
  · intro j k' ticket' v hj
    rcases getElem?_setCall hj with hold | heq
    · exact h.current j k' ticket' v hold
    · cases heq

/-- **A ticket is made.** -/
theorem Counting.added (h : Counting caps s) {k : Counter} {current : Option Nat}
    (hi : s.calls[i]? = some (some { loop := .add k, current })) (hroom : s.count k < caps.limit k)
    {cells : List TicketCells} (ht : t = {
      count := Function.update s.count k (s.count k + 1)
      lives := Function.update s.lives k (s.lives k ++ [.live])
      cells
      calls := s.calls.set i none }) : Counting caps t := by
  subst ht
  refine ⟨?_, ?_, ?_, ?_⟩
  · intro k'
    have hlive := h.count k'
    unfold liveTickets at hlive
    show (Function.update s.count k (s.count k + 1)) k' =
      ((Function.update s.lives k (s.lives k ++ [.live])) k').countP (· ≠ .dropped)
    by_cases hk : k' = k
    · subst hk
      simp [hlive]
    · simp [Function.update_of_ne hk, hlive]
  · intro k'
    have hlimit := h.limit k'
    show (Function.update s.count k (s.count k + 1)) k' ≤ _
    by_cases hk : k' = k
    · subst hk
      rw [Function.update_self]
      omega
    · rw [Function.update_of_ne hk]
      exact hlimit
  · intro k' ticket
    have hsum := dropping_setCall hi none k' ticket
    have honce := h.once k' ticket
    simp only [drops] at hsum
    show (s.setCall i none).dropping k' ticket =
      droppers ((Function.update s.lives k (s.lives k ++ [.live])) k')[ticket]?
    rw [show (s.setCall i none).dropping k' ticket = s.dropping k' ticket from hsum, honce]
    by_cases hk : k' = k
    · subst hk
      rw [Function.update_self, List.getElem?_append]
      split
      · rfl
      · next hge =>
        rw [List.getElem?_eq_none (Nat.not_lt.mp hge), List.getElem?_singleton]
        split <;> rfl
    · rw [Function.update_of_ne hk]
  · intro j k' ticket v hj
    rcases getElem?_setCall (s := s) hj with hold | heq
    · exact h.current j k' ticket v hold
    · cases heq

/-- **One step**, for the counters. -/
theorem Counting.step (h : Counting caps s) {move : ContentionMove} (hs : s.step caps move = some t) :
    Counting caps t := by
  cases move with
  | start loop => exact h.start hs
  | load i =>
    unfold Contention.step at hs
    dsimp only at hs
    split at hs
    · next loop hi =>
      obtain ⟨cell, hread, rfl⟩ := Option.map_eq_some_iff.mp hs
      exact h.observe hi hread
    · cases hs
  | turn i spurious =>
    unfold Contention.step at hs
    dsimp only at hs
    split at hs
    · next loop current hi =>
      split at hs
      · cases hs
      · obtain ⟨cell, hread, rfl⟩ := Option.map_eq_some_iff.mp hs
        cases hattempt : Retry.attempt (loop.body caps) cell current spurious with
        | stopped =>
          have hbody := Retry.attempt_stopped hattempt
          cases loop with
          | drop k ticket =>
            simp [Loop.body] at hbody
            exact absurd hbody (h.current i k ticket current hi)
          | _ => exact h.proceed rfl rfl rfl hi (fun _ _ => rfl) (fun _ _ => rfl)
        | again observed =>
          cases Retry.attempt_again hattempt
          exact h.observe hi hread
        | swapped next =>
          obtain ⟨rfl, hbody⟩ := Retry.attempt_swapped hattempt
          cases loop with
          | add k =>
            cases hread
            simp only [Loop.body] at hbody
            split at hbody
            · cases hbody
            · next hroom =>
              cases hbody
              exact h.added hi (Nat.not_le.mp hroom) rfl
          | drop k ticket =>
            cases hread
            simp only [Loop.body] at hbody
            split at hbody
            · cases hbody
            · cases hbody
              exact h.dropped hi (by omega)
          | refillRemainder ticket =>
            refine h.proceed rfl rfl rfl hi (fun _ _ => rfl) ?_
            intro k ticket
            split <;> rfl
          | _ => exact h.proceed rfl rfl rfl hi (fun _ _ => rfl) (fun _ _ => rfl)
    · cases hs

end Counting

/-! ## Cells -/

/-- Ten times the bytes that a call may still add to a bucket, and what it may still add to the remainder. -/
def weight (caps : CapsLimits) (ticket : Nat) : Option Call → Nat
  | some { loop := .refillRemainder ticket', .. } => if ticket' = ticket then caps.maxBytesPerSec else 0
  | some { loop := .refillBucket ticket' tickBytes, .. } => if ticket' = ticket then 10 * tickBytes else 0
  | _ => 0

def pending (caps : CapsLimits) (s : Contention) (ticket : Nat) : Nat := (s.calls.map (weight caps ticket)).sum

/-- **What a ticket has given and may still give**, in tenths of a byte, when `pending` is under way. -/
structure Within (caps : CapsLimits) (c : TicketCells) (pending : Nat) : Prop where
  bucket : c.ticket.rateBucket ≤ caps.maxBytesPerSec
  queued : c.ticket.queuedBytes ≤ caps.maxQueuedBytes
  balance : 10 * (c.consumed + c.ticket.rateBucket) + c.ticket.rateRemainderTenths + pending ≤
    10 * caps.maxBytesPerSec + c.refills * caps.maxBytesPerSec

structure Rating (caps : CapsLimits) (s : Contention) : Prop where
  cells : ∀ (ticket : Nat) (c : TicketCells), s.cells[ticket]? = some c → Within caps c (s.pending caps ticket)
  outside : ∀ ticket, s.cells.length ≤ ticket → s.pending caps ticket = 0

section Rating

variable {s t : Contention} {i ticket : Nat} {call : Call} {loop : Loop}

theorem Within.mono {c : TicketCells} {n m : Nat} (h : Within caps c n) (hle : m ≤ n) : Within caps c m := by
  obtain ⟨hbucket, hqueued, hbalance⟩ := h
  exact ⟨hbucket, hqueued, by omega⟩

theorem pending_setCall (hi : s.calls[i]? = some (some call)) (new : Option Call) (ticket : Nat) :
    (s.setCall i new).pending caps ticket + weight caps ticket (some call) =
      s.pending caps ticket + weight caps ticket new :=
  Retry.sum_set (weight caps ticket) new hi

/-- **A call changes the cells of its ticket.** -/
theorem Rating.change (h : Rating caps s) (hi : s.calls[i]? = some (some call)) {new : Option Call}
    {f : TicketCells → TicketCells} (hlt : ticket < s.cells.length)
    (hothers : ∀ other, other ≠ ticket → weight caps other new ≤ weight caps other (some call))
    (hf : ∀ c n, s.cells[ticket]? = some c → Within caps c (n + weight caps ticket (some call)) →
      Within caps (f c) (n + weight caps ticket new)) :
    Rating caps ((s.setCells ticket f).setCall i new) := by
  have hpending : ∀ other,
      ((s.setCells ticket f).setCall i new).pending caps other = (s.setCall i new).pending caps other := fun _ => rfl
  have hle : ∀ other, other ≠ ticket → (s.setCall i new).pending caps other ≤ s.pending caps other := by
    intro other hne
    have hsum := @pending_setCall caps _ _ _ hi new other
    have hother := hothers other hne
    omega
  constructor
  · intro other c hc
    rw [hpending]
    replace hc : (s.cells.modify ticket f)[other]? = some c := hc
    rw [List.getElem?_modify] at hc
    obtain ⟨old, hold, rfl⟩ := Option.map_eq_some_iff.mp hc
    by_cases hother : ticket = other
    · subst hother
      have hsum := @pending_setCall caps _ _ _ hi new ticket
      have hle := Retry.le_sum (weight caps ticket) hi
      have hwithin := h.cells ticket old hold
      unfold pending at hsum hwithin
      have hsplit := hf old ((s.calls.map (weight caps ticket)).sum - weight caps ticket (some call)) hold
        (by rw [Nat.sub_add_cancel hle]; exact hwithin)
      simp only [if_true]
      refine hsplit.mono ?_
      unfold pending
      omega
    · simp only [hother, if_false]
      exact (h.cells other old hold).mono (hle other (Ne.symm hother))
  · intro other hother
    rw [hpending]
    have hlength : s.cells.length ≤ other := by
      simpa [setCells, setCall] using hother
    have hzero := h.outside other hlength
    have hbelow := hle other (by omega)
    omega

/-- A call goes on, and its ticket stays the same. -/
theorem Rating.proceed (h : Rating caps s) (hi : s.calls[i]? = some (some call)) {new : Option Call}
    (hweight : ∀ ticket, weight caps ticket new ≤ weight caps ticket (some call)) {k : Counter → Nat}
    {lives : Counter → List Life} :
    Rating caps { s with count := k, lives, calls := s.calls.set i new } := by
  have hle : ∀ ticket, (s.setCall i new).pending caps ticket ≤ s.pending caps ticket := by
    intro ticket
    have hsum := @pending_setCall caps _ _ _ hi new ticket
    have hnew := hweight ticket
    omega
  constructor
  · intro ticket c hc
    exact (h.cells ticket c hc).mono (hle ticket)
  · intro ticket hticket
    have hzero := h.outside ticket hticket
    have hbelow := hle ticket
    exact Nat.le_zero.mp (hzero ▸ hbelow)

/-- A call begins. -/
theorem Rating.start (h : Rating caps s) (hs : s.start loop = some t) : Rating caps t := by
  have hbegun : ∀ {new : Call} {lives}, (∀ ticket, weight caps ticket (some new) = 0) →
      Rating caps { s with lives, calls := s.calls ++ [some new] } := by
    intro new lives hzero
    have hsame : ∀ ticket, Contention.pending caps { s with lives, calls := s.calls ++ [some new] } ticket =
        s.pending caps ticket := by
      intro ticket
      simp [pending, hzero]
    constructor
    · intro ticket c hc
      rw [hsame]
      exact h.cells ticket c hc
    · intro ticket hticket
      rw [hsame]
      exact h.outside ticket hticket
  unfold Contention.start at hs
  cases loop with
  | add k =>
    cases hs
    exact hbegun fun _ => rfl
  | drop k ticket =>
    dsimp only at hs
    split at hs
    · cases hs
      exact hbegun fun _ => rfl
    · cases hs
  | refillRemainder ticket =>
    dsimp only at hs
    split at hs
    · next husable =>
      cases hs
      have hlt : ticket < s.cells.length := by
        simp [usable] at husable
        exact husable.2
      have hpending : ∀ other, Contention.pending caps
          { s with calls := s.calls ++ [some { loop := .refillRemainder ticket }] } other =
            s.pending caps other + if ticket = other then caps.maxBytesPerSec else 0 := by
        intro other
        simp [pending, weight]
      constructor
      · intro other c hc
        replace hc : (s.cells.modify ticket _)[other]? = some c := hc
        rw [List.getElem?_modify] at hc
        obtain ⟨old, hold, rfl⟩ := Option.map_eq_some_iff.mp hc
        obtain ⟨hbucket, hqueued, hbalance⟩ := h.cells other old hold
        show Within caps _ (Contention.pending caps
          { s with calls := s.calls ++ [some { loop := .refillRemainder ticket }] } other)
        rw [hpending]
        by_cases hother : ticket = other
        · simp only [hother, if_true]
          refine ⟨hbucket, hqueued, ?_⟩
          dsimp only
          have hmore := Nat.add_one_mul old.refills caps.maxBytesPerSec
          omega
        · simp only [hother, if_false]
          exact ⟨hbucket, hqueued, hbalance⟩
      · intro other hother
        have hlength : s.cells.length ≤ other := by
          simpa [setCells] using hother
        show Contention.pending caps { s with calls := s.calls ++ [some { loop := .refillRemainder ticket }] } other = 0
        rw [hpending, h.outside other hlength, if_neg (by omega)]
    · cases hs
  | refillBucket ticket tickBytes => cases hs
  | tryConsumeRate ticket bytes | tryAddQueuedBytes ticket bytes | removeQueuedBytes ticket bytes =>
    dsimp only at hs
    split at hs
    · cases hs
      exact hbegun fun _ => rfl
    · cases hs

/-- A ticket of a pair is made. -/
theorem Rating.added (h : Rating caps s) {k : Counter} {current : Option Nat} {count lives}
    (hi : s.calls[i]? = some (some { loop := .add k, current })) :
    Rating caps
      { count, lives, cells := s.cells ++ [{ ticket := .new caps.toByteCaps }], calls := s.calls.set i none } := by
  have hsame : ∀ ticket, (s.setCall i none).pending caps ticket = s.pending caps ticket := fun ticket =>
    @pending_setCall caps _ _ _ hi none ticket
  constructor
  · intro ticket c hc
    show Within caps c ((s.setCall i none).pending caps ticket)
    rw [hsame]
    replace hc : (s.cells ++ [{ ticket := .new caps.toByteCaps }])[ticket]? = some c := hc
    rcases Nat.lt_or_ge ticket s.cells.length with hlt | hge
    · rw [List.getElem?_append_left hlt] at hc
      exact h.cells ticket c hc
    · rw [List.getElem?_append_right hge, List.getElem?_singleton] at hc
      split at hc
      · cases hc
        rw [h.outside ticket hge]
        exact ⟨Nat.le_refl _, Nat.zero_le _, by simp [PairTicket.new]⟩
      · cases hc
  · intro ticket hticket
    show (s.setCall i none).pending caps ticket = 0
    rw [hsame]
    apply h.outside
    simp at hticket
    omega

theorem lt_of_read {α : Type} {f : TicketCells → α} {a : α} (h : s.cells[ticket]?.map f = some a) :
    ticket < s.cells.length := by
  obtain ⟨c, hc, _⟩ := Option.map_eq_some_iff.mp h
  exact (List.getElem?_eq_some_iff.mp hc).1

theorem read_eq {α : Type} {f : TicketCells → α} {a : α} {c : TicketCells} (h : s.cells[ticket]?.map f = some a)
    (hc : s.cells[ticket]? = some c) : f c = a := by
  rw [hc] at h
  exact Option.some.inj h

/-- **A loop over a cell swaps.** -/
theorem Rating.swapped (h : Rating caps s) {current cell next : Nat} (hi : s.calls[i]? = some (some { loop, current }))
    (hread : s.read loop = some cell) (hbody : loop.body caps cell = some next) (hcurrent : cell = current) :
    Rating caps (s.swapped caps i current next loop) := by
  subst hcurrent
  cases loop with
  | add k =>
    cases k with
    | servers => exact h.proceed hi fun _ => Nat.zero_le _
    | pairs => exact h.added hi
  | drop k ticket => exact h.proceed hi fun _ => Nat.zero_le _
  | tryConsumeRate ticket bytes =>
    refine h.change hi (lt_of_read hread) (fun _ _ => Nat.le_refl _) ?_
    intro c n hc hwithin
    obtain ⟨hbucket, hqueued, hbalance⟩ := hwithin
    have hcell : c.ticket.rateBucket = cell := read_eq hread hc
    simp only [Loop.body] at hbody
    split at hbody
    · cases hbody
      refine ⟨?_, hqueued, ?_⟩
      · dsimp only
        omega
      · simp only [weight] at hbalance ⊢
        omega
    · cases hbody
  | refillRemainder ticket =>
    refine h.change hi (lt_of_read hread) ?_ ?_
    · intro other hother
      split
      · exact Nat.zero_le _
      · simp [weight, Ne.symm hother]
    · intro c n hc hwithin
      obtain ⟨hbucket, hqueued, hbalance⟩ := hwithin
      have hcell : c.ticket.rateRemainderTenths = cell := read_eq hread hc
      simp only [Loop.body] at hbody
      cases hbody
      have htotal : Saturating.add u64Max cell caps.maxBytesPerSec ≤ cell + caps.maxBytesPerSec := Nat.min_le_left _ _
      refine ⟨hbucket, hqueued, ?_⟩
      simp only [weight, if_true] at hbalance
      split
      · simp only [weight]
        omega
      · simp only [weight, if_true]
        omega
  | refillBucket ticket tickBytes =>
    refine h.change hi (lt_of_read hread) (fun _ _ => Nat.zero_le _) ?_
    intro c n hc hwithin
    obtain ⟨hbucket, hqueued, hbalance⟩ := hwithin
    have hcell : c.ticket.rateBucket = cell := read_eq hread hc
    simp only [Loop.body] at hbody
    split at hbody
    · cases hbody
    · cases hbody
      have htotal : Saturating.add u64Max cell tickBytes ≤ cell + tickBytes := Nat.min_le_left _ _
      refine ⟨Nat.min_le_right _ _, hqueued, ?_⟩
      simp only [weight, if_true] at hbalance ⊢
      omega
  | tryAddQueuedBytes ticket bytes =>
    refine h.change hi (lt_of_read hread) (fun _ _ => Nat.le_refl _) ?_
    intro c n hc hwithin
    obtain ⟨hbucket, hqueued, hbalance⟩ := hwithin
    simp only [Loop.body] at hbody
    split at hbody
    · cases hbody
    · split at hbody
      · cases hbody
      · next hroom =>
        cases hbody
        exact ⟨hbucket, Nat.not_lt.mp hroom, hbalance⟩
  | removeQueuedBytes ticket bytes =>
    refine h.change hi (lt_of_read hread) (fun _ _ => Nat.le_refl _) ?_
    intro c n hc hwithin
    obtain ⟨hbucket, hqueued, hbalance⟩ := hwithin
    have hcell : c.ticket.queuedBytes = cell := read_eq hread hc
    cases hbody
    refine ⟨hbucket, ?_, hbalance⟩
    dsimp only
    omega

theorem weight_current {ticket : Nat} {current next : Option Nat} :
    weight caps ticket (some { loop, current := next }) = weight caps ticket (some { loop, current }) := by
  cases loop <;> rfl

/-- **One step**, for the cells. -/
theorem Rating.step (h : Rating caps s) {move : ContentionMove} (hs : s.step caps move = some t) : Rating caps t := by
  cases move with
  | start loop => exact h.start hs
  | load i =>
    unfold Contention.step at hs
    dsimp only at hs
    split at hs
    · next loop hi =>
      obtain ⟨cell, _, rfl⟩ := Option.map_eq_some_iff.mp hs
      exact h.proceed hi fun _ => Nat.le_of_eq weight_current
    · cases hs
  | turn i spurious =>
    unfold Contention.step at hs
    dsimp only at hs
    split at hs
    · next loop current hi =>
      split at hs
      · cases hs
      · obtain ⟨cell, hread, rfl⟩ := Option.map_eq_some_iff.mp hs
        cases hattempt : Retry.attempt (loop.body caps) cell current spurious with
        | stopped => cases loop <;> exact h.proceed hi fun _ => Nat.zero_le _
        | again observed => exact h.proceed hi fun _ => Nat.le_of_eq weight_current
        | swapped next =>
          obtain ⟨hcurrent, hbody⟩ := Retry.attempt_swapped hattempt
          exact h.swapped hi hread hbody hcurrent
    · cases hs

end Rating

/-! ## Runs -/

theorem counting_new : Counting caps {} := by
  refine ⟨fun _ => rfl, fun _ => Nat.zero_le _, fun _ _ => rfl, ?_⟩
  intro i k ticket v hi
  cases hi

theorem rating_new : Rating caps {} := by
  refine ⟨?_, fun _ _ => rfl⟩
  intro ticket c hc
  cases hc

/-- **Capacity counters are exact, and no cap is exceeded**, whatever the order of the calls' single steps. -/
theorem caps_exact {s : Contention} (hs : Reachable (step caps) {} s) : Exact caps s := by
  obtain ⟨hcounting, hrating⟩ := hs.invariant (I := fun s => Counting caps s ∧ Rating caps s)
    ⟨counting_new, rating_new⟩ fun s move t h hstep => ⟨h.1.step hstep, h.2.step hstep⟩
  refine ⟨fun k => ⟨hcounting.count k, hcounting.limit k⟩, ?_, ?_, ?_⟩
  · intro ticket c hc
    have hbalance := (hrating.cells ticket c hc).balance
    have htenths : 10 * c.consumed ≤ 10 * caps.maxBytesPerSec + c.refills * caps.maxBytesPerSec := by omega
    omega
  · intro c hc
    obtain ⟨ticket, hticket⟩ := List.mem_iff_getElem?.mp hc
    exact (hrating.cells ticket c hticket).bucket
  · intro c hc
    obtain ⟨ticket, hticket⟩ := List.mem_iff_getElem?.mp hc
    exact (hrating.cells ticket c hticket).queued

/-- Two calls for the one pair there may be: the second one sees the first. -/
theorem caps_exact_sample : let caps : CapsLimits :=
    { maxBytesPerSec := 10, maxQueuedBytes := 8, maxServers := 1, maxPairs := 1 }
    ∃ s, run (step caps) {} [.start (.add .pairs), .start (.add .pairs), .load 0, .load 1, .turn 0 false,
      .turn 1 false, .turn 1 false] = some s ∧ s.count .pairs = 1 ∧ s.cells.length = 1 ∧ Exact caps s := by
  intro caps
  obtain ⟨s, hs, hcount, hcells⟩ : ∃ s, run (step caps) {} [.start (.add .pairs), .start (.add .pairs), .load 0,
    .load 1, .turn 0 false, .turn 1 false, .turn 1 false] = some s ∧ s.count .pairs = 1 ∧ s.cells.length = 1 :=
    ⟨_, rfl, rfl, rfl⟩
  exact ⟨s, hs, hcount, hcells, caps_exact ⟨_, hs⟩⟩

end Contention

end CliPocket
