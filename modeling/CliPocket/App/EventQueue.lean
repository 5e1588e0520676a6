import Mathlib.Data.List.Basic

/-!
# The queue of events

`AsyncValueQueue` beside its callers: each call of `next` has a number, and its promise is pending or settled. A call
runs up to its promise at once, so calls come one after the other.

- `QueueRun.step`: `next`, `push`, `close` and `fail`;
- `QueueRun.Fair`: promises are settled in order, first the ones with values;
- `delivers_once`: **each value once and in order, and an end behind the last one.**
-/

namespace CliPocket.App

/-- What `fail` is given: an `Error`, or something else. -/
inductive Unknown (ε : Type)
  | error (e : ε)
  | other

/-- The `Error` that `fail` keeps. -/
inductive QueueFailure (ε : Type)
  | error (e : ε)
  /-- `new Error("stream failed")`. -/
  | streamFailed
  deriving DecidableEq

/-- How a promise of `next` is settled. -/
inductive Settled (α ε : Type)
  | value (v : α)
  | done
  | rejected (failure : QueueFailure ε)
  deriving DecidableEq

structure AsyncValueQueue (α ε : Type) where
  values : List α := []
  /-- The numbers of the calls that wait. -/
  waiters : List Nat := []
  closed : Bool := false
  failure : Option (QueueFailure ε) := none

/-- A queue, and the promises of all calls of `next` there have been. -/
structure QueueRun (α ε : Type) where
  queue : AsyncValueQueue α ε := {}
  promises : List (Option (Settled α ε)) := []

inductive QueueMove (α ε : Type)
  | next
  | push (v : α)
  | close
  | fail (error : Unknown ε)

namespace QueueRun

variable {α ε : Type}

/-- `this.closed || this.failure != null`. -/
def ended (s : QueueRun α ε) : Bool := s.queue.closed || s.queue.failure.isSome

/-- The promises of `waiters` are settled. -/
def settle (s : QueueRun α ε) (waiters : List Nat) (settled : Settled α ε) : List (Option (Settled α ε)) :=
  waiters.foldl (fun promises i => promises.set i (some settled)) s.promises

def next (s : QueueRun α ε) : QueueRun α ε :=
  match s.queue.values with
  | v :: values => { queue := { s.queue with values }, promises := s.promises ++ [some (.value v)] }
  | [] =>
    match s.queue.failure with
    | some failure => { s with promises := s.promises ++ [some (.rejected failure)] }
    | none =>
      if s.queue.closed then { s with promises := s.promises ++ [some .done] }
      else
        { queue := { s.queue with waiters := s.queue.waiters ++ [s.promises.length] }
          promises := s.promises ++ [none] }

def push (s : QueueRun α ε) (v : α) : QueueRun α ε :=
  if s.ended then s
  else
    match s.queue.waiters with
    | waiter :: waiters => { queue := { s.queue with waiters }, promises := s.settle [waiter] (.value v) }
    | [] => { s with queue := { s.queue with values := s.queue.values ++ [v] } }

def close (s : QueueRun α ε) : QueueRun α ε :=
  if s.ended then s
  else { queue := { s.queue with closed := true, waiters := [] }, promises := s.settle s.queue.waiters .done }

/-- The failure that is kept. -/
def failureOf : Unknown ε → QueueFailure ε
  | .error e => .error e
  | .other => .streamFailed

def fail (s : QueueRun α ε) (error : Unknown ε) : QueueRun α ε :=
  if s.ended then s
  else
    { queue := { s.queue with failure := some (failureOf error), waiters := [] }
      promises := s.settle s.queue.waiters (.rejected (failureOf error)) }

def step (s : QueueRun α ε) : QueueMove α ε → QueueRun α ε
  | .next => s.next
  | .push v => s.push v
  | .close => s.close
  | .fail error => s.fail error

def run (moves : List (QueueMove α ε)) : QueueRun α ε := moves.foldl step {}

@[simp] theorem step_next (s : QueueRun α ε) : s.step .next = s.next := rfl

@[simp] theorem step_push (s : QueueRun α ε) (v : α) : s.step (.push v) = s.push v := rfl

@[simp] theorem step_close (s : QueueRun α ε) : s.step .close = s.close := rfl

@[simp] theorem step_fail (s : QueueRun α ε) (error : Unknown ε) : s.step (.fail error) = s.fail error := rfl

/-! ## The invariant -/

/-- How a promise of a queue ends that has no values. -/
def ending (s : QueueRun α ε) : Option (Settled α ε) :=
  match s.queue.failure with
  | some failure => some (.rejected failure)
  | none => if s.queue.closed then some .done else none

/-- The promises in order: `given` values, and `left` calls behind them that have none. -/
structure Fair (s : QueueRun α ε) (given : List α) (left : Nat) : Prop where
  promises : s.promises = given.map (fun v => some (.value v)) ++ List.replicate left s.ending
  waiters : s.queue.waiters = if s.ended then [] else List.range' given.length left
  exclusive : left = 0 ∨ s.queue.values = []
  once : s.queue.failure = none ∨ s.queue.closed = false

variable {s : QueueRun α ε} {given : List α} {left : Nat}

theorem ended_iff (s : QueueRun α ε) : s.ended = true ↔ s.ending ≠ none := by
  unfold ended ending
  cases s.queue.failure <;> cases s.queue.closed <;> simp

/-- All promises that wait are settled at once. -/
theorem settle_range (settled : Settled α ε) : ∀ (left : Nat) (before : List (Option (Settled α ε))),
    (List.range' before.length left).foldl (fun promises i => promises.set i (some settled))
      (before ++ List.replicate left none) = before ++ List.replicate left (some settled) := by
  intro left
  induction left with
  | zero => simp
  | succ left ih =>
    intro before
    have hset : (before ++ List.replicate (left + 1) none).set before.length (some settled) =
        (before ++ [some settled]) ++ List.replicate left none := by
      simp [List.replicate_succ]
    have hrest := ih (before ++ [some settled])
    rw [List.length_append, List.length_singleton] at hrest
    rw [List.range'_succ, List.foldl_cons, hset, hrest]
    simp [List.replicate_succ]

theorem Fair.settle_all (h : Fair s given left) (hopen : s.ended = false) (settled : Settled α ε) :
    s.settle s.queue.waiters settled = given.map (fun v => some (.value v)) ++ List.replicate left (some settled) := by
  have hnone : s.ending = none := by
    by_contra hsome
    rw [(ended_iff s).mpr hsome] at hopen
    cases hopen
  have hrange := settle_range settled left (given.map fun v => some (.value v))
  rw [List.length_map] at hrange
  unfold settle
  rw [h.waiters, h.promises, hnone, hopen]
  exact hrange

/-- **`next`.** -/
theorem Fair.next (h : Fair s given left) :
    ∃ given' left', Fair s.next given' left' ∧ given' ++ s.next.queue.values = given ++ s.queue.values := by
  unfold QueueRun.next
  cases hvalues : s.queue.values with
  | cons v values =>
    have hleft : left = 0 := h.exclusive.resolve_right (by simp [hvalues])
    subst hleft
    refine ⟨given ++ [v], 0, ⟨?_, ?_, .inl rfl, h.once⟩, by simp⟩
    · simp [h.promises]
    · have hwaiters := h.waiters
      simp at hwaiters
      simpa [ended] using hwaiters
  | nil =>
    dsimp only
    cases hfailure : s.queue.failure with
    | some failure =>
      have hending : s.ending = some (.rejected failure) := by simp [ending, hfailure]
      refine ⟨given, left + 1, ⟨?_, ?_, .inr hvalues, h.once⟩, by simp [hvalues]⟩
      · show s.promises ++ _ = _ ++ List.replicate (left + 1) s.ending
        simp [h.promises, hending, List.replicate_succ']
      · have hwaiters := h.waiters
        simpa [ended, hfailure] using hwaiters
    | none =>
      dsimp only
      cases hclosed : s.queue.closed with
      | true =>
        have hending : s.ending = some .done := by simp [ending, hfailure, hclosed]
        refine ⟨given, left + 1, ⟨?_, ?_, .inr hvalues, h.once⟩, by simp [hvalues]⟩
        · show s.promises ++ _ = _ ++ List.replicate (left + 1) s.ending
          simp [h.promises, hending, List.replicate_succ']
        · have hwaiters := h.waiters
          simpa [ended, hclosed] using hwaiters
      | false =>
        have hending : s.ending = none := by simp [ending, hfailure, hclosed]
        have hwaiters := h.waiters
        simp [ended, hfailure, hclosed] at hwaiters
        simp only [Bool.false_eq_true, if_false]
        refine ⟨given, left + 1, ⟨?_, ?_, .inr hvalues, .inl rfl⟩, by simp [hvalues]⟩
        · show s.promises ++ [none] = _ ++ List.replicate (left + 1) none
          simp [h.promises, hending, List.replicate_succ']
        · simp [ended, hwaiters, h.promises, List.range'_1_concat]

/-- **`push`**, which an end makes do nothing. -/
theorem Fair.push (h : Fair s given left) (v : α) :
    ∃ given' left', Fair (s.push v) given' left' ∧
      given' ++ (s.push v).queue.values = given ++ s.queue.values ++ if s.ended then [] else [v] := by
  unfold QueueRun.push
  cases hended : s.ended with
  | true => exact ⟨given, left, h, by simp⟩
  | false =>
    simp only [Bool.false_eq_true, if_false]
    have hwaiters := h.waiters
    simp only [hended, Bool.false_eq_true, if_false] at hwaiters
    have hnone : s.ending = none := by
      by_contra hsome
      rw [(ended_iff s).mpr hsome] at hended
      cases hended
    cases left with
    | zero =>
      rw [hwaiters]
      refine ⟨given, 0, ⟨h.promises, ?_, .inl rfl, h.once⟩, by simp⟩
      simp
    | succ left =>
      have hvalues : s.queue.values = [] := h.exclusive.resolve_left (Nat.succ_ne_zero _)
      rw [hwaiters, List.range'_succ]
      refine ⟨given ++ [v], left, ⟨?_, ?_, .inr hvalues, h.once⟩, by simp [hvalues]⟩
      · have hset : (given.map (fun v => some (Settled.value v)) ++
            List.replicate (left + 1) (none : Option (Settled α ε))).set given.length (some (.value v)) =
              given.map (fun v => some (.value v)) ++ some (.value v) :: List.replicate left none := by
          simp [List.replicate_succ, List.set_append_right]
        show s.settle [given.length] (.value v) = _ ++ List.replicate left s.ending
        unfold settle
        rw [List.foldl_cons, List.foldl_nil, h.promises, hnone, hset]
        simp
      · show List.range' (given.length + 1) left = if s.ended then [] else _
        simp [hended]

/-- **`close` and `fail`**: they settle what waits, and the queue has ended. -/
theorem Fair.finish (h : Fair s given left) (hopen : s.ended = false) {closed : Bool}
    {failure : Option (QueueFailure ε)} {settled : Settled α ε} {t : QueueRun α ε}
    (ht : t = {
      queue := { s.queue with closed, failure, waiters := [] }
      promises := s.settle s.queue.waiters settled })
    (hend : t.ending = some settled) (honce : failure = none ∨ closed = false) : Fair t given left := by
  have hended : t.ended = true := (ended_iff t).mpr (by simp [hend])
  subst ht
  refine ⟨?_, by simp [hended], h.exclusive, honce⟩
  rw [hend]
  exact h.settle_all hopen settled

theorem ended_next (s : QueueRun α ε) : s.next.ended = s.ended := by
  unfold QueueRun.next
  split
  · rfl
  · split
    · rfl
    · split <;> rfl

/-- The values that a move adds. -/
def added (s : QueueRun α ε) : QueueMove α ε → List α
  | .push v => if s.ended then [] else [v]
  | _ => []

/-- **One move.** -/
theorem Fair.step (h : Fair s given left) (move : QueueMove α ε) :
    ∃ given' left', Fair (s.step move) given' left' ∧
      given' ++ (s.step move).queue.values = given ++ s.queue.values ++ s.added move := by
  cases move with
  | next =>
    obtain ⟨given', left', hfair, hvalues⟩ := h.next
    exact ⟨given', left', hfair, by simp [added, hvalues]⟩
  | push v => exact h.push v
  | close =>
    refine ⟨given, left, ?_⟩
    rw [step_close]
    unfold QueueRun.close
    cases hended : s.ended with
    | true => exact ⟨h, by simp [added]⟩
    | false =>
      have hfailure : s.queue.failure = none := by
        have hboth := hended
        simp [ended] at hboth
        exact hboth.2
      exact ⟨h.finish hended rfl (by simp [ending, hfailure]) (.inl hfailure), by simp [added]⟩
  | fail error =>
    refine ⟨given, left, ?_⟩
    rw [step_fail]
    unfold QueueRun.fail
    cases hended : s.ended with
    | true => exact ⟨h, by simp [added]⟩
    | false =>
      have hclosed : s.queue.closed = false := by
        have hboth := hended
        simp [ended] at hboth
        exact hboth.1
      exact ⟨h.finish hended rfl (by simp [ending]) (.inr hclosed), by simp [added]⟩

/-! ## Runs -/

/-- The values pushed before the first `close` or `fail`. -/
def pushedBeforeEnd : List (QueueMove α ε) → List α
  | [] => []
  | .next :: moves => pushedBeforeEnd moves
  | .push v :: moves => v :: pushedBeforeEnd moves
  | .close :: _ | .fail _ :: _ => []

theorem ended_close (s : QueueRun α ε) : s.close.ended = true := by
  unfold QueueRun.close
  split
  · assumption
  · simp [ended]

theorem ended_fail (s : QueueRun α ε) (error : Unknown ε) : (s.fail error).ended = true := by
  unfold QueueRun.fail
  split
  · assumption
  · simp [ended]

theorem ended_push (s : QueueRun α ε) (v : α) : (s.push v).ended = s.ended := by
  unfold QueueRun.push
  split
  · rfl
  · split <;> rfl

/-- **A whole run.** -/
theorem Fair.run {moves : List (QueueMove α ε)} : ∀ {s : QueueRun α ε} {given left}, Fair s given left →
    ∃ given' left', Fair (moves.foldl QueueRun.step s) given' left' ∧
      given' ++ (moves.foldl QueueRun.step s).queue.values =
        given ++ s.queue.values ++ if s.ended then [] else pushedBeforeEnd moves := by
  induction moves with
  | nil =>
    intro s given left h
    exact ⟨given, left, h, by simp [pushedBeforeEnd]⟩
  | cons move moves ih =>
    intro s given left h
    obtain ⟨given₁, left₁, hfair₁, hvalues₁⟩ := h.step move
    obtain ⟨given₂, left₂, hfair₂, hvalues₂⟩ := ih hfair₁
    refine ⟨given₂, left₂, hfair₂, ?_⟩
    rw [List.foldl_cons, hvalues₂, hvalues₁, List.append_assoc]
    congr 1
    cases move with
    | next => simp [QueueRun.step, ended_next, added, pushedBeforeEnd]
    | push v =>
      simp only [QueueRun.step, ended_push, added, pushedBeforeEnd]
      cases s.ended <;> simp
    | close => simp [QueueRun.step, ended_close, added, pushedBeforeEnd]
    | fail error => simp [QueueRun.step, ended_fail, added, pushedBeforeEnd]

/-! ## What callers see -/

/-- The value of a promise. -/
def valueOf : Option (Settled α ε) → Option α
  | some (.value v) => some v
  | _ => none

/-- The values with which promises are resolved, in the order of the calls. -/
def delivered (s : QueueRun α ε) : List α := s.promises.filterMap valueOf

/-- How a queue ends: `close` or `fail`, whichever was first. -/
def endOf : List (QueueMove α ε) → Option (Settled α ε)
  | [] => none
  | .close :: _ => some .done
  | .fail error :: _ => some (.rejected (failureOf error))
  | .next :: moves | .push _ :: moves => endOf moves

structure DeliversOnce (moves : List (QueueMove α ε)) : Prop where
  once : (run moves).delivered ++ (run moves).queue.values = pushedBeforeEnd moves
  exclusive : (run moves).queue.values = [] ∨ (run moves).queue.waiters = []
  /-- Calls that wait come behind those with values, and wait as long as there is no end. -/
  ordered : ∃ left, (run moves).promises =
    (run moves).delivered.map (fun v => some (.value v)) ++ List.replicate left (endOf moves)
  drained : ∀ settled, endOf moves = some settled → (run moves).queue.values = [] →
    (run moves).next.promises = (run moves).promises ++ [some settled]

/-- Only the first end counts. -/
theorem ending_step (s : QueueRun α ε) (move : QueueMove α ε) : (s.step move).ending = s.ending.or (endOf [move]) := by
  have hnone : s.ended = false → s.ending = none ∧ s.queue.failure = none ∧ s.queue.closed = false := by
    unfold ended ending
    cases s.queue.failure <;> cases s.queue.closed <;> simp
  have hsome : s.ended = true → ∃ settled, s.ending = some settled := fun hended =>
    Option.ne_none_iff_exists'.mp ((ended_iff s).mp hended)
  cases move with
  | next =>
    have hsame : s.next.ending = s.ending := by
      unfold QueueRun.next
      split
      · rfl
      · split
        · rfl
        · split <;> rfl
    simpa [endOf] using hsame
  | push v =>
    have hsame : (s.push v).ending = s.ending := by
      unfold QueueRun.push
      split
      · rfl
      · split <;> rfl
    simpa [endOf] using hsame
  | close =>
    rw [step_close]
    unfold QueueRun.close
    cases hended : s.ended with
    | true =>
      obtain ⟨settled, hsettled⟩ := hsome hended
      simp [hsettled]
    | false => simp [hnone hended, ending, endOf]
  | fail error =>
    rw [step_fail]
    unfold QueueRun.fail
    cases hended : s.ended with
    | true =>
      obtain ⟨settled, hsettled⟩ := hsome hended
      simp [hsettled]
    | false => simp [hnone hended, ending, endOf]

theorem ending_run {moves : List (QueueMove α ε)} : ∀ {s : QueueRun α ε},
    (moves.foldl QueueRun.step s).ending = s.ending.or (endOf moves) := by
  induction moves with
  | nil => simp [endOf]
  | cons move moves ih =>
    intro s
    rw [List.foldl_cons, ih, ending_step]
    cases move <;> cases s.ending <;> simp [endOf]

/-- The promises with values. -/
theorem Fair.delivered (h : Fair s given left) : s.delivered = given := by
  have hending : valueOf s.ending = none := by
    unfold ending
    split
    · rfl
    · split <;> rfl
  have hgiven : (given.map fun v => some (Settled.value v)).filterMap (valueOf (ε := ε)) = given := by
    simp [List.filterMap_map, Function.comp_def, valueOf]
  unfold QueueRun.delivered
  rw [h.promises, List.filterMap_append, hgiven, List.filterMap_replicate_of_none hending, List.append_nil]

/-- **Each value once, in order, and an end behind the last one**, in every order of the calls. -/
theorem delivers_once (moves : List (QueueMove α ε)) : DeliversOnce moves := by
  have hstart : Fair ({} : QueueRun α ε) [] 0 := ⟨rfl, rfl, .inl rfl, .inl rfl⟩
  obtain ⟨given, left, hfair, hvalues⟩ := @Fair.run _ _ moves _ _ _ hstart
  have hending : (run moves).ending = endOf moves := by
    unfold run
    rw [ending_run]
    rfl
  have hdelivered : (run moves).delivered = given := hfair.delivered
  refine ⟨?_, ?_, ⟨left, ?_⟩, ?_⟩
  · rw [hdelivered]
    unfold run
    simpa [ended] using hvalues
  · rcases hfair.exclusive with hleft | hnone
    · right
      rw [show (run moves).queue.waiters = _ from hfair.waiters, hleft]
      simp
    · exact .inl hnone
  · rw [hdelivered, ← hending]
    exact hfair.promises
  · intro settled hend hnone
    rw [← hending] at hend
    unfold QueueRun.next
    rw [hnone]
    unfold ending at hend
    split at hend
    · cases hend
      rfl
    · split at hend
      · next hclosed =>
        cases hend
        simp [hclosed]
      · cases hend

end QueueRun

end CliPocket.App
