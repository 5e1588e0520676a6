import CliPocket.Daemon.ClientDb
import CliPocket.Lib.Saturating
import CliPocket.Lib.Traces

/-!
# Dialling the relay again

`run_forever` beside the outcomes of its attempts and the bytes of `jitter_seed`: when it sleeps, and how long.

- `le_jitter`, `le_nextDelay`: what is slept is never short;
- `RelayRetryConfig.escalates`: **the delay behind a streak of failures**;
- `RelayRetryConfig.never_hot_loops_iff`: **exactly when there is a sleep between any two attempts**.
-/

namespace CliPocket

open Saturating (u64Max)
open Traces (Spaced)

structure RelayRetryConfig where
  initialMs : Nat := 500
  maxMs : Nat := 30000
  mulX10 : Nat := 20

def nextDelay (curMs maxMs mulX10 : Nat) : Nat := max (min (min (curMs * mulX10 / 10) u64Max) maxMs) 50

def jitter (baseMs : Nat) (rngByte : UInt8) : Nat :=
  let delta := ((baseMs : Int) * ((rngByte.toNat : Int) - 128)).tdiv 512
  let jittered := (baseMs : Int) + delta
  if jittered ≤ 0 then 1 else min jittered.toNat u64Max

/-- An attempt has begun; the dialer has slept, with the delay before jitter beside it. -/
inductive DialerEvent
  | attempt
  | slept (baseMs sleepMs : Nat)
  deriving DecidableEq

def DialerEvent.IsAttempt (e : DialerEvent) : Prop := e = .attempt

/-- A sleep of at least 38 ms. -/
def DialerEvent.IsPause (e : DialerEvent) : Prop := ∃ baseMs sleepMs, e = .slept baseMs sleepMs ∧ 38 ≤ sleepMs

/-- What `run_once` has returned, and the byte that `jitter_seed` draws if it is asked. -/
structure Attempt where
  outcome : Except DaemonError Unit
  rngByte : UInt8

/-- `run_once` has failed. -/
def Attempt.Failed (a : Attempt) : Prop := ∃ err, a.outcome = .error err

namespace RelayRetryConfig

variable (retry : RelayRetryConfig)

def initialDelay : Nat := max retry.initialMs 50

/-- The arms of the loop of `run_forever`: the next delay, and what happens before the next attempt. -/
def settle (delayMs : Nat) (a : Attempt) : Nat × List DialerEvent :=
  match a.outcome with
  | .ok () => (retry.initialDelay, [])
  | .error _ => (nextDelay delayMs retry.maxMs retry.mulX10, [.slept delayMs (jitter delayMs a.rngByte)])

/-- The loop of `run_forever`, up to the attempt behind the last one that has ended. -/
def dial : Nat → List Attempt → List DialerEvent
  | _, [] => [.attempt]
  | delayMs, a :: attempts => .attempt :: ((retry.settle delayMs a).2 ++ dial (retry.settle delayMs a).1 attempts)

def runForever (attempts : List Attempt) : List DialerEvent := retry.dial retry.initialDelay attempts

/-- The attempts before a streak of failures: none, or the last of them has ended well. -/
def BeforeStreak (attempts : List Attempt) : Prop := ∀ a ∈ attempts.getLast?, ¬a.Failed

/-- Before the next attempt behind a streak of `k` failures the delay is `next_delay` applied `k - 1` times. -/
def Escalates (attempts : List Attempt) : Prop :=
  ∀ before streak last after, attempts = before ++ (streak ++ last :: after) → BeforeStreak before →
    (∀ a ∈ streak, a.Failed) → last.Failed →
      ∃ events, retry.runForever (before ++ (streak ++ [last])) = events ++
        [.slept ((fun d => nextDelay d retry.maxMs retry.mulX10)^[streak.length] retry.initialDelay)
          (jitter ((fun d => nextDelay d retry.maxMs retry.mulX10)^[streak.length] retry.initialDelay) last.rngByte),
          .attempt]

/-- There is a sleep between any two attempts, and failures in a row wait for longer and longer. -/
def NeverHotLoops (attempts : List Attempt) : Prop :=
  Spaced DialerEvent.IsAttempt DialerEvent.IsPause (retry.runForever attempts) ∧ retry.Escalates attempts

end RelayRetryConfig

/-! ## Delays -/

theorem le_nextDelay (curMs maxMs mulX10 : Nat) : 50 ≤ nextDelay curMs maxMs mulX10 := Nat.le_max_right _ _

/-- Division that rounds to zero. -/
theorem tdiv_512 (product : Int) : product.tdiv 512 = if 0 ≤ product then product / 512 else -(-product / 512) := by
  split
  · next h => exact Int.tdiv_eq_ediv_of_nonneg h
  · next h => rw [← Int.tdiv_eq_ediv_of_nonneg (by omega), Int.neg_tdiv, Int.neg_neg]

/-- What the byte is worth. -/
theorem product_bounds {base : Nat} {rngByte : UInt8} : (base : Int) * -128 ≤ base * (rngByte.toNat - 128) ∧
    (base : Int) * (rngByte.toNat - 128) ≤ base * 128 := by
  have hbyte := rngByte.toNat_lt
  constructor
  · exact Int.mul_le_mul_of_nonneg_left (by omega) (by omega)
  · exact Int.mul_le_mul_of_nonneg_left (by omega) (by omega)

/-- **A quarter at most.** -/
theorem delta_bounds {base : Nat} {rngByte : UInt8} :
    -((base : Int) / 4) ≤ ((base : Int) * (rngByte.toNat - 128)).tdiv 512 ∧
      ((base : Int) * (rngByte.toNat - 128)).tdiv 512 ≤ (base : Int) / 4 := by
  obtain ⟨hlo, hhi⟩ := @product_bounds base rngByte
  rw [tdiv_512]
  split <;> omega

/-- **What is slept is never short.** -/
theorem le_jitter {baseMs : Nat} (h : 50 ≤ baseMs) (rngByte : UInt8) : 38 ≤ jitter baseMs rngByte := by
  obtain ⟨hlo, _⟩ := @delta_bounds baseMs rngByte
  unfold jitter u64Max
  simp only
  split <;> omega

/-- The jitter goes up with the byte. -/
theorem jitter_mono {base : Nat} {r r' : UInt8} (h : r ≤ r') : jitter base r ≤ jitter base r' := by
  have hbyte : r.toNat ≤ r'.toNat := UInt8.le_iff_toNat_le.mp h
  have hproduct : (base : Int) * (r.toNat - 128) ≤ base * (r'.toNat - 128) :=
    Int.mul_le_mul_of_nonneg_left (by omega) (by omega)
  unfold jitter u64Max
  simp only [tdiv_512]
  generalize (base : Int) * (r.toNat - 128) = product at hproduct ⊢
  generalize (base : Int) * (r'.toNat - 128) = product' at hproduct ⊢
  split_ifs <;> omega

namespace RelayRetryConfig

variable {retry : RelayRetryConfig}

theorem le_initialDelay : 50 ≤ retry.initialDelay := Nat.le_max_right _ _

theorem settle_failed {a : Attempt} (h : a.Failed) (delayMs : Nat) :
    retry.settle delayMs a =
      (nextDelay delayMs retry.maxMs retry.mulX10, [.slept delayMs (jitter delayMs a.rngByte)]) := by
  obtain ⟨err, herr⟩ := h
  unfold settle
  rw [herr]

theorem settle_succeeded {a : Attempt} (h : ¬a.Failed) (delayMs : Nat) :
    retry.settle delayMs a = (retry.initialDelay, []) := by
  unfold settle
  cases houtcome : a.outcome with
  | ok _ => rfl
  | error err => exact absurd ⟨err, houtcome⟩ h

/-! ## The loop -/

/-- The delay behind some attempts. -/
def delayAfter (retry : RelayRetryConfig) : Nat → List Attempt → Nat
  | delayMs, [] => delayMs
  | delayMs, a :: attempts => retry.delayAfter (retry.settle delayMs a).1 attempts

/-- The loop begins an attempt. -/
theorem dial_eq_cons (delayMs : Nat) (attempts : List Attempt) :
    ∃ events, retry.dial delayMs attempts = .attempt :: events := by
  cases attempts with
  | nil => exact ⟨_, rfl⟩
  | cons a attempts => exact ⟨_, rfl⟩

/-- Attempts that go on with others. -/
theorem dial_append : ∀ {attempts : List Attempt} {delayMs : Nat}, ∃ events, ∀ others,
    retry.dial delayMs (attempts ++ others) = events ++ retry.dial (retry.delayAfter delayMs attempts) others
  | [], delayMs => ⟨[], fun _ => rfl⟩
  | a :: attempts, delayMs => by
    obtain ⟨events, hevents⟩ := @dial_append attempts (retry.settle delayMs a).1
    refine ⟨.attempt :: ((retry.settle delayMs a).2 ++ events), fun others => ?_⟩
    rw [List.cons_append, dial, hevents, List.cons_append, List.append_assoc]
    rfl

theorem delayAfter_append : ∀ {attempts others : List Attempt} {delayMs : Nat},
    retry.delayAfter delayMs (attempts ++ others) = retry.delayAfter (retry.delayAfter delayMs attempts) others
  | [], _, _ => rfl
  | _ :: attempts, _, _ => @delayAfter_append attempts _ _

/-- A success sets the delay back. -/
theorem delayAfter_beforeStreak {attempts : List Attempt} (h : BeforeStreak attempts) :
    retry.delayAfter retry.initialDelay attempts = retry.initialDelay := by
  cases hlast : attempts.getLast? with
  | none =>
    rw [List.getLast?_eq_none_iff.mp hlast]
    rfl
  | some a =>
    obtain ⟨front, rfl⟩ := List.getLast?_eq_some_iff.mp hlast
    rw [delayAfter_append]
    exact congrArg Prod.fst (settle_succeeded (h a (by simp)) _)

/-- Each failure takes the delay one step on. -/
theorem delayAfter_streak : ∀ {streak : List Attempt} {delayMs : Nat}, (∀ a ∈ streak, a.Failed) →
    retry.delayAfter delayMs streak = (fun d => nextDelay d retry.maxMs retry.mulX10)^[streak.length] delayMs
  | [], _, _ => rfl
  | a :: streak, delayMs, h => by
    rw [delayAfter, settle_failed (h a List.mem_cons_self),
      delayAfter_streak fun b hb => h b (List.mem_cons_of_mem _ hb)]
    rfl

/-- **The delay behind a streak of failures.** -/
theorem escalates (retry : RelayRetryConfig) (attempts : List Attempt) : retry.Escalates attempts := by
  intro before streak last after _ hbefore hstreak hlast
  obtain ⟨events, hevents⟩ := @dial_append retry (before ++ streak) retry.initialDelay
  refine ⟨events ++ [.attempt], ?_⟩
  unfold runForever
  rw [← List.append_assoc before, hevents, delayAfter_append, delayAfter_beforeStreak hbefore,
    delayAfter_streak hstreak, dial, settle_failed hlast, List.append_assoc]
  rfl

/-- Failures keep attempts apart. -/
theorem spaced_of_failed : ∀ {attempts : List Attempt} {delayMs : Nat}, 50 ≤ delayMs → (∀ a ∈ attempts, a.Failed) →
    Spaced DialerEvent.IsAttempt DialerEvent.IsPause (retry.dial delayMs attempts)
  | [], _, _, _ => Traces.spaced_singleton _
  | a :: attempts, delayMs, hdelay, hfailed => by
    have hrest := @spaced_of_failed attempts (nextDelay delayMs retry.maxMs retry.mulX10) (le_nextDelay _ _ _)
      fun b hb => hfailed b (List.mem_cons_of_mem _ hb)
    rw [dial, settle_failed (hfailed a List.mem_cons_self)]
    exact hrest.mark_good (fun h => by cases h) ⟨_, _, rfl, le_jitter hdelay _⟩

/-- Behind an attempt that ends well the next one begins at once. -/
theorem failed_of_spaced {attempts : List Attempt} {delayMs : Nat}
    (h : Spaced DialerEvent.IsAttempt DialerEvent.IsPause (retry.dial delayMs attempts)) :
    ∀ a ∈ attempts, a.Failed := by
  intro a ha
  by_contra hended
  obtain ⟨before, after, rfl⟩ := List.append_of_mem ha
  obtain ⟨events, hevents⟩ := @dial_append retry before delayMs
  obtain ⟨rest, hrest⟩ := dial_eq_cons retry.initialDelay after
  rw [hevents, dial, settle_succeeded hended, List.nil_append, hrest] at h
  have hmark : DialerEvent.IsAttempt .attempt := rfl
  exact Traces.not_spaced_of_adjacent hmark hmark h

/-- **There is a sleep between any two attempts exactly when every attempt that has ended has failed.** -/
theorem never_hot_loops_iff (retry : RelayRetryConfig) (attempts : List Attempt) :
    retry.NeverHotLoops attempts ↔ ∀ a ∈ attempts, a.Failed := by
  constructor
  · rintro ⟨hspaced, _⟩
    exact failed_of_spaced hspaced
  · intro hfailed
    exact ⟨spaced_of_failed le_initialDelay hfailed, escalates retry attempts⟩

/-- The relay closes the first connection: the second attempt begins at once. -/
theorem clean_close_is_not_followed_by_sleep :
    runForever {} [{ outcome := .ok (), rngByte := 0 }] = [.attempt, .attempt] ∧
      ¬∀ (retry : RelayRetryConfig) (attempts : List Attempt), retry.NeverHotLoops attempts := by
  refine ⟨rfl, fun h => ?_⟩
  obtain ⟨hspaced, _⟩ := h {} [{ outcome := .ok (), rngByte := 0 }]
  obtain ⟨err, herr⟩ := failed_of_spaced hspaced _ List.mem_cons_self
  cases herr

end RelayRetryConfig

end CliPocket
