import CliPocket.Daemon.Redial
import CliPocket.Lib.Checked

/-!
# Back-off

`next_delay` and `jitter`, of which the client and the daemon have a copy each, with the arithmetic of the machine.

- `nextDelay_eq`, `jitter_eq`: **nothing overflows**;
- `backoff_bounded`: **the delays are within their bounds, and the copies agree.**
-/

namespace CliPocket

open Saturating (u64Max)

/-! ## The client's copy -/

namespace Reconnect

def nextDelay (curMs maxMs : UInt64) (mulX10 : UInt32) : Option UInt64 := do
  let product ← Checked.u128 (curMs.toNat * mulX10.toNat)
  let scaled := product / 10
  pure (max (min ((Checked.toU64 scaled).getD Checked.u64Max) maxMs) 50)

def jitter (baseMs : UInt64) (rngByte : UInt8) : Option UInt64 := do
  let offset ← Checked.i64 (rngByte.toNat - 128)
  let product ← Checked.i128 (baseMs.toNat * offset)
  let delta := product.tdiv 512
  let jittered ← Checked.i128 (baseMs.toNat + delta)
  pure (if jittered ≤ 0 then 1 else (Checked.toU64 jittered).getD Checked.u64Max)

end Reconnect

/-! ## The daemon's copy -/

namespace RelayDialer

def nextDelay (curMs maxMs : UInt64) (mulX10 : UInt32) : Option UInt64 := do
  let product ← Checked.u128 (curMs.toNat * mulX10.toNat)
  let scaled := product / 10
  pure (max (min ((Checked.toU64 scaled).getD Checked.u64Max) maxMs) 50)

def jitter (baseMs : UInt64) (rngByte : UInt8) : Option UInt64 := do
  let offset ← Checked.i64 (rngByte.toNat - 128)
  let product ← Checked.i128 (baseMs.toNat * offset)
  let delta := product.tdiv 512
  let jittered ← Checked.i128 (baseMs.toNat + delta)
  pure (if jittered ≤ 0 then 1 else (Checked.toU64 jittered).getD Checked.u64Max)

end RelayDialer

/-! ## Nothing overflows -/

theorem toNat_min (a b : UInt64) : (min a b).toNat = min a.toNat b.toNat := by
  show (if a ≤ b then a else b).toNat = _
  split
  · next hle => exact (Nat.min_eq_left (UInt64.le_iff_toNat_le.mp hle)).symm
  · next hle =>
    rw [UInt64.le_iff_toNat_le] at hle
    omega

theorem toNat_max (a b : UInt64) : (max a b).toNat = max a.toNat b.toNat := by
  show (if a ≤ b then b else a).toNat = _
  split
  · next hle => exact (Nat.max_eq_right (UInt64.le_iff_toNat_le.mp hle)).symm
  · next hle =>
    rw [UInt64.le_iff_toNat_le] at hle
    omega

namespace Reconnect

/-- **The next delay**: the product of 64 and 32 bits fits into 128. -/
theorem nextDelay_eq (curMs maxMs : UInt64) (mulX10 : UInt32) : ∃ delay, nextDelay curMs maxMs mulX10 = some delay ∧
    delay.toNat = CliPocket.nextDelay curMs.toNat maxMs.toNat mulX10.toNat := by
  have hproduct : curMs.toNat * mulX10.toNat ≤ (2 ^ 64 - 1) * (2 ^ 32 - 1) :=
    Nat.mul_le_mul (Nat.le_pred_of_lt curMs.toNat_lt) (Nat.le_pred_of_lt mulX10.toNat_lt)
  have hfits : Checked.u128 (curMs.toNat * mulX10.toNat) = some ((curMs.toNat * mulX10.toNat : Nat) : Int) := by
    rw [← Int.natCast_mul]
    exact Checked.fit_eq (by omega) (by omega)
  have hscaled : ((curMs.toNat * mulX10.toNat : Nat) : Int) / 10 = ((curMs.toNat * mulX10.toNat / 10 : Nat) : Int) :=
    rfl
  refine ⟨max (min ((Checked.toU64 ((curMs.toNat * mulX10.toNat : Nat) / 10)).getD Checked.u64Max) maxMs) 50, ?_, ?_⟩
  · simp only [nextDelay, hfits, Option.bind_eq_bind, Option.bind_some, Option.pure_def]
  · rw [toNat_max, toNat_min, hscaled, Checked.toNat_toU64 (by omega), Int.toNat_natCast]
    rfl

/-- **The jitter**: all of it fits into 128 bits. -/
theorem jitter_eq (baseMs : UInt64) (rngByte : UInt8) : ∃ sleep, jitter baseMs rngByte = some sleep ∧
    sleep.toNat = CliPocket.jitter baseMs.toNat rngByte := by
  have hbase := baseMs.toNat_lt
  have hbyte := rngByte.toNat_lt
  obtain ⟨hlo, hhi⟩ := @delta_bounds baseMs.toNat rngByte
  have hoffset : Checked.i64 (rngByte.toNat - 128) = some ((rngByte.toNat : Int) - 128) :=
    Checked.fit_eq (by omega) (by omega)
  have hproduct : Checked.i128 (baseMs.toNat * (rngByte.toNat - 128)) =
      some ((baseMs.toNat : Int) * (rngByte.toNat - 128)) := by
    obtain ⟨hleast, hmost⟩ := @product_bounds baseMs.toNat rngByte
    exact Checked.fit_eq (by omega) (by omega)
  have hjittered : Checked.i128 (baseMs.toNat + ((baseMs.toNat : Int) * (rngByte.toNat - 128)).tdiv 512) =
      some ((baseMs.toNat : Int) + ((baseMs.toNat : Int) * (rngByte.toNat - 128)).tdiv 512) :=
    Checked.fit_eq (by omega) (by omega)
  generalize hdelta : ((baseMs.toNat : Int) * (rngByte.toNat - 128)).tdiv 512 = delta at hlo hhi hjittered
  refine ⟨if (baseMs.toNat : Int) + delta ≤ 0 then 1 else (Checked.toU64 (baseMs.toNat + delta)).getD Checked.u64Max,
    ?_, ?_⟩
  · simp only [jitter, hoffset, hproduct, hdelta, hjittered, Option.bind_eq_bind, Option.bind_some, Option.pure_def]
  · unfold CliPocket.jitter
    simp only [hdelta]
    split
    · rfl
    · rw [Checked.toNat_toU64 (by omega)]
      rfl

end Reconnect

/-! ## The bounds -/

/-- The delay behind `curMs`: not too short, not too long, and not shorter than `curMs` where the factor is one or more. -/
structure DelayBounded (curMs maxMs : UInt64) (mulX10 : UInt32) (delay : UInt64) : Prop where
  least : 50 ≤ delay.toNat
  most : delay.toNat ≤ max 50 maxMs.toNat
  keeps : 10 ≤ mulX10.toNat → 50 ≤ curMs.toNat → curMs.toNat ≤ max 50 maxMs.toNat →
    min curMs.toNat (max 50 maxMs.toNat) ≤ delay.toNat

/-- A sleep around `baseMs`. -/
structure SleepBounded (baseMs sleep : UInt64) : Prop where
  least : 1 ≤ sleep.toNat
  above : 1 ≤ baseMs.toNat → baseMs.toNat - baseMs.toNat / 4 ≤ sleep.toNat
  below : 1 ≤ baseMs.toNat → sleep.toNat ≤ baseMs.toNat + baseMs.toNat / 4

theorem nextDelay_bounded {curMs maxMs delay : UInt64} {mulX10 : UInt32}
    (h : delay.toNat = CliPocket.nextDelay curMs.toNat maxMs.toNat mulX10.toNat) :
    DelayBounded curMs maxMs mulX10 delay := by
  have hcur := curMs.toNat_lt
  unfold CliPocket.nextDelay u64Max at h
  constructor
  · omega
  · omega
  · intro hmul hleast hmost
    have hscaled : curMs.toNat ≤ curMs.toNat * mulX10.toNat / 10 := by
      rw [Nat.le_div_iff_mul_le (by decide)]
      exact Nat.mul_le_mul_left _ hmul
    omega

theorem jitter_bounded {baseMs sleep : UInt64} {rngByte : UInt8}
    (h : sleep.toNat = CliPocket.jitter baseMs.toNat rngByte) : SleepBounded baseMs sleep := by
  have hbase := baseMs.toNat_lt
  obtain ⟨hlo, hhi⟩ := @delta_bounds baseMs.toNat rngByte
  unfold CliPocket.jitter u64Max at h
  simp only at h
  generalize ((baseMs.toNat : Int) * (rngByte.toNat - 128)).tdiv 512 = delta at h hlo hhi
  split at h
  · constructor <;> omega
  · constructor <;> omega

/-- **Back-off is safe and bounded**, and both copies of it are the same. -/
theorem backoff_bounded :
    (∀ curMs maxMs mulX10, ∃ delay, Reconnect.nextDelay curMs maxMs mulX10 = some delay ∧
      DelayBounded curMs maxMs mulX10 delay) ∧
    (∀ baseMs rngByte, ∃ sleep, Reconnect.jitter baseMs rngByte = some sleep ∧ SleepBounded baseMs sleep) ∧
    (∀ baseMs r r' sleep sleep', r ≤ r' → Reconnect.jitter baseMs r = some sleep →
      Reconnect.jitter baseMs r' = some sleep' → sleep ≤ sleep') ∧
    (∀ curMs maxMs mulX10, RelayDialer.nextDelay curMs maxMs mulX10 = Reconnect.nextDelay curMs maxMs mulX10) ∧
    ∀ baseMs rngByte, RelayDialer.jitter baseMs rngByte = Reconnect.jitter baseMs rngByte := by
  refine ⟨?_, ?_, ?_, fun _ _ _ => rfl, fun _ _ => rfl⟩
  · intro curMs maxMs mulX10
    obtain ⟨delay, hdelay, heq⟩ := Reconnect.nextDelay_eq curMs maxMs mulX10
    exact ⟨delay, hdelay, nextDelay_bounded heq⟩
  · intro baseMs rngByte
    obtain ⟨sleep, hsleep, heq⟩ := Reconnect.jitter_eq baseMs rngByte
    exact ⟨sleep, hsleep, jitter_bounded heq⟩
  · intro baseMs r r' sleep sleep' hle hsleep hsleep'
    obtain ⟨first, hfirst, heq⟩ := Reconnect.jitter_eq baseMs r
    obtain ⟨second, hsecond, heq'⟩ := Reconnect.jitter_eq baseMs r'
    cases hsleep.symm.trans hfirst
    cases hsleep'.symm.trans hsecond
    rw [UInt64.le_iff_toNat_le, heq, heq']
    exact jitter_mono hle

example : [Reconnect.nextDelay 1000 5000 30, Reconnect.nextDelay 3000 5000 30, Reconnect.nextDelay 10000 5000 30] =
    [some 3000, some 5000, some 5000] := by decide

end CliPocket
