import Mathlib.Algebra.BigOperators.Intervals
import Mathlib.Algebra.Order.BigOperators.Group.Finset
import Mathlib.Algebra.Order.Ring.Int
import Mathlib.Data.Int.ConditionallyCompleteOrder
import Mathlib.Data.Prod.Lex

/-!
# The Gregorian calendar

The proleptic calendar: its rule is taken for every year, also for those before it was in use and before year 1.

- `daysBeforeYear`: the closed form of the days between year 1 and a year;
- `Civil`: a date that exists and a time of that day, in the lexicographic order;
- `Civil.seconds_strictMono`: **what is later in the calendar is later in time**.
-/

namespace Gregorian

/-! ## Years and months -/

def IsLeap (y : ℤ) : Prop := 4 ∣ y ∧ ¬100 ∣ y ∨ 400 ∣ y

instance : DecidablePred IsLeap := fun y => inferInstanceAs (Decidable (4 ∣ y ∧ ¬100 ∣ y ∨ 400 ∣ y))

def yearLength (y : ℤ) : ℕ := if IsLeap y then 366 else 365

/-- The days of a month; January is 1. -/
def monthLength (y : ℤ) : ℕ → ℕ
  | 2 => if IsLeap y then 29 else 28
  | 4 | 6 | 9 | 11 => 30
  | _ => 31

theorem monthLength_le (y : ℤ) (m : ℕ) : monthLength y m ≤ 31 := by
  unfold monthLength
  split
  · split <;> omega
  all_goals omega

/-- The days from the first of January of year 1 to that of year `y`. -/
def daysBeforeYear (y : ℤ) : ℤ := 365 * (y - 1) + (y - 1) / 4 - (y - 1) / 100 + (y - 1) / 400

/-- The days from the first of January to the first of month `m`. -/
def daysBeforeMonth (y : ℤ) (m : ℕ) : ℕ := ∑ i ∈ Finset.Ico 1 m, monthLength y i

/-- The leap days of the closed form are those of the rule. -/
theorem daysBeforeYear_succ (y : ℤ) : daysBeforeYear (y + 1) = daysBeforeYear y + yearLength y := by
  by_cases hleap : IsLeap y
  · rw [yearLength, if_pos hleap]
    unfold IsLeap at hleap
    unfold daysBeforeYear
    omega
  · rw [yearLength, if_neg hleap]
    unfold IsLeap at hleap
    unfold daysBeforeYear
    omega

theorem daysBeforeYear_mono : Monotone daysBeforeYear :=
  monotone_int_of_le_succ fun y => by
    have := daysBeforeYear_succ y
    omega

/-- A year is over when a later one begins. -/
theorem daysBeforeYear_add_le {y y' : ℤ} (h : y < y') : daysBeforeYear y + yearLength y ≤ daysBeforeYear y' :=
  daysBeforeYear_succ y ▸ daysBeforeYear_mono (Int.add_one_le_of_lt h)

/-- A day after the end of year `y` and before year `n`. -/
theorem succ_lt_of_days {y n : ℤ} {days : ℕ} (hlen : yearLength y ≤ days)
    (h : daysBeforeYear y + days < daysBeforeYear n) : y + 1 < n :=
  daysBeforeYear_mono.reflect_lt (by rw [daysBeforeYear_succ]; omega)

@[simp] theorem daysBeforeMonth_one (y : ℤ) : daysBeforeMonth y 1 = 0 := rfl

theorem daysBeforeMonth_succ (y : ℤ) {m : ℕ} (h : 1 ≤ m) :
    daysBeforeMonth y (m + 1) = daysBeforeMonth y m + monthLength y m :=
  Finset.sum_Ico_succ_top h _

/-- The twelve months make up the year. -/
theorem daysBeforeMonth_thirteen (y : ℤ) : daysBeforeMonth y 13 = yearLength y := by
  by_cases h : IsLeap y <;> simp [daysBeforeMonth, Finset.sum_Ico_succ_top, monthLength, yearLength, h]

/-- A month is over when a later one begins. -/
theorem daysBeforeMonth_add_le (y : ℤ) {m m' : ℕ} (h : 1 ≤ m) (h' : m < m') :
    daysBeforeMonth y m + monthLength y m ≤ daysBeforeMonth y m' := by
  rw [← daysBeforeMonth_succ y h]
  exact Finset.sum_le_sum_of_subset (Finset.Ico_subset_Ico_right h')

/-! ## Dates and times -/

/-- A date of the calendar and a time of that day. -/
@[ext] structure Civil where
  year : ℤ
  month : ℕ
  day : ℕ
  hour : ℕ
  minute : ℕ
  second : ℕ
  month_pos : 1 ≤ month
  month_le : month ≤ 12
  day_pos : 1 ≤ day
  day_le : day ≤ monthLength year month
  hour_lt : hour < 24
  minute_lt : minute < 60
  second_lt : second < 60

namespace Civil

/-- The start of a year. -/
def startOf (y : ℤ) : Civil where
  year := y
  month := 1
  day := 1
  hour := 0
  minute := 0
  second := 0
  month_pos := Nat.le_refl 1
  month_le := by decide
  day_pos := Nat.le_refl 1
  day_le := by simp [monthLength]
  hour_lt := by decide
  minute_lt := by decide
  second_lt := by decide

/-- The days from the first of January to the date. -/
def dayOfYear (t : Civil) : ℕ := daysBeforeMonth t.year t.month + (t.day - 1)

def secondOfDay (t : Civil) : ℕ := 3600 * t.hour + 60 * t.minute + t.second

/-- The seconds since the start of year 1, below 0 before it. -/
def seconds (t : Civil) : ℤ := 86400 * (daysBeforeYear t.year + t.dayOfYear) + t.secondOfDay

@[simp] theorem startOf_year (y : ℤ) : (startOf y).year = y := rfl

@[simp] theorem startOf_dayOfYear (y : ℤ) : (startOf y).dayOfYear = 0 := rfl

@[simp] theorem startOf_secondOfDay (y : ℤ) : (startOf y).secondOfDay = 0 := rfl

/-- How long after `t` the time `t'` is. -/
def secondsTo (t t' : Civil) : ℤ := t'.seconds - t.seconds

def key (t : Civil) : ℤ ×ₗ ℕ ×ₗ ℕ ×ₗ ℕ ×ₗ ℕ ×ₗ ℕ :=
  toLex (t.year, toLex (t.month, toLex (t.day, toLex (t.hour, toLex (t.minute, t.second)))))

theorem key_injective : Function.Injective key := by
  intro t t' h
  simp only [key, toLex_inj, Prod.mk.injEq] at h
  obtain ⟨hy, hmo, hd, hh, hmi, hs⟩ := h
  exact Civil.ext hy hmo hd hh hmi hs

instance : LinearOrder Civil := LinearOrder.lift' key key_injective

theorem lt_iff {t t' : Civil} : t < t' ↔ t.year < t'.year ∨ t.year = t'.year ∧ (t.month < t'.month ∨
    t.month = t'.month ∧ (t.day < t'.day ∨ t.day = t'.day ∧ (t.hour < t'.hour ∨
    t.hour = t'.hour ∧ (t.minute < t'.minute ∨ t.minute = t'.minute ∧ t.second < t'.second)))) := by
  change t.key < t'.key ↔ _
  simp only [key, Prod.Lex.toLex_lt_toLex]

theorem startOf_secondsTo (y : ℤ) (t : Civil) :
    (startOf y).secondsTo t = 86400 * (daysBeforeYear t.year + t.dayOfYear - daysBeforeYear y) + t.secondOfDay := by
  simp only [secondsTo, seconds, startOf_year, startOf_dayOfYear, startOf_secondOfDay]
  omega

theorem secondOfDay_lt (t : Civil) : t.secondOfDay < 86400 := by
  have := t.hour_lt
  have := t.minute_lt
  have := t.second_lt
  unfold secondOfDay
  omega

/-- A date lies before the end of its month. -/
theorem dayOfYear_lt_month (t : Civil) :
    t.dayOfYear < daysBeforeMonth t.year t.month + monthLength t.year t.month := by
  have := t.day_pos
  have := t.day_le
  unfold dayOfYear
  omega

theorem dayOfYear_lt (t : Civil) : t.dayOfYear < yearLength t.year :=
  calc t.dayOfYear
    _ < daysBeforeMonth t.year t.month + monthLength t.year t.month := t.dayOfYear_lt_month
    _ ≤ daysBeforeMonth t.year 13 := daysBeforeMonth_add_le _ t.month_pos (Nat.lt_succ_of_le t.month_le)
    _ = yearLength t.year := daysBeforeMonth_thirteen _

/-- A later day of the year is further from its start. -/
theorem dayOfYear_lt_dayOfYear {t t' : Civil} (hyear : t.year = t'.year)
    (h : t.month < t'.month ∨ t.month = t'.month ∧ t.day < t'.day) : t.dayOfYear < t'.dayOfYear := by
  have hstart : daysBeforeMonth t'.year t'.month ≤ t'.dayOfYear := Nat.le_add_right _ _
  rcases h with hmonth | ⟨hmonth, hday⟩
  · have hover := daysBeforeMonth_add_le t.year t.month_pos hmonth
    have hend := t.dayOfYear_lt_month
    rw [hyear] at hover hend
    omega
  · have := t.day_pos
    unfold dayOfYear
    rw [hyear, hmonth]
    omega

/-- **What is later in the calendar is later in time.** -/
theorem seconds_strictMono : StrictMono seconds := by
  intro t t' h
  have hday := t.secondOfDay_lt
  unfold seconds
  rcases lt_iff.mp h with hyear | ⟨hyear, h⟩
  · have hover := daysBeforeYear_add_le hyear
    have hend := t.dayOfYear_lt
    omega
  · rw [hyear]
    by_cases hdate : t.month < t'.month ∨ t.month = t'.month ∧ t.day < t'.day
    · have := dayOfYear_lt_dayOfYear hyear hdate
      omega
    · obtain ⟨hmonth, hd, htime⟩ : t.month = t'.month ∧ t.day = t'.day ∧ (t.hour < t'.hour ∨
          t.hour = t'.hour ∧ (t.minute < t'.minute ∨ t.minute = t'.minute ∧ t.second < t'.second)) := by omega
      have hsame : t.dayOfYear = t'.dayOfYear := by
        unfold dayOfYear
        rw [hyear, hmonth, hd]
      have hlater : t.secondOfDay < t'.secondOfDay := by
        have := t.minute_lt
        have := t.second_lt
        unfold secondOfDay
        omega
      omega

theorem seconds_injective : Function.Injective seconds := seconds_strictMono.injective

/-- Only one date and time lies so far from another. -/
theorem eq_of_secondsTo_eq {t₀ t t' : Civil} (h : t₀.secondsTo t = t₀.secondsTo t') : t = t' := by
  unfold secondsTo at h
  exact seconds_injective (by omega)

theorem lt_of_secondsTo_lt {t₀ t t' : Civil} (h : t₀.secondsTo t < t₀.secondsTo t') : t < t' := by
  unfold secondsTo at h
  exact seconds_strictMono.lt_iff_lt.mp (by omega)

end Civil

end Gregorian
