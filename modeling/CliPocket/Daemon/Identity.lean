import CliPocket.Daemon.Resume
import CliPocket.Lib.Gregorian

/-!
# The time at which an identity is created

`epoch_to_ymd_hms`: seconds since the epoch taken apart by the length of each year and each month in turn.

- `yearLoop_spec`, `monthLoop_spec`: both loops stop inside a year or a month, as many days after the epoch as before;
- `epochToYmdHms_spec`: what is read is the date and time so long after the epoch;
- `epochToYmdHms_civil`: **the result is the only one, and later seconds give a later result**.
-/

namespace CliPocket

open Gregorian (Civil monthLength yearLength daysBeforeMonth daysBeforeYear succ_lt_of_days)

/-! ## The code -/

/-- `a + b`: where it does not fit, a `dev` build panics and a `release` build wraps. -/
def BuildProfile.addI32 (profile : BuildProfile) (a b : Int32) : Option Int32 :=
  if ¬(-2 ^ 31 ≤ a.toInt + b.toInt ∧ a.toInt + b.toInt < 2 ^ 31) ∧ profile = .dev then none else some (a + b)

/-- What `epoch_to_ymd_hms` returns. -/
@[ext] structure YmdHms where
  year : Int32
  month : UInt32
  day : UInt32
  hour : UInt32
  minute : UInt32
  second : UInt32
  deriving DecidableEq

def isLeap (y : Int32) : Bool := (y % 4 == 0 && y % 100 != 0) || y % 400 == 0

/-- `dy`. -/
def daysOfYear (year : Int32) : UInt64 := if isLeap year then 366 else 365

theorem toNat_daysOfYear_pos (year : Int32) : 0 < (daysOfYear year).toNat := by
  unfold daysOfYear
  split <;> decide

/-- The loop over the years: the days that are left, and their year. -/
def yearLoop (profile : BuildProfile) (days : UInt64) (year : Int32) : Option (UInt64 × Int32) :=
  if days < daysOfYear year then some (days, year)
  else
    match profile.addI32 year 1 with
    | none => none
    | some next => yearLoop profile (days - daysOfYear year) next
termination_by days.toNat
decreasing_by
  have hyear := toNat_daysOfYear_pos year
  have hle : daysOfYear year ≤ days := UInt64.not_lt.mp ‹_›
  have := UInt64.le_iff_toNat_le.mp hle
  rw [UInt64.toNat_sub_of_le _ _ hle]
  omega

def monthLengths (year : Int32) : List UInt64 :=
  [31, if isLeap year then 29 else 28, 31, 30, 31, 30, 31, 31, 30, 31, 30, 31]

/-- The loop over the months: the days that are left, and their month. -/
def monthLoop : List UInt64 → UInt64 → UInt32 → UInt64 × UInt32
  | [], days, month => (days, month)
  | monthLen :: rest, days, month =>
    if days < monthLen then (days, month) else monthLoop rest (days - monthLen) (month + 1)

/-- `u32::try_from(n).unwrap_or(1)`. -/
def u32OrOne (n : UInt64) : UInt32 := if n.toNat < 2 ^ 32 then n.toUInt32 else 1

def epochToYmdHms (profile : BuildProfile) (s : UInt64) : Option YmdHms :=
  let second := (s % 60).toUInt32
  let s := s / 60
  let minute := (s % 60).toUInt32
  let s := s / 60
  let hour := (s % 24).toUInt32
  (yearLoop profile (s / 24) 1970).map fun (days, year) =>
    let (days, month) := monthLoop (monthLengths year) days 1
    { year, month, day := u32OrOne (days + 1), hour, minute, second }

/-! ## The length of a year -/

theorem int32_mod_eq_zero_iff {y n : Int32} : y % n = 0 ↔ n.toInt ∣ y.toInt := by
  rw [← Int32.toInt_inj, Int32.toInt_mod, Int32.toInt_zero, Int.dvd_iff_tmod_eq_zero]

theorem isLeap_iff {y : Int32} : isLeap y = true ↔ Gregorian.IsLeap y.toInt := by
  simp only [isLeap, Bool.or_eq_true, Bool.and_eq_true, beq_iff_eq, bne_iff_ne, ne_eq, int32_mod_eq_zero_iff]
  rfl

theorem toNat_daysOfYear (y : Int32) : (daysOfYear y).toNat = yearLength y.toInt := by
  unfold daysOfYear yearLength
  simp only [isLeap_iff]
  split <;> rfl

theorem toNat_monthLengths (y : Int32) :
    (monthLengths y).map UInt64.toNat = (List.range' 1 12).map (monthLength y.toInt) := by
  by_cases h : Gregorian.IsLeap y.toInt <;> simp [monthLengths, monthLength, isLeap_iff, h, List.range']

/-- The length of a month in the list. -/
theorem exists_getElem_monthLengths (y : Int32) {m : ℕ} (h : 1 ≤ m) (h' : m ≤ 12) :
    ∃ len, (monthLengths y)[m - 1]? = some len ∧ len.toNat = monthLength y.toInt m := by
  have hlen : (monthLengths y)[m - 1]?.map UInt64.toNat = some (monthLength y.toInt m) := by
    rw [← List.getElem?_map, toNat_monthLengths, List.getElem?_map, List.getElem?_range' (by omega), Option.map_some]
    congr 2
    omega
  exact Option.map_eq_some_iff.mp hlen

theorem BuildProfile.addI32_one (profile : BuildProfile) {y : Int32} (h : y.toInt + 1 < 2 ^ 31) :
    ∃ next : Int32, profile.addI32 y 1 = some next ∧ next.toInt = y.toInt + 1 := by
  have hlow := y.le_toInt
  have hone : (1 : Int32).toInt = 1 := rfl
  refine ⟨y + 1, ?_, ?_⟩
  · refine if_neg fun hover => hover.1 ?_
    rw [hone]
    omega
  · rw [Int32.toInt_add, hone]
    exact Int.bmod_eq_of_le (by omega) (by omega)

theorem BuildProfile.toInt_of_addI32_dev {y next : Int32} (h : BuildProfile.dev.addI32 y 1 = some next) :
    next.toInt = y.toInt + 1 := by
  by_cases hfits : y.toInt + 1 < 2 ^ 31
  · obtain ⟨next', hnext, hyear⟩ := BuildProfile.dev.addI32_one hfits
    rw [h] at hnext
    cases hnext
    exact hyear
  · rw [addI32, if_pos ⟨fun hin => hfits hin.2, rfl⟩] at h
    cases h

/-! ## The loops -/

theorem yearLength_le_of_not_lt {days : UInt64} {year : Int32} (h : ¬days < daysOfYear year) :
    yearLength year.toInt ≤ days.toNat := by
  rw [← toNat_daysOfYear]
  exact UInt64.le_iff_toNat_le.mp (UInt64.not_lt.mp h)

/-- A round of the loop over the years is still at the same day. -/
theorem day_of_next {days : UInt64} {year next : Int32} (hge : ¬days < daysOfYear year)
    (hnext : next.toInt = year.toInt + 1) :
    daysBeforeYear next.toInt + (days - daysOfYear year).toNat = daysBeforeYear year.toInt + days.toNat := by
  have hlen := yearLength_le_of_not_lt hge
  rw [hnext, Gregorian.daysBeforeYear_succ, UInt64.toNat_sub_of_le _ _ (UInt64.not_lt.mp hge), toNat_daysOfYear]
  omega

/-- The loop over the years stops in the year of the day. -/
theorem yearLoop_spec (profile : BuildProfile) (days : UInt64) (year : Int32)
    (h : daysBeforeYear year.toInt + days.toNat < daysBeforeYear (2 ^ 31)) :
    ∃ left last, yearLoop profile days year = some (left, last) ∧ left.toNat < yearLength last.toInt ∧
      daysBeforeYear last.toInt + left.toNat = daysBeforeYear year.toInt + days.toNat := by
  induction days, year using yearLoop.induct profile with
  | case1 days year hlt =>
    rw [yearLoop, if_pos hlt]
    refine ⟨days, year, rfl, ?_, rfl⟩
    rw [← toNat_daysOfYear]
    exact UInt64.lt_iff_toNat_lt.mp hlt
  | case2 days year hge hpanic =>
    have hlen := yearLength_le_of_not_lt hge
    obtain ⟨next, hnext, _⟩ := profile.addI32_one (succ_lt_of_days hlen h)
    rw [hpanic] at hnext
    cases hnext
  | case3 days year hge next hnext ih =>
    have hlen := yearLength_le_of_not_lt hge
    obtain ⟨next', hnext', hyear⟩ := profile.addI32_one (succ_lt_of_days hlen h)
    obtain rfl : next = next' := Option.some.inj (hnext.symm.trans hnext')
    rw [← day_of_next hge hyear] at h ⊢
    rw [yearLoop, if_neg hge, hnext]
    exact ih h

/-- The loop over the months stops in the month of the day. -/
theorem monthLoop_spec (y : ℤ) : ∀ (n : ℕ) (lens : List UInt64) (days : UInt64) (month : UInt32),
    lens.map UInt64.toNat = (List.range' month.toNat n).map (monthLength y) → 1 ≤ month.toNat →
      month.toNat + n < 2 ^ 32 → daysBeforeMonth y month.toNat + days.toNat < daysBeforeMonth y (month.toNat + n) →
        ∃ rest last, monthLoop lens days month = (rest, last) ∧ month.toNat ≤ last.toNat ∧
          last.toNat < month.toNat + n ∧ rest.toNat < monthLength y last.toNat ∧
            daysBeforeMonth y last.toNat + rest.toNat = daysBeforeMonth y month.toNat + days.toNat
  | 0, _, _, _, _, _, _, h => absurd h (by rw [Nat.add_zero]; omega)
  | n + 1, [], _, _, hlens, _, _, _ => by cases hlens
  | n + 1, len :: lens, days, month, hlens, hpos, hfits, h => by
    rw [List.range'_succ, List.map_cons, List.map_cons, List.cons.injEq] at hlens
    obtain ⟨hlen, hlens⟩ := hlens
    unfold monthLoop
    split
    · next hlt =>
      refine ⟨days, month, rfl, Nat.le_refl _, by omega, ?_, rfl⟩
      rw [← hlen]
      exact UInt64.lt_iff_toNat_lt.mp hlt
    · next hge =>
      have hle := UInt64.not_lt.mp hge
      have hleft : (days - len).toNat = days.toNat - monthLength y month.toNat := by
        rw [UInt64.toNat_sub_of_le _ _ hle, hlen]
      have hmonth : (month + 1).toNat = month.toNat + 1 := by
        rw [UInt32.toNat_add]
        exact Nat.mod_eq_of_lt (by change month.toNat + 1 < _; omega)
      have hdays : daysBeforeMonth y (month + 1).toNat + (days - len).toNat =
          daysBeforeMonth y month.toNat + days.toNat := by
        have := UInt64.le_iff_toNat_le.mp hle
        rw [hmonth, Gregorian.daysBeforeMonth_succ y hpos, hleft]
        omega
      obtain ⟨rest, last, hloop, hfirst, hlast, hrest, heq⟩ :=
        monthLoop_spec y n lens (days - len) (month + 1) (hmonth ▸ hlens) (by omega) (by omega)
          (by rw [hdays, hmonth, Nat.succ_add_eq_add_succ]; exact h)
      exact ⟨rest, last, hloop, by omega, by omega, hrest, heq.trans hdays⟩

/-- A `dev` build panics at the end of the last year that `i32` holds. -/
theorem yearLoop_dev_eq_none (days : UInt64) (year : Int32)
    (h : daysBeforeYear (2 ^ 31) ≤ daysBeforeYear year.toInt + days.toNat) : yearLoop .dev days year = none := by
  induction days, year using yearLoop.induct .dev with
  | case1 days year hlt =>
    have hlt := UInt64.lt_iff_toNat_lt.mp hlt
    rw [toNat_daysOfYear] at hlt
    have hover := Gregorian.daysBeforeYear_mono (Int.add_one_le_of_lt year.toInt_lt)
    rw [Gregorian.daysBeforeYear_succ] at hover
    omega
  | case2 days year hge hpanic => rw [yearLoop, if_neg hge, hpanic]
  | case3 days year hge next hnext ih =>
    rw [yearLoop, if_neg hge, hnext]
    exact ih (by rw [day_of_next hge (BuildProfile.toInt_of_addI32_dev hnext)]; exact h)

/-! ## The result -/

/-- The date and time that a result stands for. -/
structure YmdHms.Denotes (r : YmdHms) (t : Civil) : Prop where
  year : r.year.toInt = t.year
  month : r.month.toNat = t.month
  day : r.day.toNat = t.day
  hour : r.hour.toNat = t.hour
  minute : r.minute.toNat = t.minute
  second : r.second.toNat = t.second

/-- The tuple, in its lexicographic order. -/
def YmdHms.key (r : YmdHms) : Int32 ×ₗ UInt32 ×ₗ UInt32 ×ₗ UInt32 ×ₗ UInt32 ×ₗ UInt32 :=
  toLex (r.year, toLex (r.month, toLex (r.day, toLex (r.hour, toLex (r.minute, r.second)))))

theorem YmdHms.Denotes.eq {r : YmdHms} {t t' : Civil} (h : r.Denotes t) (h' : r.Denotes t') : t = t' :=
  Civil.ext (h.year.symm.trans h'.year) (h.month.symm.trans h'.month) (h.day.symm.trans h'.day)
    (h.hour.symm.trans h'.hour) (h.minute.symm.trans h'.minute) (h.second.symm.trans h'.second)

theorem YmdHms.Denotes.result_eq {r r' : YmdHms} {t : Civil} (h : r.Denotes t) (h' : r'.Denotes t) : r = r' :=
  YmdHms.ext (Int32.toInt_inj.mp (h.year.trans h'.year.symm))
    (UInt32.toNat_inj.mp (h.month.trans h'.month.symm)) (UInt32.toNat_inj.mp (h.day.trans h'.day.symm))
    (UInt32.toNat_inj.mp (h.hour.trans h'.hour.symm)) (UInt32.toNat_inj.mp (h.minute.trans h'.minute.symm))
    (UInt32.toNat_inj.mp (h.second.trans h'.second.symm))

theorem YmdHms.Denotes.key_lt_iff {r r' : YmdHms} {t t' : Civil} (h : r.Denotes t) (h' : r'.Denotes t') :
    r.key < r'.key ↔ t < t' := by
  simp only [YmdHms.key, Prod.Lex.toLex_lt_toLex, Civil.lt_iff, Int32.lt_iff_toInt_lt, UInt32.lt_iff_toNat_lt,
    ← Int32.toInt_inj, ← UInt32.toNat_inj, h.year, h.month, h.day, h.hour, h.minute, h.second, h'.year, h'.month,
    h'.day, h'.hour, h'.minute, h'.second]

/-- The start of the epoch. -/
def unixEpoch : Civil := Civil.startOf 1970

/-- The year `s` seconds after the epoch is none after the last that `i32` holds. -/
def YearFits (s : UInt64) : Prop := (s.toNat : ℤ) < unixEpoch.secondsTo (Civil.startOf (2 ^ 31))

instance (s : UInt64) : Decidable (YearFits s) := inferInstanceAs (Decidable (_ < _))

theorem yearFits_iff {s : UInt64} : YearFits s ↔
    daysBeforeYear (1970 : Int32).toInt + (s / 60 / 60 / 24).toNat < daysBeforeYear (2 ^ 31) := by
  have hdays : (s / 60 / 60 / 24).toNat = s.toNat / 60 / 60 / 24 := rfl
  have hyear : (1970 : Int32).toInt = 1970 := rfl
  rw [YearFits, unixEpoch, Civil.startOf_secondsTo, hdays, hyear]
  simp only [Civil.startOf_dayOfYear, Civil.startOf_secondOfDay, Civil.startOf_year]
  omega

/-- The loops on the way to `r` stop inside its year and inside its month. -/
def StopsInside (profile : BuildProfile) (s : UInt64) (r : YmdHms) : Prop :=
  ∃ left rest len, yearLoop profile (s / 60 / 60 / 24) 1970 = some (left, r.year) ∧ left < daysOfYear r.year ∧
    monthLoop (monthLengths r.year) left 1 = (rest, r.month) ∧
      (monthLengths r.year)[r.month.toNat - 1]? = some len ∧ rest < len

theorem toNat_u32OrOne_add_one {n : UInt64} (h : n.toNat < 31) : (u32OrOne (n + 1)).toNat = n.toNat + 1 := by
  have hsucc : (n + 1).toNat = n.toNat + 1 := by
    rw [UInt64.toNat_add]
    exact Nat.mod_eq_of_lt (by change n.toNat + 1 < _; omega)
  rw [u32OrOne, if_pos (by omega), UInt64.toNat_toUInt32, hsucc]
  exact Nat.mod_eq_of_lt (by omega)

/-- A remainder as `u32`. -/
theorem toNat_mod_toUInt32 (n : UInt64) {m : UInt64} (hpos : 0 < m.toNat) (hm : m.toNat ≤ 2 ^ 32) :
    (n % m).toUInt32.toNat = n.toNat % m.toNat := by
  rw [UInt64.toNat_toUInt32, UInt64.toNat_mod]
  exact Nat.mod_eq_of_lt ((Nat.mod_lt _ hpos).trans_le hm)

/-- Both loops stop, and the day is still the same. -/
theorem loops_spec (profile : BuildProfile) {days : UInt64}
    (h : daysBeforeYear (1970 : Int32).toInt + days.toNat < daysBeforeYear (2 ^ 31)) :
    ∃ left year rest month, yearLoop profile days 1970 = some (left, year) ∧ left.toNat < yearLength year.toInt ∧
      monthLoop (monthLengths year) left 1 = (rest, month) ∧ rest.toNat < monthLength year.toInt month.toNat ∧
        (1 ≤ month.toNat ∧ month.toNat ≤ 12) ∧
          daysBeforeYear year.toInt + ↑(daysBeforeMonth year.toInt month.toNat + rest.toNat) =
            daysBeforeYear 1970 + days.toNat := by
  obtain ⟨left, year, hyears, hleft, hday⟩ := yearLoop_spec profile days 1970 h
  have hyear : daysBeforeMonth year.toInt 1 + left.toNat < daysBeforeMonth year.toInt 13 := by
    rw [Gregorian.daysBeforeMonth_one, Gregorian.daysBeforeMonth_thirteen]
    omega
  obtain ⟨rest, month, hmonths, hfirst, hlast, hrest, hdate⟩ := monthLoop_spec year.toInt 12 _ left 1
    (toNat_monthLengths year) (Nat.le_refl 1) (by decide) hyear
  refine ⟨left, year, rest, month, hyears, hleft, hmonths, hrest, ⟨hfirst, Nat.le_of_lt_succ hlast⟩, ?_⟩
  have hofYear : daysBeforeMonth year.toInt month.toNat + rest.toNat = left.toNat := hdate.trans (Nat.zero_add _)
  rw [hofYear]
  exact hday

section

variable (profile : BuildProfile) (s : UInt64) {left rest : UInt64} {year : Int32} {month : UInt32}

/-- What is read where the loops stop. -/
def YmdHms.ofLoops (year : Int32) (month : UInt32) (rest : UInt64) : YmdHms where
  year := year
  month := month
  day := u32OrOne (rest + 1)
  hour := (s / 60 / 60 % 24).toUInt32
  minute := (s / 60 % 60).toUInt32
  second := (s % 60).toUInt32

theorem epochToYmdHms_eq (hyears : yearLoop profile (s / 60 / 60 / 24) 1970 = some (left, year))
    (hmonths : monthLoop (monthLengths year) left 1 = (rest, month)) :
    epochToYmdHms profile s = some (.ofLoops s year month rest) := by
  simp only [epochToYmdHms, hyears, Option.map_some, hmonths]
  rfl

/-- The date and time where the loops stop inside a month. -/
def civilOfLoops (hmonth : 1 ≤ month.toNat ∧ month.toNat ≤ 12)
    (hrest : rest.toNat < monthLength year.toInt month.toNat) : Civil where
  year := year.toInt
  month := month.toNat
  day := rest.toNat + 1
  hour := s.toNat / 60 / 60 % 24
  minute := s.toNat / 60 % 60
  second := s.toNat % 60
  month_pos := hmonth.1
  month_le := hmonth.2
  day_pos := Nat.succ_pos _
  day_le := hrest
  hour_lt := Nat.mod_lt _ (by decide)
  minute_lt := Nat.mod_lt _ (by decide)
  second_lt := Nat.mod_lt _ (by decide)

theorem YmdHms.ofLoops_denotes (hmonth : 1 ≤ month.toNat ∧ month.toNat ≤ 12)
    (hrest : rest.toNat < monthLength year.toInt month.toNat) :
    (YmdHms.ofLoops s year month rest).Denotes (civilOfLoops s hmonth hrest) where
  year := rfl
  month := rfl
  day := toNat_u32OrOne_add_one (hrest.trans_le (Gregorian.monthLength_le _ _))
  hour := toNat_mod_toUInt32 (s / 60 / 60) (by decide) (by decide)
  minute := toNat_mod_toUInt32 (s / 60) (by decide) (by decide)
  second := toNat_mod_toUInt32 s (by decide) (by decide)

/-- The loops are still at the day of `s`. -/
theorem secondsTo_civilOfLoops (hmonth : 1 ≤ month.toNat ∧ month.toNat ≤ 12)
    (hrest : rest.toNat < monthLength year.toInt month.toNat)
    (hday : daysBeforeYear year.toInt + ↑(daysBeforeMonth year.toInt month.toNat + rest.toNat) =
      daysBeforeYear 1970 + (s / 60 / 60 / 24).toNat) :
    unixEpoch.secondsTo (civilOfLoops s hmonth hrest) = s.toNat := by
  have hdays : (s / 60 / 60 / 24).toNat = s.toNat / 60 / 60 / 24 := rfl
  have htime : 86400 * (s.toNat / 60 / 60 / 24) + (civilOfLoops s hmonth hrest).secondOfDay = s.toNat := by
    change _ + (3600 * (s.toNat / 60 / 60 % 24) + 60 * (s.toNat / 60 % 60) + s.toNat % 60) = _
    omega
  have hdate : daysBeforeYear (civilOfLoops s hmonth hrest).year + (civilOfLoops s hmonth hrest).dayOfYear =
      daysBeforeYear 1970 + ↑(s.toNat / 60 / 60 / 24) := hdays ▸ hday
  rw [unixEpoch, Civil.startOf_secondsTo, hdate]
  omega

end

/-- What is read is the date and time so long after the epoch. -/
theorem epochToYmdHms_spec (profile : BuildProfile) {s : UInt64} (hs : YearFits s) :
    ∃ r t, epochToYmdHms profile s = some r ∧ r.Denotes t ∧ unixEpoch.secondsTo t = s.toNat ∧
      StopsInside profile s r := by
  obtain ⟨left, year, rest, month, hyears, hleft, hmonths, hrest, hmonth, hday⟩ :=
    loops_spec profile (yearFits_iff.mp hs)
  obtain ⟨len, hget, hlen⟩ := exists_getElem_monthLengths year hmonth.1 hmonth.2
  rw [← toNat_daysOfYear] at hleft
  have hbelow : rest < len := UInt64.lt_iff_toNat_lt.mpr (hlen.symm ▸ hrest)
  exact ⟨.ofLoops s year month rest, civilOfLoops s hmonth hrest, epochToYmdHms_eq profile s hyears hmonths,
    YmdHms.ofLoops_denotes s hmonth hrest, secondsTo_civilOfLoops s hmonth hrest hday, left, rest, len, hyears,
    UInt64.lt_iff_toNat_lt.mpr hleft, hmonths, hget, hbelow⟩

/-- A `dev` build panics exactly where the year does not fit. -/
theorem epochToYmdHms_dev_eq_none {s : UInt64} : epochToYmdHms .dev s = none ↔ ¬YearFits s := by
  constructor
  · intro hnone hs
    obtain ⟨r, _, hr, _⟩ := epochToYmdHms_spec .dev hs
    rw [hnone] at hr
    cases hr
  · intro hs
    have hpanic := yearLoop_dev_eq_none _ _ (Int.not_lt.mp (mt yearFits_iff.mpr hs))
    simp only [epochToYmdHms, hpanic, Option.map_none]

/-- **The result is the only date and time so long after the epoch**; later seconds give a later result, and both loops
stop inside a year and a month. -/
theorem epochToYmdHms_civil (profile : BuildProfile) {s : UInt64} (hs : YearFits s) :
    ∃ r t, epochToYmdHms profile s = some r ∧ r.Denotes t ∧ unixEpoch.secondsTo t = s.toNat ∧
      (∀ t', unixEpoch.secondsTo t' = s.toNat → t' = t) ∧ StopsInside profile s r ∧
        ∀ s' r', YearFits s' → epochToYmdHms profile s' = some r' →
          (r = r' → s = s') ∧ (s < s' → r.key < r'.key) := by
  obtain ⟨r, t, hr, hdenotes, hseconds, hstops⟩ := epochToYmdHms_spec profile hs
  refine ⟨r, t, hr, hdenotes, hseconds, fun t' ht' => Civil.eq_of_secondsTo_eq (ht'.trans hseconds.symm), hstops, ?_⟩
  intro s' r' hs' hr'
  obtain ⟨r'', t', hr'', hdenotes', hseconds', _⟩ := epochToYmdHms_spec profile hs'
  obtain rfl : r' = r'' := Option.some.inj (hr'.symm.trans hr'')
  constructor
  · rintro rfl
    rw [hdenotes.eq hdenotes', hseconds'] at hseconds
    exact UInt64.toNat_inj.mp (Int.ofNat_inj.mp hseconds.symm)
  · intro hlt
    have hlt := UInt64.lt_iff_toNat_lt.mp hlt
    exact (hdenotes.key_lt_iff hdenotes').mpr (Civil.lt_of_secondsTo_lt (by rw [hseconds, hseconds']; omega))

/-- The 21st of May 2026. -/
theorem epochToYmdHms_civil_sample : YearFits 1779321600 ∧ ∀ profile,
    epochToYmdHms profile 1779321600 = some ⟨2026, 5, 21, 0, 0, 0⟩ := by
  have hfits : YearFits 1779321600 := by decide
  refine ⟨hfits, fun profile => ?_⟩
  obtain ⟨r, t, hr, hdenotes, _, hunique, _⟩ := epochToYmdHms_civil profile hfits
  let may : Civil := ⟨2026, 5, 21, 0, 0, 0, by decide, by decide, by decide, by decide, by decide, by decide, by decide⟩
  obtain rfl : may = t := hunique may (by decide)
  have hresult : YmdHms.Denotes ⟨2026, 5, 21, 0, 0, 0⟩ may := ⟨rfl, rfl, rfl, rfl, rfl, rfl⟩
  rw [hr, hdenotes.result_eq hresult]

end CliPocket
