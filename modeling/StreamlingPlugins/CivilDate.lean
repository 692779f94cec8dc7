import StreamlingPlugins.Calendar

/-!
# Dates of the proleptic Gregorian calendar

The calendar over all integer years, by the date that follows each date.  Dates shift by
eras of 400 years, so that what `civilFromDays` finds from year 0 on determines what it
finds for every day.
-/

namespace StreamlingPlugins

@[ext]
structure CivilDate where
  year : Int
  month : Nat
  day : Nat
  deriving DecidableEq

def isLeapYear (y : Int) : Bool :=
  y % 4 = 0 && (y % 100 ≠ 0 || y % 400 = 0)

def daysInMonth (y : Int) : Nat → Nat
  | 2 => if isLeapYear y then 29 else 28
  | 4 | 6 | 9 | 11 => 30
  | _ => 31

namespace CivilDate

structure Valid (date : CivilDate) : Prop where
  month_pos : 1 ≤ date.month
  month_le : date.month ≤ 12
  day_pos : 1 ≤ date.day
  day_le : date.day ≤ daysInMonth date.year date.month

/-- The date after a date. -/
def next (date : CivilDate) : CivilDate :=
  if date.day < daysInMonth date.year date.month then { date with day := date.day + 1 }
  else if date.month < 12 then ⟨date.year, date.month + 1, 1⟩
  else ⟨date.year + 1, 1, 1⟩

def epoch : CivilDate := ⟨1970, 1, 1⟩

/-- The date lies as many days after 1970-01-01, or before it where they are negative. -/
def DaysFromEpoch (date : CivilDate) (days : Int) : Prop :=
  if 0 ≤ days then next^[days.toNat] epoch = date else next^[(-days).toNat] date = epoch

/-- The date of an era of 400 years that corresponds to a date of the first one. -/
def shift (eras : Int) (date : CivilDate) : CivilDate :=
  { date with year := date.year + 400 * eras }

end CivilDate

/-! ## Eras -/

theorem isLeapYear_add (y eras : Int) : isLeapYear (y + 400 * eras) = isLeapYear y := by
  have fourth : (y + 400 * eras) % 4 = y % 4 := by omega
  have century : (y + 400 * eras) % 100 = y % 100 := by omega
  have fourth_century : (y + 400 * eras) % 400 = y % 400 := by omega
  simp only [isLeapYear, fourth, century, fourth_century]

theorem daysInMonth_add (y eras : Int) (m : Nat) :
    daysInMonth (y + 400 * eras) m = daysInMonth y m := by
  simp only [daysInMonth, isLeapYear_add]

theorem daysInMonth_natCast (y m : Nat) : daysInMonth y m = monthLength y m := by
  have leap : isLeapYear y = isLeap y := by
    unfold isLeapYear isLeap
    norm_cast
  unfold daysInMonth monthLength
  exact leap ▸ rfl

namespace CivilDate

variable {date date' : CivilDate} {eras : Int}

theorem Valid.of_shift (eras : Int) (valid : (date.shift eras).Valid) : date.Valid where
  month_pos := valid.month_pos
  month_le := valid.month_le
  day_pos := valid.day_pos
  day_le := by
    have bound : date.day ≤ daysInMonth (date.year + 400 * eras) date.month := valid.day_le
    rwa [daysInMonth_add] at bound

theorem next_shift : (date.shift eras).next = date.next.shift eras := by
  by_cases within : date.day < daysInMonth date.year date.month
  · simp [next, shift, daysInMonth_add, within]
  · by_cases within_year : date.month < 12
    · simp [next, shift, daysInMonth_add, within, within_year]
    · simp [next, shift, daysInMonth_add, within, within_year, add_right_comm]

theorem shift_injective (eras : Int) (same : date.shift eras = date'.shift eras) : date = date' := by
  simpa [shift, CivilDate.ext_iff] using same

end CivilDate

/-- The date of a day, as found in closed form. -/
def civilDate (days : Int) : CivilDate :=
  ⟨(civilFromDays days).1, (civilFromDays days).2.1, (civilFromDays days).2.2⟩

theorem civilDate_add (days eras : Int) :
    civilDate (days + 146097 * eras) = (civilDate days).shift eras := by
  have era : (days + 146097 * eras + 719468) / 146097 = (days + 719468) / 146097 + eras := by
    omega
  have day_of_era : days + 146097 * eras + 719468 - ((days + 719468) / 146097 + eras) * 146097 =
      days + 719468 - (days + 719468) / 146097 * 146097 := by
    omega
  unfold civilDate CivilDate.shift
  simp only [civilFromDays_eq_civilInEra, era, day_of_era, civilInEra, CivilDate.mk.injEq, and_true]
  split_ifs <;> ring

/-! ## Days in order -/

theorem daysBeforeYear_mono {y y' : Nat} (le : y ≤ y') :
    daysBeforeYear y ≤ daysBeforeYear y' := by
  induction y', le using Nat.le_induction with
  | base => exact Nat.le_refl _
  | succ later _ ih =>
      rw [daysBeforeYear_add_one]
      omega

theorem daysBeforeMonth_mono {y m m' : Nat} (month : 1 ≤ m) (le : m ≤ m') :
    daysBeforeMonth y m ≤ daysBeforeMonth y m' := by
  induction m', le using Nat.le_induction with
  | base => exact Nat.le_refl _
  | succ later le' ih =>
      rw [daysBeforeMonth_add_one (month.trans le')]
      omega

theorem daysBeforeMonth_end (y : Nat) : daysBeforeMonth y 12 + monthLength y 12 = yearLength y := by
  cases leap : isLeap y <;>
    simp [daysBeforeMonth, List.range_succ, monthLength, yearLength, leap]

/-- A date's day comes before the end of its year. -/
theorem le_yearLength {y m d : Nat} (valid : ValidDate y m d) :
    daysBeforeMonth y m + d ≤ yearLength y := by
  obtain ⟨first, last, _, within⟩ := valid
  rw [← daysBeforeMonth_end]
  rcases Nat.eq_or_lt_of_le last with rfl | before
  · omega
  · have months := daysBeforeMonth_mono (y := y) (by omega) (show m + 1 ≤ 12 by omega)
    rw [daysBeforeMonth_add_one first] at months
    omega

theorem dayNumber_lt_of_year_lt {y m d y' m' d' : Nat} (valid : ValidDate y m d)
    (valid' : ValidDate y' m' d') (less : y < y') : dayNumber y m d < dayNumber y' m' d' := by
  have within := le_yearLength valid
  have years := daysBeforeYear_mono (Nat.succ_le_of_lt less)
  rw [Nat.succ_eq_add_one, daysBeforeYear_add_one] at years
  obtain ⟨_, _, day_pos, _⟩ := valid'
  unfold dayNumber
  omega

theorem dayNumber_lt_of_month_lt {y m d m' d' : Nat} (valid : ValidDate y m d)
    (valid' : ValidDate y m' d') (less : m < m') : dayNumber y m d < dayNumber y m' d' := by
  obtain ⟨first, _, _, within⟩ := valid
  have months := daysBeforeMonth_mono (y := y) (by omega) (Nat.succ_le_of_lt less)
  rw [Nat.succ_eq_add_one, daysBeforeMonth_add_one first] at months
  obtain ⟨_, _, day_pos, _⟩ := valid'
  unfold dayNumber
  omega

/-- A day is the day of one date only. -/
theorem dayNumber_inj {y m d y' m' d' : Nat} (valid : ValidDate y m d)
    (valid' : ValidDate y' m' d') (same : dayNumber y m d = dayNumber y' m' d') :
    y = y' ∧ m = m' ∧ d = d' := by
  rcases lt_trichotomy y y' with less | rfl | greater
  · exact absurd same (dayNumber_lt_of_year_lt valid valid' less).ne
  · rcases lt_trichotomy m m' with less | rfl | greater
    · exact absurd same (dayNumber_lt_of_month_lt valid valid' less).ne
    · unfold dayNumber at same
      exact ⟨rfl, rfl, by omega⟩
    · exact absurd same (dayNumber_lt_of_month_lt valid' valid greater).ne'
  · exact absurd same (dayNumber_lt_of_year_lt valid' valid greater).ne'

theorem monthLength_pos (y m : Nat) : 1 ≤ monthLength y m := by
  unfold monthLength
  split
  · split <;> decide
  all_goals decide

/-- The date after a date is the date of the next day. -/
theorem next_spec {y m d : Nat} (valid : ValidDate y m d) :
    ∃ y' m' d' : Nat, (⟨y, m, d⟩ : CivilDate).next = ⟨y', m', d'⟩ ∧ ValidDate y' m' d' ∧
      dayNumber y' m' d' = dayNumber y m d + 1 := by
  obtain ⟨first, last, day_pos, within⟩ := valid
  simp only [CivilDate.next, daysInMonth_natCast]
  split
  · rename_i more
    refine ⟨y, m, d + 1, rfl, ⟨first, last, by omega, more⟩, ?_⟩
    unfold dayNumber
    omega
  · have month_end : d = monthLength y m := by omega
    split
    · rename_i month
      refine ⟨y, m + 1, 1, rfl, ⟨by omega, month, le_rfl, monthLength_pos y (m + 1)⟩, ?_⟩
      have months := daysBeforeMonth_add_one (y := y) first
      unfold dayNumber
      omega
    · have december : m = 12 := by omega
      subst december
      refine ⟨y + 1, 1, 1, by simp, ⟨le_rfl, by decide, le_rfl, monthLength_pos (y + 1) 1⟩, ?_⟩
      have months := daysBeforeMonth_end y
      have years := daysBeforeYear_add_one y
      have none : daysBeforeMonth (y + 1) 1 = 0 := rfl
      unfold dayNumber
      omega

/-- Every day's date is followed by that of the next day. -/
theorem civilDate_add_one (days : Int) :
    (civilDate days).Valid ∧ civilDate (days + 1) = (civilDate days).next := by
  -- an era from year 0 on in which the day has the same place
  obtain ⟨eras, from_first⟩ : ∃ eras : Int, dayNumber 0 1 1 ≤ days + 146097 * eras := by
    refine ⟨days.natAbs, ?_⟩
    have first : dayNumber 0 1 1 = -719528 := rfl
    omega
  obtain ⟨y, m, d, civil, valid, number⟩ := civilFromDays_eq from_first
  obtain ⟨y', m', d', civil', valid', number'⟩ :=
    civilFromDays_eq (show dayNumber 0 1 1 ≤ days + 146097 * eras + 1 by omega)
  obtain ⟨y₁, m₁, d₁, next_eq, valid₁, number₁⟩ := next_spec valid
  obtain ⟨rfl, rfl, rfl⟩ := dayNumber_inj valid' valid₁ (by omega)
  have date : (civilDate days).shift eras = ⟨y, m, d⟩ := by
    rw [← civilDate_add, civilDate, civil]
  have date' : (civilDate (days + 1)).shift eras = ⟨y', m', d'⟩ := by
    rw [← civilDate_add, civilDate, Int.add_right_comm, civil']
  constructor
  · refine CivilDate.Valid.of_shift eras ?_
    rw [date]
    obtain ⟨first, last, day_pos, within⟩ := valid
    exact ⟨first, last, day_pos, by simpa [daysInMonth_natCast] using within⟩
  · apply CivilDate.shift_injective eras
    rw [date', ← CivilDate.next_shift, date, next_eq]

theorem civilDate_zero : civilDate 0 = .epoch := rfl

/-- The date of a day lies as many days from 1970-01-01. -/
theorem civilDate_daysFromEpoch (days : Int) : (civilDate days).DaysFromEpoch days := by
  have forward (start : Int) (n : Nat) :
      CivilDate.next^[n] (civilDate start) = civilDate (start + n) := by
    induction n with
    | zero => simp
    | succ n ih =>
        rw [Function.iterate_succ_apply', ih, ← (civilDate_add_one _).2]
        congr 1
        push_cast
        ring
  unfold CivilDate.DaysFromEpoch
  split
  · rename_i later
    rw [← civilDate_zero, forward, Int.toNat_of_nonneg later, Int.zero_add]
  · rename_i earlier
    rw [← civilDate_zero, forward]
    congr 1
    omega

end StreamlingPlugins
