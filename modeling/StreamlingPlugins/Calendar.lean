import Mathlib

/-!
# The Gregorian calendar

Days are numbered from 1970-01-01 by counting the years and months before them, and
`civilFromDays` finds the date of a day in closed form.
-/

namespace StreamlingPlugins

def isLeap (y : Nat) : Bool :=
  y % 4 = 0 && (y % 100 ≠ 0 || y % 400 = 0)

def yearLength (y : Nat) : Nat :=
  if isLeap y then 366 else 365

def monthLength (y : Nat) : Nat → Nat
  | 2 => if isLeap y then 29 else 28
  | 4 | 6 | 9 | 11 => 30
  | _ => 31

def daysBeforeYear (y : Nat) : Nat :=
  ((List.range y).map yearLength).sum

def daysBeforeMonth (y m : Nat) : Nat :=
  ((List.range (m - 1)).map fun before => monthLength y (before + 1)).sum

/-- A date of the calendar. -/
def ValidDate (y m d : Nat) : Prop :=
  1 ≤ m ∧ m ≤ 12 ∧ 1 ≤ d ∧ d ≤ monthLength y m

/-- The number of a date's day, from 1970-01-01. -/
def dayNumber (y m d : Nat) : Int :=
  (daysBeforeYear y + daysBeforeMonth y m + d : Nat) - 1 - 719528

theorem daysBeforeYear_add_one (y : Nat) :
    daysBeforeYear (y + 1) = daysBeforeYear y + yearLength y := by
  simp [daysBeforeYear, List.range_succ]

theorem daysBeforeMonth_add_one {y m : Nat} (month : 1 ≤ m) :
    daysBeforeMonth y (m + 1) = daysBeforeMonth y m + monthLength y m := by
  obtain ⟨before, rfl⟩ := Nat.exists_eq_add_of_le' month
  simp [daysBeforeMonth, List.range_succ]

theorem daysBeforeYear_eq (y : Nat) :
    daysBeforeYear y + (y + 99) / 100 = 365 * y + (y + 3) / 4 + (y + 399) / 400 := by
  induction y with
  | zero => rfl
  | succ y ih =>
      have split := daysBeforeYear_add_one y
      have length : yearLength y + (if y % 100 = 0 then 1 else 0) =
          365 + (if y % 4 = 0 then 1 else 0) + (if y % 400 = 0 then 1 else 0) := by
        unfold yearLength isLeap
        simp only [Bool.and_eq_true, Bool.or_eq_true, decide_eq_true_eq]
        split_ifs <;> omega
      have multiple {k offset : Nat} (fits : k ∣ offset + 1) :
          (y + 1 + offset) / k = (y + offset) / k + (if y % k = 0 then 1 else 0) := by
        have step : (y + offset + 1) / k =
            (y + offset) / k + (if k ∣ y + offset + 1 then 1 else 0) := Nat.succ_div
        have divides : k ∣ y + offset + 1 ↔ y % k = 0 := by
          rw [Nat.add_assoc, Nat.dvd_add_left fits, Nat.dvd_iff_mod_eq_zero]
        simp only [divides] at step
        rw [Nat.add_right_comm]
        exact step
      have fourth := multiple (k := 4) (Nat.dvd_refl 4)
      have century := multiple (k := 100) (Nat.dvd_refl 100)
      have fourth_century := multiple (k := 400) (Nat.dvd_refl 400)
      rw [split, fourth, century, fourth_century]
      generalize (if y % 4 = 0 then 1 else 0) = by4 at length ⊢
      generalize (if y % 100 = 0 then 1 else 0) = by100 at length ⊢
      generalize (if y % 400 = 0 then 1 else 0) = by400 at length ⊢
      omega

theorem daysBeforeMonth_eq (y m : Nat) (first : 1 ≤ m) (last : m ≤ 12) :
    daysBeforeMonth y m + (if m ≤ 2 then 0 else if isLeap y then 1 else 2) =
      30 * (m - 1) + (if m ≤ 7 then m / 2 else (m + 1) / 2) := by
  interval_cases m <;> cases leap : isLeap y <;>
    simp [daysBeforeMonth, List.range_succ, monthLength, leap]

/-- The date of a day, counting years from March. -/
def civilFromDays (days : Int) : Int × Nat × Nat :=
  let total := days + 719468
  let era := if 0 ≤ total then total.tdiv 146097 else (total - 146096).tdiv 146097
  let doe := (total - era * 146097).toNat
  let yoe := (doe - doe / 1460 + doe / 36524 - doe / 146096) / 365
  let y := (yoe : Int) + era * 400
  let doy := doe - (365 * yoe + yoe / 4 - yoe / 100)
  let mp := (5 * doy + 2) / 153
  let d := doy - (153 * mp + 2) / 5 + 1
  let m := if mp < 10 then mp + 3 else mp - 9
  (if m ≤ 2 then y + 1 else y, m, d)

/-- The year, from March, of a day within 400 years, and the day within that year. -/
theorem yoe_parts {doe : Nat} (less : doe < 146097) :
    ∃ yoe doy, (doe - doe / 1460 + doe / 36524 - doe / 146096) / 365 = yoe ∧
      doe = 365 * yoe + yoe / 4 - yoe / 100 + doy ∧ yoe < 400 ∧ doy ≤ 365 ∧
      (doy = 365 → isLeap (yoe + 1) = true) := by
  rcases Nat.eq_or_lt_of_le (Nat.le_of_lt_succ less) with rfl | less'
  · exact ⟨399, 365, rfl, rfl, by decide, by decide, by decide⟩
  · -- centuries, then spans of four years, then years
    obtain ⟨b, r, doe_eq, r_lt, b_le⟩ : ∃ b r, doe = 36524 * b + r ∧ r < 36524 ∧ b ≤ 3 :=
      ⟨doe / 36524, doe % 36524, by omega, by omega, by omega⟩
    obtain ⟨q, s, r_eq, s_lt, q_le⟩ : ∃ q s, r = 1461 * q + s ∧ s < 1461 ∧ q ≤ 24 :=
      ⟨r / 1461, r % 1461, by omega, by omega, by omega⟩
    obtain ⟨e, e_eq⟩ : ∃ e, (24 * b + q + s) / 1460 = e := ⟨_, rfl⟩
    have fours : doe / 1460 = 25 * b + q + e := by
      have sum : doe = 1460 * (25 * b + q) + (24 * b + q + s) := by omega
      rw [sum, Nat.mul_add_div (by decide), e_eq]
    have centuries : doe / 36524 = b := by omega
    have none : doe / 146096 = 0 := by omega
    obtain ⟨t, t_eq, t_le⟩ : ∃ t, (s - e) / 365 = t ∧ t ≤ 3 := ⟨_, rfl, by omega⟩
    have year : (doe - doe / 1460 + doe / 36524 - doe / 146096) / 365 = 100 * b + 4 * q + t := by
      have sum : doe - doe / 1460 + doe / 36524 - doe / 146096 =
          365 * (100 * b + 4 * q) + (s - e) := by
        rw [fours, centuries, none]
        omega
      rw [sum, Nat.mul_add_div (by decide), t_eq]
    have by4 : (100 * b + 4 * q + t) / 4 = 25 * b + q := by omega
    have by100 : (100 * b + 4 * q + t) / 100 = b := by omega
    refine ⟨100 * b + 4 * q + t, s - 365 * t, year, ?_, by omega, by omega, ?_⟩
    · rw [by4, by100]
      omega
    · intro last
      have day : s = 1460 := by omega
      have years : t = 3 := by omega
      have spans : q ≤ 23 := by omega
      have fourth : (100 * b + 4 * q + t + 1) % 4 = 0 := by omega
      have century : (100 * b + 4 * q + t + 1) % 100 ≠ 0 := by omega
      simp [isLeap, fourth, century]

/-- The day of a day's year from March counts the days from March 1st. -/
theorem doy_parts {doy : Nat} (less : doy ≤ 365) :
    ∃ mp d, (5 * doy + 2) / 153 = mp ∧ doy - (153 * mp + 2) / 5 + 1 = d ∧ mp ≤ 11 ∧ 1 ≤ d ∧
      doy + 1 = (153 * mp + 2) / 5 + d ∧ d ≤ (if mp = 11 then 29 else if mp % 5 % 2 = 0 then 31
        else 30) := by
  obtain ⟨mp, mp_eq⟩ : ∃ mp, (5 * doy + 2) / 153 = mp := ⟨_, rfl⟩
  have bound : mp ≤ 11 := by omega
  refine ⟨mp, _, mp_eq, rfl, bound, by omega, by omega, ?_⟩
  interval_cases mp <;> simp <;> omega

theorem isLeap_add (y era : Nat) : isLeap (y + 400 * era) = isLeap y := by
  have fourth : (y + 400 * era) % 4 = y % 4 := by omega
  have century : (y + 400 * era) % 100 = y % 100 := by omega
  have fourth_century : (y + 400 * era) % 400 = y % 400 := by omega
  simp [isLeap, fourth, century, fourth_century]

/-- The days up to the end of a year, by its place in an era of 400 years. -/
theorem daysBeforeYear_succ {yoe : Nat} (era : Nat) (less : yoe < 400) :
    daysBeforeYear (yoe + 400 * era + 1) + yoe / 100 =
      146097 * era + 365 * yoe + yoe / 4 + 366 := by
  have days := daysBeforeYear_eq (yoe + 400 * era + 1)
  have fourth : (yoe + 400 * era + 1 + 3) / 4 = yoe / 4 + 100 * era + 1 := by omega
  have century : (yoe + 400 * era + 1 + 99) / 100 = yoe / 100 + 4 * era + 1 := by omega
  have fourth_century : (yoe + 400 * era + 1 + 399) / 400 = era + 1 := by omega
  rw [fourth, century, fourth_century] at days
  omega

/-- From March on the day of the year does not depend on a leap day. -/
theorem daysBefore_march (y mp : Nat) (month : mp < 10) :
    daysBeforeYear y + daysBeforeMonth y (mp + 3) + 306 =
      daysBeforeYear (y + 1) + (153 * mp + 2) / 5 := by
  have split := daysBeforeYear_add_one y
  have months := daysBeforeMonth_eq y (mp + 3) (by omega) (by omega)
  rw [if_neg (by omega)] at months
  unfold yearLength at split
  interval_cases mp <;> cases leap : isLeap y <;> simp [leap] at split months ⊢ <;> omega

theorem daysBefore_january (y : Nat) : daysBeforeMonth y 1 = 0 ∧ daysBeforeMonth y 2 = 31 :=
  ⟨rfl, rfl⟩

/-- The month of a March-based one. -/
theorem monthLength_march {y mp : Nat} (month : mp ≠ 11) (last : mp ≤ 11) :
    (if mp = 11 then 29 else if mp % 5 % 2 = 0 then 31 else 30) =
      monthLength y (if mp < 10 then mp + 3 else mp - 9) := by
  interval_cases mp <;> simp_all [monthLength]

theorem era_eq (total : Int) :
    (if 0 ≤ total then total.tdiv 146097 else (total - 146096).tdiv 146097) = total / 146097 := by
  split
  · rename_i positive
    exact Int.tdiv_eq_ediv_of_nonneg positive
  · rename_i negative
    have opposite : total - 146096 = -(146096 - total) := by omega
    rw [opposite, Int.neg_tdiv, Int.tdiv_eq_ediv_of_nonneg (by omega)]
    omega

/-- The date of a day of an era of 400 years. -/
def civilInEra (era : Int) (doe : Nat) : Int × Nat × Nat :=
  let yoe := (doe - doe / 1460 + doe / 36524 - doe / 146096) / 365
  let y := (yoe : Int) + era * 400
  let doy := doe - (365 * yoe + yoe / 4 - yoe / 100)
  let mp := (5 * doy + 2) / 153
  let d := doy - (153 * mp + 2) / 5 + 1
  let m := if mp < 10 then mp + 3 else mp - 9
  (if m ≤ 2 then y + 1 else y, m, d)

theorem civilFromDays_eq_civilInEra (days : Int) :
    civilFromDays days = civilInEra ((days + 719468) / 146097)
      (days + 719468 - (days + 719468) / 146097 * 146097).toNat := by
  unfold civilFromDays
  simp only [era_eq]
  rfl

/-- The last month of a year from March has a 29th day only in a leap year. -/
theorem le_monthLength {y mp d doy : Nat} (mp_le : mp ≤ 11)
    (doy_eq : doy + 1 = (153 * mp + 2) / 5 + d)
    (d_le : d ≤ (if mp = 11 then 29 else if mp % 5 % 2 = 0 then 31 else 30))
    (leap : doy = 365 → isLeap (y + 1) = true) :
    d ≤ monthLength (if mp < 10 then y else y + 1) (if mp < 10 then mp + 3 else mp - 9) := by
  rcases Nat.eq_or_lt_of_le mp_le with rfl | less
  · cases leap_eq : isLeap (y + 1) with
    | true => simpa [monthLength, leap_eq] using d_le
    | false =>
        have before : doy ≠ 365 := fun last => by simp [leap last] at leap_eq
        simp only [if_pos] at d_le
        simp only [Nat.reduceLT, if_false, Nat.reduceSub, monthLength, leap_eq]
        simp
        omega
  · rw [monthLength_march (y := if mp < 10 then y else y + 1) (by omega) mp_le] at d_le
    exact d_le

/-- The date of a day, whose year starts in an era from year 0 on. -/
theorem dayNumber_of_parts {yoe doy mp d : Nat} (era : Nat) (yoe_lt : yoe < 400) (mp_le : mp ≤ 11)
    (doy_eq : doy + 1 = (153 * mp + 2) / 5 + d) :
    dayNumber (if mp < 10 then yoe + 400 * era else yoe + 400 * era + 1)
        (if mp < 10 then mp + 3 else mp - 9) d + 719468 =
      146097 * era + (365 * yoe + yoe / 4 - yoe / 100 + doy : Nat) := by
  have years := daysBeforeYear_succ era yoe_lt
  unfold dayNumber
  split
  · rename_i march
    have months := daysBefore_march (yoe + 400 * era) mp march
    omega
  · rename_i january
    obtain ⟨first, second⟩ := daysBefore_january (yoe + 400 * era + 1)
    have ten_or_eleven : mp = 10 ∨ mp = 11 := by omega
    rcases ten_or_eleven with rfl | rfl
    · simp only [Nat.reduceSub, first]
      omega
    · simp only [Nat.reduceSub, second]
      omega

/-- The date found for a day from year 0 on is the date with that number. -/
theorem civilFromDays_eq {days : Int} (since : dayNumber 0 1 1 ≤ days) :
    ∃ y m d : Nat, civilFromDays days = ((y : Int), m, d) ∧ ValidDate y m d ∧
      dayNumber y m d = days := by
  have first : dayNumber 0 1 1 = -719528 := rfl
  rw [first] at since
  obtain ⟨doe, doe_eq⟩ : ∃ doe, (days + 719468 - (days + 719468) / 146097 * 146097).toNat = doe :=
    ⟨_, rfl⟩
  obtain ⟨yoe, doy, yoe_eq, split, yoe_lt, doy_le, leap⟩ := yoe_parts (show doe < 146097 by omega)
  have rest : doe - (365 * yoe + yoe / 4 - yoe / 100) = doy := by omega
  obtain ⟨mp, d, mp_eq, d_eq, mp_le, d_pos, doy_eq, d_le⟩ := doy_parts doy_le
  have civil : civilFromDays days = (if (if mp < 10 then mp + 3 else mp - 9) ≤ 2
      then (yoe : Int) + (days + 719468) / 146097 * 400 + 1
      else (yoe : Int) + (days + 719468) / 146097 * 400,
      if mp < 10 then mp + 3 else mp - 9, d) := by
    rw [civilFromDays_eq_civilInEra]
    simp only [civilInEra, doe_eq, yoe_eq, rest, mp_eq, d_eq]
  rcases lt_or_ge (days + 719468) 0 with negative | positive
  · -- the first two months of year 0 end the last year of the era before it
    have era : (days + 719468) / 146097 = -1 := by omega
    have year : yoe = 399 := by omega
    subst year
    have ten_or_eleven : mp = 10 ∨ mp = 11 := by omega
    have late : ¬ mp < 10 := by omega
    obtain ⟨january, february⟩ := daysBefore_january 0
    have length := le_monthLength (y := 399) mp_le doy_eq d_le leap
    have same : ∀ m, monthLength 400 m = monthLength 0 m := by
      intro m
      have leaps : isLeap 400 = isLeap 0 := isLeap_add 0 1
      unfold monthLength
      rw [leaps]
    rw [if_neg late, if_neg late, same] at length
    refine ⟨0, mp - 9, d, ?_, ⟨by omega, by omega, d_pos, length⟩, ?_⟩
    · rw [civil, era, if_neg late, if_pos (by omega)]
      rfl
    · have none : daysBeforeYear 0 = 0 := rfl
      unfold dayNumber
      rcases ten_or_eleven with rfl | rfl
      · simp only [Nat.reduceSub, january, none]
        omega
      · simp only [Nat.reduceSub, february, none]
        omega
  · obtain ⟨era, era_eq⟩ : ∃ era : Nat, (days + 719468) / 146097 = era :=
      ⟨((days + 719468) / 146097).toNat, by omega⟩
    have leap' : doy = 365 → isLeap (yoe + 400 * era + 1) = true := by
      intro last
      rw [Nat.add_right_comm, isLeap_add]
      exact leap last
    have number := dayNumber_of_parts era yoe_lt mp_le doy_eq
    refine ⟨_, _, d, ?_, ⟨?_, ?_, d_pos, le_monthLength mp_le doy_eq d_le leap'⟩, by omega⟩
    · rw [civil, era_eq]
      rcases lt_or_ge mp 10 with march | january
      · rw [if_pos march, if_pos march, if_neg (by omega)]
        push_cast
        rw [mul_comm]
      · rw [if_neg (not_lt.mpr january), if_neg (not_lt.mpr january), if_pos (by omega)]
        push_cast
        rw [mul_comm]
    · split <;> omega
    · split <;> omega

end StreamlingPlugins
