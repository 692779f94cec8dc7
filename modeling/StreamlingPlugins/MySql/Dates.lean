import StreamlingPlugins.CivilDate
import StreamlingPlugins.MySql.Timestamps

/-!
# Dates of day numbers

`format_date_from_days` with every operation checked: none of them leaves its integer
type, and the date printed is the one that many days from 1970-01-01.  Different dates
are printed differently.
-/

namespace StreamlingPlugins.MySql

/-! ## Checked operations -/

/-- An `i64` result, unless it overflows. -/
def checkedI64 (n : Int) : Option Int :=
  if -2 ^ 63 ≤ n ∧ n < 2 ^ 63 then some n else none

/-- A `u32` result, unless it overflows or is negative. -/
def checkedU32 (n : Int) : Option Nat :=
  if 0 ≤ n ∧ n < 2 ^ 32 then some n.toNat else none

theorem checkedI64_eq {n : Int} (lower : -2 ^ 63 ≤ n) (upper : n < 2 ^ 63) :
    checkedI64 n = some n :=
  if_pos ⟨lower, upper⟩

theorem checkedU32_eq {n : Int} {k : Nat} (value : n = k) (upper : k < 2 ^ 32) :
    checkedU32 n = some k := by
  unfold checkedU32
  rw [if_pos (by omega), value, Int.toNat_natCast]

theorem bind_of_eq {α β : Type} {x : Option α} {a : α} {f : α → Option β} (value : x = some a) :
    (x >>= f) = f a := by
  rw [value]
  rfl

/-! ## The date of a day -/

/-- The era of a day: a division rounded down. -/
def eraChecked (totalDays : Int) : Option Int :=
  if 0 ≤ totalDays then checkedI64 (totalDays.tdiv 146097)
  else (checkedI64 (totalDays - 146096)).bind fun before => checkedI64 (before.tdiv 146097)

/-- The month of a month counted from March. -/
def monthChecked (mp : Nat) : Option Nat :=
  if mp < 10 then checkedU32 (mp + 3) else checkedU32 (mp - 9)

/-- The year of a year that starts in March. -/
def yearChecked (y : Int) (m : Nat) : Option Int :=
  if m ≤ 2 then checkedI64 (y + 1) else some y

/-- The arithmetic of `format_date_from_days`, with the result of every operation checked. -/
def civilFromDaysChecked (daysSinceEpoch : Int32) : Option CivilDate := do
  let totalDays ← checkedI64 (daysSinceEpoch.toInt + 719468)
  let era ← eraChecked totalDays
  let eraDays ← checkedI64 (era * 146097)
  let doe ← checkedU32 (totalDays - eraDays)
  let noLeap ← checkedU32 (doe - (doe / 1460 : Nat))
  let centuries ← checkedU32 (noLeap + (doe / 36524 : Nat))
  let eraEnd ← checkedU32 (centuries - (doe / 146096 : Nat))
  let yoe := eraEnd / 365
  let eraYears ← checkedI64 (era * 400)
  let y ← checkedI64 (yoe + eraYears)
  let yearDays ← checkedU32 (365 * yoe)
  let leapDays ← checkedU32 (yearDays + (yoe / 4 : Nat))
  let yearStart ← checkedU32 (leapDays - (yoe / 100 : Nat))
  let doy ← checkedU32 (doe - yearStart)
  let fifths ← checkedU32 (5 * doy)
  let offset ← checkedU32 (fifths + 2)
  let mp := offset / 153
  let monthDays ← checkedU32 (153 * mp)
  let monthOffset ← checkedU32 (monthDays + 2)
  let dayOffset ← checkedU32 (doy - (monthOffset / 5 : Nat))
  let d ← checkedU32 (dayOffset + 1)
  let m ← monthChecked mp
  let y ← yearChecked y m
  some ⟨y, m, d⟩

def formatDate (date : CivilDate) : List Char :=
  paddedInt 4 date.year ++ '-' :: (padded 2 date.month ++ '-' :: padded 2 date.day)

def formatDateFromDaysChecked (daysSinceEpoch : Int32) : Option (List Char) :=
  (civilFromDaysChecked daysSinceEpoch).map formatDate

theorem formatDateFromDays_eq (days : Int) :
    formatDateFromDays days = formatDate (civilDate days) := rfl

/-- The date that a `y-m-d` text denotes; a year before year 0 has a sign. -/
def readCivilDate (text : List Char) : Option CivilDate :=
  match split '-' text with
  | [year, month, day] => do
    some ⟨← digitsValue year, ← digitsValue month, ← digitsValue day⟩
  | [[], year, month, day] => do
    some ⟨-(← digitsValue year), ← digitsValue month, ← digitsValue day⟩
  | _ => none

theorem readCivilDate_formatDate (date : CivilDate) :
    readCivilDate (formatDate date) = some date := by
  have free := notMem_padded '-' rfl
  have parts (width n : Nat) :
      split '-' (padded width n ++ '-' :: (padded 2 date.month ++ '-' :: padded 2 date.day)) =
        [padded width n, padded 2 date.month, padded 2 date.day] := by
    rw [split_append (free width n), split_append (free 2 date.month),
      split_of_notMem (free 2 date.day)]
  unfold readCivilDate formatDate paddedInt
  split_ifs with negative
  · have signed := split_append (List.not_mem_nil (a := '-'))
      (padded (4 - 1) date.year.natAbs ++ '-' :: (padded 2 date.month ++ '-' :: padded 2 date.day))
    rw [List.nil_append, parts] at signed
    rw [List.cons_append, signed]
    have year : -(date.year.natAbs : Int) = date.year := by omega
    simp only [digitsValue_padded, bind, Option.bind_some, year]
  · have year : (date.year.natAbs : Int) = date.year := by omega
    simp only [parts, digitsValue_padded, bind, Option.bind_some, year]

/-- Different dates are printed differently. -/
theorem formatDate_injective : Function.Injective formatDate := by
  intro date other same
  have read := congrArg readCivilDate same
  simpa only [readCivilDate_formatDate, Option.some.injEq] using read

theorem eraChecked_eq {total : Int} (lower : -2 ^ 62 ≤ total) (upper : total < 2 ^ 62) :
    eraChecked total = some (total / 146097) := by
  rw [← era_eq]
  unfold eraChecked
  split
  · rename_i positive
    rw [Int.tdiv_eq_ediv_of_nonneg positive]
    exact checkedI64_eq (by omega) (by omega)
  · rename_i negative
    have floor := era_eq total
    rw [if_neg negative] at floor
    rw [checkedI64_eq (by omega) (by omega), Option.bind_some, floor]
    exact checkedI64_eq (by omega) (by omega)

theorem civilFromDaysChecked_eq (days : Int32) :
    civilFromDaysChecked days = some (civilDate days.toInt) := by
  have lower : -2 ^ 31 ≤ days.toInt := days.le_toInt
  have upper : days.toInt < 2 ^ 31 := days.toInt_lt
  obtain ⟨total, total_eq⟩ : ∃ total, days.toInt + 719468 = total := ⟨_, rfl⟩
  obtain ⟨era, era_def⟩ : ∃ era, total / 146097 = era := ⟨_, rfl⟩
  obtain ⟨doe, doe_eq⟩ : ∃ doe : Nat, total - era * 146097 = doe :=
    ⟨(total - era * 146097).toNat, by omega⟩
  have doe_lt : doe < 146097 := by omega
  obtain ⟨yoe, doy, yoe_eq, split, yoe_lt, doy_le, _⟩ := yoe_parts doe_lt
  obtain ⟨mp, d, mp_eq, d_eq, mp_le, d_pos, doy_eq, _⟩ := doy_parts doy_le
  have rest : doe - (365 * yoe + yoe / 4 - yoe / 100) = doy := by omega
  have total_fits : checkedI64 total = some total := checkedI64_eq (by omega) (by omega)
  have era_fits : eraChecked total = some era := by
    rw [← era_def]
    exact eraChecked_eq (by omega) (by omega)
  have era_days : checkedI64 (era * 146097) = some (era * 146097) :=
    checkedI64_eq (by omega) (by omega)
  have doe_fits : checkedU32 (total - era * 146097) = some doe := checkedU32_eq doe_eq (by omega)
  have no_leap : checkedU32 (doe - (doe / 1460 : Nat)) = some (doe - doe / 1460) :=
    checkedU32_eq (by omega) (by omega)
  have centuries : checkedU32 ((doe - doe / 1460 : Nat) + (doe / 36524 : Nat)) =
      some (doe - doe / 1460 + doe / 36524) :=
    checkedU32_eq (by omega) (by omega)
  have era_end : checkedU32 ((doe - doe / 1460 + doe / 36524 : Nat) - (doe / 146096 : Nat)) =
      some (doe - doe / 1460 + doe / 36524 - doe / 146096) :=
    checkedU32_eq (by omega) (by omega)
  have era_years : checkedI64 (era * 400) = some (era * 400) := checkedI64_eq (by omega) (by omega)
  have year : checkedI64 (yoe + era * 400) = some (yoe + era * 400) :=
    checkedI64_eq (by omega) (by omega)
  have year_days : checkedU32 (365 * yoe) = some (365 * yoe) := checkedU32_eq (by omega) (by omega)
  have leap_days : checkedU32 ((365 * yoe : Nat) + (yoe / 4 : Nat)) = some (365 * yoe + yoe / 4) :=
    checkedU32_eq (by omega) (by omega)
  have year_start : checkedU32 ((365 * yoe + yoe / 4 : Nat) - (yoe / 100 : Nat)) =
      some (365 * yoe + yoe / 4 - yoe / 100) :=
    checkedU32_eq (by omega) (by omega)
  have doy_fits : checkedU32 (doe - (365 * yoe + yoe / 4 - yoe / 100 : Nat)) = some doy :=
    checkedU32_eq (by omega) (by omega)
  have fifths : checkedU32 (5 * doy) = some (5 * doy) := checkedU32_eq (by omega) (by omega)
  have offset : checkedU32 ((5 * doy : Nat) + 2) = some (5 * doy + 2) :=
    checkedU32_eq (by omega) (by omega)
  have month_days : checkedU32 (153 * mp) = some (153 * mp) := checkedU32_eq (by omega) (by omega)
  have month_offset : checkedU32 ((153 * mp : Nat) + 2) = some (153 * mp + 2) :=
    checkedU32_eq (by omega) (by omega)
  have day_offset : checkedU32 (doy - ((153 * mp + 2) / 5 : Nat)) =
      some (doy - (153 * mp + 2) / 5) :=
    checkedU32_eq (by omega) (by omega)
  have day : checkedU32 ((doy - (153 * mp + 2) / 5 : Nat) + 1) = some d :=
    checkedU32_eq (by omega) (by omega)
  have month : monthChecked mp = some (if mp < 10 then mp + 3 else mp - 9) := by
    unfold monthChecked
    split <;> exact checkedU32_eq (by omega) (by omega)
  have last_year (m : Nat) : yearChecked (yoe + era * 400) m =
      some (if m ≤ 2 then (yoe : Int) + era * 400 + 1 else yoe + era * 400) := by
    unfold yearChecked
    split
    · exact checkedI64_eq (by omega) (by omega)
    · rfl
  have date : civilDate days.toInt = ⟨if (if mp < 10 then mp + 3 else mp - 9) ≤ 2
      then (yoe : Int) + era * 400 + 1 else yoe + era * 400,
      if mp < 10 then mp + 3 else mp - 9, d⟩ := by
    unfold civilDate
    simp only [civilFromDays_eq_civilInEra, total_eq, era_def, doe_eq, Int.toNat_natCast,
      civilInEra, yoe_eq, rest, mp_eq, d_eq]
  unfold civilFromDaysChecked
  rw [date, total_eq, bind_of_eq total_fits, bind_of_eq era_fits, bind_of_eq era_days,
    bind_of_eq doe_fits, bind_of_eq no_leap, bind_of_eq centuries, bind_of_eq era_end, yoe_eq]
  dsimp only
  rw [bind_of_eq era_years, bind_of_eq year, bind_of_eq year_days, bind_of_eq leap_days,
    bind_of_eq year_start, bind_of_eq doy_fits, bind_of_eq fifths, bind_of_eq offset, mp_eq,
    bind_of_eq month_days, bind_of_eq month_offset, bind_of_eq day_offset, bind_of_eq day,
    bind_of_eq month, bind_of_eq (last_year _)]

/-- No operation on a day number leaves its integer type.  The date printed is valid, lies
as many days from 1970-01-01, and comes right before the one of the next day. -/
theorem formatDateFromDays_exact (days : Int32) :
    ∃ date : CivilDate, formatDateFromDaysChecked days = some (formatDate date) ∧
      formatDateFromDays days.toInt = formatDate date ∧ date.Valid ∧
      date.DaysFromEpoch days.toInt ∧
      formatDateFromDays (days.toInt + 1) = formatDate date.next := by
  obtain ⟨valid, following⟩ := civilDate_add_one days.toInt
  refine ⟨civilDate days.toInt, ?_, rfl, valid, civilDate_daysFromEpoch _, ?_⟩
  · rw [formatDateFromDaysChecked, civilFromDaysChecked_eq, Option.map_some]
  · rw [formatDateFromDays_eq, following]

end StreamlingPlugins.MySql
