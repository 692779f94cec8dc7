import StreamlingPlugins.Arrow.DataType
import StreamlingPlugins.Calendar
import StreamlingPlugins.Digits
import StreamlingPlugins.Text

/-!
# Timestamp cells

The text that `bind_arrow_value` binds for a `Date64` or `Timestamp` cell, and a
reader of such texts.
-/

namespace StreamlingPlugins.MySql

open Arrow

/-- `n as i32`. -/
def asI32 (n : Int) : Int :=
  (n + 2 ^ 31) % 2 ^ 32 - 2 ^ 31

/-- `n as u32`. -/
def asU32 (n : Int) : Nat :=
  (n % 2 ^ 32).toNat

/-- `{:0width$}` of a signed integer. -/
def paddedInt (width : Nat) (n : Int) : List Char :=
  if n < 0 then '-' :: padded (width - 1) n.natAbs else padded width n.natAbs

def formatDateFromDays (daysSinceEpoch : Int) : List Char :=
  let (y, m, d) := civilFromDays daysSinceEpoch
  paddedInt 4 y ++ '-' :: (padded 2 m ++ '-' :: padded 2 d)

/-- The days and the seconds of the day that `format_timestamp` starts with. -/
def splitDays (epochSecs : Int) : Int × Int :=
  let days := epochSecs.tdiv 86400
  let daySecs := epochSecs.tmod 86400
  if daySecs < 0 then (days - 1, daySecs + 86400) else (days, daySecs)

def formatTime (daySecs : Int) : List Char :=
  let hours := daySecs.tdiv 3600
  let minutes := (daySecs.tmod 3600).tdiv 60
  let seconds := daySecs.tmod 60
  paddedInt 2 hours ++ ':' :: (paddedInt 2 minutes ++ ':' :: paddedInt 2 seconds)

/-- `format_timestamp`; the subtraction of `719_163` wraps. -/
def formatTimestamp (epochSecs : Int) (nanos : Nat) : List Char :=
  let (days, daySecs) := splitDays epochSecs
  let date := formatDateFromDays (asI32 (asI32 (days + 719163) - 719163))
  if 0 < nanos then
    let micros := nanos / 1000
    date ++ ' ' :: (formatTime daySecs ++ '.' :: padded 6 micros)
  else date ++ ' ' :: formatTime daySecs

def extractTimestamp (value : Int64) : TimeUnit → Int × Nat
  | .second => (value.toInt, 0)
  | .millisecond =>
    (value.toInt.tdiv 1000, asU32 (value.toInt.tmod 1000 * 1000000))
  | .microsecond =>
    (value.toInt.tdiv 1000000, asU32 (value.toInt.tmod 1000000 * 1000))
  | .nanosecond =>
    (value.toInt.tdiv 1000000000, asU32 (value.toInt.tmod 1000000000))

/-- The columns bound as a timestamp's text. -/
inductive TimeColumn
  | date64 | timestamp (unit : TimeUnit)

/-- The seconds and nanoseconds that `bind_arrow_value` formats. -/
def TimeColumn.parts (value : Int64) : TimeColumn → Int × Nat
  | .date64 => (value.toInt.tdiv 1000, 0)
  | .timestamp unit => extractTimestamp value unit

def bindTime (column : TimeColumn) (value : Int64) : List Char :=
  formatTimestamp (column.parts value).1 (column.parts value).2

example : bindTime (.timestamp .millisecond) (-1) = "1970-01-01 00:00:00.4293967".toList := by
  decide +kernel

/-! ## The instants that texts denote -/

instance (y m d : Nat) : Decidable (ValidDate y m d) :=
  inferInstanceAs (Decidable (_ ∧ _ ∧ _ ∧ _))

/-- The day that a `YYYY-MM-DD` text denotes. -/
def readDate (text : List Char) : Option Int :=
  match split '-' text with
  | [year, month, day] =>
    match digitsValue year, digitsValue month, digitsValue day with
    | some y, some m, some d => if ValidDate y m d then some (dayNumber y m d) else none
    | _, _, _ => none
  | _ => none

/-- The seconds since midnight that an `hh:mm:ss` text denotes, with an optional fraction. -/
def readTime (text : List Char) : Option ℚ :=
  match split ':' text with
  | [hour, minute, second] =>
    match digitsValue hour, digitsValue minute, readUnsigned second with
    | some h, some m, some s =>
      if h < 24 ∧ m < 60 ∧ s < 60 then some (3600 * h + 60 * m + s) else none
    | _, _, _ => none
  | _ => none

/-- The instant, in seconds since the epoch, that a text denotes. -/
def readInstant (text : List Char) : Option ℚ :=
  match split ' ' text with
  | [date, time] =>
    match readDate date, readTime time with
    | some day, some s => some (86400 * day + s)
    | _, _ => none
  | _ => none

/-- The units of a column in a second. -/
def TimeColumn.ticks : TimeColumn → Nat
  | .date64 => 1000
  | .timestamp .second => 1
  | .timestamp .millisecond => 1000
  | .timestamp .microsecond => 1000000
  | .timestamp .nanosecond => 1000000000

/-- The fractions of a second that a column's text keeps. -/
def TimeColumn.precision : TimeColumn → Nat
  | .date64 => 1
  | .timestamp _ => 1000000

def TimeColumn.instant (column : TimeColumn) (value : Int64) : ℚ :=
  value.toInt / column.ticks

def roundedDown (precision : Nat) (instant : ℚ) : ℚ :=
  ⌊instant * precision⌋ / precision

/-- An instant of the years 0 to 9999. -/
def InYears (instant : ℚ) : Prop :=
  ((dayNumber 0 1 1 * 86400 : Int) : ℚ) ≤ instant ∧
    instant < ((dayNumber 10000 1 1 * 86400 : Int) : ℚ)

/-- The text bound for a cell denotes its instant, rounded down. -/
def KeepsInstant (column : TimeColumn) (value : Int64) : Prop :=
  readInstant (bindTime column value) = some (roundedDown column.precision (column.instant value))

/-! ## What the texts denote -/

theorem paddedInt_of_nonneg {width : Nat} {n : Int} (positive : 0 ≤ n) :
    paddedInt width n = padded width n.toNat := by
  unfold paddedInt
  rw [if_neg (not_lt.mpr positive)]
  congr 1
  omega

theorem notMem_padded (sep : Char) (other : sep.isDigit = false) (width n : Nat) :
    sep ∉ padded width n := by
  intro mem
  rw [isDigit_of_mem_padded mem] at other
  cases other

/-- From year 0 on the date of a day reads as that day. -/
theorem readDate_formatDateFromDays {days : Int} (since : dayNumber 0 1 1 ≤ days) :
    readDate (formatDateFromDays days) = some days ∧ ' ' ∉ formatDateFromDays days := by
  obtain ⟨y, m, d, civil, valid, number⟩ := civilFromDays_eq since
  have format : formatDateFromDays days =
      padded 4 y ++ '-' :: (padded 2 m ++ '-' :: padded 2 d) := by
    unfold formatDateFromDays
    rw [civil]
    simp only [paddedInt_of_nonneg (Int.natCast_nonneg y), Int.toNat_natCast]
  have free := notMem_padded '-' rfl
  constructor
  · unfold readDate
    rw [format, split_append (free 4 y), split_append (free 2 m), split_of_notMem (free 2 d)]
    simp only [digitsValue_padded, if_pos valid, number]
  · have blank := notMem_padded ' ' rfl
    rw [format]
    simp [blank]

/-- The time of a day reads as its seconds, with the fraction that follows. -/
theorem readTime_formatTime {daySecs : Int} {rest : List Char} {fraction : ℚ}
    (since : 0 ≤ daySecs) (before : daySecs < 86400) (less : fraction < 1)
    (free : ':' ∉ rest)
    (read : ∀ s : Nat, readUnsigned (padded 2 s ++ rest) = some (s + fraction)) :
    readTime (formatTime daySecs ++ rest) = some (daySecs + fraction) := by
  have hours : daySecs.tdiv 3600 = daySecs / 3600 := Int.tdiv_eq_ediv_of_nonneg since
  have hour_left : daySecs.tmod 3600 = daySecs % 3600 := Int.tmod_eq_emod_of_nonneg since
  have minutes : (daySecs % 3600).tdiv 60 = daySecs % 3600 / 60 :=
    Int.tdiv_eq_ediv_of_nonneg (by omega)
  have seconds : daySecs.tmod 60 = daySecs % 60 := Int.tmod_eq_emod_of_nonneg since
  obtain ⟨h, h_eq⟩ : ∃ h : Nat, daySecs / 3600 = h := ⟨(daySecs / 3600).toNat, by omega⟩
  obtain ⟨m, m_eq⟩ : ∃ m : Nat, daySecs % 3600 / 60 = m :=
    ⟨(daySecs % 3600 / 60).toNat, by omega⟩
  obtain ⟨s, s_eq⟩ : ∃ s : Nat, daySecs % 60 = s := ⟨(daySecs % 60).toNat, by omega⟩
  have format : formatTime daySecs ++ rest =
      padded 2 h ++ ':' :: (padded 2 m ++ ':' :: (padded 2 s ++ rest)) := by
    unfold formatTime
    simp only [hours, hour_left, minutes, seconds, h_eq, m_eq, s_eq,
      paddedInt_of_nonneg (Int.natCast_nonneg _), Int.toNat_natCast, List.append_assoc,
      List.cons_append]
  have colon := notMem_padded ':' rfl
  have whole : ':' ∉ padded 2 s ++ rest := by
    simp [colon, free]
  have second_lt : (s : ℚ) + fraction < 60 := by
    have below : (s : ℚ) ≤ 59 := by exact_mod_cast (by omega : s ≤ 59)
    linarith
  have total : (daySecs : ℚ) = 3600 * h + 60 * m + s := by
    exact_mod_cast (by omega : daySecs = 3600 * h + 60 * m + s)
  unfold readTime
  rw [format, split_append (colon 2 h), split_append (colon 2 m), split_of_notMem whole]
  simp only [digitsValue_padded, read]
  rw [if_pos ⟨by omega, by omega, second_lt⟩, total]
  congr 1
  ring

theorem splitDays_eq (epochSecs : Int) :
    splitDays epochSecs = (epochSecs / 86400, epochSecs % 86400) := by
  have parts := Int.mul_tdiv_add_tmod epochSecs 86400
  have upper : epochSecs.tmod 86400 < 86400 := Int.tmod_lt_of_pos epochSecs (by decide)
  have lower : -86400 < epochSecs.tmod 86400 := Int.lt_tmod_of_pos epochSecs (by decide)
  unfold splitDays
  rcases lt_or_ge (epochSecs.tmod 86400) 0 with negative | positive
  · simp only [if_pos negative, Prod.mk.injEq]
    omega
  · simp only [if_neg (not_lt.mpr positive), Prod.mk.injEq]
    omega

/-- The fraction of a second that the text of some nanoseconds shows. -/
def shownFraction (nanos : Nat) : ℚ :=
  ((nanos / 1000 : Nat) : ℚ) / 10 ^ (padded 6 (nanos / 1000)).length

theorem shownFraction_nonneg (nanos : Nat) : 0 ≤ shownFraction nanos := by
  unfold shownFraction
  positivity

theorem shownFraction_lt_one (nanos : Nat) : shownFraction nanos < 1 := by
  unfold shownFraction
  rw [div_lt_one (by positivity)]
  exact_mod_cast lt_pow_length_padded 6 (nanos / 1000)

theorem readUnsigned_padded (width n : Nat) : readUnsigned (padded width n) = some (n : ℚ) := by
  have digits : ∀ c ∈ padded width n, c ≠ '.' :=
    fun c mem => ne_point_of_isDigit (isDigit_of_mem_padded mem)
  rw [readUnsigned_digits digits, digitsValue_padded]
  rfl

theorem dayNumber_first : dayNumber 0 1 1 = -719528 :=
  rfl

theorem dayNumber_last : dayNumber 10000 1 1 = 2932897 := by
  have years := daysBeforeYear_eq 10000
  have months : daysBeforeMonth 10000 1 = 0 := rfl
  unfold dayNumber
  omega

/-- The text of an instant of these years denotes its second and the fraction shown. -/
theorem readInstant_formatTimestamp {epochSecs : Int} (nanos : Nat)
    (lower : dayNumber 0 1 1 * 86400 ≤ epochSecs)
    (upper : epochSecs < dayNumber 10000 1 1 * 86400) :
    readInstant (formatTimestamp epochSecs nanos) = some (epochSecs + shownFraction nanos) := by
  rw [dayNumber_first] at lower
  rw [dayNumber_last] at upper
  have day : asI32 (asI32 (epochSecs / 86400 + 719163) - 719163) = epochSecs / 86400 := by
    unfold asI32
    omega
  have since : dayNumber 0 1 1 ≤ epochSecs / 86400 := by
    rw [dayNumber_first]
    omega
  obtain ⟨date, blank⟩ := readDate_formatDateFromDays since
  obtain ⟨rest, format, rest_free, rest_colon, read⟩ : ∃ rest : List Char,
      formatTimestamp epochSecs nanos = formatDateFromDays (epochSecs / 86400) ++
        ' ' :: (formatTime (epochSecs % 86400) ++ rest) ∧ ' ' ∉ rest ∧ ':' ∉ rest ∧
      ∀ s : Nat, readUnsigned (padded 2 s ++ rest) = some (s + shownFraction nanos) := by
    unfold formatTimestamp
    simp only [splitDays_eq, day]
    split
    · refine ⟨'.' :: padded 6 (nanos / 1000), rfl, ?_, ?_, ?_⟩
      · simp [notMem_padded ' ' rfl]
      · simp [notMem_padded ':' rfl]
      · intro s
        exact readUnsigned_point (fun c mem => ne_point_of_isDigit (isDigit_of_mem_padded mem))
          (digitsValue_padded 2 s) (digitsValue_padded 6 (nanos / 1000))
    · rename_i none
      have zero : nanos = 0 := by omega
      refine ⟨[], by rw [List.append_nil], by simp, by simp, ?_⟩
      intro s
      rw [List.append_nil, readUnsigned_padded, zero]
      simp [shownFraction]
  have nonneg : 0 ≤ epochSecs % 86400 := by omega
  have before : epochSecs % 86400 < 86400 := by omega
  have time := readTime_formatTime nonneg before (shownFraction_lt_one nanos) rest_colon read
  have time_free : ' ' ∉ formatTime (epochSecs % 86400) ++ rest := by
    have digits := notMem_padded ' ' rfl
    have signed : ∀ (width : Nat) (n : Int), ' ' ∉ paddedInt width n := by
      intro width n
      unfold paddedInt
      split <;> simp [digits]
    simp [formatTime, signed, rest_free]
  have total : (epochSecs : ℚ) =
      86400 * ((epochSecs / 86400 : Int) : ℚ) + ((epochSecs % 86400 : Int) : ℚ) := by
    exact_mod_cast (Int.mul_ediv_add_emod epochSecs 86400).symm
  unfold readInstant
  rw [format, split_append blank, split_of_notMem time_free]
  simp only [date, time]
  rw [total]
  congr 1
  ring

/-! ## Which cells keep their instant -/

theorem TimeColumn.ticks_pos (column : TimeColumn) : 0 < column.ticks := by
  cases column with
  | date64 => decide
  | timestamp unit => cases unit <;> decide

theorem TimeColumn.precision_pos (column : TimeColumn) : 0 < column.precision := by
  cases column with
  | date64 => decide
  | timestamp unit => exact Nat.succ_pos _

/-- The second that is formatted is the count's, rounded towards the epoch. -/
theorem TimeColumn.parts_fst (column : TimeColumn) (value : Int64) :
    (column.parts value).1 = value.toInt.tdiv column.ticks := by
  cases column with
  | date64 => rfl
  | timestamp unit =>
      cases unit with
      | second => exact (Int.tdiv_one value.toInt).symm
      | millisecond => rfl
      | microsecond => rfl
      | nanosecond => rfl

theorem asU32_of_lt {n : Int} (positive : 0 ≤ n) (fits : n < 2 ^ 32) : asU32 n = n.toNat := by
  unfold asU32
  rw [Int.emod_eq_of_lt positive fits]

theorem shownFraction_of_lt {nanos : Nat} (fits : nanos < 1000000000) :
    shownFraction nanos = ((nanos / 1000 : Nat) : ℚ) / 1000000 := by
  have length : (padded 6 (nanos / 1000)).length = 6 :=
    length_padded (by decide) (by omega)
  unfold shownFraction
  rw [length]
  norm_num

/-- A count that is not negative, or is one of whole seconds, is split by floor division. -/
theorem TimeColumn.parts_eq {column : TimeColumn} {value : Int64}
    (floored : 0 ≤ value.toInt ∨ (column.ticks : Int) ∣ value.toInt) :
    ((column.parts value).1 : ℚ) + shownFraction (column.parts value).2 =
      roundedDown column.precision (column.instant value) := by
  have quotient : value.toInt.tdiv column.ticks = value.toInt / column.ticks :=
    floored.elim Int.tdiv_eq_ediv_of_nonneg Int.tdiv_eq_ediv_of_dvd
  have remainder : value.toInt.tmod column.ticks = value.toInt % column.ticks := by
    have truncated := Int.mul_tdiv_add_tmod value.toInt column.ticks
    have floor := Int.mul_ediv_add_emod value.toInt column.ticks
    rw [quotient] at truncated
    omega
  have rounded : roundedDown column.precision (column.instant value) =
      ((value.toInt * column.precision / column.ticks : Int) : ℚ) / column.precision := by
    unfold roundedDown instant
    rw [div_mul_eq_mul_div, ← Rat.floor_intCast_div_natCast]
    push_cast
    rfl
  -- it is enough to compare the counts of fractions that are kept
  suffices key : ∃ micros : Nat, shownFraction (column.parts value).2 =
      (micros : ℚ) / column.precision ∧ value.toInt * column.precision / column.ticks =
        value.toInt / column.ticks * column.precision + micros by
    obtain ⟨micros, shown, split⟩ := key
    have precision : (column.precision : ℚ) ≠ 0 := by
      exact_mod_cast column.precision_pos.ne'
    rw [rounded, split, shown, parts_fst, quotient]
    push_cast
    field_simp
  have none : shownFraction 0 = 0 := by
    simp [shownFraction]
  cases column with
  | date64 => exact ⟨0, by simp [parts, none], by simp [precision, ticks]⟩
  | timestamp unit =>
      cases unit with
      | second => exact ⟨0, by simp [parts, extractTimestamp, none], by simp [precision, ticks]⟩
      | millisecond =>
          have nanos : (parts value (.timestamp .millisecond)).2 =
              (value.toInt % 1000 * 1000000).toNat := by
            unfold parts extractTimestamp
            rw [← asU32_of_lt (by omega) (by omega)]
            exact congrArg (fun n => asU32 (n * 1000000)) remainder
          refine ⟨_, by rw [nanos, shownFraction_of_lt (by omega)]; rfl, ?_⟩
          simp only [precision, ticks]
          omega
      | microsecond =>
          have nanos : (parts value (.timestamp .microsecond)).2 =
              (value.toInt % 1000000 * 1000).toNat := by
            unfold parts extractTimestamp
            rw [← asU32_of_lt (by omega) (by omega)]
            exact congrArg (fun n => asU32 (n * 1000)) remainder
          refine ⟨_, by rw [nanos, shownFraction_of_lt (by omega)]; rfl, ?_⟩
          simp only [precision, ticks]
          omega
      | nanosecond =>
          have nanos : (parts value (.timestamp .nanosecond)).2 =
              (value.toInt % 1000000000).toNat := by
            unfold parts extractTimestamp
            rw [← asU32_of_lt (by omega) (by omega)]
            exact congrArg asU32 remainder
          refine ⟨_, by rw [nanos, shownFraction_of_lt (by omega)]; rfl, ?_⟩
          simp only [precision, ticks]
          omega

/-- Otherwise the second that is formatted is already later than the instant. -/
theorem TimeColumn.roundedDown_lt {column : TimeColumn} {value : Int64}
    (negative : value.toInt < 0) (broken : ¬ (column.ticks : Int) ∣ value.toInt) :
    roundedDown column.precision (column.instant value) < ((column.parts value).1 : ℚ) := by
  have parts := Int.mul_tdiv_add_tmod value.toInt column.ticks
  have remainder : value.toInt.tmod column.ticks < 0 := by
    have opposite : 0 ≤ (-value.toInt).tmod column.ticks := Int.tmod_nonneg _ (by omega)
    have some_left : value.toInt.tmod column.ticks ≠ 0 :=
      fun none => broken (Int.dvd_of_tmod_eq_zero none)
    rw [Int.neg_tmod] at opposite
    omega
  have ticks : (0 : ℚ) < column.ticks := by
    exact_mod_cast column.ticks_pos
  have precision : (0 : ℚ) < column.precision := by
    exact_mod_cast column.precision_pos
  calc roundedDown column.precision (column.instant value)
      ≤ column.instant value := by
        unfold roundedDown
        rw [div_le_iff₀ precision]
        exact Int.floor_le _
    _ < ((column.parts value).1 : ℚ) := by
        unfold instant
        rw [parts_fst, div_lt_iff₀ ticks]
        exact_mod_cast (by rw [mul_comm]; omega :
          value.toInt < value.toInt.tdiv column.ticks * column.ticks)

theorem TimeColumn.parts_inYears {column : TimeColumn} {value : Int64}
    (years : InYears (column.instant value)) :
    dayNumber 0 1 1 * 86400 ≤ (column.parts value).1 ∧
      (column.parts value).1 < dayNumber 10000 1 1 * 86400 := by
  obtain ⟨lower, upper⟩ := years
  have ticks : (0 : ℚ) < column.ticks := by
    exact_mod_cast column.ticks_pos
  unfold instant at lower upper
  rw [le_div_iff₀ ticks] at lower
  rw [div_lt_iff₀ ticks] at upper
  have lower' : dayNumber 0 1 1 * 86400 * column.ticks ≤ value.toInt := by exact_mod_cast lower
  have upper' : value.toInt < dayNumber 10000 1 1 * 86400 * column.ticks := by
    exact_mod_cast upper
  have ticks' : (0 : Int) < column.ticks := by exact_mod_cast column.ticks_pos
  have parts := Int.mul_tdiv_add_tmod value.toInt column.ticks
  rw [parts_fst]
  rcases lt_or_ge value.toInt 0 with negative | positive
  · have after := Int.lt_tmod_of_pos value.toInt ticks'
    have before : 0 ≤ (-value.toInt).tmod column.ticks := Int.tmod_nonneg _ (by omega)
    rw [Int.neg_tmod] at before
    have first : dayNumber 0 1 1 * 86400 * column.ticks ≤
        value.toInt.tdiv column.ticks * column.ticks := by
      rw [mul_comm (value.toInt.tdiv column.ticks)]
      omega
    have last : value.toInt.tdiv column.ticks * column.ticks < 1 * column.ticks := by
      rw [mul_comm (value.toInt.tdiv column.ticks)]
      omega
    have not_later := lt_of_mul_lt_mul_right last ticks'.le
    rw [dayNumber_last]
    exact ⟨le_of_mul_le_mul_right first ticks', by omega⟩
  · have before : 0 ≤ value.toInt.tmod column.ticks := Int.tmod_nonneg _ positive
    have last : value.toInt.tdiv column.ticks * column.ticks <
        dayNumber 10000 1 1 * 86400 * column.ticks := by
      rw [mul_comm (value.toInt.tdiv column.ticks)]
      omega
    have not_earlier : 0 ≤ value.toInt.tdiv column.ticks := Int.tdiv_nonneg positive ticks'.le
    rw [dayNumber_first]
    exact ⟨by omega, lt_of_mul_lt_mul_right last ticks'.le⟩

/-- A cell of these years keeps its instant exactly from 1970 on, or on a whole second. -/
theorem keepsInstant_iff (column : TimeColumn) (value : Int64)
    (years : InYears (column.instant value)) :
    KeepsInstant column value ↔ 0 ≤ value.toInt ∨ (column.ticks : Int) ∣ value.toInt := by
  obtain ⟨lower, upper⟩ := TimeColumn.parts_inYears years
  have denoted := readInstant_formatTimestamp (column.parts value).2 lower upper
  constructor
  · intro keeps
    by_contra! broken
    have late := TimeColumn.roundedDown_lt broken.1 broken.2
    have same := Option.some_inj.mp (denoted.symm.trans keeps)
    have shown := shownFraction_nonneg (column.parts value).2
    linarith
  · intro floored
    exact denoted.trans (congrArg some (TimeColumn.parts_eq floored))

theorem inYears_before_epoch : InYears ((TimeColumn.timestamp .millisecond).instant (-1)) := by
  unfold InYears
  rw [dayNumber_first, dayNumber_last]
  have value : (-1 : Int64).toInt = -1 := rfl
  norm_num [TimeColumn.instant, TimeColumn.ticks, value]

/-- A millisecond before the epoch is bound as `1970-01-01 00:00:00.4293967`. -/
theorem keepsInstant_iff_before_epoch :
    InYears ((TimeColumn.timestamp .millisecond).instant (-1)) ∧
      ¬ KeepsInstant (.timestamp .millisecond) (-1) := by
  refine ⟨inYears_before_epoch, ?_⟩
  rw [keepsInstant_iff _ _ inYears_before_epoch]
  decide

/-- Not every cell of these years keeps its instant. -/
theorem not_keepsInstant : ¬ ∀ (column : TimeColumn) (value : Int64),
    InYears (column.instant value) → KeepsInstant column value := by
  intro keeps
  have kept := keeps (.timestamp .millisecond) (-1) inYears_before_epoch
  have value : (-1 : Int64).toInt = -1 := rfl
  have shown : readInstant (bindTime (.timestamp .millisecond) (-1)) =
      some (4293967 / 10000000) := by
    have lower : dayNumber 0 1 1 * 86400 ≤ 0 := by
      rw [dayNumber_first]
      decide
    have upper : 0 < dayNumber 10000 1 1 * 86400 := by
      rw [dayNumber_last]
      decide
    have denoted := readInstant_formatTimestamp 4293967296 lower upper
    have length : (padded 6 (4293967296 / 1000)).length = 7 := by decide
    unfold shownFraction at denoted
    rw [length] at denoted
    norm_num at denoted
    exact denoted
  have same := Option.some_inj.mp (shown.symm.trans kept)
  norm_num [roundedDown, TimeColumn.instant, TimeColumn.ticks, TimeColumn.precision, value] at same

end StreamlingPlugins.MySql
