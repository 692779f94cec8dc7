import Mathlib

/-!
# Decimal digits

How integers are written in decimal, padded with zeros or with a sign, and how such
texts are read as numbers.
-/

namespace StreamlingPlugins

/-- The number that a non-empty string of digits denotes. -/
def digitsValue (text : List Char) : Option Nat :=
  if text ≠ [] ∧ text.all Char.isDigit then some (Nat.ofDigitChars 10 text 0) else none

/-- `{:0width$}` of an unsigned integer. -/
def padded (width n : Nat) : List Char :=
  List.replicate (width - (Nat.toDigits 10 n).length) '0' ++ Nat.toDigits 10 n

/-- `to_string` of a signed integer. -/
def intText (v : Int) : List Char :=
  if v < 0 then '-' :: Nat.toDigits 10 v.natAbs else Nat.toDigits 10 v.natAbs

/-- The number that unsigned decimal digits with an optional fraction denote. -/
def readUnsigned (text : List Char) : Option ℚ :=
  match text.dropWhile (· ≠ '.') with
  | [] => (digitsValue text).map fun n => (n : ℚ)
  | _ :: fraction =>
    match digitsValue (text.takeWhile (· ≠ '.')), digitsValue fraction with
    | some whole, some part => some (whole + part / 10 ^ fraction.length)
    | _, _ => none

/-- The number that a decimal text denotes. -/
def readDecimal : List Char → Option ℚ
  | '-' :: rest => (readUnsigned rest).map fun q => -q
  | text => readUnsigned text

theorem isDigit_of_mem_toDigits {n : Nat} {c : Char} (mem : c ∈ Nat.toDigits 10 n) :
    c.isDigit = true :=
  Nat.isDigit_of_mem_toDigits (by decide) (by decide) mem

theorem digitsValue_toDigits (n : Nat) : digitsValue (Nat.toDigits 10 n) = some n := by
  unfold digitsValue
  rw [if_pos ⟨Nat.toDigits_ne_nil, List.all_eq_true.mpr fun _ => isDigit_of_mem_toDigits⟩,
    Nat.ofDigitChars_ten_toDigits]

theorem ofDigitChars_zeros (count : Nat) (rest : List Char) :
    Nat.ofDigitChars 10 (List.replicate count '0' ++ rest) 0 = Nat.ofDigitChars 10 rest 0 := by
  induction count with
  | zero => rfl
  | succ count ih =>
      rw [List.replicate_succ, List.cons_append, Nat.ofDigitChars_cons]
      exact ih

theorem all_isDigit_zeros (count : Nat) : (List.replicate count '0').all Char.isDigit = true := by
  simp only [List.all_eq_true, List.mem_replicate]
  rintro c ⟨_, rfl⟩
  rfl

theorem digitsValue_zeros {count : Nat} (pos : 0 < count) :
    digitsValue (List.replicate count '0') = some 0 := by
  have filled : List.replicate count '0' ≠ [] := by
    simp only [ne_eq, List.replicate_eq_nil_iff]
    omega
  have value := ofDigitChars_zeros count []
  rw [List.append_nil] at value
  unfold digitsValue
  rw [if_pos ⟨filled, all_isDigit_zeros count⟩, value]
  rfl

theorem digitsValue_padded (width n : Nat) : digitsValue (padded width n) = some n := by
  have filled : padded width n ≠ [] := by
    simp [padded, Nat.toDigits_ne_nil]
  have digits : (padded width n).all Char.isDigit = true := by
    unfold padded
    rw [List.all_append, all_isDigit_zeros, Bool.true_and]
    exact List.all_eq_true.mpr fun _ => isDigit_of_mem_toDigits
  unfold digitsValue
  rw [if_pos ⟨filled, digits⟩]
  unfold padded
  rw [ofDigitChars_zeros, Nat.ofDigitChars_ten_toDigits]

theorem isDigit_of_mem_padded {width n : Nat} {c : Char} (mem : c ∈ padded width n) :
    c.isDigit = true := by
  rcases List.mem_append.mp mem with zero | digit
  · exact List.all_eq_true.mp (all_isDigit_zeros _) c zero
  · exact isDigit_of_mem_toDigits digit

theorem length_padded {width n : Nat} (pos : 0 < width) (fits : n < 10 ^ width) :
    (padded width n).length = width := by
  have digits : (Nat.toDigits 10 n).length ≤ width :=
    (Nat.length_toDigits_le_iff (by decide) pos).mpr fits
  simp only [padded, List.length_append, List.length_replicate]
  omega

theorem lt_pow_length_padded (width n : Nat) : n < 10 ^ (padded width n).length := by
  have digits : n < 10 ^ (Nat.toDigits 10 n).length :=
    (Nat.length_toDigits_le_iff (by decide) Nat.length_toDigits_pos).mp le_rfl
  refine digits.trans_le (Nat.pow_le_pow_right (by decide) ?_)
  simp [padded]

/-- A text of digits has no decimal point. -/
theorem ne_point_of_isDigit {c : Char} (digit : c.isDigit = true) : c ≠ '.' := by
  rintro rfl
  cases digit

theorem dropWhile_point_digits {text : List Char} (digits : ∀ c ∈ text, c ≠ '.')
    (rest : List Char) : (text ++ rest).dropWhile (· ≠ '.') = rest.dropWhile (· ≠ '.') :=
  List.dropWhile_append_of_pos (by simpa using digits)

theorem takeWhile_point_digits {text : List Char} (digits : ∀ c ∈ text, c ≠ '.')
    (rest : List Char) : (text ++ '.' :: rest).takeWhile (· ≠ '.') = text := by
  rw [List.takeWhile_append_of_pos (by simpa using digits), List.takeWhile_cons_of_neg (by simp),
    List.append_nil]

theorem readUnsigned_digits {text : List Char} (digits : ∀ c ∈ text, c ≠ '.') :
    readUnsigned text = (digitsValue text).map fun n => (n : ℚ) := by
  have none_left : text.dropWhile (· ≠ '.') = [] := by
    have dropped := dropWhile_point_digits digits []
    rwa [List.append_nil] at dropped
  unfold readUnsigned
  rw [none_left]

theorem readUnsigned_point {whole fraction : List Char} {n part : Nat}
    (digits : ∀ c ∈ whole, c ≠ '.') (whole_eq : digitsValue whole = some n)
    (fraction_eq : digitsValue fraction = some part) :
    readUnsigned (whole ++ '.' :: fraction) = some ((n : ℚ) + part / 10 ^ fraction.length) := by
  unfold readUnsigned
  rw [dropWhile_point_digits digits, List.dropWhile_cons_of_neg (by simp)]
  simp only [takeWhile_point_digits digits, whole_eq, fraction_eq]

end StreamlingPlugins
