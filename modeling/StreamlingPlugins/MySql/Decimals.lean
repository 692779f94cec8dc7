import StreamlingPlugins.Digits

/-!
# Decimal cells

The text that `bind_arrow_value` binds for a `Decimal128` or `Decimal256` cell.
-/

namespace StreamlingPlugins.MySql

/-- `"0".repeat(n)`, which panics above the largest allocation. -/
def zeros (n : Nat) : Option (List Char) :=
  if n < 2 ^ 63 then some (List.replicate n '0') else none

/-- `format_decimal`; `none` is a panic. -/
def formatDecimal (raw : List Char) (scale : Nat) : Option (List Char) :=
  if scale = 0 then some raw
  else
    let whole := raw.takeWhile (· ≠ '.')
    match raw.dropWhile (· ≠ '.') with
    | _ :: decPart =>
      if scale ≤ decPart.length then some (raw.take (whole.length + 1 + scale))
      else (zeros (scale - decPart.length)).map (raw ++ ·)
    | [] => (zeros scale).map fun zeros => raw ++ '.' :: zeros

/-- `scale as usize`. -/
def scaleAsUsize (scale : Int8) : Nat :=
  (scale.toInt % 2 ^ 64).toNat

/-- The text bound for a decimal cell: the unscaled integer's, given to `format_decimal`. -/
def bindDecimal (unscaled : Int) (scale : Int8) : Option (List Char) :=
  formatDecimal (intText unscaled) (scaleAsUsize scale)

example : bindDecimal 123 2 = some ['1', '2', '3', '.', '0', '0'] := by decide

/-- The text bound for a cell denotes its value. -/
def KeepsValue (unscaled : Int) (scale : Int8) : Prop :=
  ∃ text, bindDecimal unscaled scale = some text ∧
    readDecimal text = some (unscaled * (10 : ℚ) ^ (-scale.toInt))

theorem intText_ne_point {v : Int} {c : Char} (mem : c ∈ intText v) : c ≠ '.' := by
  unfold intText at mem
  split at mem
  · rcases List.mem_cons.mp mem with rfl | digit
    · decide
    · exact ne_point_of_isDigit (isDigit_of_mem_toDigits digit)
  · exact ne_point_of_isDigit (isDigit_of_mem_toDigits mem)

theorem toDigits_ne_sign {n : Nat} : ∀ rest, Nat.toDigits 10 n ≠ '-' :: rest := by
  intro rest signed
  have digit : '-'.isDigit = true := isDigit_of_mem_toDigits (by rw [signed]; simp)
  cases digit

/-- Reading the digits of an integer, and what may follow them. -/
theorem readDecimal_intText (v : Int) (rest : List Char) {q : ℚ}
    (read : readUnsigned (Nat.toDigits 10 v.natAbs ++ rest) = some ((v.natAbs : ℚ) + q)) :
    readDecimal (intText v ++ rest) = some (if v < 0 then v - q else v + q) := by
  unfold intText
  split
  · rename_i negative
    have abs : ((v.natAbs : ℕ) : ℚ) = -(v : ℚ) := by
      rw [Nat.cast_natAbs, abs_of_neg negative, Int.cast_neg]
    simp only [List.cons_append, readDecimal, read, Option.map_some]
    rw [abs]
    congr 1
    ring
  · rename_i positive
    have abs : ((v.natAbs : ℕ) : ℚ) = (v : ℚ) := by
      rw [Nat.cast_natAbs, abs_of_nonneg (not_lt.mp positive)]
    unfold readDecimal
    split
    · rename_i rest' signed
      cases digits : Nat.toDigits 10 v.natAbs with
      | nil => exact absurd digits Nat.toDigits_ne_nil
      | cons c cs =>
          rw [digits] at signed
          cases signed
          exact absurd digits (toDigits_ne_sign cs)
    · rw [read, abs]

/-- Without a scale the integer itself is bound. -/
theorem bindDecimal_zero (unscaled : Int) : bindDecimal unscaled 0 = some (intText unscaled) :=
  rfl

/-- With a positive scale only zeros follow the integer. -/
theorem bindDecimal_pos (unscaled : Int) {scale : Int8} (pos : 0 < scale.toInt) :
    bindDecimal unscaled scale =
      some (intText unscaled ++ '.' :: List.replicate scale.toInt.toNat '0') := by
  have upper := scale.toInt_lt
  have as_usize : scaleAsUsize scale = scale.toInt.toNat := by
    unfold scaleAsUsize
    omega
  have no_point := dropWhile_point_digits (fun c => intText_ne_point (v := unscaled)) []
  rw [List.append_nil] at no_point
  unfold bindDecimal formatDecimal
  rw [as_usize, if_neg (by omega)]
  simp only [no_point, List.dropWhile_nil, zeros]
  rw [if_pos (by omega)]
  rfl

/-- A negative scale is a repeat count above any allocation. -/
theorem bindDecimal_neg (unscaled : Int) {scale : Int8} (neg : scale.toInt < 0) :
    bindDecimal unscaled scale = none := by
  have lower := scale.le_toInt
  have as_usize : ¬ scaleAsUsize scale < 2 ^ 63 := by
    unfold scaleAsUsize
    omega
  have no_point := dropWhile_point_digits (fun c => intText_ne_point (v := unscaled)) []
  rw [List.append_nil] at no_point
  unfold bindDecimal formatDecimal
  rw [if_neg (by omega)]
  simp only [no_point, List.dropWhile_nil, zeros]
  rw [if_neg as_usize]
  rfl

/-- The text that is bound denotes the unscaled integer. -/
theorem readDecimal_bindDecimal {unscaled : Int} {scale : Int8} {text : List Char}
    (bound : bindDecimal unscaled scale = some text) : readDecimal text = some (unscaled : ℚ) := by
  have digits : ∀ c ∈ Nat.toDigits 10 unscaled.natAbs, c ≠ '.' :=
    fun c mem => ne_point_of_isDigit (isDigit_of_mem_toDigits mem)
  rcases lt_trichotomy scale.toInt 0 with neg | zero | pos
  · rw [bindDecimal_neg unscaled neg] at bound
    cases bound
  · have scale_eq : scale = 0 := Int8.toInt_inj.mp (by simpa using zero)
    subst scale_eq
    cases (bindDecimal_zero unscaled).symm.trans bound
    have read : readUnsigned (Nat.toDigits 10 unscaled.natAbs ++ []) =
        some ((unscaled.natAbs : ℚ) + 0) := by
      rw [List.append_nil, readUnsigned_digits digits, digitsValue_toDigits]
      simp
    have signed := readDecimal_intText unscaled [] read
    rw [List.append_nil] at signed
    rw [signed]
    simp
  · cases (bindDecimal_pos unscaled pos).symm.trans bound
    have filled : 0 < scale.toInt.toNat := by omega
    have read := readUnsigned_point digits (digitsValue_toDigits unscaled.natAbs)
      (digitsValue_zeros filled)
    rw [readDecimal_intText unscaled _ read]
    simp

/-- A decimal cell keeps its value exactly without a scale, or if it is a zero with a
positive one. -/
theorem keepsValue_iff (unscaled : Int) (scale : Int8) :
    KeepsValue unscaled scale ↔ scale.toInt = 0 ∨ (0 < scale.toInt ∧ unscaled = 0) := by
  constructor
  · rintro ⟨text, bound, read⟩
    have value := (readDecimal_bindDecimal bound).symm.trans read
    rcases lt_trichotomy scale.toInt 0 with neg | zero | pos
    · rw [bindDecimal_neg unscaled neg] at bound
      cases bound
    · exact .inl zero
    · right
      refine ⟨pos, ?_⟩
      by_contra nonzero
      have scaled : (unscaled : ℚ) = unscaled * (10 : ℚ) ^ (-scale.toInt) :=
        Option.some_inj.mp value
      have nonzero' : (unscaled : ℚ) ≠ 0 := by exact_mod_cast nonzero
      have one : (10 : ℚ) ^ (-scale.toInt) = 1 := by
        field_simp at scaled
        linarith
      have less : (10 : ℚ) ^ (-scale.toInt) < 1 := zpow_lt_one_of_neg₀ (by norm_num) (by omega)
      linarith
  · rintro (zero | ⟨pos, rfl⟩)
    · have scale_eq : scale = 0 := Int8.toInt_inj.mp (by simpa using zero)
      subst scale_eq
      refine ⟨_, bindDecimal_zero unscaled, ?_⟩
      rw [readDecimal_bindDecimal (bindDecimal_zero unscaled)]
      simp
    · refine ⟨_, bindDecimal_pos 0 pos, ?_⟩
      rw [readDecimal_bindDecimal (bindDecimal_pos 0 pos)]
      simp

/-- `12345` with scale 2 is bound as `12345.00`. -/
theorem not_keepsValue_scaled : ¬ KeepsValue 12345 2 := by
  rintro ⟨text, bound, read⟩
  have value := (readDecimal_bindDecimal bound).symm.trans read
  have scaled : ((12345 : Int) : ℚ) = (12345 : Int) * (10 : ℚ) ^ (-(2 : Int8).toInt) :=
    Option.some_inj.mp value
  have two : (2 : Int8).toInt = 2 := rfl
  rw [two] at scaled
  norm_num at scaled

end StreamlingPlugins.MySql
