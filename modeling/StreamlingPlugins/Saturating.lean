import Mathlib

/-!
# Saturating arithmetic

The saturating operations on `i64`, and their values as integers.
-/

namespace StreamlingPlugins

/-- The `i64` closest to an integer. -/
def saturate (n : Int) : Int64 :=
  Int64.ofInt (max (-2 ^ 63) (min n (2 ^ 63 - 1)))

def saturatingAdd (a b : Int64) : Int64 :=
  saturate (a.toInt + b.toInt)

def saturatingSub (a b : Int64) : Int64 :=
  saturate (a.toInt - b.toInt)

def saturatingMul (a b : Int64) : Int64 :=
  saturate (a.toInt * b.toInt)

theorem toInt_saturate (n : Int) : (saturate n).toInt = max (-2 ^ 63) (min n (2 ^ 63 - 1)) := by
  unfold saturate
  exact Int64.toInt_ofInt_of_le (by omega) (by omega)

theorem Int64.toInt_max (a b : Int64) : (max a b).toInt = max a.toInt b.toInt := by
  have larger : max a b = if a ≤ b then b else a := rfl
  rw [larger]
  split
  · rename_i le
    rw [max_eq_right (Int64.le_iff_toInt_le.mp le)]
  · rename_i not_le
    rw [Int64.le_iff_toInt_le] at not_le
    rw [max_eq_left (le_of_not_ge not_le)]

instance lawfulOrderMaxInt64 : Std.LawfulOrderMax Int64 where
  max_eq_or a b := by
    have larger : max a b = if a ≤ b then b else a := rfl
    rw [larger]
    split <;> simp
  max_le_iff a b c := by
    simp only [Int64.le_iff_toInt_le, Int64.toInt_max]
    omega

end StreamlingPlugins
