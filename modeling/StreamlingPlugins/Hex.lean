import Mathlib

/-!
# Hexadecimal words

A word of `4 * n` bits is written as `0x` and `n` digits.  It is read from `n`
digits of either case, with or without the `0x`.
-/

namespace StreamlingPlugins.Hex

def digit (d : Nat) : Char :=
  if d < 10 then Char.ofNat ('0'.toNat + d) else Char.ofNat ('a'.toNat + (d - 10))

def digitValue (c : Char) : Option Nat :=
  if '0' ≤ c ∧ c ≤ '9' then some (c.toNat - '0'.toNat)
  else if 'a' ≤ c ∧ c ≤ 'f' then some (c.toNat - 'a'.toNat + 10)
  else if 'A' ≤ c ∧ c ≤ 'F' then some (c.toNat - 'A'.toNat + 10)
  else none

/-- The last `n` digits of a number. -/
def digits : Nat → Nat → List Char
  | 0, _ => []
  | n + 1, v => digits n (v / 16) ++ [digit (v % 16)]

def value (cs : List Char) : Option Nat :=
  cs.foldlM (fun v c => (digitValue c).map fun d => 16 * v + d) 0

def format {n : Nat} (word : BitVec (4 * n)) : List Char :=
  '0' :: 'x' :: digits n word.toNat

def parse (n : Nat) (text : List Char) : Option (BitVec (4 * n)) :=
  let body := match text with
    | '0' :: 'x' :: rest => rest
    | all => all
  if body.length = n then (value body).map (BitVec.ofNat (4 * n)) else none

theorem digitValue_digit {d : Nat} (small : d < 16) : digitValue (digit d) = some d := by
  revert d
  decide

/-- A digit is a letter or a decimal digit. -/
theorem isAlphanum_digit {d : Nat} (small : d < 16) : (digit d).isAlphanum := by
  revert d
  decide

@[simp] theorem length_digits (n v : Nat) : (digits n v).length = n := by
  induction n generalizing v with
  | zero => rfl
  | succ n ih => simp [digits, ih]

theorem isAlphanum_of_mem_digits {n v : Nat} {c : Char} (member : c ∈ digits n v) :
    c.isAlphanum := by
  induction n generalizing v with
  | zero => cases member
  | succ n ih =>
      rcases List.mem_append.mp member with before | last
      · exact ih before
      · rw [List.mem_singleton.mp last]
        exact isAlphanum_digit (Nat.mod_lt v (by decide))

theorem value_digits (n v : Nat) : value (digits n v) = some (v % 16 ^ n) := by
  induction n generalizing v with
  | zero => simp [digits, value, Nat.mod_one]
  | succ n ih =>
      have start : value (digits n (v / 16)) = some (v / 16 % 16 ^ n) := ih (v / 16)
      have last : digitValue (digit (v % 16)) = some (v % 16) :=
        digitValue_digit (Nat.mod_lt v (by decide))
      have split : 16 * (v / 16 % 16 ^ n) + v % 16 = v % 16 ^ (n + 1) := by
        rw [Nat.pow_succ', Nat.mod_mul]
        omega
      unfold value at start ⊢
      rw [digits, List.foldlM_append, start]
      simp [last, split]

/-- A formatted word is read back. -/
theorem parse_format {n : Nat} (word : BitVec (4 * n)) : parse n (format word) = some word := by
  have bound : word.toNat < 16 ^ n := by
    rw [show 16 ^ n = 2 ^ (4 * n) by rw [Nat.pow_mul]]
    exact word.isLt
  simp [parse, format, value_digits, Nat.mod_eq_of_lt bound]

theorem isAlphanum_of_mem_format {n : Nat} {word : BitVec (4 * n)} {c : Char}
    (member : c ∈ format word) : c.isAlphanum := by
  rcases List.mem_cons.mp member with rfl | member
  · decide
  · rcases List.mem_cons.mp member with rfl | member
    · decide
    · exact isAlphanum_of_mem_digits member

end StreamlingPlugins.Hex
