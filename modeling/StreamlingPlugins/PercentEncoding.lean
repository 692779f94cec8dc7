import Mathlib

/-!
# Percent-encoding

Bytes outside a set of kept ones are written as `%` and two hexadecimal digits, and
decoded from them.
-/

namespace StreamlingPlugins

/-- The bytes of a string. -/
def utf8 (s : String) : List UInt8 :=
  s.toByteArray.data.toList

theorem utf8_inj {s t : String} : utf8 s = utf8 t ↔ s = t := by
  constructor
  · intro same
    exact String.toByteArray_inj.mp (ByteArray.ext (Array.toList_inj.mp same))
  · rintro rfl
    rfl

theorem utf8_eq_flatMap (s : String) : utf8 s = s.toList.flatMap String.utf8EncodeChar := by
  rw [utf8, ← String.utf8Encode_toList, List.utf8Encode, List.toList_data_toByteArray]

theorem utf8_append (s t : String) : utf8 (s ++ t) = utf8 s ++ utf8 t := by
  rw [utf8_eq_flatMap, utf8_eq_flatMap, utf8_eq_flatMap, String.toList_append, List.flatMap_append]

/-- An ASCII byte of a string is one of its characters. -/
theorem mem_of_mem_utf8 {s : String} {b : UInt8} (mem : b ∈ utf8 s) (ascii : b.toNat < 128) :
    ∃ c ∈ s.toList, c.toNat = b.toNat := by
  rw [utf8_eq_flatMap] at mem
  obtain ⟨c, in_string, in_char⟩ := List.mem_flatMap.mp mem
  refine ⟨c, in_string, ?_⟩
  have bound : c.val.toNat < 2 ^ 32 := c.val.toNat_lt
  unfold Char.toNat
  unfold String.utf8EncodeChar at in_char
  simp only at in_char
  -- only the first branch has bytes below 128
  split at in_char
  · rw [List.mem_singleton.mp in_char, UInt8.toNat_ofNat']
    omega
  · split at in_char
    · simp only [List.mem_cons, List.not_mem_nil, or_false] at in_char
      rcases in_char with rfl | rfl <;> rw [UInt8.toNat_ofNat'] at ascii <;> omega
    · split at in_char
      · simp only [List.mem_cons, List.not_mem_nil, or_false] at in_char
        rcases in_char with rfl | rfl | rfl <;> rw [UInt8.toNat_ofNat'] at ascii <;> omega
      · simp only [List.mem_cons, List.not_mem_nil, or_false] at in_char
        rcases in_char with rfl | rfl | rfl | rfl <;> rw [UInt8.toNat_ofNat'] at ascii <;> omega

namespace Percent

def hexDigit (d : Nat) : UInt8 :=
  if d < 10 then UInt8.ofNat (48 + d) else UInt8.ofNat (55 + d)

/-- The value of a hexadecimal digit of either case. -/
def hexValue (c : UInt8) : Option Nat :=
  if 48 ≤ c ∧ c ≤ 57 then some (c.toNat - 48)
  else if 65 ≤ c ∧ c ≤ 70 then some (c.toNat - 55)
  else if 97 ≤ c ∧ c ≤ 102 then some (c.toNat - 87)
  else none

/-- `%` and the digits of a byte. -/
def escape (b : UInt8) : List UInt8 :=
  [37, hexDigit (b.toNat / 16), hexDigit (b.toNat % 16)]

/-- Escapes the bytes that are not kept. -/
def encode (keep : UInt8 → Bool) (bytes : List UInt8) : List UInt8 :=
  bytes.flatMap fun b => if keep b then [b] else escape b

/-- Decodes each `%` before two digits; other bytes stay. -/
def decode : List UInt8 → List UInt8
  | 37 :: high :: low :: rest =>
    match hexValue high, hexValue low with
    | some h, some l => UInt8.ofNat (16 * h + l) :: decode rest
    | _, _ => 37 :: decode (high :: low :: rest)
  | c :: rest => c :: decode rest
  | [] => []

theorem hexValue_hexDigit {d : Nat} (small : d < 16) : hexValue (hexDigit d) = some d := by
  revert d
  decide

theorem decode_escape (b : UInt8) (rest : List UInt8) :
    decode (escape b ++ rest) = b :: decode rest := by
  have bound := b.toNat_lt
  have high := hexValue_hexDigit (d := b.toNat / 16) (by omega)
  have low := hexValue_hexDigit (d := b.toNat % 16) (by omega)
  have byte : UInt8.ofNat (16 * (b.toNat / 16) + b.toNat % 16) = b := by
    rw [Nat.div_add_mod, UInt8.ofNat_toNat]
  unfold escape
  simp only [List.cons_append, List.nil_append, decode, high, low, byte]

theorem decode_cons {c : UInt8} (plain : c ≠ 37) (rest : List UInt8) :
    decode (c :: rest) = c :: decode rest := by
  rw [decode]
  rintro high low rest' rfl _
  exact plain rfl

section

variable {keep : UInt8 → Bool}

@[simp] theorem encode_append (left right : List UInt8) :
    encode keep (left ++ right) = encode keep left ++ encode keep right :=
  List.flatMap_append

theorem encode_cons (b : UInt8) (bytes : List UInt8) :
    encode keep (b :: bytes) = (if keep b then [b] else escape b) ++ encode keep bytes :=
  List.flatMap_cons

/-- Decoding gives back what was encoded, if `%` itself is escaped. -/
theorem decode_encode (escaped : keep 37 = false) (bytes : List UInt8) :
    decode (encode keep bytes) = bytes := by
  induction bytes with
  | nil => rfl
  | cons b bytes ih =>
      rw [encode_cons]
      split
      · rename_i kept
        have plain : b ≠ 37 := by
          rintro rfl
          rw [escaped] at kept
          cases kept
        rw [List.singleton_append, decode_cons plain, ih]
      · rw [decode_escape, ih]

theorem encode_inj (escaped : keep 37 = false) {left right : List UInt8} :
    encode keep left = encode keep right ↔ left = right := by
  constructor
  · intro same
    have decoded := congrArg decode same
    rwa [decode_encode escaped, decode_encode escaped] at decoded
  · rintro rfl
    rfl

/-- Encoded text holds kept bytes of the input, and what escapes are made of. -/
theorem mem_encode {c : UInt8} {bytes : List UInt8} (mem : c ∈ encode keep bytes) :
    (keep c = true ∧ c ∈ bytes) ∨ c = 37 ∨ (hexValue c).isSome := by
  obtain ⟨b, in_bytes, in_byte⟩ := List.mem_flatMap.mp mem
  split at in_byte
  · rename_i kept
    rw [List.mem_singleton.mp in_byte]
    exact .inl ⟨kept, in_bytes⟩
  · right
    have bound := b.toNat_lt
    simp only [escape, List.mem_cons, List.not_mem_nil, or_false] at in_byte
    rcases in_byte with rfl | rfl | rfl
    · exact .inl rfl
    · rw [hexValue_hexDigit (by omega)]
      exact .inr rfl
    · rw [hexValue_hexDigit (by omega)]
      exact .inr rfl

theorem length_le_encode (bytes : List UInt8) : bytes.length ≤ (encode keep bytes).length := by
  induction bytes with
  | nil => exact Nat.le_refl 0
  | cons b bytes ih =>
      rw [encode_cons, List.length_append, List.length_cons]
      split <;> simp [escape] <;> omega

/-- Only texts of kept bytes are their own encoding. -/
theorem encode_eq_self_iff {bytes : List UInt8} :
    encode keep bytes = bytes ↔ ∀ b ∈ bytes, keep b = true := by
  induction bytes with
  | nil => simp [encode]
  | cons b bytes ih =>
      rw [encode_cons, List.forall_mem_cons]
      cases kept : keep b with
      | true => simpa using ih
      | false =>
          have longer : bytes.length ≤ (encode keep bytes).length := length_le_encode bytes
          simp only [Bool.false_eq_true, if_false, false_and, iff_false]
          intro same
          have lengths := congrArg List.length same
          simp only [escape, List.length_append, List.length_cons, List.length_nil] at lengths
          omega

end

end Percent

end StreamlingPlugins
