import StreamlingPlugins.PercentEncoding

/-!
# Bytes as text

`String::from_utf8_lossy` puts a replacement character in the place of every maximal part that
is no UTF-8, so it reads the bytes of a string as that string.
-/

namespace StreamlingPlugins

/-- A continuation byte. -/
def isContinuation (b : UInt8) : Bool :=
  0x80 ≤ b && b ≤ 0xBF

/-- The second byte that the first one of three or four admits. -/
def admitsSecond (first second : UInt8) : Bool :=
  if first = 0xE0 then 0xA0 ≤ second && second ≤ 0xBF
  else if first = 0xED then 0x80 ≤ second && second ≤ 0x9F
  else if first = 0xF0 then 0x90 ≤ second && second ≤ 0xBF
  else if first = 0xF4 then 0x80 ≤ second && second ≤ 0x8F
  else (0xE1 ≤ first && first ≤ 0xF3) && isContinuation second

/-- How many bytes, at a place where no character is, one replacement character stands for. -/
def invalidLength : List UInt8 → Nat
  | first :: second :: rest =>
    if admitsSecond first second then
      if 0xF0 ≤ first && (rest.head?.any isContinuation) then 3 else 2
    else 1
  | _ => 1

/-- The character at the start of bytes. -/
def decodeChar? (bytes : List UInt8) : Option Char :=
  ByteArray.utf8DecodeChar? bytes.toByteArray 0

/-- The characters of bytes, the first of which still belong to the character before. -/
def lossyFrom : Nat → List UInt8 → List Char
  | _, [] => []
  | skipped + 1, _ :: rest => lossyFrom skipped rest
  | 0, b :: rest =>
    match decodeChar? (b :: rest) with
    | some c => c :: lossyFrom (c.utf8Size - 1) rest
    | none => '\uFFFD' :: lossyFrom (invalidLength (b :: rest) - 1) rest

def fromUtf8Lossy (bytes : List UInt8) : String :=
  String.ofList (lossyFrom 0 bytes)

theorem lossyFrom_drop (skipped : Nat) (bytes : List UInt8) :
    lossyFrom skipped bytes = lossyFrom 0 (bytes.drop skipped) := by
  induction skipped generalizing bytes with
  | zero => rfl
  | succ skipped ih =>
      cases bytes with
      | nil => rfl
      | cons b rest => exact ih rest

theorem decodeChar?_append (c : Char) (rest : List UInt8) :
    decodeChar? (String.utf8EncodeChar c ++ rest) = some c := by
  rw [decodeChar?, List.toByteArray_append]
  exact ByteArray.utf8DecodeChar?_utf8EncodeChar_append

theorem lossyFrom_flatMap (chars : List Char) :
    lossyFrom 0 (chars.flatMap String.utf8EncodeChar) = chars := by
  induction chars with
  | nil => rfl
  | cons c chars ih =>
      obtain ⟨b, others, encoded⟩ : ∃ b others, String.utf8EncodeChar c = b :: others := by
        refine List.exists_cons_of_length_pos ?_
        rw [String.length_utf8EncodeChar]
        exact c.utf8Size_pos
      have decoded := decodeChar?_append c (chars.flatMap String.utf8EncodeChar)
      have size := String.length_utf8EncodeChar c
      rw [encoded, List.length_cons] at size
      rw [encoded, List.cons_append] at decoded
      rw [List.flatMap_cons, encoded, List.cons_append, lossyFrom, decoded]
      simp only [← size, Nat.add_sub_cancel, lossyFrom_drop others.length, List.drop_left, ih]

/-- The bytes of a string are read as that string. -/
@[simp] theorem fromUtf8Lossy_utf8 (s : String) : fromUtf8Lossy (utf8 s) = s := by
  rw [fromUtf8Lossy, utf8_eq_flatMap, lossyFrom_flatMap, String.ofList_toList]

example : fromUtf8Lossy [0x61, 0xE2, 0x82, 0x62, 0xFF] = "a\uFFFDb\uFFFD" := by
  decide +kernel

end StreamlingPlugins
