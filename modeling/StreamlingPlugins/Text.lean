import Mathlib

/-!
# Rust strings

The string operations of the standard library that several plugins use, on
lists of characters where that is simpler.
-/

namespace StreamlingPlugins

/-- White space, as `str::trim` sees it. -/
def isWhitespace (c : Char) : Bool :=
  (0x09 ≤ c.val && c.val ≤ 0x0D) || c.val = 0x20 || c.val = 0x85 || c.val = 0xA0 ||
    c.val = 0x1680 || (0x2000 ≤ c.val && c.val ≤ 0x200A) || c.val = 0x2028 || c.val = 0x2029 ||
    c.val = 0x202F || c.val = 0x205F || c.val = 0x3000

def trim (s : List Char) : List Char :=
  ((s.dropWhile isWhitespace).reverse.dropWhile isWhitespace).reverse

/-- Splits at every `sep`; the parts are one more than the separators. -/
def split (sep : Char) : List Char → List (List Char)
  | [] => [[]]
  | c :: rest =>
    if c = sep then [] :: split sep rest
    else
      match split sep rest with
      | [] => [[c]]
      | part :: parts => (c :: part) :: parts

/-- The digits of a number below `2 ^ 64`. -/
def parseDigits : Nat → List Char → Except String Nat
  | n, [] => .ok n
  | n, c :: rest =>
    if c.isDigit then
      let n := 10 * n + (c.toNat - '0'.toNat)
      if n < 2 ^ 64 then parseDigits n rest
      else .error "number too large to fit in target type"
    else .error "invalid digit found in string"

/-- `str::parse::<u64>`. -/
def parseU64 (text : String) : Except String Nat :=
  match text.toList with
  | [] => .error "cannot parse integer from empty string"
  | ['+'] | ['-'] => .error "invalid digit found in string"
  | '+' :: digits | digits => parseDigits 0 digits

/-- `str::parse::<usize>`, with its errors dropped. -/
def parseUsize (text : String) : Option Nat :=
  (parseU64 text).toOption

/-- `str::trim_matches`. -/
def trimMatches (p : Char → Bool) (s : List Char) : List Char :=
  ((s.dropWhile p).reverse.dropWhile p).reverse

/-- `str::trim_end_matches`. -/
def trimEndMatches (p : Char → Bool) (s : List Char) : List Char :=
  (s.reverse.dropWhile p).reverse

/-- `str::strip_prefix`. -/
def stripStart (pattern s : String) : Option String :=
  if s.toList.take pattern.toList.length = pattern.toList then
    some (String.ofList (s.toList.drop pattern.toList.length))
  else none

@[simp] theorem stripStart_append (pattern s : String) :
    stripStart pattern (pattern ++ s) = some s := by
  simp [stripStart]

theorem le_ofDigitChars (n : Nat) (digits : List Char) : n ≤ Nat.ofDigitChars 10 digits n := by
  induction digits generalizing n with
  | nil => exact le_rfl
  | cons c digits ih =>
      have next := ih (10 * n + (c.toNat - '0'.toNat))
      rw [Nat.ofDigitChars_cons]
      omega

/-- A number that stays in range is its digits' value. -/
theorem parseDigits_eq_ok {n : Nat} {digits : List Char} (all : ∀ c ∈ digits, c.isDigit)
    (fits : Nat.ofDigitChars 10 digits n < 2 ^ 64) :
    parseDigits n digits = .ok (Nat.ofDigitChars 10 digits n) := by
  induction digits generalizing n with
  | nil => rfl
  | cons c digits ih =>
      rw [Nat.ofDigitChars_cons] at fits ⊢
      have below := (le_ofDigitChars _ _).trans_lt fits
      have rest := ih (fun d member => all d (List.mem_cons_of_mem _ member)) fits
      rw [parseDigits, if_pos (all c List.mem_cons_self)]
      dsimp only
      rw [if_pos below, rest]

/-- Formatting a `usize` and parsing it back. -/
theorem parseUsize_repr {n : Nat} (fits : n < 2 ^ 64) : parseUsize n.repr = some n := by
  have digits : ∀ c ∈ Nat.toDigits 10 n, c.isDigit := fun c =>
    Nat.isDigit_of_mem_toDigits (by decide) (by decide)
  have value : Nat.ofDigitChars 10 (Nat.toDigits 10 n) 0 = n := Nat.ofDigitChars_ten_toDigits
  have read : parseDigits 0 (Nat.toDigits 10 n) = .ok n := by
    rw [parseDigits_eq_ok digits (by rwa [value]), value]
  unfold parseUsize parseU64
  rw [Nat.toList_repr]
  split
  · rename_i empty
    exact absurd empty Nat.toDigits_ne_nil
  · rename_i signed
    exact absurd (digits '+' (by simp [signed])) (by decide)
  · rename_i signed
    exact absurd (digits '-' (by simp [signed])) (by decide)
  · rename_i rest _ signed
    exact absurd (digits '+' (by simp [signed])) (by decide)
  · rw [read]
    rfl

/-! ## Trimming and splitting -/

theorem not_isWhitespace_of_isAlphanum {c : Char} (plain : c.isAlphanum) :
    isWhitespace c = false := by
  unfold Char.isAlphanum Char.isAlpha Char.isUpper Char.isLower Char.isDigit at plain
  unfold isWhitespace
  simp only [Bool.or_eq_true, Bool.and_eq_true, decide_eq_true_eq, ge_iff_le] at plain
  simp only [Bool.or_eq_false_iff, Bool.and_eq_false_iff, decide_eq_false_iff_not]
  simp only [UInt32.le_iff_toNat_le, UInt32.toNat_ofNat, ← UInt32.toNat_inj,
    Char.reduceVal] at plain ⊢
  omega

theorem ne_of_isAlphanum {c d : Char} (plain : c.isAlphanum) (other : d.isAlphanum = false) :
    c ≠ d := by
  intro same
  rw [same, other] at plain
  cases plain

section

variable {p : Char → Bool} {s : List Char}

/-- What is dropped ends where a character stays. -/
theorem dropWhile_append_of_head {pre rest : List Char} (dropped : ∀ c ∈ pre, p c) {a : Char}
    (head : rest.head? = some a) (stays : p a = false) : (pre ++ rest).dropWhile p = rest := by
  rw [List.dropWhile_append_of_pos dropped]
  cases rest with
  | nil => cases head
  | cons b rest =>
      cases head
      exact List.dropWhile_cons_of_neg (by simpa using stays)

theorem trimEndMatches_append {post : List Char} (dropped : ∀ c ∈ post, p c) {b : Char}
    (last : s.getLast? = some b) (stays : p b = false) : trimEndMatches p (s ++ post) = s := by
  unfold trimEndMatches
  rw [List.reverse_append, dropWhile_append_of_head (by simpa using dropped)
    (by rw [List.head?_reverse, last]) stays, List.reverse_reverse]

/-- Trimming leaves what starts and ends with characters that stay. -/
theorem trimMatches_append {pre post : List Char} (before : ∀ c ∈ pre, p c)
    (after : ∀ c ∈ post, p c) {a b : Char} (head : s.head? = some a)
    (first_stays : p a = false) (last : s.getLast? = some b) (last_stays : p b = false) :
    trimMatches p (pre ++ s ++ post) = s := by
  have nonempty : s ≠ [] := by
    rintro rfl
    cases head
  have start : (s ++ post).head? = some a := by
    rw [List.head?_append_of_ne_nil _ nonempty, head]
  unfold trimMatches
  rw [List.append_assoc, dropWhile_append_of_head before start first_stays]
  exact trimEndMatches_append after last last_stays

theorem trim_append {pre post : List Char} (before : ∀ c ∈ pre, isWhitespace c)
    (after : ∀ c ∈ post, isWhitespace c) {a b : Char} (head : s.head? = some a)
    (first_stays : isWhitespace a = false) (last : s.getLast? = some b)
    (last_stays : isWhitespace b = false) : trim (pre ++ s ++ post) = s :=
  trimMatches_append before after head first_stays last last_stays

/-- Trimming leaves a text none of whose characters is trimmed. -/
theorem trimMatches_of_forall (stay : ∀ c ∈ s, p c = false) : trimMatches p s = s := by
  cases s with
  | nil => rfl
  | cons first rest =>
      obtain ⟨last, ends⟩ := Option.ne_none_iff_exists'.mp
        (mt List.getLast?_eq_none_iff.mp (List.cons_ne_nil first rest))
      have none_dropped : ∀ c ∈ ([] : List Char), p c := by simp
      have trimmed := trimMatches_append none_dropped none_dropped List.head?_cons
        (stay first List.mem_cons_self) ends (stay last (List.mem_of_getLast? ends))
      rwa [List.append_nil] at trimmed

theorem subset_trimMatches : trimMatches p s ⊆ s := by
  intro c mem
  have kept := List.mem_reverse.mp ((List.dropWhile_sublist _).mem (List.mem_reverse.mp mem))
  exact (List.dropWhile_sublist _).mem kept

/-- What is left starts and ends with characters that stay. -/
theorem trimMatches_ends (some_left : trimMatches p s ≠ []) :
    (∃ a, (trimMatches p s).head? = some a ∧ p a = false) ∧
      ∃ b, (trimMatches p s).getLast? = some b ∧ p b = false := by
  have stays {l : List Char} {c : Char} (first : (l.dropWhile p).head? = some c) :
      p c = false := by
    have not_dropped := List.head?_dropWhile_not p l
    rw [first] at not_dropped
    exact not_dropped
  have some_back : (s.dropWhile p).reverse.dropWhile p ≠ [] := fun nothing =>
    some_left (by rw [trimMatches, nothing, List.reverse_nil])
  obtain ⟨b, last⟩ := Option.ne_none_iff_exists'.mp (mt List.head?_eq_none_iff.mp some_back)
  obtain ⟨a, first⟩ := Option.ne_none_iff_exists'.mp (mt List.getLast?_eq_none_iff.mp some_back)
  refine ⟨⟨a, by rw [trimMatches, List.head?_reverse, first], ?_⟩,
    b, by rw [trimMatches, List.getLast?_reverse, last], stays last⟩
  obtain ⟨dropped, whole⟩ := List.dropWhile_suffix (l := (s.dropWhile p).reverse) p
  refine stays (l := s) ?_
  rw [← List.getLast?_reverse, ← whole, List.getLast?_append_of_ne_nil _ some_back, first]

theorem trimMatches_of_ends {a b : Char} (head : s.head? = some a) (first_stays : p a = false)
    (last : s.getLast? = some b) (last_stays : p b = false) : trimMatches p s = s := by
  have none_dropped : ∀ c ∈ ([] : List Char), p c := by simp
  have trimmed := trimMatches_append none_dropped none_dropped head first_stays last last_stays
  rwa [List.nil_append, List.append_nil] at trimmed

/-- What is trimmed is trimmed. -/
theorem trimMatches_trimMatches : trimMatches p (trimMatches p s) = trimMatches p s := by
  by_cases nothing : trimMatches p s = []
  · rw [nothing]
    rfl
  · obtain ⟨⟨a, first, first_stays⟩, b, last, last_stays⟩ := trimMatches_ends nothing
    exact trimMatches_of_ends first first_stays last last_stays

theorem subset_trim : trim s ⊆ s := subset_trimMatches

theorem trim_trim : trim (trim s) = trim s := trimMatches_trimMatches

theorem trim_ends (some_left : trim s ≠ []) :
    (∃ a, (trim s).head? = some a ∧ isWhitespace a = false) ∧
      ∃ b, (trim s).getLast? = some b ∧ isWhitespace b = false :=
  trimMatches_ends some_left

theorem trim_of_ends {a b : Char} (head : s.head? = some a)
    (first_stays : isWhitespace a = false) (last : s.getLast? = some b)
    (last_stays : isWhitespace b = false) : trim s = s :=
  trimMatches_of_ends head first_stays last last_stays

theorem trim_of_forall (stay : ∀ c ∈ s, isWhitespace c = false) : trim s = s :=
  trimMatches_of_forall stay

/-- No part has a separator. -/
theorem notMem_of_mem_split {sep : Char} {part : List Char} (mem : part ∈ split sep s) :
    sep ∉ part := by
  induction s generalizing part with
  | nil =>
      rw [List.mem_singleton.mp mem]
      exact List.not_mem_nil
  | cons c s ih =>
      unfold split at mem
      split at mem
      · rcases List.mem_cons.mp mem with rfl | later
        · exact List.not_mem_nil
        · exact ih later
      · rename_i other
        split at mem
        · rw [List.mem_singleton.mp mem]
          simpa using Ne.symm other
        · rename_i first parts rest
          rw [rest] at ih
          rcases List.mem_cons.mp mem with rfl | later
          · exact List.not_mem_cons_of_ne_of_not_mem (Ne.symm other) (ih List.mem_cons_self)
          · exact ih (List.mem_cons_of_mem _ later)

theorem split_of_notMem {sep : Char} (free : sep ∉ s) : split sep s = [s] := by
  induction s with
  | nil => rfl
  | cons c s ih =>
      simp only [List.mem_cons, not_or] at free
      rw [split, if_neg (Ne.symm free.1), ih free.2]

theorem split_append {sep : Char} (free : sep ∉ s) (rest : List Char) :
    split sep (s ++ sep :: rest) = s :: split sep rest := by
  induction s with
  | nil => simp [split]
  | cons c s ih =>
      simp only [List.mem_cons, not_or] at free
      rw [List.cons_append, split, if_neg (Ne.symm free.1), ih free.2]

/-- The first separator splits a list in one way. -/
theorem append_cons_inj_of_notMem {α : Type*} {sep : α} {a b rest rest' : List α}
    (free : sep ∉ a) (free' : sep ∉ b) (same : a ++ sep :: rest = b ++ sep :: rest') :
    a = b ∧ rest = rest' := by
  induction a generalizing b with
  | nil =>
      cases b with
      | nil => exact ⟨rfl, (List.cons.inj same).2⟩
      | cons first b => exact absurd (List.mem_cons.mpr (.inl (List.cons.inj same).1)) free'
  | cons first a ih =>
      cases b with
      | nil => exact absurd (List.mem_cons.mpr (.inl (List.cons.inj same).1.symm)) free
      | cons first' b =>
          obtain ⟨rfl, tails⟩ := List.cons.inj same
          obtain ⟨rfl, rest_same⟩ := ih (fun member => free (List.mem_cons_of_mem _ member))
            (fun member => free' (List.mem_cons_of_mem _ member)) tails
          exact ⟨rfl, rest_same⟩

/-- Splitting at the separators that joined the parts. -/
theorem split_intercalate {sep : Char} {parts : List (List Char)} (some_part : parts ≠ [])
    (free : ∀ part ∈ parts, sep ∉ part) : split sep ([sep].intercalate parts) = parts := by
  induction parts with
  | nil => exact absurd rfl some_part
  | cons part parts ih =>
      obtain ⟨first, others⟩ := List.forall_mem_cons.mp free
      cases parts with
      | nil => rw [List.intercalate_singleton, split_of_notMem first]
      | cons next parts =>
          rw [List.intercalate_cons_cons, List.append_assoc, List.singleton_append,
            split_append first, ih (List.cons_ne_nil _ _) others]

/-- Joined parts start with the first and end with the last of them. -/
theorem exists_intercalate_eq (sep : Char) {parts : List (List Char)} (some_part : parts ≠ []) :
    (∃ back, [sep].intercalate parts = parts.head some_part ++ back) ∧
      ∃ front, [sep].intercalate parts = front ++ parts.getLast some_part := by
  induction parts with
  | nil => exact absurd rfl some_part
  | cons part parts ih =>
      cases parts with
      | nil => exact ⟨⟨[], by simp⟩, [], by simp⟩
      | cons next parts =>
          obtain ⟨-, front, ends⟩ := ih (List.cons_ne_nil _ _)
          rw [List.intercalate_cons_cons]
          refine ⟨⟨[sep] ++ [sep].intercalate (next :: parts), by simp⟩, part ++ [sep] ++ front, ?_⟩
          rw [ends, List.getLast_cons (List.cons_ne_nil _ _), List.append_assoc (part ++ [sep])]

end

end StreamlingPlugins
