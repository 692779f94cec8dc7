import StreamlingPlugins.Erc7984.Exactness

/-!
# Rows that write an event out

The shapes in which a row may hold the topics of a log, and that each of them is
read back.  With `Topics.carriesExactly_iff` this is the whole behaviour of the
decoder.
-/

namespace StreamlingPlugins.Erc7984

open Arrow

/-! ## Hex text -/

/-- Letters and digits only, and some of them. -/
def IsPlain (text : String) : Prop :=
  text.toList ≠ [] ∧ ∀ c ∈ text.toList, c.isAlphanum

/-- What is relied on: hex text is read back, it has neither blanks nor
punctuation, and no text is no word. -/
structure Alloy.Lawful (alloy : Alloy) : Prop where
  word : ∀ word, alloy.parseWord (alloy.formatWord word) = some word
  address : ∀ address, alloy.parseAddress (alloy.formatAddress address) = some address
  plainWord : ∀ word, IsPlain (alloy.formatWord word)
  plainAddress : ∀ address, IsPlain (alloy.formatAddress address)
  unreadable : alloy.parseWord "" = none

theorem not_isQuote_of_isAlphanum {c : Char} (plain : c.isAlphanum) : isQuote c = false := by
  simp only [isQuote, Bool.or_eq_false_iff, decide_eq_false_iff_not]
  exact ⟨ne_of_isAlphanum plain (by decide), ne_of_isAlphanum plain (by decide)⟩

namespace IsPlain

variable {text : String}

theorem exists_head (plain : IsPlain text) : ∃ c, text.toList.head? = some c ∧ c.isAlphanum := by
  obtain ⟨c, head⟩ := Option.ne_none_iff_exists'.mp (mt List.head?_eq_none_iff.mp plain.1)
  exact ⟨c, head, plain.2 c (List.mem_of_head? head)⟩

theorem exists_last (plain : IsPlain text) :
    ∃ c, text.toList.getLast? = some c ∧ c.isAlphanum := by
  obtain ⟨c, last⟩ := Option.ne_none_iff_exists'.mp (mt List.getLast?_eq_none_iff.mp plain.1)
  exact ⟨c, last, plain.2 c (List.mem_of_getLast? last)⟩

theorem trim_eq (plain : IsPlain text) : trim text.toList = text.toList :=
  trimMatches_of_forall fun c member => not_isWhitespace_of_isAlphanum (plain.2 c member)

theorem isBlank_eq (plain : IsPlain text) : isBlank text = false := by
  simp [isBlank, plain.trim_eq, plain.1]

end IsPlain

theorem parseWord_formatWord {alloy : Alloy} (lawful : alloy.Lawful) (word : B256) :
    parseWord alloy (alloy.formatWord word) = some word := by
  unfold parseWord
  rw [(lawful.plainWord word).trim_eq, String.ofList_toList, lawful.word]

/-! ## Written topics -/

/-- How a string of joined topics is written: within brackets or not, each topic
between quotes or not, and with blanks after the commas. -/
structure JoinStyle where
  brackets : Bool
  quote : List Char
  space : List Char
  quoted : quote = [] ∨ quote = ['"'] ∨ quote = ['\'']
  blank : ∀ c ∈ space, isWhitespace c

namespace JoinStyle

variable (style : JoinStyle)

def part (text : String) : List Char :=
  style.quote ++ text.toList ++ style.quote

def parts : List String → List (List Char)
  | [] => []
  | text :: texts => style.part text :: texts.map fun text => style.space ++ style.part text

def join (texts : List String) : String :=
  String.ofList (if style.brackets then '[' :: ([','].intercalate (style.parts texts) ++ [']'])
    else [','].intercalate (style.parts texts))

end JoinStyle

/-- The row holds the hex text of some words as its topics. -/
def Topics.Writes (alloy : Alloy) (topics : Topics) (row : Nat) (words : List B256) : Prop :=
  match topics with
  | .separate t0 t1 t2 t3 => ∃ blanks : List (Option String),
      [t0.value row, t1.value row, t2.value row, t3.value row] =
        words.map (fun word => some (alloy.formatWord word)) ++ blanks ∧
      ∀ cell ∈ blanks, isBlankCell cell
  | .joined column => ∃ style : JoinStyle,
      column.value row = some (style.join (words.map alloy.formatWord))
  | .list (.text rows) =>
      rows[row]? = some (some (words.map fun word => some (alloy.formatWord word)))
  | .largeList (.text rows) =>
      rows[row]? = some (some (words.map fun word => some (alloy.formatWord word)))
  | .list (.other _) => False
  | .largeList (.other _) => False

section written

variable {alloy : Alloy} {words : List B256}

theorem separateTopics_written (lawful : alloy.Lawful) {blanks : List (Option String)}
    (blank : ∀ cell ∈ blanks, isBlankCell cell) :
    separateTopics alloy (words.map (fun word => some (alloy.formatWord word)) ++ blanks) =
      some words := by
  induction words with
  | nil =>
      cases blanks with
      | nil => rfl
      | cons cell blanks =>
          have head := blank cell List.mem_cons_self
          have absent : (cell.filter fun text => !isBlank text) = none := by
            cases cell with
            | none => rfl
            | some text => simpa [isBlankCell] using head
          simp [separateTopics, absent]
  | cons word words ih =>
      have filled := (lawful.plainWord word).isBlank_eq
      simp [separateTopics, filled, parseWord_formatWord lawful, ih,
        Option.filter_some]

theorem listTopics_written (lawful : alloy.Lawful) :
    listTopics alloy (words.map fun word => some (alloy.formatWord word)) = some words := by
  rw [listTopics, mapM_eq_some_iff, List.map_map]
  exact List.map_congr_left fun word _ => parseWord_formatWord lawful word

variable {style : JoinStyle} {text : String} {texts : List String}

/-- What a written part consists of. -/
theorem JoinStyle.solid_of_mem_part (plain : IsPlain text) {c : Char}
    (member : c ∈ style.part text) : isQuote c ∨ c.isAlphanum := by
  have quotes : ∀ c ∈ style.quote, isQuote c := by
    rcases style.quoted with none | double | single
    · simp [none]
    · simp [double, isQuote]
    · simp [single, isQuote]
  simp only [JoinStyle.part, List.mem_append] at member
  rcases member with (before | inside) | after
  · exact Or.inl (quotes c before)
  · exact Or.inr (plain.2 c inside)
  · exact Or.inl (quotes c after)

/-- A character that is neither a quote nor plain is not in a written part. -/
theorem solid_ne {c d : Char} (solid : isQuote c ∨ c.isAlphanum) (quote : isQuote d = false)
    (plain : d.isAlphanum = false) : c ≠ d := by
  rintro rfl
  rcases solid with isQuote | isAlphanum
  · rw [quote] at isQuote
    cases isQuote
  · rw [plain] at isAlphanum
    cases isAlphanum

theorem not_isWhitespace_of_solid {c : Char} (solid : isQuote c ∨ c.isAlphanum) :
    isWhitespace c = false := by
  rcases solid with quote | plain
  · simp only [isQuote, Bool.or_eq_true, decide_eq_true_eq] at quote
    rcases quote with rfl | rfl
    · decide
    · decide
  · exact not_isWhitespace_of_isAlphanum plain

theorem JoinStyle.part_ne_nil (plain : IsPlain text) : style.part text ≠ [] := by
  simp [JoinStyle.part, plain.1]

/-- A written part trims down to its text. -/
theorem JoinStyle.trim_part (plain : IsPlain text) {space : List Char}
    (blank : ∀ c ∈ space, isWhitespace c) :
    trimMatches isQuote (trim (space ++ style.part text)) = text.toList := by
  have nonempty := style.part_ne_nil plain
  obtain ⟨first, head⟩ := Option.ne_none_iff_exists'.mp (mt List.head?_eq_none_iff.mp nonempty)
  obtain ⟨last, ends⟩ := Option.ne_none_iff_exists'.mp (mt List.getLast?_eq_none_iff.mp nonempty)
  have trimmed : trim (space ++ style.part text ++ []) = style.part text :=
    trim_append blank (by simp) head
      (not_isWhitespace_of_solid (solid_of_mem_part plain (List.mem_of_head? head))) ends
      (not_isWhitespace_of_solid (solid_of_mem_part plain (List.mem_of_getLast? ends)))
  rw [List.append_nil] at trimmed
  rw [trimmed]
  have quotes : ∀ c ∈ style.quote, isQuote c := by
    rcases style.quoted with none | double | single
    · simp [none]
    · simp [double, isQuote]
    · simp [single, isQuote]
  obtain ⟨a, start, plain_a⟩ := plain.exists_head
  obtain ⟨b, finish, plain_b⟩ := plain.exists_last
  exact trimMatches_append quotes quotes start (not_isQuote_of_isAlphanum plain_a) finish
    (not_isQuote_of_isAlphanum plain_b)

/-- A part after the first, or the first one. -/
theorem JoinStyle.mem_parts {part : List Char} (member : part ∈ style.parts texts) :
    ∃ text ∈ texts, ∃ space, (∀ c ∈ space, isWhitespace c) ∧ part = space ++ style.part text := by
  cases texts with
  | nil => cases member
  | cons first texts =>
      rcases List.mem_cons.mp member with rfl | later
      · exact ⟨first, List.mem_cons_self, [], by simp, rfl⟩
      · obtain ⟨text, listed, rfl⟩ := List.mem_map.mp later
        exact ⟨text, List.mem_cons_of_mem _ listed, style.space, style.blank, rfl⟩

theorem JoinStyle.trim_parts (plain : ∀ text ∈ texts, IsPlain text) :
    (style.parts texts).map (fun part => trimMatches isQuote (trim part)) =
      texts.map String.toList := by
  cases texts with
  | nil => rfl
  | cons first texts =>
      obtain ⟨plain_first, plain⟩ := List.forall_mem_cons.mp plain
      have nothing : ∀ c ∈ ([] : List Char), isWhitespace c := by simp
      have head : trimMatches isQuote (trim (style.part first)) = first.toList :=
        style.trim_part plain_first nothing
      rw [JoinStyle.parts, List.map_cons, List.map_map, List.map_cons, head]
      refine congrArg _ (List.map_congr_left fun text member => ?_)
      exact style.trim_part (plain text member) style.blank

/-- The joined parts start and end with characters that no trimming drops. -/
theorem JoinStyle.exists_ends (some_text : texts ≠ []) (plain : ∀ text ∈ texts, IsPlain text) :
    (∃ a, ([','].intercalate (style.parts texts)).head? = some a ∧
        (isQuote a ∨ a.isAlphanum)) ∧
      ∃ b, ([','].intercalate (style.parts texts)).getLast? = some b ∧
        (isQuote b ∨ b.isAlphanum) := by
  have some_part : style.parts texts ≠ [] := by
    cases texts with
    | nil => exact absurd rfl some_text
    | cons first texts => exact List.cons_ne_nil _ _
  obtain ⟨⟨back, starts⟩, front, ends⟩ := exists_intercalate_eq ',' some_part
  constructor
  · cases texts with
    | nil => exact absurd rfl some_text
    | cons first texts =>
        have plain_first := plain first List.mem_cons_self
        obtain ⟨a, head⟩ := Option.ne_none_iff_exists'.mp
          (mt List.head?_eq_none_iff.mp (style.part_ne_nil plain_first))
        refine ⟨a, ?_, solid_of_mem_part plain_first (List.mem_of_head? head)⟩
        rw [starts]
        exact (List.head?_append_of_ne_nil _ (style.part_ne_nil plain_first)).trans head
  · obtain ⟨text, listed, space, _, last⟩ := style.mem_parts (List.getLast_mem some_part)
    have plain_last := plain text listed
    obtain ⟨b, finish⟩ := Option.ne_none_iff_exists'.mp
      (mt List.getLast?_eq_none_iff.mp (style.part_ne_nil plain_last))
    refine ⟨b, ?_, solid_of_mem_part plain_last (List.mem_of_getLast? finish)⟩
    rw [ends, last, ← List.append_assoc,
      List.getLast?_append_of_ne_nil _ (style.part_ne_nil plain_last), finish]

/-- Trimming a written string leaves its joined parts. -/
theorem JoinStyle.trim_join {a b : Char}
    (head : ([','].intercalate (style.parts texts)).head? = some a)
    (solid_a : isQuote a ∨ a.isAlphanum)
    (last : ([','].intercalate (style.parts texts)).getLast? = some b)
    (solid_b : isQuote b ∨ b.isAlphanum) :
    trimEndMatches (· = ']') ((trim (style.join texts).toList).dropWhile (· = '[')) =
      [','].intercalate (style.parts texts) := by
  have nothing {p : Char → Bool} : ∀ c ∈ ([] : List Char), p c := by simp
  have open_stays : decide (a = '[') = false :=
    decide_eq_false (solid_ne solid_a (by decide) (by decide))
  have close_stays : decide (b = ']') = false :=
    decide_eq_false (solid_ne solid_b (by decide) (by decide))
  unfold JoinStyle.join
  generalize [','].intercalate (style.parts texts) = inner at head last
  have inner_ne : inner ≠ [] := by
    rintro rfl
    cases head
  rw [String.toList_ofList]
  split_ifs
  · have trimmed : trim ([] ++ '[' :: (inner ++ [']']) ++ []) = '[' :: (inner ++ [']']) :=
      trim_append nothing nothing (a := '[') rfl (by decide)
        (b := ']') (by simp [List.getLast?_cons]) (by decide)
    have opened : (['['] ++ (inner ++ [']'])).dropWhile (· = '[') = inner ++ [']'] :=
      dropWhile_append_of_head (by simp)
        ((List.head?_append_of_ne_nil _ inner_ne).trans head) open_stays
    rw [List.append_nil, List.nil_append] at trimmed
    rw [trimmed]
    exact (congrArg _ opened).trans (trimEndMatches_append (by simp) last close_stays)
  · have trimmed : trim ([] ++ inner ++ []) = inner :=
      trim_append nothing nothing head (not_isWhitespace_of_solid solid_a) last
        (not_isWhitespace_of_solid solid_b)
    have opened : ([] ++ inner).dropWhile (· = '[') = inner :=
      dropWhile_append_of_head nothing head open_stays
    have closed : trimEndMatches (· = ']') (inner ++ []) = inner :=
      trimEndMatches_append nothing last close_stays
    rw [List.append_nil, List.nil_append] at trimmed
    rw [List.nil_append] at opened
    rw [List.append_nil] at closed
    rw [trimmed, opened, closed]

/-- The parts of a written string are its topics. -/
theorem topicParts_join (some_text : texts ≠ []) (plain : ∀ text ∈ texts, IsPlain text) :
    topicParts (style.join texts) = texts := by
  obtain ⟨⟨a, head, solid_a⟩, b, last, solid_b⟩ := style.exists_ends some_text plain
  have body := style.trim_join head solid_a last solid_b
  have some_part : style.parts texts ≠ [] := by
    cases texts with
    | nil => exact absurd rfl some_text
    | cons first texts => exact List.cons_ne_nil _ _
  have free : ∀ part ∈ style.parts texts, ',' ∉ part := by
    intro part member comma
    obtain ⟨text, listed, space, blank, rfl⟩ := style.mem_parts member
    rcases List.mem_append.mp comma with outside | inside
    · exact absurd (blank _ outside) (by decide)
    · have solid := JoinStyle.solid_of_mem_part (plain text listed) inside
      exact solid_ne solid (d := ',') (by decide) (by decide) rfl
  have nonempty : ∀ text ∈ texts, decide (text ≠ "") = true :=
    fun text member => by simpa using (plain text member).1
  have parts : joinedParts (style.join texts) = texts := by
    unfold joinedParts
    simp only [body]
    rw [split_intercalate some_part free]
    have trimmed := congrArg (List.map String.ofList) (style.trim_parts plain)
    rw [List.map_map, List.map_map] at trimmed
    refine trimmed.trans ?_
    simp
  rw [topicParts, parts, List.filter_eq_self.mpr nonempty]

/-- A row that writes out some topics is read back. -/
theorem Topics.row_written (lawful : alloy.Lawful) {topics : Topics} {row : Nat}
    (some_word : words ≠ []) (written : topics.Writes alloy row words) :
    topics.row alloy row = some words := by
  cases topics with
  | separate t0 t1 t2 t3 =>
      obtain ⟨blanks, shape, blank⟩ := written
      exact (congrArg (separateTopics alloy) shape).trans (separateTopics_written lawful blank)
  | joined column =>
      obtain ⟨style, shown⟩ := written
      have plain : ∀ text ∈ words.map alloy.formatWord, IsPlain text :=
        List.forall_mem_map.mpr fun word _ => lawful.plainWord word
      have parts : topicParts (style.join (words.map alloy.formatWord)) =
          words.map alloy.formatWord := topicParts_join (mt List.map_eq_nil_iff.mp some_word) plain
      simp only [Topics.row]
      rw [shown, Option.bind_some, splitTopics, parts, mapM_eq_some_iff, List.map_map]
      exact List.map_congr_left fun word _ => parseWord_formatWord lawful word
  | list array =>
      cases array with
      | text rows =>
          simp only [Topics.row, ListColumn.topics, show rows[row]? = _ from written,
            Option.join_some]
          exact listTopics_written lawful
      | other valid => cases written
  | largeList array =>
      cases array with
      | text rows =>
          simp only [Topics.row, ListColumn.topics, show rows[row]? = _ from written,
            Option.join_some]
          exact listTopics_written lawful
      | other valid => cases written

end written

/-! ## The decoder -/

/-- A row that writes out an event of an accepted token decodes to it.  A row that
decodes to an event carries exactly its topics and data, if and only if no topic
column, and no part of a joined string, is filled after a blank one. -/
theorem decodeRow_exact (alloy : Alloy) (lawful : alloy.Lawful) :
    (∀ (event : Event) (row : Nat) (address : TextColumn) (topics : Topics) (data : TextColumn)
      (tokens : Finset Address), event.Fits → topics.Writes alloy row event.topics →
        address.value row = some (alloy.formatAddress event.token) →
        (tokens = ∅ ∨ event.token ∈ tokens) →
        (∀ word, event.data = some word → data.value row = some (alloy.formatWord word)) →
        decodeRow alloy row address topics data tokens = some event) ∧
    ∀ (row : Nat) (address : TextColumn) (topics : Topics) (data : TextColumn)
      (tokens : Finset Address) (event : Event),
      decodeRow alloy row address topics data tokens = some event →
        (CarriesExactly alloy (topics.cells row) event.topics ∧ DataRead alloy row data event ↔
          NoGap (topics.cells row)) := by
  have some_topic : ∀ event : Event, event.topics ≠ [] := by
    intro event
    cases event <;> exact List.cons_ne_nil _ _
  constructor
  · intro event row address topics data tokens fits written named accepted body
    refine decodeRow_eq_some_iff.mpr ⟨Topics.row_written lawful (some_topic event) written,
      ⟨_, named, ?_, accepted⟩, fun word own => ⟨_, body word own, parseWord_formatWord lawful word⟩,
      fits⟩
    rw [(lawful.plainAddress event.token).trim_eq, String.ofList_toList, lawful.address]
  · intro row address topics data tokens event decoded
    obtain ⟨read, -, body, -⟩ := decodeRow_eq_some_iff.mp decoded
    rw [and_iff_left body]
    exact Topics.carriesExactly_iff lawful.unreadable (some_topic event) read

/-! ## A topic after a blank column -/

section Demo

/-- Hex text as alloy reads and writes it. -/
def hexAlloy : Alloy where
  parseWord text := Hex.parse 64 text.toList
  parseAddress text := Hex.parse 40 text.toList
  formatWord word := String.ofList (Hex.format (n := 64) word)
  formatAddress address := String.ofList (Hex.format (n := 40) address)

theorem hexAlloy_lawful : hexAlloy.Lawful where
  word word := by simp [hexAlloy, Hex.parse_format]
  address address := by simp [hexAlloy, Hex.parse_format]
  plainWord word := by
    refine ⟨by simp [hexAlloy, Hex.format], fun c member => ?_⟩
    have member : c ∈ Hex.format (n := 64) word := by simpa [hexAlloy] using member
    exact Hex.isAlphanum_of_mem_format member
  plainAddress address := by
    refine ⟨by simp [hexAlloy, Hex.format], fun c member => ?_⟩
    have member : c ∈ Hex.format (n := 40) address := by simpa [hexAlloy] using member
    exact Hex.isAlphanum_of_mem_format member
  unreadable := by simp [hexAlloy, Hex.parse]

/-- An amount of 7 disclosed for the handle 1, by the token 0. -/
def disclosure : Event :=
  .amountDisclosed 0 1 7

/-- The topics of the disclosure, a null column, and one more topic. -/
def gappedTopics : Topics :=
  .separate [some (hexAlloy.formatWord amountDisclosedTopic)] [some (hexAlloy.formatWord 1)]
    [none] [some (hexAlloy.formatWord 2)]

/-- A row with a topic after a null column decodes to an event without it. -/
theorem gap_hides_topic : ¬ ∀ (alloy : Alloy), alloy.Lawful →
    ∀ (row : Nat) (address : TextColumn) (topics : Topics) (data : TextColumn)
      (tokens : Finset Address) (event : Event),
      decodeRow alloy row address topics data tokens = some event →
        CarriesExactly alloy (topics.cells row) event.topics ∧ DataRead alloy row data event := by
  intro exact_rows
  have filled (word : B256) := (hexAlloy_lawful.plainWord word).isBlank_eq
  have read : gappedTopics.row hexAlloy 0 = some disclosure.topics := by
    simp [gappedTopics, Topics.row, TextColumn.value, separateTopics, filled,
      parseWord_formatWord hexAlloy_lawful, disclosure, Event.topics, Option.filter_some]
  have named : hexAlloy.parseAddress (String.ofList (trim (hexAlloy.formatAddress 0).toList)) =
      some 0 := by
    rw [(hexAlloy_lawful.plainAddress 0).trim_eq, String.ofList_toList, hexAlloy_lawful.address]
  have decoded : decodeRow hexAlloy 0 [some (hexAlloy.formatAddress 0)] gappedTopics
      [some (hexAlloy.formatWord 7)] ∅ = some disclosure := by
    refine decodeRow_eq_some_iff.mpr ⟨read, ⟨_, rfl, named, Or.inl rfl⟩, fun word own => ?_, trivial⟩
    cases own
    exact ⟨_, rfl, parseWord_formatWord hexAlloy_lawful _⟩
  have carried := (exact_rows hexAlloy hexAlloy_lawful _ _ _ _ _ _ decoded).1
  have noGap := (Topics.carriesExactly_iff hexAlloy_lawful.unreadable (by decide) read).mp carried
  have gap : isBlankCell (some (hexAlloy.formatWord 2)) = true := by
    simp only [NoGap, gappedTopics, Topics.cells, TextColumn.value, List.pairwise_cons] at noGap
    exact noGap.2.2.1 _ (by simp) rfl
  exact absurd (gap.symm.trans (filled 2)) (by decide)

/-- The topics of the disclosure and two blank columns. -/
def disclosureTopics : Topics :=
  .separate [some (hexAlloy.formatWord amountDisclosedTopic)] [some (hexAlloy.formatWord 1)]
    [none] [some ""]

theorem decodeRow_exact_disclosure :
    decodeRow hexAlloy 0 [some (hexAlloy.formatAddress 0)] disclosureTopics
        [some (hexAlloy.formatWord 7)] ∅ = some disclosure ∧
      (CarriesExactly hexAlloy (disclosureTopics.cells 0) disclosure.topics ∧
          DataRead hexAlloy 0 [some (hexAlloy.formatWord 7)] disclosure ↔
        NoGap (disclosureTopics.cells 0)) := by
  obtain ⟨written, carried⟩ := decodeRow_exact hexAlloy hexAlloy_lawful
  have blank : ∀ cell ∈ [none, some ""], isBlankCell cell := by decide
  have decoded := written disclosure 0 [some (hexAlloy.formatAddress 0)] disclosureTopics
    [some (hexAlloy.formatWord 7)] ∅ trivial ⟨_, rfl, blank⟩ rfl (Or.inl rfl)
    (fun word own => by cases own; rfl)
  exact ⟨decoded, carried _ _ _ _ _ _ decoded⟩

end Demo

end StreamlingPlugins.Erc7984
