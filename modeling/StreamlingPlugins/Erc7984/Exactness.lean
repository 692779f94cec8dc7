import StreamlingPlugins.Erc7984.Decode
import StreamlingPlugins.Fallible
import StreamlingPlugins.Hex

/-!
# What a decoded row carries

An event has the topics and data of its ABI-encoded log.  A row that writes them
out in any of the accepted shapes decodes to the event, and a decoded row carries
the topics of its event and nothing else, unless a topic column, or a part of a
joined string, is filled after a blank one.
-/

namespace StreamlingPlugins.Erc7984

open Arrow

/-! ## The log of an event -/

namespace Event

/-- The signature, then the indexed parameters. -/
def topics : Event → List B256
  | .confidentialTransfer _ fromAddress toAddress amountHandle =>
    [confidentialTransferTopic, fromAddress.setWidth 256, toAddress.setWidth 256, amountHandle]
  | .operatorSet _ holder operator _ =>
    [operatorSetTopic, holder.setWidth 256, operator.setWidth 256]
  | .amountDisclosed _ encryptedAmount _ => [amountDisclosedTopic, encryptedAmount]

/-- The word of the parameter that is not indexed, if there is one. -/
def data : Event → Option B256
  | .confidentialTransfer _ _ _ _ => none
  | .operatorSet _ _ _ untilTime => some (untilTime.setWidth 256)
  | .amountDisclosed _ _ amount => some (amount.setWidth 256)

/-- The expiry is a `uint48`. -/
def Fits : Event → Prop
  | .operatorSet _ _ _ untilTime => untilTime.toNat < 2 ^ 48
  | _ => True

end Event

theorem toNat_setWidth_word {n : Nat} (narrow : n ≤ 256) (value : BitVec n) :
    (value.setWidth 256).toNat = value.toNat := by
  rw [BitVec.toNat_setWidth]
  exact Nat.mod_eq_of_lt (value.isLt.trans_le (Nat.pow_le_pow_right (by decide) narrow))

theorem wordToAddress_eq_some_iff {word : B256} {address : Address} :
    wordToAddress word = some address ↔ word = address.setWidth 256 := by
  have high : (word.extractLsb' 160 96 = 0#96) ↔ word.toNat < 2 ^ 160 := by
    have bound := word.isLt
    rw [BitVec.toNat_eq, BitVec.extractLsb'_toNat, Nat.shiftRight_eq_div_pow, BitVec.toNat_ofNat]
    omega
  unfold wordToAddress
  simp only [high]
  constructor
  · intro found
    split at found
    · rename_i narrow
      cases found
      apply BitVec.eq_of_toNat_eq
      rw [toNat_setWidth_word (by decide), BitVec.toNat_setWidth, Nat.mod_eq_of_lt narrow]
    · cases found
  · intro padded
    subst padded
    rw [toNat_setWidth_word (by decide), if_pos address.isLt]
    simp

theorem wordToUint_eq_some_iff {word : B256} {bits : Nat} {value : BitVec 64} :
    wordToUint word bits = some value ↔
      word = value.setWidth 256 ∧ (64 ≤ bits ∨ value.toNat < 2 ^ bits) := by
  have shifted (v : BitVec 64) : v >>> bits = 0#64 ↔ v.toNat < 2 ^ bits := by
    rw [BitVec.toNat_eq, BitVec.toNat_ushiftRight, Nat.shiftRight_eq_div_pow]
    simp [Nat.div_eq_zero_iff]
  unfold wordToUint
  simp only [shifted]
  constructor
  · intro found
    split_ifs at found with narrow fits
    cases found
    refine ⟨?_, fits⟩
    apply BitVec.eq_of_toNat_eq
    rw [toNat_setWidth_word (by decide), BitVec.toNat_setWidth, Nat.mod_eq_of_lt narrow]
  · intro ⟨padded, fits⟩
    subst padded
    rw [toNat_setWidth_word (by decide), if_pos value.isLt]
    simp [fits]

/-! ## Decoding, by the event -/

section decoding

variable {alloy : Alloy} {row : Nat} {address data : TextColumn} {topics : Topics}
  {tokens : Finset Address} {event : Event}

/-- The row names an accepted token. -/
def TokenRead (alloy : Alloy) (row : Nat) (address : TextColumn) (tokens : Finset Address)
    (token : Address) : Prop :=
  ∃ text, address.value row = some text ∧
    alloy.parseAddress (String.ofList (trim text.toList)) = some token ∧
    (tokens = ∅ ∨ token ∈ tokens)

/-- The row's data is the event's word, if the event has one. -/
def DataRead (alloy : Alloy) (row : Nat) (data : TextColumn) (event : Event) : Prop :=
  ∀ word, event.data = some word →
    ∃ text, data.value row = some text ∧ parseWord alloy text = some word

/-- A row that goes on past its token has an accepted one. -/
theorem tokenRead_of_bind {next : Address → Option Event}
    (decoded : (do
      let text ← address.value row
      let token ← alloy.parseAddress (String.ofList (trim text.toList))
      if tokens ≠ ∅ ∧ token ∉ tokens then none else next token) = some event) :
    ∃ token, TokenRead alloy row address tokens token ∧ next token = some event := by
  obtain ⟨text, shown, decoded⟩ := Option.bind_eq_some_iff.mp decoded
  obtain ⟨token, parsed, decoded⟩ := Option.bind_eq_some_iff.mp decoded
  split_ifs at decoded with refused
  exact ⟨token, ⟨text, shown, parsed, by tauto⟩, decoded⟩

/-- A row decodes to an event exactly if its topics, token and data are the
event's. -/
theorem decodeRow_eq_some_iff : decodeRow alloy row address topics data tokens = some event ↔
    topics.row alloy row = some event.topics ∧ TokenRead alloy row address tokens event.token ∧
      DataRead alloy row data event ∧ event.Fits := by
  constructor
  · intro decoded
    unfold decodeRow at decoded
    obtain ⟨words, read, after_topics⟩ := Option.bind_eq_some_iff.mp decoded
    obtain ⟨selector, first, of_selector⟩ := Option.bind_eq_some_iff.mp after_topics
    clear decoded after_topics
    split_ifs at of_selector with other transfer operator
    · obtain ⟨token, accepted, decoded⟩ := tokenRead_of_bind of_selector
      clear of_selector
      split at decoded
      · rename_i t0 t1 t2 t3
        obtain ⟨fromAddress, party, decoded⟩ := Option.bind_eq_some_iff.mp decoded
        obtain ⟨toAddress, party', decoded⟩ := Option.bind_eq_some_iff.mp decoded
        cases decoded
        obtain rfl : t0 = selector := Option.some.inj first
        refine ⟨?_, accepted, fun word absent => (nomatch absent), trivial⟩
        rw [read, transfer, wordToAddress_eq_some_iff.mp party, wordToAddress_eq_some_iff.mp party']
        rfl
      · cases decoded
    · obtain ⟨token, accepted, decoded⟩ := tokenRead_of_bind of_selector
      clear of_selector
      split at decoded
      · rename_i t0 t1 t2
        obtain ⟨holder, party, decoded⟩ := Option.bind_eq_some_iff.mp decoded
        obtain ⟨operator', party', decoded⟩ := Option.bind_eq_some_iff.mp decoded
        obtain ⟨body, present, decoded⟩ := Option.bind_eq_some_iff.mp decoded
        obtain ⟨word, hex, decoded⟩ := Option.bind_eq_some_iff.mp decoded
        obtain ⟨untilTime, uint, decoded⟩ := Option.bind_eq_some_iff.mp decoded
        cases decoded
        obtain rfl : t0 = selector := Option.some.inj first
        obtain ⟨rfl, fits⟩ := wordToUint_eq_some_iff.mp uint
        refine ⟨?_, accepted, fun word' own => ?_, fits.resolve_left (by decide)⟩
        · rw [read, operator, wordToAddress_eq_some_iff.mp party,
            wordToAddress_eq_some_iff.mp party']
          rfl
        · cases own
          exact ⟨body, present, hex⟩
      · cases decoded
    · obtain ⟨token, accepted, decoded⟩ := tokenRead_of_bind of_selector
      clear of_selector
      have disclosed : selector = amountDisclosedTopic := by
        by_contra none_of_them
        exact other ⟨transfer, operator, none_of_them⟩
      split at decoded
      · rename_i t0 t1
        obtain ⟨body, present, decoded⟩ := Option.bind_eq_some_iff.mp decoded
        obtain ⟨word, hex, decoded⟩ := Option.bind_eq_some_iff.mp decoded
        obtain ⟨amount, uint, decoded⟩ := Option.bind_eq_some_iff.mp decoded
        cases decoded
        obtain rfl : t0 = selector := Option.some.inj first
        obtain ⟨rfl, -⟩ := wordToUint_eq_some_iff.mp uint
        refine ⟨?_, accepted, fun word' own => ?_, trivial⟩
        · rw [read, disclosed]
          rfl
        · cases own
          exact ⟨body, present, hex⟩
      · cases decoded
  · intro ⟨read, ⟨text, shown, parsed, accepted⟩, body, fits⟩
    have allowed : ¬ (tokens ≠ ∅ ∧ event.token ∉ tokens) := by tauto
    have operator_ne : operatorSetTopic ≠ confidentialTransferTopic := by decide
    have disclosed_ne : amountDisclosedTopic ≠ confidentialTransferTopic := by decide
    have disclosed_ne' : amountDisclosedTopic ≠ operatorSetTopic := by decide
    cases event with
    | confidentialTransfer token fromAddress toAddress amountHandle =>
        have party := wordToAddress_eq_some_iff.mpr (rfl : fromAddress.setWidth 256 = _)
        have party' := wordToAddress_eq_some_iff.mpr (rfl : toAddress.setWidth 256 = _)
        simp only [Event.topics, Event.token] at read parsed allowed
        simp [decodeRow, read, shown, parsed, allowed, party, party']
    | operatorSet token holder operator untilTime =>
        obtain ⟨bytes, present, hex⟩ := body _ rfl
        have party := wordToAddress_eq_some_iff.mpr (rfl : holder.setWidth 256 = _)
        have party' := wordToAddress_eq_some_iff.mpr (rfl : operator.setWidth 256 = _)
        have uint : wordToUint (untilTime.setWidth 256) 48 = some untilTime :=
          wordToUint_eq_some_iff.mpr ⟨rfl, Or.inr fits⟩
        simp only [Event.topics, Event.token] at read parsed allowed
        simp [decodeRow, read, shown, parsed, allowed, party, party', operator_ne, present, hex, uint]
    | amountDisclosed token encryptedAmount amount =>
        obtain ⟨bytes, present, hex⟩ := body _ rfl
        have uint : wordToUint (amount.setWidth 256) 64 = some amount :=
          wordToUint_eq_some_iff.mpr ⟨rfl, Or.inl (Nat.le_refl 64)⟩
        simp only [Event.topics, Event.token] at read parsed allowed
        simp [decodeRow, read, shown, parsed, allowed, disclosed_ne, disclosed_ne', present, hex, uint]

end decoding

/-! ## Topic cells -/

def ListColumn.cells (array : ListColumn) (row : Nat) : List (Option String) :=
  match array with
  | .text rows => (rows[row]?.join).getD []
  | .other _ => []

/-- Where a row may carry a topic: its four columns, the elements of its list, or
the parts of its string, the blank ones among them. -/
def Topics.cells (topics : Topics) (row : Nat) : List (Option String) :=
  match topics with
  | .separate t0 t1 t2 t3 => [t0.value row, t1.value row, t2.value row, t3.value row]
  | .joined column => (((column.value row).map joinedParts).getD []).map some
  | .list array => ListColumn.cells array row
  | .largeList array => ListColumn.cells array row

def isBlankCell (cell : Option String) : Bool :=
  cell.all isBlank

/-- The cells are exactly some topics, in order, and blank after them. -/
def CarriesExactly (alloy : Alloy) (cells : List (Option String)) (words : List B256) : Prop :=
  ∃ (texts : List String) (blanks : List (Option String)), cells = texts.map some ++ blanks ∧
    (∀ text ∈ texts, isBlank text = false) ∧
    (∀ cell ∈ blanks, isBlankCell cell) ∧ texts.map (parseWord alloy) = words.map some

/-- No cell is filled after a blank one. -/
def NoGap (cells : List (Option String)) : Prop :=
  cells.Pairwise fun earlier later => isBlankCell earlier → isBlankCell later

section cells

variable {alloy : Alloy} {cells : List (Option String)} {words : List B256}

theorem carriesExactly_nil_iff : CarriesExactly alloy cells [] ↔ ∀ cell ∈ cells, isBlankCell cell := by
  constructor
  · intro ⟨texts, blanks, shape, _, blank, parsed⟩
    rw [List.map_nil, List.map_eq_nil_iff] at parsed
    rw [shape, parsed]
    exact blank
  · intro blank
    exact ⟨[], cells, rfl, by simp, blank, rfl⟩

theorem carriesExactly_cons_iff {text : String} (filled : isBlank text = false) {word : B256}
    (read : parseWord alloy text = some word) :
    CarriesExactly alloy (some text :: cells) (word :: words) ↔
      CarriesExactly alloy cells words := by
  constructor
  · intro ⟨texts, blanks, shape, nonblank, blank, parsed⟩
    cases texts with
    | nil => cases parsed
    | cons first texts =>
        rw [List.map_cons, List.map_cons] at parsed
        rw [List.map_cons, List.cons_append] at shape
        exact ⟨texts, blanks, (List.cons.inj shape).2,
          fun t member => nonblank t (List.mem_cons_of_mem _ member), blank,
          (List.cons.inj parsed).2⟩
  · intro ⟨texts, blanks, shape, nonblank, blank, parsed⟩
    exact ⟨text :: texts, blanks, by rw [shape, List.map_cons, List.cons_append],
      List.forall_mem_cons.mpr ⟨filled, nonblank⟩, blank, by simp [read, parsed]⟩

/-- Nothing is carried after a blank cell. -/
theorem carriesExactly_cons_blank {cell : Option String} (blank : isBlankCell cell) :
    CarriesExactly alloy (cell :: cells) words ↔
      words = [] ∧ ∀ c ∈ cell :: cells, isBlankCell c := by
  constructor
  · intro carried
    cases words with
    | nil => exact ⟨rfl, carriesExactly_nil_iff.mp carried⟩
    | cons word words =>
        obtain ⟨texts, blanks, shape, nonblank, _, parsed⟩ := carried
        cases texts with
        | nil => cases parsed
        | cons first texts =>
            obtain rfl : cell = some first := (List.cons.inj shape).1
            have filled := nonblank first List.mem_cons_self
            exact absurd (filled.symm.trans blank) (by decide)
  · rintro ⟨rfl, all⟩
    exact carriesExactly_nil_iff.mpr all

theorem noGap_cons_blank {cell : Option String} (blank : isBlankCell cell) :
    NoGap (cell :: cells) ↔ ∀ c ∈ cell :: cells, isBlankCell c := by
  rw [NoGap, List.pairwise_cons, List.forall_mem_cons]
  constructor
  · intro ⟨later, _⟩
    exact ⟨blank, fun c member => later c member blank⟩
  · intro ⟨_, all⟩
    exact ⟨fun c member _ => all c member,
      List.pairwise_of_forall_mem_list fun _ _ c member _ => all c member⟩

theorem noGap_cons_filled {text : String} (filled : isBlank text = false) :
    NoGap (some text :: cells) ↔ NoGap cells := by
  have head : isBlankCell (some text) = false := filled
  rw [NoGap, NoGap, List.pairwise_cons, and_iff_right]
  intro c _ blank
  rw [head] at blank
  cases blank

/-- Reading up to the first blank column sees every topic unless there is a gap. -/
theorem carriesExactly_separate_iff (read : separateTopics alloy cells = some words) :
    CarriesExactly alloy cells words ↔ NoGap cells := by
  induction cells generalizing words with
  | nil =>
      cases read
      simp [carriesExactly_nil_iff, NoGap]
  | cons cell cells ih =>
      unfold separateTopics at read
      split at read
      · rename_i text present
        obtain ⟨shown, filled⟩ := Option.filter_eq_some_iff.mp present
        obtain ⟨word, parsed, rest⟩ := Option.bind_eq_some_iff.mp read
        obtain ⟨words', tail, done⟩ := Option.bind_eq_some_iff.mp rest
        cases done
        have filled : isBlank text = false := by simpa using filled
        rw [shown, carriesExactly_cons_iff filled parsed, noGap_cons_filled filled]
        exact ih tail
      · rename_i absent
        cases read
        have blank : isBlankCell cell := by
          rw [Option.filter_eq_none_iff] at absent
          cases cell with
          | none => rfl
          | some text => simpa [isBlankCell] using absent text rfl
        rw [carriesExactly_nil_iff, noGap_cons_blank blank]

theorem isBlank_of_parseWord (unreadable : alloy.parseWord "" = none) {text : String} {word : B256}
    (parsed : parseWord alloy text = some word) : isBlank text = false := by
  by_contra blank
  have empty : trim text.toList = [] := by simpa [isBlank] using blank
  unfold parseWord at parsed
  rw [empty] at parsed
  exact Option.some_ne_none word (parsed.symm.trans unreadable)

/-- Reading the parts that are not empty sees them in order, whatever lies between. -/
theorem carriesExactly_joined_iff (unreadable : alloy.parseWord "" = none) {parts : List String}
    (read : (parts.filter (· ≠ "")).map (parseWord alloy) = words.map some) :
    CarriesExactly alloy (parts.map some) words ↔ NoGap (parts.map some) := by
  induction parts generalizing words with
  | nil =>
      obtain rfl : words = [] := by simpa using read
      simp [carriesExactly_nil_iff, NoGap]
  | cons part parts ih =>
      by_cases empty : part = ""
      · subst empty
        have blank : isBlankCell (some "") := rfl
        rw [List.map_cons, carriesExactly_cons_blank blank, noGap_cons_blank blank,
          and_iff_right_iff_imp]
        intro all
        -- A part that parses would not be blank.
        cases words with
        | nil => rfl
        | cons word words =>
            have listed : some word ∈ (word :: words).map some := List.mem_cons_self
            obtain ⟨text, kept, parsed⟩ := List.mem_map.mp (read ▸ listed)
            have member : some text ∈ ("" :: parts).map some :=
              List.mem_map_of_mem (List.mem_of_mem_filter kept)
            have filled := isBlank_of_parseWord unreadable parsed
            exact absurd (filled.symm.trans (all _ member)) (by decide)
      · rw [List.filter_cons_of_pos (by simpa using empty), List.map_cons] at read
        cases words with
        | nil => cases read
        | cons word words =>
            obtain ⟨parsed, tail⟩ := List.cons.inj read
            have filled := isBlank_of_parseWord unreadable parsed
            rw [List.map_cons, carriesExactly_cons_iff filled parsed, noGap_cons_filled filled]
            exact ih tail

/-- Cells that all parse are topics without a gap. -/
theorem carriesExactly_of_all (unreadable : alloy.parseWord "" = none)
    (read : cells.map (fun cell => cell.bind (parseWord alloy)) = words.map some) :
    CarriesExactly alloy cells words ∧ NoGap cells := by
  induction cells generalizing words with
  | nil =>
      rw [List.map_nil, eq_comm, List.map_eq_nil_iff] at read
      rw [read, carriesExactly_nil_iff]
      exact ⟨by simp, List.Pairwise.nil⟩
  | cons cell cells ih =>
      cases words with
      | nil => cases read
      | cons word words =>
          obtain ⟨head, tail⟩ := List.cons.inj read
          obtain ⟨text, rfl, parsed⟩ := Option.bind_eq_some_iff.mp head
          have filled := isBlank_of_parseWord unreadable parsed
          rw [carriesExactly_cons_iff filled parsed, noGap_cons_filled filled]
          exact ih tail

theorem ListColumn.carriesExactly (unreadable : alloy.parseWord "" = none) {array : ListColumn}
    {row : Nat} (some_word : words ≠ [])
    (read : ListColumn.topics alloy array row = some words) :
    CarriesExactly alloy (ListColumn.cells array row) words ∧
      NoGap (ListColumn.cells array row) := by
  cases array with
  | text rows =>
      simp only [ListColumn.topics] at read
      simp only [ListColumn.cells]
      cases present : rows[row]?.join with
      | none =>
          rw [present] at read
          cases read
          exact absurd rfl some_word
      | some values =>
          rw [present] at read
          exact carriesExactly_of_all unreadable (mapM_eq_some_iff.mp read)
  | other valid =>
      simp only [ListColumn.topics] at read
      split at read
      · cases read
      · cases read
        exact absurd rfl some_word

/-- A row whose topics were read carries exactly these topics if and only if it has
no gap. -/
theorem Topics.carriesExactly_iff (unreadable : alloy.parseWord "" = none) {topics : Topics}
    {row : Nat} (some_word : words ≠ []) (read : topics.row alloy row = some words) :
    CarriesExactly alloy (topics.cells row) words ↔ NoGap (topics.cells row) := by
  cases topics with
  | separate t0 t1 t2 t3 => exact carriesExactly_separate_iff read
  | joined column =>
      obtain ⟨text, shown, parts⟩ := Option.bind_eq_some_iff.mp read
      simp only [Topics.cells, shown, Option.map_some, Option.getD_some]
      exact carriesExactly_joined_iff unreadable (mapM_eq_some_iff.mp parts)
  | list array =>
      obtain ⟨exact, noGap⟩ := ListColumn.carriesExactly unreadable some_word read
      exact iff_of_true exact noGap
  | largeList array =>
      obtain ⟨exact, noGap⟩ := ListColumn.carriesExactly unreadable some_word read
      exact iff_of_true exact noGap

end cells

end StreamlingPlugins.Erc7984
