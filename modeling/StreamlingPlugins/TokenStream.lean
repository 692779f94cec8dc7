import Mathlib

/-!
# Values in a stream

A tokenizer reads one value after another from a stream that arrives in pieces.  It
keeps an unfinished value from piece to piece, and starts at most as many values as its
budget.

* `decode_append`: how the stream is cut into pieces does not matter.
* `decode_eq_ok_iff`: what has been read are the values of the stream.
-/

namespace StreamlingPlugins

/-- What an item does to the value before it: it is within it, its end, or after it. -/
inductive Progress (σ : Type)
  | inside (state : σ)
  | closes
  | follows

structure Tokenizer (α : Type) where
  State : Type
  blank : α → Bool
  enter : α → Except String State
  next : State → α → Except String (Progress State)

namespace Tokenizer

/-- The values that have been read, and the text of an unfinished one. -/
structure Tape {α : Type} (t : Tokenizer α) where
  values : List (List α)
  current : Option (List α × t.State)

section

variable {α : Type} {t : Tokenizer α}

def Tape.empty : Tape t :=
  ⟨[], none⟩

/-- Between two values: skips a blank, or starts a value if the budget allows one. -/
def between (budget : Nat) (values : List (List α)) (item : α) : Except String (Tape t × Bool) :=
  if t.blank item then .ok (⟨values, none⟩, true)
  else if budget ≤ values.length then .ok (⟨values, none⟩, false)
  else (t.enter item).map fun state => (⟨values, some ([item], state)⟩, true)

/-- Reads an item, unless the budget is spent. -/
def step (budget : Nat) (tape : Tape t) (item : α) : Except String (Tape t × Bool) :=
  match tape.current with
  | none => between budget tape.values item
  | some (text, state) =>
    match t.next state item with
    | .error e => .error e
    | .ok (.inside state) => .ok (⟨tape.values, some (text ++ [item], state)⟩, true)
    | .ok .closes => .ok (⟨tape.values ++ [text ++ [item]], none⟩, true)
    | .ok .follows => between budget (tape.values ++ [text]) item

/-- Reads a piece, and returns the items it did not read. -/
def decode (budget : Nat) : Tape t → List α → Except String (Tape t × List α)
  | tape, [] => .ok (tape, [])
  | tape, item :: items =>
    match step budget tape item with
    | .error e => .error e
    | .ok (tape, true) => decode budget tape items
    | .ok (tape, false) => .ok (tape, item :: items)

end

/-! ## The values of a stream -/

section

variable {α : Type} (t : Tokenizer α)

/-- A text that starts a value and does not end it. -/
inductive Reads : List α → t.State → Prop
  | enter {item : α} {state : t.State} :
    t.blank item = false → t.enter item = .ok state → Reads [item] state
  | inside {text : List α} {state state' : t.State} {item : α} :
    Reads text state → t.next state item = .ok (.inside state') → Reads (text ++ [item]) state'

/-- A value that its last item ends. -/
def Closed (value : List α) : Prop :=
  ∃ text state item, value = text ++ [item] ∧ t.Reads text state ∧ t.next state item = .ok .closes

/-- A value that only an item after it ends. -/
def EndsBefore (value : List α) (item : α) : Prop :=
  ∃ state, t.Reads value state ∧ t.next state item = .ok .follows

/-- The values that a stream consists of, with blanks around them. -/
inductive Stream : List α → List (List α) → Prop
  | nil : Stream [] []
  | blank {item : α} {items : List α} {values : List (List α)} :
    t.blank item = true → Stream items values → Stream (item :: items) values
  | closed {value items : List α} {values : List (List α)} :
    t.Closed value → Stream items values → Stream (value ++ items) (value :: values)
  | endsBefore {value items : List α} {item : α} {values : List (List α)} :
    t.EndsBefore value item → Stream (item :: items) values →
    Stream (value ++ item :: items) (value :: values)

end

/-- The text of the unfinished value. -/
def Tape.pending {α : Type} {t : Tokenizer α} (tape : Tape t) : List α :=
  (tape.current.map Prod.fst).getD []

/-- The pending text is within a value that the budget allowed. -/
structure Tape.Valid {α : Type} {t : Tokenizer α} (budget : Nat) (tape : Tape t) : Prop where
  within : tape.values.length ≤ budget
  reads : ∀ text state, tape.current = some (text, state) →
    t.Reads text state ∧ tape.values.length < budget

variable {α : Type} {t : Tokenizer α} {budget : Nat} {tape final : Tape t} {text items : List α}
  {values : List (List α)} {state : t.State} {item : α}

theorem Reads.head (reads : t.Reads text state) :
    ∃ item rest, text = item :: rest ∧ t.blank item = false := by
  induction reads with
  | enter not_blank _ => exact ⟨_, [], rfl, not_blank⟩
  | inside _ _ ih =>
      obtain ⟨first, rest, rfl, not_blank⟩ := ih
      exact ⟨first, _, List.cons_append, not_blank⟩

/-! ## Pieces -/

theorem decode_cons :
    decode budget tape (item :: items) =
      match step budget tape item with
      | .error e => .error e
      | .ok (tape, true) => decode budget tape items
      | .ok (tape, false) => .ok (tape, item :: items) :=
  rfl

theorem decode_cons_none :
    decode budget (⟨values, none⟩ : Tape t) (item :: items) =
      match between budget values item with
      | .error e => .error e
      | .ok (tape, true) => decode budget tape items
      | .ok (tape, false) => .ok (tape, item :: items) :=
  rfl

/-- A stream is read whole when its pieces are, one after another. -/
theorem decode_append {rest : List α} :
    decode budget tape (text ++ rest) = .ok (final, []) ↔
      ∃ mid, decode budget tape text = .ok (mid, []) ∧
        decode budget mid rest = .ok (final, []) := by
  induction text generalizing tape with
  | nil =>
      constructor
      · exact fun whole => ⟨tape, rfl, whole⟩
      · rintro ⟨mid, ⟨⟩, whole⟩
        exact whole
  | cons item text ih =>
      rw [List.cons_append, decode_cons, decode_cons]
      cases step budget tape item with
      | error e => simp
      | ok moved =>
          obtain ⟨tape', read⟩ := moved
          cases read with
          | true => exact ih
          | false => simp

theorem between_stops {final : Tape t} (stopped : between budget values item = .ok (final, false)) :
    final = ⟨values, none⟩ ∧ budget ≤ values.length ∧ t.blank item = false := by
  unfold between at stopped
  split at stopped
  · cases stopped
  · rename_i not_blank
    split at stopped
    · rename_i spent
      cases stopped
      exact ⟨rfl, spent, by simpa using not_blank⟩
    · cases entered : t.enter item with
      | error e =>
          rw [entered] at stopped
          cases stopped
      | ok state =>
          rw [entered] at stopped
          cases stopped

/-- Where the budget has stopped a piece, it stops the rest of it. -/
theorem decode_again {rest : List α} (some_rest : rest ≠ [])
    (stopped : decode budget tape items = .ok (final, rest)) :
    final.current = none ∧ decode budget final rest = .ok (final, rest) := by
  induction items generalizing tape with
  | nil =>
      cases stopped
      exact absurd rfl some_rest
  | cons item items ih =>
      rw [decode_cons] at stopped
      cases stepped : step budget tape item with
      | error e =>
          rw [stepped] at stopped
          cases stopped
      | ok moved =>
          obtain ⟨tape', read⟩ := moved
          rw [stepped] at stopped
          cases read with
          | true => exact ih stopped
          | false =>
              cases stopped
              have no_more : ∃ values, between budget values item = .ok (final, false) := by
                unfold step at stepped
                split at stepped
                · exact ⟨_, stepped⟩
                · split at stepped
                  · cases stepped
                  · cases stepped
                  · cases stepped
                  · exact ⟨_, stepped⟩
              obtain ⟨values, at_item⟩ := no_more
              obtain ⟨rfl, spent, not_blank⟩ := between_stops at_item
              exact ⟨rfl, by simp only [decode_cons_none, at_item]⟩

/-! ## What has been read -/

theorem decode_of_reads (reads : t.Reads text state) (allowed : values.length < budget)
    (items : List α) :
    decode budget ⟨values, none⟩ (text ++ items) =
      decode budget ⟨values, some (text, state)⟩ items := by
  induction reads generalizing items with
  | @enter item state not_blank entered =>
      have started : between budget values item = .ok (⟨values, some ([item], state)⟩, true) := by
        simp [between, not_blank, not_le.mpr allowed, entered, Except.map]
      rw [List.singleton_append, decode_cons_none, started]
  | @inside text state state' item _ within ih =>
      rw [List.append_assoc, List.singleton_append, ih]
      simp only [decode, step, within]

theorem decode_of_closed {value : List α} (closed : t.Closed value)
    (allowed : values.length < budget) (items : List α) :
    decode budget (⟨values, none⟩ : Tape t) (value ++ items) =
      decode budget ⟨values ++ [value], none⟩ items := by
  obtain ⟨text, state, item, rfl, reads, closes⟩ := closed
  rw [List.append_assoc, List.singleton_append, decode_of_reads reads allowed]
  simp only [decode, step, closes]

/-- An item that ends the value before it is then read as if after that value. -/
theorem decode_of_follows (follows : t.next state item = .ok .follows) (items : List α) :
    decode budget ⟨values, some (text, state)⟩ (item :: items) =
      decode budget ⟨values ++ [text], none⟩ (item :: items) := by
  simp only [decode, step, follows]

theorem decode_of_stream (stream : t.Stream items values) {read : List (List α)}
    (allowed : (read ++ values).length ≤ budget) :
    decode budget (⟨read, none⟩ : Tape t) items = .ok (⟨read ++ values, none⟩, []) := by
  induction stream generalizing read with
  | nil => rw [List.append_nil, decode]
  | @blank item items values blank _ ih =>
      have skipped : between budget read item = .ok ((⟨read, none⟩ : Tape t), true) := by
        simp [between, blank]
      rw [decode_cons_none, skipped]
      exact ih allowed
  | @closed value items values closed _ ih =>
      rw [List.append_cons read] at allowed ⊢
      rw [decode_of_closed closed (by simp at allowed; omega)]
      exact ih allowed
  | @endsBefore value items item values ends _ ih =>
      obtain ⟨state, reads, follows⟩ := ends
      rw [List.append_cons read] at allowed ⊢
      rw [decode_of_reads reads (by simp at allowed; omega), decode_of_follows follows]
      exact ih allowed

/-- The values of the unfinished text and what follows it. -/
theorem stream_of_decode (valid : tape.Valid budget)
    (decoded : decode budget tape items = .ok (⟨values, none⟩, [])) :
    ∃ more, values = tape.values ++ more ∧ t.Stream (tape.pending ++ items) more ∧
      values.length ≤ budget := by
  induction items generalizing tape with
  | nil =>
      cases decoded
      exact ⟨[], (List.append_nil _).symm, .nil, valid.within⟩
  | cons item items ih =>
      -- the item starts a value, or is a blank
      have after (read : List (List α)) (within : read.length ≤ budget)
          (decoded : decode budget (⟨read, none⟩ : Tape t) (item :: items) =
            .ok (⟨values, none⟩, [])) :
          ∃ more, values = read ++ more ∧ t.Stream (item :: items) more ∧
            values.length ≤ budget := by
        rw [decode_cons_none] at decoded
        unfold between at decoded
        by_cases blank : t.blank item
        · rw [if_pos blank] at decoded
          obtain ⟨more, values_eq, stream, bound⟩ := ih ⟨within, by simp⟩ decoded
          exact ⟨more, values_eq, .blank blank stream, bound⟩
        · rw [if_neg blank] at decoded
          by_cases spent : budget ≤ read.length
          · rw [if_pos spent] at decoded
            cases decoded
          · rw [if_neg spent] at decoded
            cases entered : t.enter item with
            | error e =>
                rw [entered] at decoded
                cases decoded
            | ok state =>
                rw [entered] at decoded
                have started : (⟨read, some ([item], state)⟩ : Tape t).Valid budget := by
                  refine ⟨within, ?_⟩
                  rintro text state' ⟨⟩
                  exact ⟨.enter (by simpa using blank) entered, not_le.mp spent⟩
                exact ih started decoded
      obtain ⟨read, current⟩ := tape
      cases current with
      | none => exact after read valid.within decoded
      | some current =>
          obtain ⟨text, state⟩ := current
          obtain ⟨reads, room⟩ := valid.reads text state rfl
          unfold decode step at decoded
          cases progress : t.next state item with
          | error e =>
              simp only [progress] at decoded
              cases decoded
          | ok moved =>
              simp only [progress] at decoded
              cases moved with
              | inside state' =>
                  have further : (⟨read, some (text ++ [item], state')⟩ : Tape t).Valid budget := by
                    refine ⟨valid.within, ?_⟩
                    rintro text' state'' ⟨⟩
                    exact ⟨.inside reads progress, room⟩
                  obtain ⟨more, values_eq, stream, bound⟩ := ih further decoded
                  refine ⟨more, values_eq, ?_, bound⟩
                  simpa [Tape.pending] using stream
              | closes =>
                  have closed : (⟨read ++ [text ++ [item]], none⟩ : Tape t).Valid budget :=
                    ⟨by simpa using room, by simp⟩
                  obtain ⟨more, values_eq, stream, bound⟩ := ih closed decoded
                  refine ⟨(text ++ [item]) :: more, by simp [values_eq], ?_, bound⟩
                  have := Stream.closed ⟨text, state, item, rfl, reads, progress⟩ stream
                  simpa [Tape.pending] using this
              | follows =>
                  obtain ⟨more, values_eq, stream, bound⟩ :=
                    after (read ++ [text]) (by simpa using room) decoded
                  exact ⟨text :: more, by simp [values_eq],
                    .endsBefore ⟨state, reads, progress⟩ stream, bound⟩

theorem decode_eq_ok_iff :
    decode budget (.empty : Tape t) items = .ok (⟨values, none⟩, []) ↔
      t.Stream items values ∧ values.length ≤ budget := by
  constructor
  · intro decoded
    have whole : (.empty : Tape t).Valid budget := ⟨Nat.zero_le _, by simp [Tape.empty]⟩
    obtain ⟨more, rfl, stream, bound⟩ := stream_of_decode whole decoded
    exact ⟨stream, bound⟩
  · rintro ⟨stream, bound⟩
    exact decode_of_stream stream bound

/-- A stream consists of only one list of values. -/
theorem Stream.unique {values' : List (List α)} (stream : t.Stream items values)
    (stream' : t.Stream items values') : values = values' := by
  have left := decode_eq_ok_iff.mpr ⟨stream, Nat.le_add_right values.length values'.length⟩
  have right := decode_eq_ok_iff.mpr ⟨stream', Nat.le_add_left values'.length values.length⟩
  have same := left.symm.trans right
  injection same with same
  injection (Prod.mk.inj same).1

/-- Values that each end themselves, one after another. -/
theorem stream_flatten (closed : ∀ value ∈ values, t.Closed value) :
    t.Stream values.flatten values := by
  induction values with
  | nil => exact .nil
  | cons value values ih =>
      obtain ⟨first, others⟩ := List.forall_mem_cons.mp closed
      exact .closed first (ih others)

theorem Stream.blanks (stream : t.Stream items []) : ∀ item ∈ items, t.blank item := by
  generalize none_eq : ([] : List (List α)) = none at stream
  induction stream with
  | nil => exact nofun
  | blank blank _ ih => exact List.forall_mem_cons.mpr ⟨blank, ih none_eq⟩
  | closed => cases none_eq
  | endsBefore => cases none_eq

end Tokenizer

end StreamlingPlugins
