import StreamlingPlugins.Fallible
import StreamlingPlugins.Packing
import StreamlingPlugins.Sqs.Sink

/-!
# Packing rows into array bodies

`packArrayBodies` fills one JSON array after the other.  It counts the bytes of a body
as rows are added, brackets and separators included, and that count is the body's length.
-/

namespace StreamlingPlugins.Sqs

def brackets : Nat := 2

def separator : Nat := 1

/-- The bytes and the number of rows of a body that holds `taken` rows of `content` bytes,
once no more of the rows that follow fit. -/
def fillBody (maxBytes : Nat) : Nat → Nat → List String → Nat × Nat
  | content, taken, [] => (content, taken)
  | content, taken, row :: rows =>
    let cost := len row + if 0 < taken then separator else 0
    if 0 < taken ∧ maxBytes < brackets + content + cost then (content, taken)
    else fillBody maxBytes (content + cost) (taken + 1) rows

theorem taken_le_fillBody (maxBytes content taken : Nat) (rows : List String) :
    taken ≤ (fillBody maxBytes content taken rows).2 := by
  induction rows generalizing content taken with
  | nil => exact Nat.le_refl taken
  | cons row rows ih =>
      unfold fillBody
      by_cases full : 0 < taken ∧
          maxBytes < brackets + content + (len row + if 0 < taken then separator else 0)
      · rw [if_pos full]
      · rw [if_neg full]
        exact Nat.le_of_succ_le (ih _ (taken + 1))

/-- A body takes its first row whatever its length. -/
theorem fillBody_pos (maxBytes : Nat) (row : String) (rows : List String) :
    0 < (fillBody maxBytes 0 0 (row :: rows)).2 := by
  rw [fillBody, if_neg (by simp)]
  exact taken_le_fillBody maxBytes _ 1 rows

/-- Appends the rows from position `i` on to a body. -/
def pushRows (body : String) (i : Nat) : List String → String
  | [] => body
  | row :: rows => pushRows ((if 0 < i then body.push ',' else body) ++ row) (i + 1) rows

/-- Writes a body. -/
def writeBody (rows : List String) : String :=
  (pushRows ("".push '[') 0 rows).push ']'

/-- Packs rows into array bodies within the limit, a row that exceeds it alone being an
error. -/
def packArrayBodies (rows : List String) (maxBytes : Nat) : Except String (List String) :=
  match rows with
  | [] => .ok []
  | row :: rest =>
    let filled := fillBody maxBytes 0 0 (row :: rest)
    if maxBytes < brackets + filled.1 then
      .error ("sqs_sink: a single row is " ++ toString (len row) ++ " bytes, which exceeds the " ++
        toString maxBytes ++ " byte SQS payload limit even as the only element of an array body")
    else do
      let bodies ← packArrayBodies ((row :: rest).drop filled.2) maxBytes
      .ok (writeBody ((row :: rest).take filled.2) :: bodies)
termination_by rows.length
decreasing_by
  have pos := fillBody_pos maxBytes row rest
  simp only [List.length_drop, List.length_cons]
  omega

/-! ## The text of a body -/

/-- The rows in brackets, separated by commas. -/
def arrayBody (rows : List String) : String :=
  "[" ++ ",".intercalate rows ++ "]"

/-- Every row but the first comes with a comma before it. -/
theorem pushRows_append (body row : String) (i : Nat) (rows : List String) :
    pushRows (body ++ row) (i + 1) rows = body ++ ",".intercalate (row :: rows) := by
  induction rows generalizing body row i with
  | nil => simp [pushRows]
  | cons next rows ih =>
      have comma : (body ++ row).push ',' = body ++ row ++ "," :=
        String.push_eq_append ','
      rw [pushRows, if_pos i.succ_pos, comma, ih, String.intercalate_cons_cons]
      simp only [String.append_assoc]

theorem writeBody_eq (rows : List String) : writeBody rows = arrayBody rows := by
  cases rows with
  | nil => rfl
  | cons row rows =>
      rw [writeBody, pushRows, if_neg (Nat.lt_irrefl 0), pushRows_append, String.push_eq_append]
      rfl

/-! ## The bytes of a body -/

/-- The bytes of rows and of the commas between them. -/
def contentBytes (rows : List String) : Nat :=
  (rows.map len).sum + separator * (rows.length - 1)

theorem contentBytes_concat (rows : List String) (row : String) :
    contentBytes (rows ++ [row]) =
      contentBytes rows + (len row + if 0 < rows.length then separator else 0) := by
  cases rows with
  | nil => simp [contentBytes]
  | cons first rows =>
      simp only [contentBytes, separator, List.map_append, List.sum_append, List.length_append,
        List.map_cons, List.map_nil, List.sum_cons, List.sum_nil, List.length_cons,
        List.length_nil, Nat.zero_lt_succ, if_true]
      omega

theorem len_le_contentBytes {rows : List String} {row : String} (mem : row ∈ rows) :
    len row ≤ contentBytes rows := by
  have summand : len row ≤ (rows.map len).sum :=
    List.single_le_sum (fun _ _ => Nat.zero_le _) _ (List.mem_map_of_mem mem)
  unfold contentBytes
  omega

theorem len_append (a b : String) : len (a ++ b) = len a + len b := by
  simp [len]

theorem len_intercalate (row : String) (rows : List String) :
    len (",".intercalate (row :: rows)) = len row + (rows.map len).sum + rows.length := by
  induction rows generalizing row with
  | nil => simp
  | cons next rows ih =>
      have comma : len "," = 1 := rfl
      rw [String.intercalate_cons_cons, len_append, len_append, comma, ih, List.map_cons,
        List.sum_cons, List.length_cons]
      omega

theorem len_arrayBody (rows : List String) :
    len (arrayBody rows) = brackets + contentBytes rows := by
  have opening : len "[" = 1 := rfl
  have closing : len "]" = 1 := rfl
  have inner : len (",".intercalate rows) = contentBytes rows := by
    cases rows with
    | nil => rfl
    | cons row rows =>
        rw [len_intercalate]
        simp [contentBytes, separator]
  rw [arrayBody, len_append, len_append, opening, closing, inner]
  unfold brackets
  omega

/-! ## Filling one body -/

/-- A body that has rows goes on while rows fit, and stops before one that does not. -/
theorem fillBody_spec (maxBytes : Nat) (taken rows : List String) (started : taken ≠ []) :
    ∃ more rest, rows = more ++ rest ∧
      fillBody maxBytes (contentBytes taken) taken.length rows =
        (contentBytes (taken ++ more), (taken ++ more).length) ∧
      (more ≠ [] → brackets + contentBytes (taken ++ more) ≤ maxBytes) ∧
      ∀ row ∈ rest.head?, maxBytes < brackets + contentBytes (taken ++ more ++ [row]) := by
  induction rows generalizing taken with
  | nil => exact ⟨[], [], rfl, by simp [fillBody], nofun, nofun⟩
  | cons row rows ih =>
      have pos : 0 < taken.length := List.length_pos_iff.mpr started
      have grown := contentBytes_concat taken row
      rcases Nat.lt_or_ge maxBytes (brackets + contentBytes (taken ++ [row])) with exceeded | within
      · refine ⟨[], row :: rows, rfl, ?_, nofun, ?_⟩
        · rw [fillBody, if_pos ⟨pos, by omega⟩, List.append_nil]
        · rintro _ ⟨⟩
          simpa using exceeded
      · obtain ⟨more, rest, split, filled, fits, full⟩ := ih (taken ++ [row]) (by simp)
        refine ⟨row :: more, rest, by rw [split, List.cons_append], ?_, fun _ => ?_, ?_⟩
        · rw [fillBody, if_neg (by omega), ← grown]
          simpa using filled
        · cases more with
          | nil => exact within
          | cons next more => simpa using fits nofun
        · simpa using full

/-- The rows of the first body, which exceed the limit only where the first row does. -/
theorem packArrayBodies_cons (maxBytes : Nat) (row : String) (rows : List String) :
    ∃ more rest, rows = more ++ rest ∧
      (∀ next ∈ rest.head?, maxBytes < len (arrayBody (row :: more ++ [next]))) ∧
      ((maxBytes < len row + brackets ∧ ∃ e, packArrayBodies (row :: rows) maxBytes = .error e) ∨
        (len (arrayBody (row :: more)) ≤ maxBytes ∧
          packArrayBodies (row :: rows) maxBytes =
            packArrayBodies rest maxBytes >>= fun bodies =>
              .ok (arrayBody (row :: more) :: bodies))) := by
  obtain ⟨more, rest, split, filled, fits, full⟩ := fillBody_spec maxBytes [row] rows (by simp)
  have first : fillBody maxBytes 0 0 (row :: rows) =
      (contentBytes (row :: more), (row :: more).length) := by
    rw [fillBody, if_neg (by simp)]
    simpa [contentBytes] using filled
  refine ⟨more, rest, split, fun next at_head => ?_, ?_⟩
  · rw [len_arrayBody]
    exact full next at_head
  · simp only [packArrayBodies, first, len_arrayBody, writeBody_eq]
    rcases Nat.lt_or_ge maxBytes (brackets + contentBytes (row :: more)) with exceeded | within
    · have alone : more = [] := by
        by_contra filled_on
        exact absurd (fits filled_on) (by simpa using exceeded)
      subst alone
      have bytes : contentBytes [row] = len row := by simp [contentBytes]
      exact .inl ⟨by omega, _, if_pos exceeded⟩
    · refine .inr ⟨within, ?_⟩
      rw [if_neg (by omega), split, ← List.cons_append, List.drop_left, List.take_left]

/-- Packing fails exactly for a row that exceeds the limit alone, and otherwise cuts the
rows into bodies within the limit, none of which could have taken the first row of the
next. -/
theorem packArrayBodies_exact (rows : List String) (maxBytes : Nat) :
    ((∃ e, packArrayBodies rows maxBytes = .error e) ↔
        ∃ row ∈ rows, maxBytes < len row + 2) ∧
      ∀ bodies, packArrayBodies rows maxBytes = .ok bodies →
        ∃ pieces, bodies = pieces.map arrayBody ∧
          GreedyPieces (fun piece => len (arrayBody piece) ≤ maxBytes) rows pieces := by
  induction length : rows.length using Nat.strong_induction_on generalizing rows with
  | _ n ih =>
      cases rows with
      | nil =>
          rw [packArrayBodies]
          exact ⟨by simp, fun bodies packed => ⟨[], by cases packed; rfl, .nil⟩⟩
      | cons row rows =>
          obtain ⟨more, rest, split, full, first⟩ := packArrayBodies_cons maxBytes row rows
          have shorter : rest.length < n := by
            simp only [split, List.length_cons, List.length_append] at length
            omega
          obtain ⟨fails, packs⟩ := ih _ shorter rest rfl
          rcases first with ⟨exceeded, failed⟩ | ⟨within, packed⟩
          · refine ⟨iff_of_true failed ⟨row, List.mem_cons_self, exceeded⟩, fun bodies done => ?_⟩
            obtain ⟨e, failed⟩ := failed
            cases failed.symm.trans done
          · have fit : ∀ other ∈ row :: more, len other + 2 ≤ maxBytes := by
              intro other mem
              have part := len_le_contentBytes mem
              rw [len_arrayBody] at within
              unfold brackets at within
              omega
            rw [packed]
            constructor
            · have whole : row :: rows = row :: more ++ rest := by rw [split, List.cons_append]
              rw [whole]
              simp only [List.mem_append, or_and_right, exists_or]
              rw [← fails]
              constructor
              · rintro ⟨e, failed⟩
                cases rest_packed : packArrayBodies rest maxBytes with
                | error e => exact .inr ⟨e, rfl⟩
                | ok bodies =>
                    rw [rest_packed] at failed
                    cases failed
              · rintro (⟨other, mem, exceeded⟩ | ⟨e, failed⟩)
                · exact absurd (fit other mem) (by omega)
                · exact ⟨e, by rw [failed]; rfl⟩
            · intro bodies done
              obtain ⟨others, rest_packed, bodies_eq⟩ := bind_eq_ok done
              cases bodies_eq
              obtain ⟨pieces, rfl, cut⟩ := packs others rest_packed
              refine ⟨(row :: more) :: pieces, rfl, ?_⟩
              rw [split, ← List.cons_append]
              exact cut.cons nofun within fun next at_head => not_le.mpr (full next at_head)

end StreamlingPlugins.Sqs
