import StreamlingPlugins.Utils.Rebuilding

/-!
# The lines are exact unless a list of size 0 loses its slots

A batch whose leaves can be read and sit in containers that are rebuilt becomes one exact line
for each row exactly when no list of size 0 is emptied in a way that reaches its columns.
-/

namespace StreamlingPlugins.Utils

open Arrow

section

variable {D : Type} {lib : DecimalLibrary D}

/-! ## Bytes that are not valid -/

theorem leavesAsText_of_unreadable {field : Field} {array : BufferedArray D field.dataType}
    {within : Bool} {container : Except ArrowError (Σ t, BufferedArray D t)}
    (bad : unreadableIn lib field array within = true)
    (fails : within = true → ∃ e, container = .error e) :
    ∃ e, leavesAsText lib field array container = .error e := by
  cases field with
  | mk name t nullable metadata =>
      rcases Bool.or_eq_true_iff.mp bad with leaf | nested
      · obtain ⟨marked, failed⟩ := Bool.and_eq_true_iff.mp leaf
        cases read : decimalArbText lib (.mk name t nullable metadata) array with
        | ok text => simp [read, Except.isOk, Except.toBool] at failed
        | error e => exact ⟨e, by simp [leavesAsText, marked, read, bind, Except.bind]⟩
      · obtain ⟨built, bad_within⟩ := Bool.and_eq_true_iff.mp nested
        obtain ⟨unmarked, nests⟩ : lib.isDecimalArbField (.mk name t nullable metadata) = false ∧
            nestsDecimalArb lib t = true := by
          simpa [isRebuilt] using built
        obtain ⟨e, rfl⟩ := fails bad_within
        exact ⟨e, by simp [leavesAsText, unmarked, nests, bind, Except.bind]⟩

mutual

/-- A leaf that cannot be read fails all that it is in. -/
theorem containerAsText_of_unreadable (name : String) {t : DataType} :
    (array : BufferedArray D t) → unreadable lib array = true →
      ∃ e, containerAsText lib name array = .error e
  | .struct _ columns _, bad => by
    obtain ⟨e, failed⟩ := columnsAsText_of_unreadable columns bad
    exact ⟨e, by rw [containerAsText, failed]; rfl⟩
  | @BufferedArray.list _ c _ values _, bad => by
    obtain ⟨e, failed⟩ := leavesAsText_of_unreadable bad
      (containerAsText_of_unreadable c.name values)
    exact ⟨e, by rw [containerAsText, failed]; rfl⟩
  | @BufferedArray.largeList _ c _ values _, bad => by
    obtain ⟨e, failed⟩ := leavesAsText_of_unreadable bad
      (containerAsText_of_unreadable c.name values)
    exact ⟨e, by rw [containerAsText, failed]; rfl⟩
  | @BufferedArray.fixedSizeList _ c _ _ values _, bad => by
    obtain ⟨e, failed⟩ := leavesAsText_of_unreadable bad
      (containerAsText_of_unreadable c.name values)
    exact ⟨e, by rw [containerAsText, failed]; rfl⟩
  | @BufferedArray.map _ c _ _ entries _, bad => by
    obtain ⟨e, failed⟩ := leavesAsText_of_unreadable bad
      (containerAsText_of_unreadable c.name entries)
    exact ⟨e, by rw [containerAsText, failed]; rfl⟩

theorem columnsAsText_of_unreadable {fields : Fields} : (columns : BufferedColumns D fields) →
    anyUnreadable lib columns = true → ∃ e, columnsAsText lib columns = .error e
  | @BufferedColumns.cons _ c _ values columns, bad => by
    rcases Bool.or_eq_true_iff.mp bad with first | later
    · obtain ⟨e, failed⟩ := leavesAsText_of_unreadable first
        (containerAsText_of_unreadable c.name values)
      exact ⟨e, by rw [columnsAsText, failed]; rfl⟩
    · obtain ⟨e, failed⟩ := columnsAsText_of_unreadable columns later
      cases head : leavesAsText lib c values (containerAsText lib c.name values) with
      | error e => exact ⟨e, by rw [columnsAsText, head]; rfl⟩
      | ok rebuilt => exact ⟨e, by rw [columnsAsText, head, failed]; rfl⟩

end

/-! ## Batches -/

section

variable {fields fields' : Fields} {columns : BufferedColumns D fields}
  {columns' : BufferedColumns D fields'} {n : Nat}

theorem ColumnsBecome.nulls_eq (become : ColumnsBecome lib columns columns')
    (nulls : columns.all fun field column => field.isNullable || !column.hasNull) :
    columns'.all fun field column => field.isNullable || !column.hasNull := by
  induction become with
  | nil => rfl
  | cons first later ih =>
      obtain ⟨here, there⟩ := Bool.and_eq_true_iff.mp nulls
      refine Bool.and_eq_true_iff.mpr ⟨?_, ih there⟩
      dsimp only
      rw [first.isNullable]
      rcases Bool.or_eq_true_iff.mp here with allowed | without
      · exact Bool.or_eq_true_iff.mpr (.inl allowed)
      · refine Bool.or_eq_true_iff.mpr (.inr ?_)
        rw [Bool.not_eq_true'] at without ⊢
        exact first.becomes.hasNull_eq_false isNull_fieldText without

theorem anyUnreadable_of_not_holds : {fields : Fields} → {columns : BufferedColumns D fields} →
    anyHoldsDecimalArb lib fields = false → anyUnreadable lib columns = false
  | _, .nil, _ => rfl
  | .cons (.mk _ _ _ _) _, .cons _ columns, without => by
    obtain ⟨first, later⟩ := Bool.or_eq_false_iff.mp without
    obtain ⟨unmarked, nests⟩ := Bool.or_eq_false_iff.mp first
    have readable : anyUnreadable lib columns = false := anyUnreadable_of_not_holds later
    simp [anyUnreadable, unreadableIn, isRebuilt, unmarked, nests, readable]

/-- Without a leaf nothing is rebuilt. -/
theorem shapes_of_not_holds : {fields : Fields} → {columns : BufferedColumns D fields} →
    anyHoldsDecimalArb lib fields = false →
      anyEmptied lib columns = false ∧ anyRefused lib columns = false
  | _, .nil, _ => ⟨rfl, rfl⟩
  | .cons (.mk _ _ _ _) _, .cons _ columns, without => by
    obtain ⟨first, later⟩ := Bool.or_eq_false_iff.mp without
    have nests := (Bool.or_eq_false_iff.mp first).2
    obtain ⟨kept, accepted⟩ : anyEmptied lib columns = false ∧ anyRefused lib columns = false :=
      shapes_of_not_holds later
    simp [anyEmptied, anyRefused, isRebuilt, nests, kept, accepted]

theorem batchTryNew_eq_ok {batch : BufferedBatch D}
    (made : BufferedBatch.tryNew fields columns = .ok batch) :
    batch = ⟨fields, columns, batch.numRows⟩ ∧
      columns.all fun _ column => column.length = batch.numRows := by
  unfold BufferedBatch.tryNew at made
  cases first : columns.firstLength with
  | none => simp [first] at made
  | some length =>
      simp only [first] at made
      split at made
      · cases made
      · split at made
        · cases made
        next same =>
          obtain rfl := Except.ok.inj made
          exact ⟨rfl, by simpa using same⟩

end

end

/-! ## Lines -/

/-- Lines without newlines are found again. -/
theorem splitOn_lines {lines : List (List UInt8)} (clean : ∀ line ∈ lines, newline ∉ line) :
    (lines.flatMap (· ++ [newline])).splitOn newline = lines ++ [[]] := by
  induction lines with
  | nil => rfl
  | cons line lines ih =>
      obtain ⟨first, later⟩ := List.forall_mem_cons.mp clean
      rw [List.flatMap_cons, List.append_assoc, List.singleton_append,
        List.splitOn_append_cons_self_of_not_mem first, ih later, List.cons_append]

section

variable {D : Type} {lib : JsonLibrary D}

/-- The lines of a batch are the objects of its rows. -/
theorem filter_splitOn_writeLines (batch : BufferedBatch D) :
    ((writeLines lib batch).splitOn newline).filter (fun line => !line.isEmpty) =
      (List.range batch.numRows).map fun i => lib.object (batch.columns.entries i) := by
  have written : writeLines lib batch = ((List.range batch.numRows).map fun i =>
      lib.object (batch.columns.entries i)).flatMap (· ++ [newline]) := by
    rw [writeLines, List.flatMap_map]
  have clean : ∀ line ∈ (List.range batch.numRows).map fun i =>
      lib.object (batch.columns.entries i), newline ∉ line := by
    intro line member
    obtain ⟨i, -, rfl⟩ := List.mem_map.mp member
    exact lib.newline_not_mem _
  rw [written, splitOn_lines clean, List.filter_append, List.filter_eq_self.mpr]
  · exact List.append_nil _
  · intro line member
    obtain ⟨i, -, rfl⟩ := List.mem_map.mp member
    simpa using lib.object_ne_nil _

theorem current_formed {batch now : BufferedBatch D} (formed : batch.WellFormed)
    (is_current : current lib batch = .ok now) : now.WellFormed ∧ now.numRows = batch.numRows := by
  unfold current at is_current
  cases upgrade : lib.upgradeLegacyWideIntBatch batch with
  | error e => simp [upgrade, Except.map] at is_current
  | ok upgraded =>
      simp only [upgrade, Except.map, Except.ok.injEq] at is_current
      cases upgraded with
      | none =>
          obtain rfl := is_current
          exact ⟨formed, rfl⟩
      | some batch' =>
          obtain rfl := is_current
          exact lib.upgraded upgrade formed

/-- A batch without leaves is written as it is. -/
theorem lines_of_not_holds {batch now : BufferedBatch D} (is_current : current lib batch = .ok now)
    (without : anyHoldsDecimalArb lib.toDecimalLibrary now.fields = false) :
    recordBatchToLineDelimitedJson lib batch = .ok (exactLines lib now) := by
  have same : columnsText lib.toDecimalLibrary now.fields = id := columnsText_eq_id without
  simp only [recordBatchToLineDelimitedJson, decimalArbColumnsAsText, is_current, Except.mapError,
    bind, Except.bind, without, Bool.not_false, if_true, pure, Except.pure,
    filter_splitOn_writeLines, exactLines, same, id]

/-- A batch whose columns are rebuilt is written as they are. -/
theorem lines_of_holds {batch now : BufferedBatch D} (is_current : current lib batch = .ok now)
    (holds : anyHoldsDecimalArb lib.toDecimalLibrary now.fields = true) :
    recordBatchToLineDelimitedJson lib batch = do
      let columns ← columnsAsText lib.toDecimalLibrary now.columns
      let batch ← (BufferedBatch.tryNew columns.1 columns.2).mapError ArrowError.rejected
      return (List.range batch.numRows).map fun i => lib.object (batch.columns.entries i) := by
  simp only [recordBatchToLineDelimitedJson, decimalArbColumnsAsText, is_current, Except.mapError,
    bind, Except.bind, holds, Bool.not_true, filter_splitOn_writeLines]
  cases columnsAsText lib.toDecimalLibrary now.columns <;> rfl

/-- A batch that may fail is written only where a leaf sits under another container. -/
theorem hasExactLines_of_mayFail {batch : BufferedBatch D} (may : mayFail lib batch) :
    HasExactLines lib batch := by
  cases is_current : current lib batch with
  | error e =>
      have failed : recordBatchToLineDelimitedJson lib batch =
          .error (.invalidArgumentError e) := by
        simp [recordBatchToLineDelimitedJson, decimalArbColumnsAsText, is_current, Except.mapError,
          bind, Except.bind]
      simpa only [HasExactLines, failed] using may
  | ok now =>
      cases lines : recordBatchToLineDelimitedJson lib batch with
      | error e => simpa only [HasExactLines, lines] using may
      | ok written =>
          simp only [HasExactLines, lines, is_current]
          have causes := may
          simp only [mayFail, is_current] at causes
          refine causes.imp_right fun bad => ?_
          have holds : anyHoldsDecimalArb lib.toDecimalLibrary now.fields = true := by
            by_contra without
            rw [anyUnreadable_of_not_holds (by simpa using without)] at bad
            cases bad
          obtain ⟨e, failed⟩ := columnsAsText_of_unreadable now.columns bad
          rw [lines_of_holds is_current holds, failed] at lines
          cases lines

/-- Batches whose leaves sit in the containers that are rebuilt and can be read. -/
theorem hasExactLines_iff_keepsSlots {batch now : BufferedBatch D} (formed : batch.WellFormed)
    (is_current : current lib batch = .ok now)
    (inside : anyLeafOutside lib.toDecimalLibrary now.fields = false)
    (readable : anyUnreadable lib.toDecimalLibrary now.columns = false) :
    HasExactLines lib batch ↔ keepsSlots lib batch := by
  obtain ⟨now_formed, numRows⟩ := current_formed formed is_current
  have may_not : ¬ mayFail lib batch := by simp [mayFail, is_current, inside, readable]
  cases holds : anyHoldsDecimalArb lib.toDecimalLibrary now.fields with
  | false =>
      have shapes : anyEmptied lib.toDecimalLibrary now.columns = false ∧
          anyRefused lib.toDecimalLibrary now.columns = false := shapes_of_not_holds holds
      simp [HasExactLines, lines_of_not_holds is_current holds, is_current, keepsSlots, shapes,
        exactLines, numRows]
  | true =>
      have become := columns_become now.columns now_formed.columns inside readable
      cases rebuilt : columnsAsText lib.toDecimalLibrary now.columns with
      | error e =>
          rw [rebuilt] at become
          have rejected : anyRefused lib.toDecimalLibrary now.columns = true := become
          simp [HasExactLines, lines_of_holds is_current holds, rebuilt, bind, Except.bind, may_not,
            keepsSlots, is_current, rejected]
      | ok columns =>
          rw [rebuilt] at become
          obtain ⟨accepted, become⟩ := become
          have nulls := become.nulls_eq now_formed.nulls
          cases gone : anyEmptied lib.toDecimalLibrary now.columns with
          | false =>
              have same := become.length_eq now_formed.columns gone
              have made : BufferedBatch.tryNew columns.1 columns.2 =
                  .ok ⟨columns.1, columns.2, now.numRows⟩ := by
                simp [BufferedBatch.tryNew, become.firstLength_eq holds same, nulls, same]
              have lines : recordBatchToLineDelimitedJson lib batch = .ok (exactLines lib now) := by
                rw [lines_of_holds is_current holds, rebuilt]
                simp only [bind, Except.bind, made, Except.mapError, pure, Except.pure, exactLines]
                refine congrArg Except.ok (List.map_congr_left fun i member => ?_)
                rw [become.entries_eq now_formed.columns gone (List.mem_range.mp member)]
              simp [HasExactLines, lines, is_current, keepsSlots, gone, accepted, exactLines,
                numRows]
          | true =>
              have loses : ¬ keepsSlots lib batch := by simp [keepsSlots, is_current, gone]
              refine iff_of_false (fun exact_lines => ?_) loses
              cases made : BufferedBatch.tryNew columns.1 columns.2 with
              | error rejection =>
                  have failed : recordBatchToLineDelimitedJson lib batch =
                      .error (.rejected rejection) := by
                    rw [lines_of_holds is_current holds, rebuilt]
                    simp [bind, Except.bind, made, Except.mapError]
                  simp only [HasExactLines, failed] at exact_lines
                  exact may_not exact_lines
              | ok rows =>
                  obtain ⟨-, same⟩ := batchTryNew_eq_ok made
                  obtain ⟨no_rows, some_row⟩ :=
                    become.eq_zero_of_anyEmptied now_formed.columns gone same
                  have lines : recordBatchToLineDelimitedJson lib batch = .ok [] := by
                    rw [lines_of_holds is_current holds, rebuilt]
                    simp [bind, Except.bind, made, Except.mapError, no_rows, pure, Except.pure]
                  simp only [HasExactLines, lines, is_current, inside] at exact_lines
                  rcases exact_lines with impossible | ⟨length, -⟩
                  · cases impossible
                  · rw [List.length_nil] at length
                    omega

/-- A batch becomes one exact line for each row, or is refused for a leaf under another container
or for bytes that are not valid, exactly unless a list of size 0 makes it lose its rows. -/
theorem hasExactLines_iff (lib : JsonLibrary D) (batch : BufferedBatch D)
    (formed : batch.WellFormed) :
    HasExactLines lib batch ↔ mayFail lib batch ∨ keepsSlots lib batch := by
  by_cases may : mayFail lib batch
  · exact iff_of_true (hasExactLines_of_mayFail may) (.inl may)
  · rw [or_iff_right may]
    cases is_current : current lib batch with
    | error e => simp [mayFail, is_current] at may
    | ok now =>
        simp only [mayFail, is_current, not_or, Bool.not_eq_true] at may
        exact hasExactLines_iff_keepsSlots formed is_current may.1 may.2

end

/-! ## A batch that loses its rows -/

def numberText : List UInt8 ⊕ String → List UInt8 ⊕ String
  | .inl bytes => .inr (toString (bytes.foldl (fun n byte => 256 * n + byte.toNat) 0))
  | .inr text => .inr text

/-- Leaves are the fields of one name, and their bytes a number. -/
def plainDecimals : DecimalLibrary (List UInt8 ⊕ String) where
  isDecimalArbField field := field.name = "amount"
  toStringArray _ values := .ok (values.map (Option.map numberText))
  text _ := numberText
  exact := by
    intro field values texts printed
    exact (Except.ok.inj printed).symm
  display _ := "FixedSizeList"

def leafJson : Value (List UInt8 ⊕ String) → String
  | .datum (.inr text) => "\"" ++ text ++ "\""
  | _ => "null"

def listJson : Value (List UInt8 ⊕ String) → String
  | .list values => "[" ++ ",".intercalate (values.map leafJson) ++ "]"
  | value => leafJson value

def plainJson : JsonLibrary (List UInt8 ⊕ String) where
  toDecimalLibrary := plainDecimals
  upgradeLegacyWideIntBatch _ := .ok none
  upgraded := by
    intro batch batch' upgraded
    cases upgraded
  object row := 123 :: ((",".intercalate (row.map fun entry =>
    "\"" ++ entry.1 ++ "\":" ++ listJson entry.2)).toUTF8.toList.filter (· ≠ newline) ++ [125])
  object_ne_nil row := List.cons_ne_nil _ _
  newline_not_mem row := by simp [newline]

def amount : Field := .new "amount" .largeBinary true

/-- Two rows of two amounts each, of which the second has a null. -/
def demoPairs : BufferedBatch (List UInt8 ⊕ String) where
  fields := .cons (.new "amounts" (.fixedSizeList amount 2) true) .nil
  columns := .cons (.fixedSizeList 2
    (.leaf rfl [some (.inl [5]), some (.inl [1, 0]), none, some (.inl [7])]) none) .nil
  numRows := 2

/-- One row with an empty list, in a fixed-size list of size 0 without a null buffer. -/
def demoEmptied : BufferedBatch (List UInt8 ⊕ String) where
  fields := .cons (.new "amounts" (.fixedSizeList amount 0) true) .nil
  columns := .cons (.fixedSizeList 1 (.leaf rfl []) none) .nil
  numRows := 1

theorem hasExactLines_iff_demo : HasExactLines plainJson demoPairs :=
  (hasExactLines_iff plainJson demoPairs
    ⟨⟨⟨trivial, by decide, rfl, rfl, rfl⟩, rfl, trivial⟩, rfl⟩).mpr (.inr ⟨rfl, rfl⟩)

/-- The row is lost: a well-formed batch, with one leaf type in a fixed-size list. -/
theorem not_hasExactLines_demo : demoEmptied.WellFormed ∧
    recordBatchToLineDelimitedJson plainJson demoEmptied = .ok [] ∧
    ¬ HasExactLines plainJson demoEmptied := by
  have formed : demoEmptied.WellFormed :=
    ⟨⟨⟨trivial, le_rfl, rfl, rfl, rfl⟩, rfl, trivial⟩, rfl⟩
  have lines : recordBatchToLineDelimitedJson plainJson demoEmptied = .ok [] := by rfl
  have lost : ¬ keepsSlots plainJson demoEmptied := by rintro ⟨kept, -⟩; cases kept
  exact ⟨formed, lines, (hasExactLines_iff_keepsSlots formed rfl rfl rfl).not.mpr lost⟩

end StreamlingPlugins.Utils
