import StreamlingPlugins.Fallible
import StreamlingPlugins.PostgresCdc.CellTexts
import StreamlingPlugins.PostgresCdc.RowBatch

/-!
# What a source delivers of an event

Each row of a source holds, in every output column, the cell that the event's image carries
for the column of that name, and the batch built of the rows has one record for each.
-/

namespace StreamlingPlugins.PostgresCdc

open Arrow (DataType Field)

/-! ## Images by column name -/

section

variable {Cell : Type}

/-- The columns from an index on that an image is not missing. -/
def presentFrom (idx : Nat) (columns : List String) (missing : List Nat) : List String :=
  ((columns.zipIdx idx).filter fun entry => entry.2 ∉ missing).map Prod.fst

/-- The cells of an image, each with the name of its column. -/
def OldTableRow.cells (schema : ReplicatedTableSchema) : OldTableRow Cell → List (String × Cell)
  | .full row => schema.columnSchemas.zip row
  | .key row => schema.identityColumnSchemas.zip row

def UpdatedTableRow.cells (schema : ReplicatedTableSchema) :
    UpdatedTableRow Cell → List (String × Cell)
  | .full row => schema.columnSchemas.zip row
  | .partialRow values missing => (presentFrom 0 schema.columnSchemas missing).zip values

/-- An image in the output columns: the cell that it carries for each name. -/
def inColumns (dataColumns : List String) (cells : List (String × Cell)) : List (Option Cell) :=
  dataColumns.map fun column => cells.lookup column

end

section

variable {Cell : Type} {self : RowConverter}

theorem presentFrom_cons {idx : Nat} {col : String} {cols : List String} {missing : List Nat} :
    presentFrom idx (col :: cols) missing =
      if idx ∈ missing then presentFrom (idx + 1) cols missing
      else col :: presentFrom (idx + 1) cols missing := by
  unfold presentFrom
  rw [List.zipIdx_cons]
  by_cases member : idx ∈ missing
  · simp [member]
  · simp [member]

/-- An index before those of the columns makes no difference. -/
theorem presentFrom_of_lt {idx m : Nat} {cols : List String} {missing : List Nat}
    (before : m < idx) :
    presentFrom idx cols (m :: missing) = presentFrom idx cols missing := by
  unfold presentFrom
  refine congrArg _ (List.filter_congr fun entry member => ?_)
  have later := List.le_snd_of_mem_zipIdx member
  have other : entry.2 ≠ m := by omega
  simp [other]

/-- With ascending indexes missing, the loop writes every value at its own column. -/
theorem alignedFrom_eq {idx : Nat} {cols : List String} {vals : List Cell} {missing : List Nat}
    {out : List (Option Cell)} (ascending : missing.Pairwise (· < ·))
    (ahead : ∀ m ∈ missing, idx ≤ m) :
    self.alignedFrom idx cols vals missing out =
      ((presentFrom idx cols missing).zip vals).foldl
        (fun out pair => self.put out pair.1 pair.2) out := by
  induction cols generalizing idx vals missing out with
  | nil => rfl
  | cons col cols ih =>
      unfold RowConverter.alignedFrom
      rw [presentFrom_cons]
      by_cases consumed : missing.head? = some idx
      · obtain ⟨later, rfl⟩ := List.head?_eq_some_iff.mp consumed
        rw [List.pairwise_cons] at ascending
        rw [if_pos consumed, if_pos List.mem_cons_self, List.tail_cons,
          ih ascending.2 (fun m member => ascending.1 m member),
          presentFrom_of_lt (Nat.lt_succ_self idx)]
      · have kept : idx ∉ missing := by
          intro member
          cases missing with
          | nil => cases member
          | cons m later =>
              rw [List.pairwise_cons] at ascending
              have first := ahead m List.mem_cons_self
              rcases List.mem_cons.mp member with rfl | further
              · exact consumed rfl
              · have := ascending.1 idx further
                omega
        rw [if_neg consumed, if_neg kept]
        cases vals with
        | nil => simp
        | cons cell vals =>
            rw [List.zip_cons_cons, List.foldl_cons]
            refine ih ascending fun m member => ?_
            have from_idx := ahead m member
            have differ : m ≠ idx := fun same => kept (same ▸ member)
            omega

end

/-! ## Rows by column name -/

section

variable {Cell : Type}

/-- A schema whose columns have distinct names. -/
structure ReplicatedTableSchema.Distinct (schema : ReplicatedTableSchema) : Prop where
  columns : schema.columnSchemas.Nodup
  identity : schema.identityColumnSchemas.Nodup

/-- An event with a schema of distinct names, which lists what is missing in ascending
order. -/
def Event.WellFormed : Event Cell → Prop
  | .insert schema _ => schema.Distinct
  | .update schema new _ => schema.Distinct ∧
    match new with
    | .full _ => True
    | .partialRow _ missing => missing.Pairwise (· < ·)
  | .delete schema _ => schema.Distinct
  | _ => True

/-- The row that retracts the old state of an update, where that is known and wanted. -/
def retracted (dataColumns : List String) (schema : ReplicatedTableSchema)
    (emitUpdateBeforeRow : Bool) (old : Option (OldTableRow Cell)) : List (CdcRow Cell) :=
  match emitUpdateBeforeRow, old with
  | true, some (.full row) => [⟨.delete, inColumns dataColumns (schema.columnSchemas.zip row)⟩]
  | _, _ => []

/-- The rows an event contributes to a source, by column name. -/
def expectedRows (table : String) (dataColumns : List String) (emitUpdateBeforeRow : Bool) :
    Event Cell → List (CdcRow Cell)
  | .insert schema row =>
    if tableLabel schema = table then
      [⟨.insert, inColumns dataColumns (schema.columnSchemas.zip row)⟩]
    else []
  | .update schema new old =>
    if tableLabel schema = table then
      retracted dataColumns schema emitUpdateBeforeRow old ++
        [⟨.update, inColumns dataColumns (new.cells schema)⟩]
    else []
  | .delete schema old =>
    if tableLabel schema = table then
      old.toList.map fun old => ⟨.delete, inColumns dataColumns (old.cells schema)⟩
    else []
  | .begin | .commit | .truncate _ | .relation _ | .unsupported => []

/-- The rows of a batch of the initial copy. -/
def expectedCopyRows (table : String) (dataColumns : List String)
    (schema : ReplicatedTableSchema) (tableRows : List (List Cell)) : List (CdcRow Cell) :=
  if tableLabel schema = table then
    tableRows.map fun row => ⟨.copy, inColumns dataColumns (schema.columnSchemas.zip row)⟩
  else []

variable {table : String} {dataColumns : List String} {emit : Bool}
  {schema : ReplicatedTableSchema}

open RowConverter (new)

theorem aligned_eq_inColumns (distinct : dataColumns.Nodup) (names : schema.Distinct)
    {values : List Cell} {missing : List Nat} (ascending : missing.Pairwise (· < ·)) :
    (new table dataColumns emit).aligned schema values missing =
      inColumns dataColumns ((presentFrom 0 schema.columnSchemas missing).zip values) := by
  have present : (presentFrom 0 schema.columnSchemas missing).Nodup := by
    have sublist : (presentFrom 0 schema.columnSchemas missing).Sublist
        (schema.columnSchemas.zipIdx.map Prod.fst) := List.filter_sublist.map _
    rw [List.zipIdx_map_fst] at sublist
    exact names.columns.sublist sublist
  unfold RowConverter.aligned
  rw [alignedFrom_eq ascending fun m _ => Nat.zero_le m]
  exact RowConverter.foldl_put_replicate distinct (RowConverter.map_fst_zip_nodup present values)

theorem alignedOld_eq_inColumns (distinct : dataColumns.Nodup) (names : schema.Distinct)
    (old : OldTableRow Cell) :
    (new table dataColumns emit).alignedOld schema old =
      inColumns dataColumns (old.cells schema) := by
  cases old with
  | full row => exact RowConverter.aligned_full distinct names.columns row
  | key row => exact RowConverter.alignedOld_key distinct names.identity row

/-- An event contributes the rows of its images by column name. -/
theorem convertEvent_eq (distinct : dataColumns.Nodup) {event : Event Cell}
    (formed : event.WellFormed) :
    (new table dataColumns emit).convertEvent event =
      expectedRows table dataColumns emit event := by
  have matched (schema : ReplicatedTableSchema) :
      (new table dataColumns emit).matchesTable schema = decide (tableLabel schema = table) := rfl
  cases event with
  | insert schema row =>
      have names : schema.Distinct := formed
      simp only [RowConverter.convertEvent, expectedRows, matched, decide_eq_true_eq,
        RowConverter.aligned_full distinct names.columns, inColumns]
  | update schema updated old =>
      obtain ⟨names, ascending⟩ := formed
      have emits : (new table dataColumns emit).emitUpdateBeforeRow = emit := rfl
      have old_image (image : OldTableRow Cell) :
          (new table dataColumns emit).alignedOld schema image =
            inColumns dataColumns (image.cells schema) :=
        alignedOld_eq_inColumns distinct names image
      cases updated with
      | full row =>
          simp only [RowConverter.convertEvent, expectedRows, matched, decide_eq_true_eq, emits,
            RowConverter.aligned_full distinct names.columns, UpdatedTableRow.cells, inColumns]
          rcases old with _ | ⟨before⟩ | ⟨before⟩ <;> cases emit <;>
            simp [retracted, old_image, OldTableRow.cells, inColumns]
      | partialRow values missing =>
          simp only [RowConverter.convertEvent, expectedRows, matched, decide_eq_true_eq, emits,
            aligned_eq_inColumns distinct names ascending, UpdatedTableRow.cells]
          rcases old with _ | ⟨before⟩ | ⟨before⟩ <;> cases emit <;>
            simp [retracted, old_image, OldTableRow.cells]
  | delete schema old =>
      have names : schema.Distinct := formed
      simp only [RowConverter.convertEvent, expectedRows, matched, decide_eq_true_eq,
        alignedOld_eq_inColumns distinct names]
      cases old <;> rfl
  | _ => rfl

theorem convertCopyRows_eq (distinct : dataColumns.Nodup) (names : schema.Distinct)
    (tableRows : List (List Cell)) :
    (new table dataColumns emit).convertCopyRows schema tableRows =
      expectedCopyRows table dataColumns schema tableRows := by
  have matched : (new table dataColumns emit).matchesTable schema =
      decide (tableLabel schema = table) := rfl
  simp only [RowConverter.convertCopyRows, expectedCopyRows, matched, decide_eq_true_eq,
    RowConverter.aligned_full distinct names.columns, inColumns]

theorem convertEvents_eq (distinct : dataColumns.Nodup) {events : List (Event Cell)}
    (formed : ∀ event ∈ events, event.WellFormed) :
    (new table dataColumns emit).convertEvents events =
      events.flatMap (expectedRows table dataColumns emit) :=
  List.flatMap_congr fun event member => convertEvent_eq distinct (formed event member)

end

/-! ## Batches -/

section

variable {lib : CellLibrary} {schema : List Field} {rows : List (CdcRow (Cell lib))}
  {columns : List DiscoveredColumn}

/-- Every type that a table column maps to has a builder of that type. -/
theorem exists_builder (typ : Option PgType) :
    ∃ builder, ColBuilder.new (arrowTypeFor typ) = .ok builder ∧
      builder.dataType = arrowTypeFor typ := by
  rcases typ with _ | typ
  · exact ⟨.utf8, rfl, rfl⟩
  · cases typ <;> exact ⟨_, rfl, rfl⟩

/-- A builder with the values of a column of the rows appended. -/
def Built.appendColumn (rows : List (CdcRow (Cell lib))) (j : Nat) (self : Built lib) : Built lib :=
  ⟨self.builder, self.values ++ rows.map fun row => self.builder.append row.values[j]?.join⟩

theorem Built.appendColumn_nil (j : Nat) (self : Built lib) : self.appendColumn [] j = self := by
  simp [appendColumn]

theorem Built.appendColumn_cons (row : CdcRow (Cell lib)) (j : Nat) (self : Built lib) :
    self.appendColumn (row :: rows) j =
      (self.append row.values[j]?.join).appendColumn rows j := by
  simp [appendColumn, append]

theorem zipWith_append {builders : List (Built lib)} {values : List (Option (Cell lib))}
    (lengths : values.length = builders.length) :
    List.zipWith Built.append builders values =
      builders.mapIdx fun j built => built.append values[j]?.join := by
  refine List.ext_getElem? fun j => ?_
  rw [List.getElem?_zipWith, List.getElem?_mapIdx]
  cases at_j : builders[j]? with
  | none => simp
  | some built =>
      have bound : j < values.length := by
        rw [lengths]
        exact (List.getElem?_eq_some_iff.mp at_j).1
      simp [bound]

/-- The loop appends every row to every column. -/
theorem appendRows_eq {gsOp : List (Option (ColumnValue lib))} {builders : List (Built lib)}
    (lengths : ∀ row ∈ rows, row.values.length = builders.length) :
    appendRows gsOp builders rows =
      .ok (gsOp ++ rows.map opValue, builders.mapIdx (Built.appendColumn rows)) := by
  induction rows generalizing gsOp builders with
  | nil =>
      have same : builders.mapIdx (Built.appendColumn []) = builders := by
        refine List.ext_getElem? fun j => ?_
        rw [List.getElem?_mapIdx]
        cases builders[j]? with
        | none => rfl
        | some built => rw [Option.map_some, Built.appendColumn_nil]
      simp [appendRows, same]
  | cons row rows ih =>
      obtain ⟨first, later⟩ := List.forall_mem_cons.mp lengths
      unfold appendRows
      rw [if_neg (not_not.mpr first), zipWith_append first, ih (by simpa using later),
        List.mapIdx_mapIdx, List.map_cons, List.append_assoc]
      refine congrArg (fun columns => Except.ok (_, columns)) ?_
      refine congrArg (List.mapIdx · builders) (funext fun j => funext fun built => ?_)
      exact (Built.appendColumn_cons row j built).symm

/-- The array of the rows' cells at an index, with what a builder appends for each. -/
def columnOf (rows : List (CdcRow (Cell lib))) (j : Nat) (builder : ColBuilder) : ArrayRef lib :=
  ⟨builder.dataType, rows.map fun row => builder.append row.values[j]?.join⟩

/-- The batch that the rows of a source become. -/
structure IsBatchOf (columns : List DiscoveredColumn) (rows : List (CdcRow (Cell lib)))
    (batch : RecordBatch lib) : Prop where
  numRows : batch.numRows = rows.length
  /-- The op of each row, then an array for each column. -/
  columns : ∃ builders : List ColBuilder,
    List.Forall₂ (fun column builder => ColBuilder.new (arrowTypeFor column.typ) = .ok builder)
      columns builders ∧
    batch.columns = ⟨.utf8, rows.map opValue⟩ :: builders.mapIdx (columnOf rows)

theorem tryNew_eq_ok {first : ArrayRef lib} {others : List (ArrayRef lib)}
    (types : List.Forall₂ (fun field column => field.dataType = column.dataType) schema
      (first :: others))
    (nulls : ∀ entry ∈ schema.zip (first :: others), hasForbiddenNull entry = false)
    (lengths : ∀ column ∈ others, column.values.length = first.values.length) :
    RecordBatch.tryNew schema (first :: others) =
      .ok ⟨schema, first :: others, first.values.length⟩ := by
  have no_null : (schema.zip (first :: others)).find? hasForbiddenNull = none :=
    List.find?_eq_none.mpr fun entry member => by simp [nulls entry member]
  have same_length : ((first :: others).any fun column =>
      column.values.length ≠ first.values.length) = false := by
    simpa using lengths
  have same_type : ((schema.zip (first :: others)).any fun entry =>
      entry.1.dataType ≠ entry.2.dataType) = false := by
    rw [List.any_eq_false]
    intro entry member
    have each := (List.forall₂_iff_zip.mp types).2 member
    simp [each]
  unfold RecordBatch.tryNew
  rw [if_neg (not_not.mpr types.length_eq)]
  dsimp only
  rw [no_null]
  dsimp only
  rw [same_length, same_type]
  rfl

/-- The fields of a schema: the op, then the columns. -/
theorem buildOutputSchema_eq_ok (discovered : buildOutputSchema columns = .ok schema) :
    schema = Field.new columnNameOp .utf8 false ::
      columns.map fun col => Field.new col.name (arrowTypeFor col.typ) true := by
  unfold buildOutputSchema at discovered
  split at discovered
  · cases discovered
  · split at discovered
    · cases discovered
    · exact (Except.ok.inj discovered).symm

/-- The rows of a source always become a batch, one record for each row in order. -/
theorem rowsToRecordBatch_isBatchOf (discovered : buildOutputSchema columns = .ok schema)
    (lengths : ∀ row ∈ rows, row.values.length = columns.length) :
    ∃ batch, rowsToRecordBatch schema rows = .ok batch ∧ IsBatchOf columns rows batch := by
  obtain ⟨fields, fields_eq⟩ : ∃ fields,
      columns.map (fun col => Field.new col.name (arrowTypeFor col.typ) true) = fields := ⟨_, rfl⟩
  obtain rfl : schema = Field.new columnNameOp .utf8 false :: fields :=
    fields_eq ▸ buildOutputSchema_eq_ok discovered
  obtain ⟨builders, each⟩ := exists_forall₂_of_forall_mem (l := columns) fun column _ =>
    exists_builder column.typ
  have built : fields.mapM (fun field => ColBuilder.new field.dataType) = .ok builders := by
    rw [← fields_eq, mapM_eq_ok_iff, List.forall₂_map_left_iff]
    exact each.imp fun _ _ builder => builder.1
  have counted := each.length_eq
  have appended : appendRows [] (builders.map fun builder => (⟨builder, []⟩ : Built lib)) rows =
      .ok (rows.map opValue, builders.mapIdx fun j builder =>
        Built.appendColumn rows j ⟨builder, []⟩) := by
    rw [appendRows_eq (by simpa [← counted] using lengths)]
    refine congrArg (fun columns => Except.ok (_, columns)) (List.ext_getElem? fun j => ?_)
    rw [List.getElem?_mapIdx, List.getElem?_mapIdx, List.getElem?_map, Option.map_map]
    rfl
  have finished : (builders.mapIdx fun j builder =>
      Built.appendColumn rows j ⟨builder, []⟩).map Built.finish =
        builders.mapIdx (columnOf rows) := by
    refine List.ext_getElem? fun j => ?_
    rw [List.getElem?_map, List.getElem?_mapIdx, List.getElem?_mapIdx, Option.map_map]
    rfl
  have types : List.Forall₂ (fun field (column : ArrayRef lib) => field.dataType = column.dataType)
      fields (builders.mapIdx (columnOf rows)) := by
    rw [← fields_eq, List.forall₂_map_left_iff]
    exact forall₂_mapIdx each fun _ _ _ builder => builder.2.symm
  have no_nulls : ∀ entry ∈ (Field.new columnNameOp .utf8 false :: fields).zip
      (⟨.utf8, rows.map opValue⟩ :: builders.mapIdx (columnOf rows)),
      hasForbiddenNull entry = false := by
    intro entry member
    rcases List.mem_cons.mp (List.zip_cons_cons ▸ member) with rfl | later
    · simp [hasForbiddenNull, opValue]
    · obtain ⟨column, -, field⟩ := List.mem_map.mp (fields_eq ▸ (List.of_mem_zip later).1)
      simp [hasForbiddenNull, ← field, Field.new]
  have counts : ∀ column ∈ builders.mapIdx (columnOf rows),
      column.values.length = (rows.map opValue).length := by
    intro column member
    obtain ⟨j, bound, rfl⟩ := List.mem_mapIdx.mp member
    simp [columnOf]
  have done : rowsToRecordBatch (Field.new columnNameOp .utf8 false :: fields) rows =
      .ok ⟨Field.new columnNameOp .utf8 false :: fields,
        ⟨.utf8, rows.map opValue⟩ :: builders.mapIdx (columnOf rows),
        (rows.map opValue).length⟩ := by
    simp only [rowsToRecordBatch, List.tail_cons, built, Except.mapError, bind, Except.bind,
      appended, finished]
    exact tryNew_eq_ok (.cons rfl types) no_nulls counts
  exact ⟨_, done, List.length_map _, builders, each.imp fun _ _ builder => builder.1, rfl⟩

end

/-! ## From the replication stream to batches -/

section

variable {Cell : Type}

/-- What etl writes: replication events, or rows of the initial copy of a table. -/
inductive Written (Cell : Type)
  | streamed (events : List (Event Cell))
  | copied (schema : ReplicatedTableSchema) (tableRows : List (List Cell))

def Written.WellFormed : Written Cell → Prop
  | .streamed events => ∀ event ∈ events, event.WellFormed
  | .copied schema _ => schema.Distinct

/-- The rows that a source takes of what is written. -/
def RowConverter.rowsOf (self : RowConverter) : Written Cell → List (CdcRow Cell)
  | .streamed events => self.convertEvents events
  | .copied schema tableRows => self.convertCopyRows schema tableRows

/-- The rows that a source is to take, by column name. -/
def expectedRowsOf (table : String) (dataColumns : List String) (emitUpdateBeforeRow : Bool) :
    Written Cell → List (CdcRow Cell)
  | .streamed events => events.flatMap (expectedRows table dataColumns emitUpdateBeforeRow)
  | .copied schema tableRows => expectedCopyRows table dataColumns schema tableRows

variable {table : String} {dataColumns : List String} {emit : Bool}

theorem rowsOf_eq (distinct : dataColumns.Nodup) {written : Written Cell}
    (formed : written.WellFormed) :
    (RowConverter.new table dataColumns emit).rowsOf written =
      expectedRowsOf table dataColumns emit written := by
  cases written with
  | streamed events => exact convertEvents_eq distinct formed
  | copied schema tableRows => exact convertCopyRows_eq distinct formed tableRows

theorem length_of_mem_expectedRows {event : Event Cell} {row : CdcRow Cell}
    (member : row ∈ expectedRows table dataColumns emit event) :
    row.values.length = dataColumns.length := by
  cases event with
  | insert schema image =>
      simp only [expectedRows] at member
      split at member
      · obtain rfl := List.mem_singleton.mp member
        exact List.length_map _
      · cases member
  | update schema updated old =>
      simp only [expectedRows] at member
      split at member
      · rcases List.mem_append.mp member with before | after
        · unfold retracted at before
          split at before
          · obtain rfl := List.mem_singleton.mp before
            exact List.length_map _
          · cases before
        · obtain rfl := List.mem_singleton.mp after
          exact List.length_map _
      · cases member
  | delete schema old =>
      simp only [expectedRows] at member
      split at member
      · obtain ⟨image, -, rfl⟩ := List.mem_map.mp member
        exact List.length_map _
      · cases member
  | _ => cases member

/-- Every row has a value for every output column. -/
theorem length_of_mem_expectedRowsOf {written : Written Cell} {row : CdcRow Cell}
    (member : row ∈ expectedRowsOf table dataColumns emit written) :
    row.values.length = dataColumns.length := by
  cases written with
  | streamed events =>
      obtain ⟨event, -, contributed⟩ := List.mem_flatMap.mp member
      exact length_of_mem_expectedRows contributed
  | copied schema tableRows =>
      simp only [expectedRowsOf, expectedCopyRows] at member
      split at member
      · obtain ⟨image, -, rfl⟩ := List.mem_map.mp member
        exact List.length_map _
      · cases member

end

/-- A source takes the rows of its table by column name, and whatever it drains of them
becomes a batch of the discovered schema. -/
theorem rows_align (lib : CellLibrary) (table : String) (emit : Bool) :
    (∀ (Value : Type) (dataColumns : List String) (written : List (Written Value)),
      dataColumns.Nodup → (∀ batch ∈ written, batch.WellFormed) →
        written.flatMap (RowConverter.new table dataColumns emit).rowsOf =
          written.flatMap (expectedRowsOf table dataColumns emit)) ∧
    ∀ (columns : List DiscoveredColumn) (schema : List Field)
      (written : List (Written (Cell lib))) (drained : List (CdcRow (Cell lib))),
      (columns.map DiscoveredColumn.name).Nodup → (∀ batch ∈ written, batch.WellFormed) →
      buildOutputSchema columns = .ok schema →
      drained ⊆ written.flatMap
        (RowConverter.new table (columns.map DiscoveredColumn.name) emit).rowsOf →
      ∃ batch, rowsToRecordBatch schema drained = .ok batch ∧ IsBatchOf columns drained batch := by
  have aligned {Value : Type} {dataColumns : List String} {written : List (Written Value)}
      (distinct : dataColumns.Nodup) (formed : ∀ batch ∈ written, batch.WellFormed) :
      written.flatMap (RowConverter.new table dataColumns emit).rowsOf =
        written.flatMap (expectedRowsOf table dataColumns emit) :=
    List.flatMap_congr fun batch member => rowsOf_eq distinct (formed batch member)
  refine ⟨fun Value dataColumns written => aligned, ?_⟩
  intro columns schema written drained distinct formed discovered taken
  refine rowsToRecordBatch_isBatchOf discovered fun row member => ?_
  obtain ⟨batch, -, contributed⟩ := List.mem_flatMap.mp (aligned distinct formed ▸ taken member)
  rw [length_of_mem_expectedRowsOf contributed, List.length_map]

def demoSchema : ReplicatedTableSchema := ⟨⟨"public", "users"⟩, ["id", "name", "bio"], ["id"]⟩

def demoWritten : List (Written (Cell plainLibrary)) :=
  [.copied demoSchema [[.i32 7, .string "Ada", .string "old"]],
    .streamed [.insert ⟨⟨"public", "orders"⟩, ["id"], ["id"]⟩ [.i32 1],
      .update demoSchema (.partialRow [.i32 7, .string "new"] [1])
        (some (.full [.i32 7, .string "Ada", .string "old"])),
      .delete demoSchema (some (.key [.i32 7]))]]

def demoColumns : List DiscoveredColumn := [⟨"bio", some .other⟩, ⟨"id", some .int4⟩]

/-- A copied row, an update that leaves a name out, its retraction and a delete by key. -/
theorem rows_align_demo :
    demoWritten.flatMap (RowConverter.new "public.users" ["bio", "id"] true).rowsOf =
      [⟨.copy, [some (.string "old"), some (.i32 7)]⟩,
        ⟨.delete, [some (.string "old"), some (.i32 7)]⟩,
        ⟨.update, [some (.string "new"), some (.i32 7)]⟩,
        ⟨.delete, [none, some (.i32 7)]⟩] ∧
    ∃ batch : RecordBatch plainLibrary, rowsToRecordBatch
        [.new columnNameOp .utf8 false, .new "bio" .utf8 true, .new "id" .int32 true]
        (demoWritten.flatMap (RowConverter.new "public.users" ["bio", "id"] true).rowsOf) =
          .ok batch ∧
      batch.numRows = 4 := by
  have formed : ∀ batch ∈ demoWritten, batch.WellFormed := by
    have distinct : demoSchema.Distinct := ⟨by decide, by decide⟩
    have foreign : ReplicatedTableSchema.Distinct ⟨⟨"public", "orders"⟩, ["id"], ["id"]⟩ :=
      ⟨by decide, by decide⟩
    simp [demoWritten, Written.WellFormed, Event.WellFormed, distinct, foreign]
  have named := (rows_align plainLibrary "public.users" true).1 _ ["bio", "id"] demoWritten
    (by decide) formed
  have rows := named.trans (by rfl)
  obtain ⟨batch, built, isBatch⟩ := (rows_align plainLibrary "public.users" true).2 demoColumns _
    demoWritten _ (by decide) formed (by rfl) (List.Subset.refl _)
  refine ⟨rows, batch, built, ?_⟩
  rw [isBatch.numRows]
  exact congrArg List.length rows

end StreamlingPlugins.PostgresCdc
