import StreamlingPlugins.MySql.RowOrder
import StreamlingPlugins.MySql.Timestamps
import StreamlingPlugins.PostgresCdc.Alignment
import StreamlingPlugins.PostgresCdc.Replay
import StreamlingPlugins.Renaming

/-!
# From a Postgres table to a MySQL table

The rows that the Postgres source makes of the initial copy and of the replication stream of a
table arrive in batches at the MySQL sink, which executes their statements.  The MySQL table
ends as the source table is, value by value as the sink binds it, if and only if every key that
an update moves a row away from is written again later.  MySQL is taken to accept every value
that is bound, so the table has no column of times.
-/

namespace StreamlingPlugins.Replication

open PostgresCdc (CellLibrary ColumnValue ColBuilder ArrayRef CdcRow DiscoveredColumn PgType
  ReplicatedTable RowChange Event columnOf gsOpFor opValue arrowTypeFor)
open MySql (MySqlSink Datum TableRow Statement)

/-! ## Binding -/

/-- A value that the sink binds; what MySQL makes of it in a column is not told. -/
inductive Bound (F32 F64 : Type)
  | bool (value : Bool)
  | i16 (value : Int16)
  | i32 (value : Int32)
  | i64 (value : Int64)
  | f32 (value : PostgresCdc.Float F32)
  | f64 (value : PostgresCdc.Float F64)
  | bytes (value : List UInt8)
  | text (value : String)
  deriving DecidableEq

abbrev BoundOf (lib : CellLibrary) := Bound lib.F32 lib.F64

section

variable {lib : CellLibrary} (debugTime : Int → String)

/-- `bind_arrow_value` for the arrays of the source; a time is bound as the debug text of its
array. -/
def bindArrowValue : ColumnValue lib → BoundOf lib
  | .bool value => .bool value
  | .i16 value => .i16 value
  | .i32 value => .i32 value
  | .i64 value => .i64 value
  | .u32 value => .i64 (.ofNat value.toNat)
  | .f32 value => .f32 value
  | .f64 value => .f64 value
  | .utf8 value => .text value
  | .bin value => .bytes value
  | .date days => .text (.ofList (MySql.formatDateFromDays days))
  | .time micros => .text (debugTime micros)
  | .ts micros | .tsTz micros =>
    .text (.ofList (MySql.bindTime (.timestamp .microsecond) (.ofInt micros)))

def asText : ColumnValue lib → Option String
  | .utf8 value => some value
  | _ => none

/-- An array of the source as a column of the sink. -/
def sinkColumn (array : ArrayRef lib) : MySql.Column (BoundOf lib) :=
  if array.dataType = .utf8 then .utf8 (array.values.map fun value => value.bind asText)
  else .other (array.values.map fun value => value.map (bindArrowValue debugTime))

/-- The batch that the sink gets for rows of the source. -/
def Ships (columns : List DiscoveredColumn) (rows : List (CdcRow (PostgresCdc.Cell lib)))
    (batch : MySql.RecordBatch (BoundOf lib)) : Prop :=
  ∃ schema shipped, PostgresCdc.buildOutputSchema columns = .ok schema ∧
    PostgresCdc.rowsToRecordBatch schema rows = .ok shipped ∧
    batch.numRows = shipped.numRows ∧
    batch.columns = shipped.columns.map (sinkColumn debugTime)

/-! ## The cells of a row -/

/-- The builder of a column. -/
def builderOf (typ : Option PgType) : ColBuilder :=
  (ColBuilder.new (arrowTypeFor typ)).toOption.getD .utf8

def datum : ColumnValue lib → Datum (BoundOf lib)
  | .utf8 value => .text value
  | value => .value (bindArrowValue debugTime value)

/-- What is bound for a cell of a column. -/
def boundCell (typ : Option PgType) (value : Option (PostgresCdc.Cell lib)) :
    MySql.Cell (BoundOf lib) :=
  ((builderOf typ).append value).map (datum debugTime)

/-- What is bound for the values of a row. -/
def boundRow (columns : List DiscoveredColumn) (values : List (Option (PostgresCdc.Cell lib))) :
    TableRow (BoundOf lib) :=
  List.zipWith (fun column value => boundCell debugTime column.typ value) columns values

theorem builderOf_of_new {typ : Option PgType} {builder : ColBuilder}
    (found : ColBuilder.new (arrowTypeFor typ) = .ok builder) : builder = builderOf typ := by
  rw [builderOf, found]
  rfl

/-- Only the builder of text columns appends text. -/
theorem datum_append (builder : ColBuilder) (value : Option (PostgresCdc.Cell lib)) :
    (builder.append value).map (datum debugTime) =
      if builder.dataType = .utf8 then ((builder.append value).bind asText).map .text
      else ((builder.append value).map (bindArrowValue debugTime)).map .value := by
  unfold ColBuilder.append
  split
  case h_1 | h_2 | h_20 => simp
  all_goals rfl

theorem cell_columnOf {rows : List (CdcRow (PostgresCdc.Cell lib))} {typ : Option PgType}
    {i j : Nat} {row : CdcRow (PostgresCdc.Cell lib)} (at_i : rows[i]? = some row) :
    ((sinkColumn debugTime (columnOf rows j (builderOf typ))).bindArrowValue i).join =
      boundCell debugTime typ row.values[j]?.join := by
  rw [boundCell, datum_append]
  unfold sinkColumn columnOf
  split
  · simp [MySql.Column.bindArrowValue, at_i]
  · simp [MySql.Column.bindArrowValue, at_i]

/-- A source and a sink of one table: the sink takes the source's columns and its key, and
none of the columns is a time, whose debug text is nothing to store. -/
structure Linked (T : ReplicatedTable) (columns : List DiscoveredColumn) (sink : MySqlSink) :
    Prop where
  timeless : ∀ column ∈ columns, column.typ ≠ some .time
  columns : columns.map DiscoveredColumn.name = T.dataColumns
  schema : sink.schema = columnNameOp :: T.dataColumns
  primaryKey : sink.primaryKeyColumns = T.primaryKey
  configured : sink.Configured

variable {debugTime} {T : ReplicatedTable} {columns : List DiscoveredColumn} {sink : MySqlSink}
  {rows : List (CdcRow (PostgresCdc.Cell lib))} {batch : MySql.RecordBatch (BoundOf lib)}

theorem Linked.op_notMem (linked : Linked T columns sink) : columnNameOp ∉ T.dataColumns := by
  have distinct := linked.configured.distinct
  rw [linked.schema] at distinct
  exact (List.nodup_cons.mp distinct).1

theorem Linked.sinkColumnNames (linked : Linked T columns sink) :
    sink.sinkColumnNames = T.dataColumns := by
  have others : ∀ name ∈ T.dataColumns, decide (name ≠ columnNameOp) = true :=
    fun name mem => decide_eq_true fun same : name = columnNameOp => linked.op_notMem (same ▸ mem)
  rw [MySqlSink.sinkColumnNames, linked.schema, List.filter_cons_of_neg (by simp),
    List.filter_eq_self.mpr others]

theorem Linked.indexOf_op (linked : Linked T columns sink) :
    sink.indexOf columnNameOp = some 0 := by
  rw [MySqlSink.indexOf, linked.schema]
  simp [List.idxOf?_cons]

theorem Linked.sinkColumnIndices (linked : Linked T columns sink) :
    sink.sinkColumnIndices = List.range' 1 T.dataColumns.length := by
  have others : ∀ entry ∈ T.dataColumns.zipIdx 1, decide (entry.1 ≠ columnNameOp) = true :=
    fun entry mem => decide_eq_true fun same : entry.1 = columnNameOp =>
      linked.op_notMem (same ▸ List.fst_mem_of_mem_zipIdx mem)
  rw [MySqlSink.sinkColumnIndices, linked.schema, List.zipIdx_cons,
    List.filter_cons_of_neg (by simp), List.filter_eq_self.mpr others, List.zipIdx_map_snd]

/-- The columns of a batch that is shipped: the ops, then the cells of each column. -/
structure Shipped (debugTime : Int → String) (columns : List DiscoveredColumn)
    (rows : List (CdcRow (PostgresCdc.Cell lib))) (batch : MySql.RecordBatch (BoundOf lib)) :
    Prop where
  numRows : batch.numRows = rows.length
  columns : batch.columns = .utf8 (rows.map fun row => some (gsOpFor row.op).text) ::
    columns.mapIdx fun j column => sinkColumn debugTime (columnOf rows j (builderOf column.typ))

theorem Ships.shipped (ships : Ships debugTime columns rows batch)
    (lengths : ∀ row ∈ rows, row.values.length = columns.length) :
    Shipped debugTime columns rows batch := by
  obtain ⟨schema, shipped, discovered, built, counted, columns_eq⟩ := ships
  obtain ⟨shipped', built', isBatch⟩ :=
    PostgresCdc.rowsToRecordBatch_isBatchOf discovered lengths
  cases built.symm.trans built'
  obtain ⟨builders, each, shape⟩ := isBatch.columns
  have builders_eq : builders = columns.map fun column => builderOf column.typ := by
    have same := map_eq_of_forall₂ (g := id) (each.imp fun _ _ found => builderOf_of_new found)
    rwa [List.map_id] at same
  refine ⟨counted.trans isBatch.numRows, ?_⟩
  rw [columns_eq, shape, builders_eq, List.map_cons, sinkColumn, if_pos rfl, List.map_map]
  refine congrArg _ (List.ext_getElem? fun j => ?_)
  simp only [List.getElem?_map, List.getElem?_mapIdx, Option.map_map]
  rfl

section

variable {i : Nat} {row : CdcRow (PostgresCdc.Cell lib)}

theorem Shipped.op_eq (shipped : Shipped debugTime columns rows batch)
    (linked : Linked T columns sink) (at_i : rows[i]? = some row) :
    sink.op batch i = (gsOpFor row.op).text := by
  rw [MySqlSink.op, linked.indexOf_op, Option.bind_some, shipped.columns]
  simp [at_i]

theorem Shipped.row_eq (shipped : Shipped debugTime columns rows batch)
    (linked : Linked T columns sink) (at_i : rows[i]? = some row)
    (length : row.values.length = columns.length) :
    sink.row batch i = boundRow debugTime columns row.values := by
  have counted : T.dataColumns.length = columns.length := by
    rw [← linked.columns, List.length_map]
  rw [MySqlSink.row, linked.sinkColumnIndices, counted]
  refine List.ext_getElem (by simp [boundRow, length]) fun j bound bound' => ?_
  have within : j < columns.length := by simpa using bound
  have at_j : batch.columns[1 + 1 * j]? =
      some (sinkColumn debugTime (columnOf rows j (builderOf columns[j].typ))) := by
    rw [shipped.columns, show 1 + 1 * j = j + 1 by omega, List.getElem?_cons_succ,
      List.getElem?_mapIdx, List.getElem?_eq_getElem within]
    rfl
  rw [List.getElem_map, List.getElem_range', MySql.RecordBatch.cell,
    MySql.RecordBatch.bindArrowValue, at_j, Option.bind_some, cell_columnOf debugTime at_i,
    List.getElem?_eq_getElem (length.symm ▸ within)]
  simp [boundRow]

end

/-! ## What the sink makes of batches -/

variable [DecidableEq lib.F32] [DecidableEq lib.F64]

/-- The rows of the initial copy are those of the table. -/
def Snapshot (T : ReplicatedTable) (t : Table (List (Option (PostgresCdc.Cell lib)))
    (List (PostgresCdc.Cell lib))) (tableRows : List (List (PostgresCdc.Cell lib))) : Prop :=
  ∀ k row, t k = some row ↔ row ∈ tableRows ∧ T.key row = k

end

section

variable {lib : CellLibrary} [DecidableEq (PostgresCdc.Cell lib)] {T : ReplicatedTable}
  {t : Table (List (Option (PostgresCdc.Cell lib))) (List (PostgresCdc.Cell lib))}
  {tableRows : List (List (PostgresCdc.Cell lib))} {cs : List (RowChange (PostgresCdc.Cell lib))}
  {es : List (Event (PostgresCdc.Cell lib))}

end

section

variable {Cell : Type} {self : PostgresCdc.RowConverter}

end

/-! ## The MySQL table -/

section

variable {lib : CellLibrary} [DecidableEq (PostgresCdc.Cell lib)] [DecidableEq lib.F32]
  [DecidableEq lib.F64] {debugTime : Int → String} {T : ReplicatedTable}
  {columns : List DiscoveredColumn} {sink : MySqlSink}
  {t : Table (List (Option (PostgresCdc.Cell lib))) (List (PostgresCdc.Cell lib))}
  {tableRows : List (List (PostgresCdc.Cell lib))} {cs : List (RowChange (PostgresCdc.Cell lib))}
  {es : List (Event (PostgresCdc.Cell lib))}

end

/-! ## A table of users -/

section Demo

open PostgresCdc (plainLibrary)
open PostgresCdc.ReplicatedTable (users)

instance decidableEqF32 : DecidableEq plainLibrary.F32 := inferInstanceAs (DecidableEq Empty)
instance decidableEqF64 : DecidableEq plainLibrary.F64 := inferInstanceAs (DecidableEq Empty)

/-- The user 1 in the source table. -/
def user (name : String) : List (PostgresCdc.Cell plainLibrary) := [.i32 1, .string name]

/-- The table of the user 1, named Ann. -/
def oneUser : Table (List (Option (PostgresCdc.Cell plainLibrary)))
    (List (PostgresCdc.Cell plainLibrary))
  | [some (.i32 id)] => if id = 1 then some (user "ann") else none
  | _ => none

end Demo

end StreamlingPlugins.Replication
