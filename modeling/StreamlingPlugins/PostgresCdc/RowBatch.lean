import StreamlingPlugins.PluginApi
import StreamlingPlugins.PostgresCdc.Bridge
import StreamlingPlugins.PostgresCdc.Cells

/-!
# Record batches of rows

The output schema of a source is its op column and one nullable column for each column of
its table, and `rowsToRecordBatch` builds the batch of aligned rows column by column.
-/

namespace StreamlingPlugins.PostgresCdc

open Arrow (DataType Field)

/-! ## The output schema -/

/-- A table's column, with the type that its oid names, if it is known. -/
structure DiscoveredColumn where
  name : String
  typ : Option PgType
  deriving DecidableEq

/-- The output schema: the op column, then a nullable field for every table column. -/
def buildOutputSchema (columns : List DiscoveredColumn) : Except String (List Field) :=
  if columns = [] then .error "postgres_cdc_source: table has no columns"
  else
    match columns.find? fun col => col.name = columnNameOp with
    | some col =>
      .error ("postgres_cdc_source: table column '" ++ col.name ++
        "' collides with the reserved streamling op column")
    | none => .ok (.new columnNameOp .utf8 false ::
        columns.map fun col => .new col.name (arrowTypeFor col.typ) true)

/-! ## Arrays and batches -/

inductive ArrowError
  /-- An output column type without a builder. -/
  | schemaError (unsupported : DataType)
  | invalidArgumentError (message : String)
  deriving DecidableEq

structure ArrayRef (lib : CellLibrary) where
  dataType : DataType
  values : List (Option (ColumnValue lib))

structure RecordBatch (lib : CellLibrary) where
  schema : List Field
  columns : List (ArrayRef lib)
  numRows : Nat

/-- A field that is not nullable has a column with a null. -/
def hasForbiddenNull {lib : CellLibrary} (entry : Field × ArrayRef lib) : Bool :=
  !entry.1.isNullable && entry.2.values.any Option.isNone

/-- `RecordBatch::try_new` and what it checks. -/
def RecordBatch.tryNew {lib : CellLibrary} (schema : List Field) (columns : List (ArrayRef lib)) :
    Except ArrowError (RecordBatch lib) :=
  if schema.length ≠ columns.length then
    .error (.invalidArgumentError ("number of columns(" ++ toString columns.length ++
      ") must match number of fields(" ++ toString schema.length ++ ") in schema"))
  else
    match columns with
    | [] => .error (.invalidArgumentError
        "must either specify a row count or at least one column")
    | first :: _ =>
      match (schema.zip columns).find? hasForbiddenNull with
      | some entry => .error (.invalidArgumentError ("Column '" ++ entry.1.name ++
          "' is declared as non-nullable but contains null values"))
      | none =>
        if columns.any fun column => column.values.length ≠ first.values.length then
          .error (.invalidArgumentError "all columns in a record batch must have the same length")
        else if (schema.zip columns).any fun entry => entry.1.dataType ≠ entry.2.dataType then
          .error (.invalidArgumentError "column types must match schema types")
        else .ok ⟨schema, columns, first.values.length⟩

/-! ## Building -/

/-- The type of the array that a builder finishes. -/
def ColBuilder.dataType : ColBuilder → DataType
  | .bool => .boolean
  | .i16 => .int16
  | .i32 => .int32
  | .i64 => .int64
  | .u32 => .uint32
  | .f32 => .float32
  | .f64 => .float64
  | .utf8 => .utf8
  | .bin => .binary
  | .date => .date32
  | .time => .time64 .microsecond
  | .ts => .timestamp .microsecond none
  | .tsTz => .timestamp .microsecond (some "UTC")

/-- A builder with what was appended to it. -/
structure Built (lib : CellLibrary) where
  builder : ColBuilder
  values : List (Option (ColumnValue lib))

def Built.append {lib : CellLibrary} (self : Built lib) (value : Option (Cell lib)) : Built lib :=
  { self with values := self.values ++ [self.builder.append value] }

def Built.finish {lib : CellLibrary} (self : Built lib) : ArrayRef lib :=
  ⟨self.builder.dataType, self.values⟩

/-- The text of a row kind in the op column. -/
def RowKind.text : RowKind → String
  | .i => "i"
  | .u => "u"
  | .d => "d"

def opValue {lib : CellLibrary} (row : CdcRow (Cell lib)) : Option (ColumnValue lib) :=
  some (.utf8 (gsOpFor row.op).text)

/-- The loop over the rows: the ops and the columns built so far. -/
def appendRows {lib : CellLibrary} :
    List (Option (ColumnValue lib)) → List (Built lib) → List (CdcRow (Cell lib)) →
      Except ArrowError (List (Option (ColumnValue lib)) × List (Built lib))
  | gsOp, builders, [] => .ok (gsOp, builders)
  | gsOp, builders, row :: rows =>
    if row.values.length ≠ builders.length then
      .error (.invalidArgumentError ("postgres_cdc: row has " ++ toString row.values.length ++
        " values for " ++ toString builders.length ++ " data columns"))
    else
      appendRows (gsOp ++ [opValue row]) (List.zipWith Built.append builders row.values) rows

/-- The batch of aligned rows for a schema whose first field is the op column. -/
def rowsToRecordBatch {lib : CellLibrary} (schema : List Field) (rows : List (CdcRow (Cell lib))) :
    Except ArrowError (RecordBatch lib) := do
  let builders ← (schema.tail.mapM fun field => ColBuilder.new field.dataType).mapError
    ArrowError.schemaError
  let (gsOp, built) ← appendRows [] (builders.map fun builder => ⟨builder, []⟩) rows
  RecordBatch.tryNew schema (⟨.utf8, gsOp⟩ :: built.map Built.finish)

end StreamlingPlugins.PostgresCdc
