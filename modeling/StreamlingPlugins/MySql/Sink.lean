import StreamlingPlugins.Changelog
import StreamlingPlugins.MySql.Decimals
import StreamlingPlugins.PluginApi
import StreamlingPlugins.Text

/-!
# The MySQL sink

`processBatch` turns a record batch into statements: chunked multi-row inserts of
the rows that are no deletions, then chunked deletes of the others.  `execute`
is what MySQL makes of a statement on a table with a primary key.  What is bound
for a cell of a type that is not told apart is a value of its own; the text of the
statements, connections, metrics and the creation of the table are left out.
-/

namespace StreamlingPlugins.MySql

/-! ## Options -/

/-- The sink's options by name, and the field names of its schema. -/
structure MySqlSink where
  lookup : String → Option String
  schema : List String

namespace MySqlSink

variable (sink : MySqlSink)

def getOr (key default : String) : String :=
  (sink.lookup key).getD default

/-- A required option; the empty string counts as unset. -/
def get (key : String) : Option String :=
  (sink.lookup key).filter (· ≠ "")

def primaryKeyColumns : List String :=
  match sink.get "primary_key" with
  | none => []
  | some pk => ((split ',' pk.toList).map fun s => String.ofList (trim s)).filter (· ≠ "")

def sinkColumnNames : List String :=
  sink.schema.filter (· ≠ columnNameOp)

def sinkColumnIndices : List Nat :=
  (sink.schema.zipIdx.filter (·.1 ≠ columnNameOp)).map Prod.snd

/-- `schema.index_of`: the first field of that name. -/
def indexOf (name : String) : Option Nat :=
  sink.schema.idxOf? name

/-- The fields of the primary key's columns. -/
def pkIndices : List Nat :=
  sink.primaryKeyColumns.filterMap sink.indexOf

def chunkSize : Nat :=
  (parseUsize (sink.getOr "batch_size" "1000")).getD 1000

end MySqlSink

/-! ## Batches and statements -/

/-- A column of a batch: a `Utf8` one, one of decimals with their unscaled integers, or
one of any other type. -/
inductive Column (Value : Type)
  | utf8 (values : List (Option String))
  | decimal (scale : Int8) (values : List (Option Int))
  | other (values : List (Option Value))
  deriving DecidableEq

/-- A bound value. -/
inductive Datum (Value : Type)
  | text (s : String)
  | value (v : Value)
  deriving DecidableEq

/-- A bound cell; `none` is `NULL`. -/
abbrev Cell (Value : Type) := Option (Datum Value)

variable {Value : Type}

namespace Column

def length : Column Value → Nat
  | utf8 values => values.length
  | decimal _ values => values.length
  | other values => values.length

/-- `Array::is_null`. -/
def isNull : Column Value → Nat → Bool
  | utf8 values, row => values[row]?.join.isNone
  | decimal _ values, row => values[row]?.join.isNone
  | other values, row => values[row]?.join.isNone

/-- What is bound for a cell; `none` is a panic. -/
def bindArrowValue : Column Value → Nat → Option (Cell Value)
  | utf8 values, row => some ((values[row]?.join).map .text)
  | decimal scale values, row =>
    match values[row]?.join with
    | none => some none
    | some unscaled => (bindDecimal unscaled scale).map fun text => some (.text (.ofList text))
  | other values, row => some ((values[row]?.join).map .value)

end Column

/-- Columns of one length, in schema order. -/
structure RecordBatch (Value : Type) where
  numRows : Nat
  columns : List (Column Value)
  lengths : ∀ column ∈ columns, column.length = numRows

namespace RecordBatch

variable (batch : RecordBatch Value)

def isNull (col row : Nat) : Bool :=
  batch.columns[col]?.any fun column => column.isNull row

/-- `bind_arrow_value` for a cell of a column; there is none outside the batch. -/
def bindArrowValue (col row : Nat) : Option (Cell Value) :=
  batch.columns[col]?.bind fun column => column.bindArrowValue row

end RecordBatch

/-- The statements of the sink: a multi-row insert, with the columns of its `ON
DUPLICATE KEY UPDATE` clause or none of it, and a multi-row delete. -/
inductive Statement (Value : Type)
  | insert (ignore : Bool) (columns : List String) (rows : List (List (Cell Value)))
      (updateColumns : List String)
  | delete (keyColumns : List String) (keys : List (List (Cell Value)))
  deriving DecidableEq

/-- Consecutive chunks of `size` elements, the last one possibly shorter. -/
def chunksFrom {α : Type} (size : Nat) : List α → List α → List (List α)
  | [], [] => []
  | [], current => [current]
  | x :: xs, current =>
    if (current ++ [x]).length = size then (current ++ [x]) :: chunksFrom size xs []
    else chunksFrom size xs (current ++ [x])

def chunks {α : Type} (size : Nat) (xs : List α) : List (List α) :=
  chunksFrom size xs []

namespace MySqlSink

variable (sink : MySqlSink) (batch : RecordBatch Value)

/-- The statement for a chunk of upserts, if there are any; `none` when binding panics. -/
def executeUpsert (rowIndices : List Nat) : List (Option (Statement Value)) :=
  if rowIndices = [] then []
  else
    let pkColumns := sink.primaryKeyColumns
    let nothing := pkColumns ≠ [] ∧ sink.getOr "on_conflict" "update" = "nothing"
    let rows := rowIndices.mapM fun row =>
      sink.sinkColumnIndices.mapM fun col => batch.bindArrowValue col row
    let updateColumns := if pkColumns = [] ∨ nothing then []
      else sink.sinkColumnNames.filter (· ∉ pkColumns)
    [rows.map fun rows => .insert (decide nothing) sink.sinkColumnNames rows updateColumns]

/-- The statement for a chunk of deletes. -/
def executeDelete (rowIndices : List Nat) : List (Option (Statement Value)) :=
  if rowIndices = [] ∨ sink.primaryKeyColumns = [] ∨ sink.pkIndices = [] then []
  else
    let keys := rowIndices.mapM fun row =>
      sink.pkIndices.mapM fun col => batch.bindArrowValue col row
    [keys.map fun keys => .delete sink.primaryKeyColumns keys]

/-- The text of a row's operation; a null slot reads as the empty string.  Without
a `Utf8` column of operations no row is a deletion. -/
def op (row : Nat) : String :=
  match (sink.indexOf columnNameOp).bind (batch.columns[·]?) with
  | some (.utf8 values) => (values[row]?.join).getD ""
  | _ => ""

def insertIndices : List Nat :=
  (List.range batch.numRows).filter fun row => sink.op batch row ≠ "d"

def deleteIndices : List Nat :=
  (List.range batch.numRows).filter fun row => sink.op batch row = "d"

/-- The statements of a batch, in the order they are bound and executed. -/
def processBatch : List (Option (Statement Value)) :=
  ((chunks sink.chunkSize (sink.insertIndices batch)).flatMap (sink.executeUpsert batch)) ++
    (chunks sink.chunkSize (sink.deleteIndices batch)).flatMap (sink.executeDelete batch)

end MySqlSink

/-! ## Execution -/

/-- A row of a table: its cells in column order. -/
abbrev TableRow (Value : Type) := List (Cell Value)

/-- The columns of a table and those of its primary key. -/
structure Layout where
  columns : List String
  primaryKey : List String
  deriving DecidableEq

namespace Layout

variable (layout : Layout)

def cellOf (row : TableRow Value) (column : String) : Cell Value :=
  ((layout.columns.zip row).lookup column).join

def keyOf (row : TableRow Value) : List (Cell Value) :=
  layout.primaryKey.map (layout.cellOf row)

variable [DecidableEq Value]

/-- One row of an insert.  On a duplicate key the listed columns take the new
values, `IGNORE` keeps the old row, and otherwise the statement fails. -/
def insertRow (ignore : Bool) (updateColumns : List String)
    (t : Table (List (Cell Value)) (TableRow Value)) (row : TableRow Value) :
    Option (Table (List (Cell Value)) (TableRow Value)) :=
  match t (layout.keyOf row) with
  | none => some (Function.update t (layout.keyOf row) (some row))
  | some old =>
    if updateColumns ≠ [] then
      some (Function.update t (layout.keyOf row) (some (layout.columns.map fun c =>
        if c ∈ updateColumns then layout.cellOf row c else layout.cellOf old c)))
    else if ignore then some t
    else none

/-- `column = ?` for every key column; a comparison with `NULL` is not true. -/
def matchesKey (keyColumns : List String) (row : TableRow Value) (key : List (Cell Value)) :
    Bool :=
  (keyColumns.zip key).all fun (column, cell) =>
    cell ≠ none ∧ layout.cellOf row column = cell

/-- What a statement does to a table; `none` is a database error.  A statement
changes the whole table or, when it fails, nothing. -/
def execute (t : Table (List (Cell Value)) (TableRow Value)) :
    Statement Value → Option (Table (List (Cell Value)) (TableRow Value))
  | .insert ignore _ rows updateColumns => rows.foldlM (layout.insertRow ignore updateColumns) t
  | .delete keyColumns keys =>
    if keys.all fun key => key.length = keyColumns.length then
      some fun k => (t k).filter fun row => !keys.any (layout.matchesKey keyColumns row)
    else none

end Layout

end StreamlingPlugins.MySql
