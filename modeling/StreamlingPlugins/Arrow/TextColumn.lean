import Mathlib
import StreamlingPlugins.PluginApi

/-!
# Text columns

Record batches as the text transforms see them: named columns of optional
strings, of lists of optional strings, or of some other type.  The three string
encodings of Arrow read alike and are not told apart.
-/

namespace StreamlingPlugins.Arrow

/-- `TextColumn`: a string, or null, for every row. -/
abbrev TextColumn := List (Option String)

def TextColumn.value (column : TextColumn) (row : Nat) : Option String :=
  column[row]?.join

/-- A list column: its rows hold text columns of their own, or it has children of
another type and only its nulls matter. -/
inductive ListColumn
  | text (rows : List (Option TextColumn))
  | other (valid : List Bool)
  deriving DecidableEq

inductive Column
  | text (values : TextColumn)
  | list (large : Bool) (array : ListColumn) (dataType : String)
  | other (dataType : String)
  deriving DecidableEq

/-- The displayed type of a column that is no text column. -/
def Column.toText : Column → Except String TextColumn
  | .text values => .ok values
  | .list _ _ dataType => .error dataType
  | .other dataType => .error dataType

structure TextBatch where
  numRows : Nat
  columns : List (String × Column)

/-- `schema.index_of` and `batch.column`. -/
def TextBatch.column (batch : TextBatch) (name : String) : Option Column :=
  batch.columns.lookup name

def textColumn (batch : TextBatch) (name plugin : String) : Except PluginError TextColumn :=
  match batch.column name with
  | none => .error (.execution (plugin ++ ": missing column '" ++ name ++ "'"))
  | some column => column.toText.mapError fun dataType =>
      .execution (plugin ++ ": column '" ++ name ++ "' must be a string column, got " ++ dataType)

end StreamlingPlugins.Arrow
