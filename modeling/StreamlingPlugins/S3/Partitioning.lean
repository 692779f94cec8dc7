import StreamlingPlugins.Fallible
import StreamlingPlugins.Grouping
import StreamlingPlugins.PercentEncoding
import StreamlingPlugins.PluginApi
import StreamlingPlugins.Text

/-!
# Partitioned output

A batch is split by the values of the partition columns, one sub-batch for each
Hive-style path segment.
-/

namespace StreamlingPlugins.S3

/-! ## Partition columns -/

/-- `char::is_alphanumeric`, where `other` classifies the characters outside ASCII. -/
def isAlphanumeric (other : Char → Bool) (c : Char) : Bool :=
  if c.toNat < 128 then c.isAlphanum else other c

structure PartitionConfig where
  columns : List String
  columnIndices : List Nat
  deriving DecidableEq

/-- A column that an earlier one repeats. -/
def firstDuplicate : List String → List String → Option String
  | _, [] => none
  | seen, col :: columns => if col ∈ seen then some col else firstDuplicate (col :: seen) columns

/-- Parses a list of partition columns and validates it against the schema's fields;
`debug` is how a list of names is shown. -/
def PartitionConfig.parse (other : Char → Bool) (debug : List String → String)
    (partitionColumns : Option String) (fields : List String) :
    Except PluginError (Option PartitionConfig) :=
  match partitionColumns.filter fun raw => trim raw.toList ≠ [] with
  | none => .ok none
  | some raw =>
    let columns := (((split ',' raw.toList).map trim).filter (· ≠ [])).map String.ofList
    if columns = [] then .ok none
    else
      match firstDuplicate [] columns with
      | some col => .error (.internal ("duplicate partition column: '" ++ col ++ "'"))
      | none =>
        match columns.find? fun col =>
            ¬ col.toList.all fun c => isAlphanumeric other c || c = '_' with
        | some col =>
          .error (.internal ("partition column name '" ++ col ++
            "' contains invalid characters. " ++
            "Only alphanumeric characters and underscores are allowed."))
        | none =>
          match columns.find? (· ∉ fields) with
          | some col =>
            .error (.internal ("partition column '" ++ col ++ "' not found in schema. " ++
              "Available columns: " ++ debug fields))
          | none => .ok (some ⟨columns, columns.map fields.idxOf⟩)

/-! ## Path segments -/

/-- A cell, with what the formatter makes of it.  `Array::is_null` sees only the nulls
that the array's own validity buffer marks: a hidden null is one of a `Null` array, or
a dictionary key of a null value. -/
inductive Cell
  | null
  | hiddenNull (rendered : Except String String)
  | value (rendered : Except String String)

def hiveDefaultPartition : String :=
  "__HIVE_DEFAULT_PARTITION__"

/-- The bytes that `urlencoding::encode` keeps. -/
def unreserved (b : UInt8) : Bool :=
  (48 ≤ b && b ≤ 57) || (65 ≤ b && b ≤ 90) || (97 ≤ b && b ≤ 122) ||
    b = 45 || b = 46 || b = 95 || b = 126

def urlencode (text : String) : List UInt8 :=
  Percent.encode unreserved (utf8 text)

/-- One `name=value` part of a path segment. -/
def buildPart (name : String) : Cell → Except PluginError (List UInt8)
  | .null => .ok (utf8 name ++ 61 :: utf8 hiveDefaultPartition)
  | .hiddenNull (.ok text) | .value (.ok text) => .ok (utf8 name ++ 61 :: urlencode text)
  | .hiddenNull (.error e) | .value (.error e) =>
    .error (.internal ("failed to format partition value: " ++ e))

section

variable {Row : Type} (cell : Row → Nat → Cell) (config : PartitionConfig)

/-- The names and indices of the partition columns. -/
def PartitionConfig.partitionColumns : List (String × Nat) :=
  config.columns.zip config.columnIndices

/-- The path segment of a row. -/
def buildPartitionKey (row : Row) : Except PluginError (List UInt8) :=
  match config.partitionColumns.mapM fun column => buildPart column.1 (cell row column.2) with
  | .ok parts => .ok ([47].intercalate parts)
  | .error e => .error e

/-! ## Sub-batches -/

structure PartitionedOutput (Row : Type) where
  pathSegment : List UInt8
  batch : List Row

/-- The indices of the rows of each path segment, `as u32`. -/
def groupRows (rows : List Row) : Except PluginError (List (List UInt8 × List Nat)) :=
  rows.zipIdx.foldlM (fun groups row =>
    match buildPartitionKey cell config row.1 with
    | .ok key => .ok (pushGroup key (row.2 % 2 ^ 32) groups)
    | .error e => .error e) []

/-- Arrow's `take`, for indices within the batch. -/
def takeRows (rows : List Row) (indices : List Nat) : List Row :=
  indices.filterMap fun i => rows[i]?

/-- The sub-batch of a group. -/
def takeGroup (rows : List Row) (group : List UInt8 × List Nat) : PartitionedOutput Row :=
  ⟨group.1, takeRows rows group.2⟩

def partitionBatch (order : IterationOrder (List UInt8 × List Nat)) (rows : List Row) :
    Except PluginError (List (PartitionedOutput Row)) :=
  if rows.isEmpty then .ok []
  else
    match groupRows cell config rows with
    | .error e => .error e
    | .ok [(pathSegment, _)] => .ok [⟨pathSegment, rows⟩]
    | .ok groups => .ok ((order.arrange groups).map (takeGroup rows))

end

end StreamlingPlugins.S3
