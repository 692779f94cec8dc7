import StreamlingPlugins.Arrow.DataType
import StreamlingPlugins.Fallible
import StreamlingPlugins.PluginApi

/-!
# Schemas of the Iceberg sink

`tableSchemaFor` derives the schema of an auto-created table from the input
schema, `BatchProjector.tryNew` checks an input schema against the schema of a
table.  What arrow, iceberg-rust and Streamling's `decimal_arb` do for them is in
`Dependencies`.
-/

namespace StreamlingPlugins.IcebergSink

open Arrow

/-! ## Iceberg types -/

mutual

/-- The types of a table, without field ids. -/
inductive IcebergType
  | boolean | int | long | float | double
  | decimal (precision : Nat) (scale : Int)
  | date | time | timestamp | timestamptz
  | string | fixed (size : Int) | binary
  | list (elementRequired : Bool) (element : IcebergType)
  | map (key : IcebergType) (valueRequired : Bool) (value : IcebergType)
  | struct (fields : NestedFields)
  deriving DecidableEq

inductive NestedFields
  | nil
  | cons (name : String) (required : Bool) (fieldType : IcebergType) (tail : NestedFields)
  deriving DecidableEq

end

/-- A column of a table. -/
structure NestedField where
  name : String
  required : Bool
  fieldType : IcebergType
  deriving DecidableEq

abbrev IcebergSchema := List NestedField

/-! ## Errors and dependencies -/

inductive NativeIntKind
  | u256 | i256
  deriving DecidableEq

/-- The functions that the sink's schema code calls outside its repository. -/
structure Dependencies where
  isDecimalArbField : Field → Bool
  nativeIntKindFromField : Field → Option NativeIntKind
  precisionScaleFromField : Field → Option (Nat × Nat)
  canCastTypes : DataType → DataType → Bool
  /-- How arrow prints a type. -/
  displayType : DataType → String
  arrowSchemaToSchemaAutoAssignIds : List Field → Except String IcebergSchema
  schemaToArrowSchema : IcebergSchema → Except String (List Field)

def icebergError (context error : String) : PluginError :=
  .execution ("failed to " ++ context ++ ": " ++ error)

variable (deps : Dependencies)

/-! ## Deriving the table schema -/

def writtenFields (input : List Field) (includeOpColumn : Bool) : List Field :=
  input.filter fun f => includeOpColumn || f.name ≠ columnNameOp

def nestedDecimalArbError (column : String) : String :=
  "column '" ++ column ++ "': nested decimal_arb (wide integer / arbitrary-precision decimal) " ++
    "fields are not supported; CAST them to TEXT upstream"

mutual

def storableType (column : String) : DataType → Except PluginError DataType
  | .uint64 => .ok (.decimal128 20 0)
  | .decimal256 _ _ => .ok .utf8
  | .timestamp _ tz => .ok (.timestamp .microsecond (tz.map fun _ => "+00:00"))
  | .date64 => .ok .date32
  | .time32 _ => .ok (.time64 .microsecond)
  | .time64 _ => .ok (.time64 .microsecond)
  | .float16 => .ok .float32
  | .dictionary _ value => storableType column value
  | .list child => return .list (← storableChild column child)
  | .largeList child => return .largeList (← storableChild column child)
  | .fixedSizeList child size => return .fixedSizeList (← storableChild column child) size
  | .map entries sorted => return .map (← storableChild column entries) sorted
  | .struct children => return .struct (← storableChildren column children)
  | .null => .error (.internal ("iceberg_sink: column '" ++ column ++ "' has the Null type, " ++
      "which Iceberg cannot store; cast it to a concrete type upstream"))
  | other => .ok other

def storableChild (column : String) : Field → Except PluginError Field
  | .mk name dataType nullable metadata =>
    if deps.isDecimalArbField (.mk name dataType nullable metadata) then
      .error (.internal ("iceberg_sink: " ++ nestedDecimalArbError column))
    else return .new name (← storableType column dataType) nullable

def storableChildren (column : String) : Fields → Except PluginError Fields
  | .nil => .ok .nil
  | .cons head tail => return .cons (← storableChild column head) (← storableChildren column tail)

end

def storableField (field : Field) : Except PluginError Field :=
  if deps.isDecimalArbField field then return .new field.name .utf8 field.isNullable
  else return .new field.name (← storableType deps field.name field.dataType) field.isNullable

def tableSchemaFor (input : List Field) (includeOpColumn : Bool) :
    Except PluginError IcebergSchema := do
  let fields ← (writtenFields input includeOpColumn).mapM (storableField deps)
  if fields = [] then
    .error (.internal "iceberg_sink: the input schema has no columns to write")
  else
    match deps.arrowSchemaToSchemaAutoAssignIds fields with
    | .ok schema => .ok schema
    | .error e => .error (icebergError "derive the Iceberg schema from the input schema" e)

/-! ## Lossless conversions -/

/-- Exact digits needed for every value of an integer type. -/
def integerDigits : DataType → Option Nat
  | .int8 | .uint8 => some 3
  | .int16 | .uint16 => some 5
  | .int32 | .uint32 => some 10
  | .int64 => some 19
  | .uint64 => some 20
  | _ => none

/-- Whether an integer type is signed, and its bits. -/
def integerWidth : DataType → Option (Bool × Nat)
  | .int8 => some (true, 8)
  | .int16 => some (true, 16)
  | .int32 => some (true, 32)
  | .int64 => some (true, 64)
  | .uint8 => some (false, 8)
  | .uint16 => some (false, 16)
  | .uint32 => some (false, 32)
  | .uint64 => some (false, 64)
  | _ => none

def rank : TimeUnit → Nat
  | .second => 0
  | .millisecond => 1
  | .microsecond => 2
  | .nanosecond => 3

/-- Whether a unit change keeps every value, nanoseconds to microseconds excepted. -/
def unitOk (source target : TimeUnit) : Bool :=
  rank source ≤ rank target || (source = .nanosecond && target = .microsecond)

/-- The leaf conversions between types that are not both integers. -/
def isLosslessLeaf : DataType → DataType → Bool
  | source, .decimal128 p s =>
    match integerDigits source, source with
    | some d, _ => (d : Int) ≤ p - s
    | none, .decimal128 fp fs => fs = s && p ≥ fp
    | none, .decimal256 fp fs => fs = s && p ≥ fp
    | none, _ => false
  | .float16, .float32 | .float16, .float64 | .float32, .float32 | .float32, .float64
  | .float64, .float64 => true
  | .decimal256 _ _, .utf8 | .decimal256 _ _, .largeUtf8 => true
  | .utf8, .utf8 | .utf8, .largeUtf8 | .utf8, .utf8View
  | .largeUtf8, .utf8 | .largeUtf8, .largeUtf8 | .largeUtf8, .utf8View
  | .utf8View, .utf8 | .utf8View, .largeUtf8 | .utf8View, .utf8View => true
  | .binary, .binary | .binary, .largeBinary | .binary, .binaryView
  | .largeBinary, .binary | .largeBinary, .largeBinary | .largeBinary, .binaryView
  | .binaryView, .binary | .binaryView, .largeBinary | .binaryView, .binaryView
  | .fixedSizeBinary _, .binary | .fixedSizeBinary _, .largeBinary
  | .fixedSizeBinary _, .binaryView => true
  | .date32, .date32 | .date64, .date32 => true
  | .timestamp f _, .timestamp t _ => unitOk f t
  | _, _ => false

/-- The allowlist of leaf conversions that preserve every value. -/
def isLossless (source target : DataType) : Bool :=
  match integerWidth source, integerWidth target with
  | some (fs, fb), some (ts, tb) =>
    match fs, ts with
    | true, true | false, false => fb ≤ tb
    | false, true => fb < tb
    | true, false => false
  | _, _ => isLosslessLeaf source target

/-! ## Validating the input against a table -/

/-- Table types a `decimal_arb` column can be written to exactly. -/
def isDecimalArbTarget (input : Field) : DataType → Bool
  | .utf8 | .largeUtf8 => true
  | .binary | .largeBinary | .fixedSizeBinary 32 =>
    (deps.nativeIntKindFromField input).isSome &&
      (deps.precisionScaleFromField input).any fun (_, s) => s = 0
  | _ => false

mutual

/-- Whether a container type holds a `decimal_arb` leaf at any depth. -/
def nestsDecimalArb : DataType → Bool
  | .list c | .largeList c | .listView c | .largeListView c | .fixedSizeList c _ | .map c _ =>
    holdsDecimalArb c
  | .struct children | .union _ children _ => anyHoldsDecimalArb children
  | _ => false

def holdsDecimalArb : Field → Bool
  | .mk name dataType nullable metadata =>
    deps.isDecimalArbField (.mk name dataType nullable metadata) || nestsDecimalArb dataType

def anyHoldsDecimalArb : Fields → Bool
  | .nil => false
  | .cons head tail => holdsDecimalArb head || anyHoldsDecimalArb tail

end

def missingNested (path : String) (source target : Fields) : List String :=
  (target.toList.filter fun t => !t.isNullable && source.find t.name = none).map fun t =>
    "required nested table field '" ++ path ++ "." ++ t.name ++ "' is missing from the input"

mutual

/-- The problems of converting `source` to `target` losslessly.  Struct fields match
by name; list elements and map keys and values recurse. -/
def checkConversion (path : String) (source target : DataType) : List String :=
  if source = target then []
  else
    match source, target with
    | .dictionary _ value, _ => checkConversion path value target
    | .struct children, .struct targets =>
      checkChildren path children targets ++ missingNested path children targets
    | .list (.mk _ child _ _), .list t | .list (.mk _ child _ _), .largeList t
    | .largeList (.mk _ child _ _), .list t | .largeList (.mk _ child _ _), .largeList t
    | .fixedSizeList (.mk _ child _ _) _, .list t
    | .fixedSizeList (.mk _ child _ _) _, .largeList t =>
      checkConversion (path ++ ".element") child t.dataType
    | .map (.mk _ (.struct (.cons (.mk _ k _ _) (.cons (.mk _ v _ _) .nil))) _ _) _,
      .map (.mk _ (.struct (.cons tk (.cons tv .nil))) _ _) _ =>
      checkConversion (path ++ ".key") k tk.dataType ++
        checkConversion (path ++ ".value") v tv.dataType
    | .map _ _, .map _ _ => ["column '" ++ path ++ "': malformed map type"]
    | _, _ =>
      if isLossless source target && deps.canCastTypes source target then []
      else ["column '" ++ path ++ "': cannot losslessly convert " ++ deps.displayType source ++
        " to the table type " ++ deps.displayType target]

def checkChildren (path : String) : Fields → Fields → List String
  | .nil, _ => []
  | .cons (.mk name child _ _) tail, targets =>
    (match targets.find name with
      | some t => checkConversion (path ++ "." ++ name) child t.dataType
      | none => ["nested input field '" ++ path ++ "." ++ name ++ "' does not exist in the table"])
    ++ checkChildren path tail targets

end

/-- Where a table column's values come from. -/
inductive ColumnSource
  | input (name : String)
  | null
  deriving DecidableEq

structure BatchProjector where
  target : List Field
  sources : List ColumnSource
  deriving DecidableEq

namespace BatchProjector

/-- The problems of one table column. -/
def columnProblems (written : List Field) (targetField : Field) : List String :=
  let name := targetField.name
  match written.find? (·.name = name) with
  | some inputField =>
    if deps.isDecimalArbField inputField then
      if isDecimalArbTarget deps inputField targetField.dataType then []
      else ["column '" ++ name ++ "': cannot losslessly convert decimal_arb to the table type " ++
        deps.displayType targetField.dataType ++ "; decimal_arb columns need a string table " ++
        "column, or binary / fixed(32) for u256/i256 integers"]
    else if nestsDecimalArb deps inputField.dataType then [nestedDecimalArbError name]
    else checkConversion deps name inputField.dataType targetField.dataType
  | none =>
    if targetField.isNullable then []
    else ["required table column '" ++ name ++ "' is missing from the input"]

def columnSource (written : List Field) (targetField : Field) : ColumnSource :=
  match written.find? (·.name = targetField.name) with
  | some _ => .input targetField.name
  | none => .null

/-- Validates the input schema against the table's Arrow schema. -/
def tryNew (input target : List Field) (includeOpColumn : Bool) :
    Except PluginError BatchProjector :=
  let written := writtenFields input includeOpColumn
  let unknown := (written.map Field.name).filter fun name =>
    target.find? (·.name = name) = none
  if unknown ≠ [] then
    .error (.internal ("iceberg_sink: input column(s) " ++ toString (unknown.map String.quote) ++
      " do not exist in the table; the sink does not evolve schemas, so add them to the table " ++
      "(ALTER TABLE ... ADD COLUMN) or drop them upstream"))
  else
    let problems := target.flatMap (columnProblems deps written)
    if problems ≠ [] then
      .error (.internal ("iceberg_sink: the input schema does not match the table: " ++
        "; ".intercalate problems))
    else .ok ⟨target, target.map (columnSource written)⟩

end BatchProjector

end StreamlingPlugins.IcebergSink
