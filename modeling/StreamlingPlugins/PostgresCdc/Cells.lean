import StreamlingPlugins.Arrow.DataType

/-!
# Cells and their columns

`cellToJson` turns a cell into a JSON value, and `cellToUtf8` into the text of a column
whose type has no Arrow type of its own.  Numbers, dates and their texts are those of the
libraries that decode and print them.
-/

namespace StreamlingPlugins.PostgresCdc

open Arrow (DataType)

/-! ## JSON values -/

inductive Number (F : Type)
  | integer (value : Int)
  | float (value : F)
  deriving DecidableEq

/-- A JSON value; the entries of an object are in the order in which it holds them. -/
inductive Json (F : Type)
  | null
  | bool (value : Bool)
  | number (value : Number F)
  | string (value : String)
  | array (values : List (Json F))
  | object (entries : List (String × Json F))

/-- A float with the values that JSON does not have. -/
inductive Float (F : Type)
  | nan
  | infinity
  | negInfinity
  | finite (value : F)
  deriving DecidableEq

def Float.finite? {F : Type} : Float F → Option F
  | .finite value => some value
  | _ => none

def Float.map {F G : Type} (f : F → G) : Float F → Float G
  | .nan => .nan
  | .infinity => .infinity
  | .negInfinity => .negInfinity
  | .finite value => .finite (f value)

/-! ## Cells -/

/-- The values that are decoded elsewhere, how they print, and how JSON is printed and read. -/
structure CellLibrary where
  F32 : Type
  F64 : Type
  Numeric : Type
  Date : Type
  Time : Type
  TimeTz : Type
  Timestamp : Type
  TimestampTz : Type
  Uuid : Type
  widen : F32 → F64
  numericText : Numeric → String
  dateText : Date → String
  timeText : Time → String
  timeTzText : TimeTz → String
  timestampText : Timestamp → String
  timestampTzText : TimestampTz → String
  uuidText : Uuid → String
  base64 : List UInt8 → String
  numDaysFromCe : Date → Int
  numSecondsFromMidnight : Time → Int
  nanosecond : Time → Int
  timestampMicros : Timestamp → Int
  timestampTzMicros : TimestampTz → Int
  toString : Json F64 → String
  fromStr : String → Option (Json F64)

/-- A one-dimensional array, with its elements that are null. -/
inductive ArrayCell (lib : CellLibrary)
  | bool (values : List (Option Bool))
  | string (values : List (Option String))
  | i16 (values : List (Option Int16))
  | i32 (values : List (Option Int32))
  | u32 (values : List (Option UInt32))
  | i64 (values : List (Option Int64))
  | f32 (values : List (Option (Float lib.F32)))
  | f64 (values : List (Option (Float lib.F64)))
  | numeric (values : List (Option lib.Numeric))
  | date (values : List (Option lib.Date))
  | time (values : List (Option lib.Time))
  | timeTz (values : List (Option lib.TimeTz))
  | timestamp (values : List (Option lib.Timestamp))
  | timestampTz (values : List (Option lib.TimestampTz))
  | uuid (values : List (Option lib.Uuid))
  | json (values : List (Option (Json lib.F64)))
  | bytes (values : List (Option (List UInt8)))

inductive Cell (lib : CellLibrary)
  | null
  | bool (value : Bool)
  | string (value : String)
  | i16 (value : Int16)
  | i32 (value : Int32)
  | u32 (value : UInt32)
  | i64 (value : Int64)
  | f32 (value : Float lib.F32)
  | f64 (value : Float lib.F64)
  | numeric (value : lib.Numeric)
  | date (value : lib.Date)
  | time (value : lib.Time)
  | timeTz (value : lib.TimeTz)
  | timestamp (value : lib.Timestamp)
  | timestampTz (value : lib.TimestampTz)
  | uuid (value : lib.Uuid)
  | json (value : Json lib.F64)
  | bytes (value : List UInt8)
  | array (value : ArrayCell lib)

section

variable {lib : CellLibrary}

def integerJson (value : Int) : Json lib.F64 :=
  .number (.integer value)

/-- Floats that JSON does not have are null. -/
def floatJson (value : Float lib.F64) : Json lib.F64 :=
  (value.finite?.map fun value => .number (.float value)).getD .null

/-- The JSON array of these elements, with null elements preserved. -/
def elementsToJson {T : Type} (f : T → Json lib.F64) (items : List (Option T)) : Json lib.F64 :=
  .array (items.map fun item => (item.map f).getD .null)

def arrayToJson : ArrayCell lib → Json lib.F64
  | .bool v => elementsToJson .bool v
  | .string v => elementsToJson .string v
  | .i16 v => elementsToJson (fun x => integerJson x.toInt) v
  | .i32 v => elementsToJson (fun x => integerJson x.toInt) v
  | .u32 v => elementsToJson (fun x => integerJson x.toNat) v
  | .i64 v => elementsToJson (fun x => integerJson x.toInt) v
  | .f32 v => elementsToJson (fun x => floatJson (x.map lib.widen)) v
  | .f64 v => elementsToJson floatJson v
  | .numeric v => elementsToJson (fun n => .string (lib.numericText n)) v
  | .date v => elementsToJson (fun d => .string (lib.dateText d)) v
  | .time v => elementsToJson (fun t => .string (lib.timeText t)) v
  | .timeTz v => elementsToJson (fun t => .string (lib.timeTzText t)) v
  | .timestamp v => elementsToJson (fun ts => .string (lib.timestampText ts)) v
  | .timestampTz v => elementsToJson (fun ts => .string (lib.timestampTzText ts)) v
  | .uuid v => elementsToJson (fun u => .string (lib.uuidText u)) v
  | .json v => elementsToJson id v
  | .bytes v => elementsToJson (fun b => .string (lib.base64 b)) v

def cellToJson : Cell lib → Json lib.F64
  | .null => .null
  | .bool b => .bool b
  | .string s => .string s
  | .i16 v => integerJson v.toInt
  | .i32 v => integerJson v.toInt
  | .u32 v => integerJson v.toNat
  | .i64 v => integerJson v.toInt
  | .f32 v => floatJson (v.map lib.widen)
  | .f64 v => floatJson v
  | .numeric n => .string (lib.numericText n)
  | .date d => .string (lib.dateText d)
  | .time t => .string (lib.timeText t)
  | .timeTz t => .string (lib.timeTzText t)
  | .timestamp ts => .string (lib.timestampText ts)
  | .timestampTz ts => .string (lib.timestampTzText ts)
  | .uuid u => .string (lib.uuidText u)
  | .json v => v
  | .bytes b => .string (lib.base64 b)
  | .array arr => arrayToJson arr

/-- Stringifies a cell for a text column. -/
def cellToUtf8 : Cell lib → String
  | .string s => s
  | other =>
    match cellToJson other with
    | .string s => s
    | v => lib.toString v

end

/-! ## Columns -/

/-- The Postgres types that are told apart; `other` are those decoded as strings. -/
inductive PgType
  | bool | int2 | int4 | int8 | oid | float4 | float8 | bytea
  | date | time | timestamp | timestamptz
  | numeric | uuid | timetz | json | jsonb
  | array (element : PgType)
  | other
  deriving DecidableEq

/-- The Arrow type that the source emits; an unknown type has none. -/
def arrowTypeFor : Option PgType → DataType
  | some .bool => .boolean
  | some .int2 => .int16
  | some .int4 => .int32
  | some .int8 => .int64
  | some .oid => .uint32
  | some .float4 => .float32
  | some .float8 => .float64
  | some .bytea => .binary
  | some .date => .date32
  | some .time => .time64 .microsecond
  | some .timestamp => .timestamp .microsecond none
  | some .timestamptz => .timestamp .microsecond (some "UTC")
  | _ => .utf8

inductive ColBuilder
  | bool | i16 | i32 | i64 | u32 | f32 | f64 | utf8 | bin | date | time | ts | tsTz
  deriving DecidableEq

/-- The builder for a type, else the type that has none. -/
def ColBuilder.new : DataType → Except DataType ColBuilder
  | .boolean => .ok .bool
  | .int16 => .ok .i16
  | .int32 => .ok .i32
  | .int64 => .ok .i64
  | .uint32 => .ok .u32
  | .float32 => .ok .f32
  | .float64 => .ok .f64
  | .utf8 => .ok .utf8
  | .binary => .ok .bin
  | .date32 => .ok .date
  | .time64 .microsecond => .ok .time
  | .timestamp .microsecond none => .ok .ts
  | .timestamp .microsecond (some tz) =>
    if tz = "UTC" then .ok .tsTz else .error (.timestamp .microsecond (some tz))
  | other => .error other

/-- What is appended to a column. -/
inductive ColumnValue (lib : CellLibrary)
  | bool (value : Bool)
  | i16 (value : Int16)
  | i32 (value : Int32)
  | i64 (value : Int64)
  | u32 (value : UInt32)
  | f32 (value : Float lib.F32)
  | f64 (value : Float lib.F64)
  | utf8 (value : String)
  | bin (value : List UInt8)
  | date (days : Int)
  | time (micros : Int)
  | ts (micros : Int)
  | tsTz (micros : Int)

def unixEpochDays : Int := 719163

/-- What a builder appends for a cell, coerced to the column type; `none` is null, which is
also appended for a cell that does not match. -/
def ColBuilder.append {lib : CellLibrary} (self : ColBuilder) (value : Option (Cell lib)) :
    Option (ColumnValue lib) :=
  match self, value with
  | _, none => none
  | _, some .null => none
  | .bool, some (.bool v) => some (.bool v)
  | .i16, some (.i16 v) => some (.i16 v)
  | .i32, some (.i32 v) => some (.i32 v)
  | .i64, some (.i64 v) => some (.i64 v)
  | .i64, some (.i32 v) => some (.i64 v.toInt64)
  | .i64, some (.i16 v) => some (.i64 v.toInt64)
  | .i32, some (.i16 v) => some (.i32 v.toInt32)
  | .u32, some (.u32 v) => some (.u32 v)
  | .f32, some (.f32 v) => some (.f32 v)
  | .f64, some (.f64 v) => some (.f64 v)
  | .f64, some (.f32 v) => some (.f64 (v.map lib.widen))
  | .utf8, some cell => some (.utf8 (cellToUtf8 cell))
  | .bin, some (.bytes v) => some (.bin v)
  | .date, some (.date d) => some (.date (lib.numDaysFromCe d - unixEpochDays))
  | .time, some (.time t) =>
    some (.time (lib.numSecondsFromMidnight t * 1000000 + lib.nanosecond t / 1000))
  | .ts, some (.timestamp v) => some (.ts (lib.timestampMicros v))
  | .tsTz, some (.timestampTz v) => some (.tsTz (lib.timestampTzMicros v))
  | _, some _ => none

end StreamlingPlugins.PostgresCdc
