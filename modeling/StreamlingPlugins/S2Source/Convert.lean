import StreamlingPlugins.PercentEncoding
import StreamlingPlugins.PluginApi
import StreamlingPlugins.TokenStream

/-!
# Typed conversion of records

`decodeStrict` feeds all record bodies to one JSON decoder and counts the rows.
`convert` adds the row kind and the metadata of each record, and in skip mode falls back
to decoding the records one by one.
-/

namespace StreamlingPlugins.S2Source

structure SourceRecord where
  stream : String
  seqNum : UInt64
  timestamp : UInt64
  headers : List (List UInt8 × List UInt8)
  body : List UInt8
  deriving DecidableEq

/-! ## The JSON decoder -/

def isJsonWhitespace (b : UInt8) : Bool :=
  b = 32 ∨ b = 10 ∨ b = 13 ∨ b = 9

/-- A decoder for the rows of a schema: its tokenizer, and what a whole value decodes to. -/
structure JsonDecoder (Row : Type) where
  build : Except String Unit
  State : Type
  enter : UInt8 → Except String State
  next : State → UInt8 → Except String (Progress State)
  truncated : State → String
  decodeRow : List UInt8 → Except String Row

def JsonDecoder.tokenizer {Row : Type} (d : JsonDecoder Row) : Tokenizer UInt8 :=
  ⟨d.State, isJsonWhitespace, d.enter, d.next⟩

/-- A value that does not end itself, a number, is no row. -/
def JsonDecoder.RowsClose {Row : Type} (d : JsonDecoder Row) : Prop :=
  ∀ value item, d.tokenizer.EndsBefore value item → ∃ e, d.decodeRow value = .error e

/-- Decodes the values read, unless one is unfinished. -/
def JsonDecoder.flush {Row : Type} (d : JsonDecoder Row) (tape : d.tokenizer.Tape) :
    Except String (Option (List Row)) :=
  match tape.current with
  | some (_, state) => .error (d.truncated state)
  | none => if tape.values = [] then .ok none else (tape.values.mapM d.decodeRow).map some

/-! ## Strict decoding -/

def isAsciiWhitespace (b : UInt8) : Bool :=
  b = 32 ∨ b = 9 ∨ b = 10 ∨ b = 12 ∨ b = 13

def trimAscii (bytes : List UInt8) : List UInt8 :=
  (bytes.dropWhile isAsciiWhitespace).rdropWhile isAsciiWhitespace

def decodeError (stream : String) (seqNum : UInt64) (message : String) : PluginError :=
  .internal ("s2_source: failed to decode record body (stream '" ++ stream ++ "', seq_num " ++
    toString seqNum ++ "): " ++ message)

inductive DecodeFailure
  | decode (message : String)
  | budget
  deriving DecidableEq

section

variable {Row : Type} (d : JsonDecoder Row)

/-- Decodes until the buffer is empty; no progress means that the row budget is spent. -/
def decodeAll (budget : Nat) (tape : d.tokenizer.Tape) (buf : List UInt8) :
    Except DecodeFailure d.tokenizer.Tape :=
  if buf = [] then .ok tape
  else
    match Tokenizer.decode budget tape buf with
    | .error e => .error (.decode e)
    | .ok (tape, rest) =>
      if rest.length < buf.length then decodeAll budget tape rest else .error .budget
termination_by buf.length

/-- Whether the record body decodes to exactly one row on its own. -/
def decodesToOneRow (record : SourceRecord) : Bool :=
  match d.build with
  | .error _ => false
  | .ok () =>
    match decodeAll d 2 .empty (trimAscii record.body) with
    | .error _ => false
    | .ok tape =>
      match d.flush tape with
      | .ok (some rows) => rows.length = 1
      | _ => false

/-- Feeds the record bodies to the decoder, trimmed and not empty. -/
def decodeBodies (budget : Nat) (earlier : List SourceRecord) (tape : d.tokenizer.Tape) :
    List SourceRecord → Except PluginError d.tokenizer.Tape
  | [] => .ok tape
  | record :: records =>
    if trimAscii record.body = [] then
      .error (decodeError record.stream record.seqNum "record body is empty")
    else
      match decodeAll d budget tape (trimAscii record.body) with
      | .error (.decode e) => .error (decodeError record.stream record.seqNum e)
      | .error .budget =>
        -- blames the record that has several values, which may be an earlier one
        let offender := ((earlier ++ [record]).find? fun candidate =>
          !decodesToOneRow d candidate).getD record
        .error (decodeError offender.stream offender.seqNum
          "record body contains more than one JSON value")
      | .ok tape => decodeBodies budget (earlier ++ [record]) tape records

/-- Decodes every record body as exactly one JSON row. -/
def decodeStrict (records : List SourceRecord) : Except PluginError (List Row) := do
  d.build.mapError .arrow
  let tape ← decodeBodies d records.length [] .empty records
  let batch ← (d.flush tape).mapError .arrow
  let rows := batch.getD []
  if rows.length = records.length then .ok rows
  else .error (.internal ("s2_source: decoded " ++ toString rows.length ++ " rows from " ++
    toString records.length ++ " records; record bodies must each be a single JSON object"))

/-- Decodes record bodies one at a time, and returns the rows and the indices of the
records that decode. -/
def decodeSkipping : List (SourceRecord × Nat) → List Row × List Nat
  | [] => ([], [])
  | (record, index) :: records =>
    let (rows, kept) := decodeSkipping records
    match decodeStrict d [record] with
    | .ok batch => (batch ++ rows, index :: kept)
    | .error _ => (rows, kept)

end

/-! ## Conversion -/

def rowKindFromDbzOp (op : List UInt8) : Option String :=
  if op = utf8 "c" ∨ op = utf8 "r" then some "i"
  else if op = utf8 "u" then some "u"
  else if op = utf8 "d" then some "d"
  else none

/-- The row kind of the first `dbz.op` header, else an insert. -/
def gsOp (record : SourceRecord) : String :=
  match record.headers.find? fun header => header.1 = utf8 "dbz.op" with
  | none => "i"
  | some (_, value) => (rowKindFromDbzOp value).getD "i"

structure Metadata where
  stream : List String
  seqNum : List UInt64
  timestamp : List Int
  deriving DecidableEq

/-- The metadata columns, with timestamps clamped to the signed range. -/
def metadataArrays (records : List SourceRecord) : Metadata where
  stream := records.map SourceRecord.stream
  seqNum := records.map SourceRecord.seqNum
  timestamp := records.map fun record => min record.timestamp.toNat (2 ^ 63 - 1)

structure RecordBatch (Row : Type) where
  gsOp : List String
  rows : List Row
  metadata : Option Metadata
  deriving DecidableEq

/-- A batch has columns of one length. -/
def RecordBatch.tryNew {Row : Type} (batch : RecordBatch Row) :
    Except PluginError (RecordBatch Row) :=
  if batch.rows.length = batch.gsOp.length ∧ ∀ metadata ∈ batch.metadata,
      metadata.stream.length = batch.gsOp.length ∧ metadata.seqNum.length = batch.gsOp.length ∧
        metadata.timestamp.length = batch.gsOp.length then .ok batch
  else .error (.arrow "all columns in a record batch must have the same length")

inductive OnMalformed
  | error | skip
  deriving DecidableEq

structure TypedMode where
  includeMetadata : Bool
  onMalformed : OnMalformed

/-- The rows with the row kind and the metadata of the records they came from. -/
def describe {Row : Type} (includeMetadata : Bool) (kept : List SourceRecord) (rows : List Row) :
    RecordBatch Row :=
  ⟨kept.map gsOp, rows, if includeMetadata then some (metadataArrays kept) else none⟩

def convert {Row : Type} (d : JsonDecoder Row) (mode : TypedMode) (records : List SourceRecord) :
    Except PluginError (RecordBatch Row) :=
  if records = [] then .ok (describe mode.includeMetadata [] [])
  else
    match decodeStrict d records with
    | .ok rows => (describe mode.includeMetadata records rows).tryNew
    | .error e =>
      match mode.onMalformed with
      | .error => .error e
      | .skip =>
        let (rows, kept) := decodeSkipping d records.zipIdx
        (describe mode.includeMetadata (kept.filterMap fun i => records[i]?) rows).tryNew

end StreamlingPlugins.S2Source
