import StreamlingPlugins.Arrow.Arrays
import StreamlingPlugins.Holes
import StreamlingPlugins.PluginApi
import StreamlingPlugins.S2.Sink

/-!
# Routing of S2 records

A batch becomes runs of records for streams: each row's stream name is rendered from a
template with column values, and consecutive rows of one stream form a run.  What the
sink takes from Arrow, from the JSON writer and from the S2 SDK is the structure
`Libraries`.  All of it happens before a record is submitted.
-/

namespace StreamlingPlugins.S2

open Arrow

/-! ## Stream templates -/

inductive Segment
  | literal (text : String)
  | column (name : String)
  deriving DecidableEq

/-- A segment as it stands in a template. -/
def Segment.text : Segment → List Char
  | .literal text => text.toList
  | .column name => '{' :: name.toList ++ ['}']

/-- A segment of a stream's name: column values are not known. -/
def Segment.part : Segment → Part Char
  | .literal text => .fixed text.toList
  | .column _ => .hole

inductive StreamTarget
  | fixed (stream : String)
  | template (segments : List Segment)

/-- The segments from a point on: the literal collected so far, or the name of the
placeholder that is open. -/
def parseFrom (template : String) :
    List Char → (literal : List Char) → (column : Option (List Char)) →
      Except String (List Segment)
  | [], literal, none => .ok (if literal = [] then [] else [.literal (.ofList literal)])
  | [], _, some _ =>
    .error ("s2_sink: unclosed '\x7b' in stream_template '" ++ template ++ "'")
  | c :: chars, literal, none =>
    if c = '{' then
      (parseFrom template chars [] (some [])).map
        ((if literal = [] then [] else [.literal (.ofList literal)]) ++ ·)
    else if c = '}' then
      .error ("s2_sink: unmatched '\x7d' in stream_template '" ++ template ++ "'")
    else parseFrom template chars (literal ++ [c]) none
  | c :: chars, _, some column =>
    if c = '}' then
      if column = [] then
        .error ("s2_sink: empty column placeholder in stream_template '" ++ template ++ "'")
      else (parseFrom template chars [] none).map (.column (.ofList column) :: ·)
    else if c = '{' then
      .error ("s2_sink: unclosed '\x7b' in stream_template '" ++ template ++ "'")
    else parseFrom template chars [] (some (column ++ [c]))

/-- Parses templates such as `events/{tenant}` into literal and column segments. -/
def parseStreamTemplate (template : String) : Except String (List Segment) :=
  match parseFrom template template.toList [] none with
  | .ok [] => .error "s2_sink: stream_template cannot be empty"
  | parsed => parsed

/-- A template that was accepted, with its segments. -/
structure StreamTemplate where
  text : String
  segments : List Segment
  parsed : parseStreamTemplate text = .ok segments

/-! ## What the sink relies on -/

/-- A stream name: the text it was parsed from. -/
abbrev StreamName := String

/-- A record's body, and its Debezium op as a header. -/
structure AppendRecord where
  body : String
  op : String
  deriving DecidableEq

structure Libraries (D : Type) where
  /-- A datum of a `StringArray`. -/
  text : D → String
  /-- `ArrayFormatter::try_new` with the default options, and what it writes for a row. -/
  formatter : (t : DataType) → {n : Nat} → ArrowArray D t n →
    Except String (Fin n → Except String String)
  arrayValueToString : (t : DataType) → {n : Nat} → ArrowArray D t n → Fin n →
    Except String String
  /-- The validation of `StreamName::from_str`. -/
  validStreamName : String → Except String Unit
  jsonRows : RecordBatch D → Except String (List String)
  /-- The size limits of `AppendRecord::new` and of its headers. -/
  validBody : String → Except String Unit
  validHeaders : AppendRecord → Except String Unit

variable {D : Type} (lib : Libraries D)

def Libraries.parseStreamName (name : String) : Except String StreamName :=
  (lib.validStreamName name).map fun _ => name

/-! ## Records -/

/-- `RowKind::from_str`, then its Debezium op. -/
def dbzOpFromRowKind (kind : String) : Option String :=
  if kind = "i" then some "c" else if kind = "u" then some "u" else if kind = "d" then some "d"
  else none

def toOp (value : String) : Except String String :=
  match dbzOpFromRowKind value with
  | some op => .ok op
  | none => .error ("invalid '" ++ columnNameOp ++ "' row kind '" ++ value ++ "' (expected i/u/d)")

/-- The op of a row; `StringArray` is read as it is, other encodings are rendered. -/
def Libraries.opAt {n : Nat} : (t : DataType) → ArrowArray D t n → Fin n → Except String String
  | .utf8, .leaf _ entries, row => toOp ((entries row).elim "" lib.text)
  | t, column, row =>
    if column.isNull row then toOp ""
    else
      match lib.arrayValueToString t column row with
      | .ok value => toOp value
      | .error e =>
        .error ("failed to read '" ++ columnNameOp ++ "' at row " ++ toString row.val ++ ": " ++ e)

def Libraries.dbzOpsFromBatch (batch : RecordBatch D) : Except String (List String) :=
  match batch.columnByName columnNameOp with
  | none => .error ("batch is missing the '" ++ columnNameOp ++ "' column")
  | some column => (List.finRange batch.numRows).mapM (lib.opAt column.1 column.2)

/-- Projects out the op: it travels as a record header, not payload. -/
def withoutOpColumn (batch : RecordBatch D) : RecordBatch D where
  fields := (batch.columns.without columnNameOp).1
  numRows := batch.numRows
  columns := (batch.columns.without columnNameOp).2

def Libraries.appendRecord (row op : String) : Except String AppendRecord := do
  (lib.validBody row).mapError fun e =>
    "failed to build S2 AppendRecord (row " ++ toString row.utf8ByteSize ++ " bytes): " ++ e
  (lib.validHeaders ⟨row, op⟩).mapError ("failed to set S2 record header: " ++ ·)
  pure ⟨row, op⟩

def Libraries.appendRecordsFromJsonRows (jsonRows ops : List String) :
    Except String (List AppendRecord) :=
  if ops.length ≠ jsonRows.length then
    .error ("op count " ++ toString ops.length ++ " does not match row count " ++
      toString jsonRows.length)
  else (jsonRows.zip ops).mapM fun entry => lib.appendRecord entry.1 entry.2

/-! ## Streams -/

def columnNames (segments : List Segment) : List String :=
  segments.filterMap fun
    | .column name => some name
    | .literal _ => none

/-- A placeholder's column with its formatter. -/
structure TemplateColumn (n : Nat) where
  isNull : Fin n → Bool
  value : Fin n → Except String String

def Libraries.templateColumn (batch : RecordBatch D) (name : String) :
    Except String (TemplateColumn batch.numRows) :=
  match batch.columnByName name with
  | none => .error ("s2_sink: stream_template column '" ++ name ++ "' not found in batch")
  | some ⟨t, column⟩ =>
    match lib.formatter t column with
    | .error e =>
      .error ("s2_sink: cannot render stream_template column '" ++ name ++ "': " ++ e)
    | .ok value => .ok ⟨column.isNull, value⟩

/-- The columns of a template, each under its name. -/
def Libraries.templateColumns (batch : RecordBatch D) (segments : List Segment) :
    Except String (List (String × TemplateColumn batch.numRows)) :=
  (columnNames segments).mapM fun name =>
    (lib.templateColumn batch name).map fun column => (name, column)

/-- What a placeholder adds to the name of a row. -/
def placeholder {n : Nat} (name : String) (column : TemplateColumn n) (row : Fin n) :
    Except String String :=
  if column.isNull row then
    .error ("s2_sink: stream_template column '" ++ name ++ "' is null at row " ++
      toString row.val)
  else
    match column.value row with
    | .error e => .error ("s2_sink: failed to render stream_template column '" ++ name ++
        "' at row " ++ toString row.val ++ ": " ++ e)
    | .ok value =>
      -- '/' delimits the stream namespace: such a value would escape its prefix
      if '/' ∈ value.toList then
        .error ("s2_sink: stream_template column '" ++ name ++ "' value '" ++ value ++
          "' at row " ++ toString row.val ++
          " contains '/', which would escape the stream namespace")
      else .ok value

/-- One more segment of a row's name; a column that was not collected cannot occur. -/
def pushSegment {n : Nat} (columns : List (String × TemplateColumn n)) (row : Fin n)
    (name : String) : Segment → Except String String
  | .literal literal => .ok (name ++ literal)
  | .column column =>
    match columns.lookup column with
    | none => .error "no entry found for key"
    | some found => (placeholder column found row).map (name ++ ·)

/-- The loop over the rows, with the names parsed so far. -/
def Libraries.resolveRows {n : Nat} (columns : List (String × TemplateColumn n))
    (segments : List Segment) :
    List (Fin n) → (parsed : BTreeMap String StreamName) → Except String (List StreamName)
  | [], _ => .ok []
  | row :: rows, parsed =>
    match segments.foldlM (pushSegment columns row) "" with
    | .error e => .error e
    | .ok name =>
      match parsed[name]? with
      | some stream => (resolveRows columns segments rows parsed).map (stream :: ·)
      | none =>
        match lib.parseStreamName name with
        | .error e => .error ("s2_sink: stream_template resolved to invalid stream name '" ++
            name ++ "': " ++ e)
        | .ok stream =>
          (resolveRows columns segments rows (parsed.insert name stream)).map (stream :: ·)

def Libraries.resolveStreams (segments : List Segment) (batch : RecordBatch D) :
    Except String (List StreamName) :=
  match lib.templateColumns batch segments with
  | .error e => .error e
  | .ok columns => lib.resolveRows columns segments (List.finRange batch.numRows) ∅

/-! ## Runs -/

/-- One more record: it joins the last run if that is of its stream. -/
def pushRecord (runs : List (StreamName × List AppendRecord))
    (placed : AppendRecord × StreamName) : List (StreamName × List AppendRecord) :=
  match runs.getLast? with
  | some last =>
    if last.1 = placed.2 then runs.dropLast ++ [(last.1, last.2 ++ [placed.1])]
    else runs ++ [(placed.2, [placed.1])]
  | none => [(placed.2, [placed.1])]

def groupByStream (records : List AppendRecord) (streams : List StreamName) :
    List (StreamName × List AppendRecord) :=
  (records.zip streams).foldl pushRecord []

def Libraries.route (target : StreamTarget) (records : List AppendRecord) (batch : RecordBatch D) :
    Except String (List (StreamName × List AppendRecord)) :=
  match target with
  | .fixed stream => .ok [(stream, records)]
  | .template segments =>
    match lib.resolveStreams segments batch with
    | .error e => .error e
    | .ok streams =>
      if streams.length ≠ records.length then
        .error ("resolved stream count " ++ toString streams.length ++
          " does not match record count " ++ toString records.length)
      else .ok (groupByStream records streams)

/-- `process_batch_inner` up to the runs it submits. -/
def Libraries.processBatchInner (target : StreamTarget) (batch : RecordBatch D) :
    Except String (List (StreamName × List AppendRecord)) := do
  let ops ← lib.dbzOpsFromBatch batch
  let jsonRows ← (lib.jsonRows (withoutOpColumn batch)).mapError
    ("failed to convert batch to JSON: " ++ ·)
  let records ← lib.appendRecordsFromJsonRows jsonRows ops
  lib.route target records batch

/-- The batch as a call of the sink begins with it. -/
def Libraries.processBatch (target : StreamTarget) (batch : RecordBatch D) : S2Event :=
  .processBatch batch.numRows ((lib.processBatchInner target batch).map fun runs =>
    runs.map fun run => (run.1, run.2.map AppendRecord.body))

end StreamlingPlugins.S2
