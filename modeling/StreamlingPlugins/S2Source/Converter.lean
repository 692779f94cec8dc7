import StreamlingPlugins.S2Source.FieldSpecs
import StreamlingPlugins.Utf8

/-!
# The record converter

What the `schema` option makes of records: the raw mode gives the envelope of each record, the
typed mode the row that its body decodes to.
-/

namespace StreamlingPlugins.S2Source

open Arrow (DataType Field)

/-! ## Schemas -/

inductive OutputMode
  | raw
  | typed (fields : List Field) (includeMetadata : Bool) (onMalformed : OnMalformed)

def timestampType : DataType := .timestamp .millisecond (some "UTC")

def gsOpField : Field := .new "_gs_op" .utf8 false

def metadataFields : List Field :=
  [.new "_s2_stream" .utf8 false, .new "_s2_seq_num" .uint64 false,
    .new "_s2_timestamp" timestampType false]

/-- The output schema of a converter, and the mode of one that is not raw. -/
structure RecordConverter where
  schema : List Field
  typed : Option TypedMode

def RecordConverter.new : OutputMode → Except PluginError RecordConverter
  | .raw =>
    .ok ⟨[gsOpField, .new "stream" .utf8 false, .new "seq_num" .uint64 false,
      .new "timestamp" timestampType false, .new "headers" .utf8 true,
      .new "body" .utf8 false], none⟩
  | .typed fields includeMetadata onMalformed =>
    let reserved := gsOpField :: if includeMetadata then metadataFields else []
    match fields.find? fun field => reserved.any fun r => r.name = field.name with
    | some field => .error (.internal ("s2_source: schema field '" ++ field.name ++
        "' collides with a reserved column"))
    | none =>
      .ok ⟨gsOpField :: fields ++ if includeMetadata then metadataFields else [],
        some ⟨includeMetadata, onMalformed⟩⟩

/-! ## The raw mode -/

/-- The columns of the envelope. -/
structure RawBatch where
  gsOp : List String
  metadata : Metadata
  headers : List (Option String)
  body : List String
  deriving DecidableEq

/-- Headers as a JSON object of name-sorted members, which `toJson` writes; a later header of a
name replaces an earlier one. -/
def headersJson (toJson : List (String × String) → String) (record : SourceRecord) :
    Option String :=
  if record.headers = [] then none
  else
    let members : BTreeMap String String := record.headers.foldl (fun members header =>
      members.insert (fromUtf8Lossy header.1) (fromUtf8Lossy header.2)) ∅
    some (toJson members.toList)

def convertRaw (toJson : List (String × String) → String) (records : List SourceRecord) :
    RawBatch where
  gsOp := records.map gsOp
  metadata := metadataArrays records
  headers := records.map (headersJson toJson)
  body := records.map fun record => fromUtf8Lossy record.body

end StreamlingPlugins.S2Source
