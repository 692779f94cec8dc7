import StreamlingPlugins.Arrow.DataType
import StreamlingPlugins.Fallible
import StreamlingPlugins.S2Source.Convert
import StreamlingPlugins.Text

/-!
# Field specs

The `schema` option of the typed mode, such as `id:int64,value:string?`.  What is accepted is
written back in one spelling, and this is accepted as the same fields.
-/

namespace StreamlingPlugins.S2Source

open Arrow (DataType Field)

/-! ## Parsing -/

/-- The names of the types, each in lower case. -/
def dataTypeNames : List (String × DataType) :=
  [("bool", .boolean), ("boolean", .boolean), ("int8", .int8), ("int16", .int16),
    ("int32", .int32), ("int64", .int64), ("long", .int64), ("uint8", .uint8),
    ("uint16", .uint16), ("uint32", .uint32), ("uint64", .uint64), ("float32", .float32),
    ("float", .float32), ("float64", .float64), ("double", .float64), ("string", .utf8),
    ("utf8", .utf8), ("large_string", .largeUtf8), ("large_utf8", .largeUtf8), ("date", .date32),
    ("date32", .date32), ("timestamp_s", .timestamp .second none),
    ("timestamp_second", .timestamp .second none), ("timestamp", .timestamp .millisecond none),
    ("timestamp_ms", .timestamp .millisecond none),
    ("timestamp_millis", .timestamp .millisecond none),
    ("timestamp_us", .timestamp .microsecond none),
    ("timestamp_micros", .timestamp .microsecond none),
    ("timestamp_ns", .timestamp .nanosecond none),
    ("timestamp_nanos", .timestamp .nanosecond none)]

def parseDataType (dataType : List Char) : Except PluginError DataType :=
  let lower := String.ofList (dataType.map Char.toLower)
  match dataTypeNames.lookup lower with
  | some t => .ok t
  | none => .error (.internal ("s2_source: unsupported schema field type '" ++ lower ++ "'"))

/-- `str::split_once` -/
def splitOnce (sep : Char) (s : List Char) : Option (List Char × List Char) :=
  if sep ∈ s then some (s.takeWhile (· ≠ sep), (s.dropWhile (· ≠ sep)).drop 1) else none

def parseFieldSpec (fieldSpec : List Char) : Except PluginError Field :=
  match splitOnce ':' fieldSpec with
  | none => .error (.internal ("s2_source: schema field '" ++ String.ofList fieldSpec ++
      "' must use name:type syntax"))
  | some (name, dataType) =>
    if trim name = [] then .error (.internal "s2_source: schema field name cannot be empty")
    else
      let nullable := (trim dataType).getLast? = some '?'
      (parseDataType (trim (trimEndMatches (· = '?') (trim dataType)))).map fun t =>
        .new (String.ofList (trim name)) t nullable

/-- Parses a `name:type` comma-separated schema spec; a `?` marks a field nullable. -/
def parseFieldSpecs (spec : String) : Except PluginError (List Field) :=
  match (((split ',' spec.toList).map trim).filter (· ≠ [])).mapM parseFieldSpec with
  | .error e => .error e
  | .ok [] => .error (.internal "s2_source: schema must contain at least one field")
  | .ok fields => .ok fields

/-! ## Writing back -/

/-- The first name of a type that a spec can name. -/
def dataTypeName : DataType → String
  | .boolean => "bool"
  | .int8 => "int8"
  | .int16 => "int16"
  | .int32 => "int32"
  | .int64 => "int64"
  | .uint8 => "uint8"
  | .uint16 => "uint16"
  | .uint32 => "uint32"
  | .uint64 => "uint64"
  | .float32 => "float32"
  | .float64 => "float64"
  | .utf8 => "string"
  | .largeUtf8 => "large_string"
  | .date32 => "date"
  | .timestamp .second _ => "timestamp_s"
  | .timestamp .millisecond _ => "timestamp"
  | .timestamp .microsecond _ => "timestamp_us"
  | .timestamp .nanosecond _ => "timestamp_ns"
  | _ => ""

def showField (field : Field) : List Char :=
  field.name.toList ++ ':' :: ((dataTypeName field.dataType).toList ++
    if field.isNullable then ['?'] else [])

def showFields (fields : List Field) : String :=
  String.ofList ([','].intercalate (fields.map showField))

/-- A field that a spec can name: no separator in its name and no blank around it. -/
structure Specified (field : Field) : Prop where
  plain : ',' ∉ field.name.toList ∧ ':' ∉ field.name.toList
  filled : field.name.toList ≠ []
  trimmed : trim field.name.toList = field.name.toList
  supported : ∃ name, (name, field.dataType) ∈ dataTypeNames
  bare : field = .new field.name field.dataType field.isNullable

/-- A type is found under its first name, and that has none of the characters around it. -/
theorem dataTypeName_spec : ∀ entry ∈ dataTypeNames,
    dataTypeNames.lookup (dataTypeName entry.2) = some entry.2 ∧
      (dataTypeName entry.2).toList.map Char.toLower = (dataTypeName entry.2).toList ∧
      (dataTypeName entry.2).toList ≠ [] ∧
      ∀ c ∈ (dataTypeName entry.2).toList, c ≠ ',' ∧ c ≠ '?' ∧ isWhitespace c = false := by
  simp only [dataTypeNames, List.forall_mem_cons, dataTypeName]
  simp [List.lookup_cons, isWhitespace]

theorem parseDataType_ok {dataType : List Char} {t : DataType}
    (parsed : parseDataType dataType = .ok t) : ∃ name, (name, t) ∈ dataTypeNames := by
  simp only [parseDataType] at parsed
  split at parsed
  · rename_i found
    cases parsed
    obtain ⟨before, after, split, -⟩ := List.lookup_eq_some_iff.mp found
    exact ⟨_, by rw [split]; exact List.mem_append_right _ List.mem_cons_self⟩
  · cases parsed

theorem splitOnce_append {sep : Char} {name : List Char} (plain : sep ∉ name)
    (rest : List Char) : splitOnce sep (name ++ sep :: rest) = some (name, rest) := by
  have kept : ∀ c ∈ name, decide (c ≠ sep) = true := by
    intro c mem
    rw [decide_eq_true_eq]
    rintro rfl
    exact plain mem
  rw [splitOnce, if_pos (by simp), List.takeWhile_append_of_pos kept,
    List.dropWhile_append_of_pos kept]
  simp

theorem specified_of_parseFieldSpec {fieldSpec : List Char} {field : Field}
    (parsed : parseFieldSpec fieldSpec = .ok field) (apart : ',' ∉ fieldSpec) :
    Specified field := by
  unfold parseFieldSpec at parsed
  split at parsed
  · cases parsed
  · rename_i name dataType found
    simp only [splitOnce, Option.ite_none_right_eq_some, Option.some.injEq, Prod.mk.injEq] at found
    obtain ⟨-, rfl, rfl⟩ := found
    split at parsed
    · cases parsed
    · rename_i filled
      obtain ⟨t, typed, rfl⟩ := map_eq_ok parsed
      have within := subset_trim (s := fieldSpec.takeWhile (· ≠ ':'))
      refine ⟨⟨?_, ?_⟩, ?_, ?_, parseDataType_ok typed, rfl⟩
      · intro mem
        exact apart ((List.takeWhile_sublist _).mem (within (by simpa using mem)))
      · intro mem
        have kept := List.mem_takeWhile_imp (within (by simpa using mem))
        simp at kept
      · simpa using filled
      · simpa using trim_trim

/-- A field that is written back is parsed as itself. -/
theorem parseFieldSpec_showField {field : Field} (specified : Specified field) :
    parseFieldSpec (showField field) = .ok field := by
  obtain ⟨⟨-, plain⟩, filled, trimmed, ⟨name, supported⟩, bare⟩ := specified
  obtain ⟨found, lower, some_type, letters⟩ := dataTypeName_spec _ supported
  have parsed : parseDataType (dataTypeName field.dataType).toList = .ok field.dataType := by
    simp only [parseDataType, lower, String.ofList_toList, found]
  have whole : trim (dataTypeName field.dataType).toList = (dataTypeName field.dataType).toList :=
    trim_of_forall fun c mem => (letters c mem).2.2
  obtain ⟨last, is_last⟩ :=
    Option.ne_none_iff_exists'.mp (mt List.getLast?_eq_none_iff.mp some_type)
  have other : last ≠ '?' := (letters last (List.mem_of_getLast? is_last)).2.1
  have unmarked : trimEndMatches (· = '?') (dataTypeName field.dataType).toList =
      (dataTypeName field.dataType).toList := by
    have kept : trimEndMatches (· = '?') ((dataTypeName field.dataType).toList ++ []) =
        (dataTypeName field.dataType).toList :=
      trimEndMatches_append (by simp) is_last (by simpa)
    rwa [List.append_nil] at kept
  have ends : (dataTypeName field.dataType).toList.getLast? ≠ some '?' := by
    rw [is_last]
    simpa using other
  rw [parseFieldSpec, showField, splitOnce_append plain]
  simp only
  rw [trimmed, if_neg filled]
  cases nullable : field.isNullable with
  | false =>
      rw [nullable] at bare
      simpa [whole, unmarked, parsed, ends, Except.map] using bare.symm
  | true =>
      rw [nullable] at bare
      have marked : trim ((dataTypeName field.dataType).toList ++ ['?']) =
          (dataTypeName field.dataType).toList ++ ['?'] := by
        refine trim_of_forall fun c mem => ?_
        rcases List.mem_append.mp mem with letter | mark
        · exact (letters c letter).2.2
        · rw [List.mem_singleton.mp mark]
          decide
      have dropped : trimEndMatches (· = '?') ((dataTypeName field.dataType).toList ++ ['?']) =
          (dataTypeName field.dataType).toList :=
        trimEndMatches_append (by simp) is_last (by simpa)
      simpa [marked, dropped, whole, parsed, Except.map] using bare.symm

theorem notMem_showField {field : Field} (specified : Specified field) :
    ',' ∉ showField field := by
  obtain ⟨name, supported⟩ := specified.supported
  have letters := (dataTypeName_spec _ supported).2.2.2
  have no_comma : ',' ∉ (dataTypeName field.dataType).toList := fun mem =>
    (letters ',' mem).1 rfl
  unfold showField
  split <;> simp [specified.plain.1, no_comma]

/-- What is written back starts and ends with characters that are not trimmed. -/
theorem trim_showField {field : Field} (specified : Specified field) :
    trim (showField field) = showField field := by
  obtain ⟨name, supported⟩ := specified.supported
  obtain ⟨-, -, some_type, letters⟩ := dataTypeName_spec _ supported
  obtain ⟨⟨a, first, first_stays⟩, -⟩ :=
    trim_ends (s := field.name.toList) (by rw [specified.trimmed]; exact specified.filled)
  rw [specified.trimmed] at first
  have head : (showField field).head? = some a := by
    rw [showField, List.head?_append_of_ne_nil _ specified.filled, first]
  cases nullable : field.isNullable with
  | false =>
      obtain ⟨b, is_last⟩ := Option.ne_none_iff_exists'.mp
        (mt List.getLast?_eq_none_iff.mp some_type)
      refine trim_of_ends head first_stays (b := b) ?_
        (letters b (List.mem_of_getLast? is_last)).2.2
      simp [showField, nullable, List.getLast?_append, List.getLast?_cons, is_last]
  | true =>
      refine trim_of_ends head first_stays (b := '?') ?_ (by decide)
      simp [showField, nullable, List.getLast?_append, List.getLast?_cons]

/-- **A spec that is accepted can be written back.**  Its fields can be named, and their one
spelling is accepted as the same fields. -/
theorem parseFieldSpecs_showFields {spec : String} {fields : List Field}
    (accepted : parseFieldSpecs spec = .ok fields) :
    (fields ≠ [] ∧ ∀ field ∈ fields, Specified field) ∧
      parseFieldSpecs (showFields fields) = .ok fields := by
  have some_field : fields ≠ [] ∧ ∀ field ∈ fields, Specified field := by
    unfold parseFieldSpecs at accepted
    split at accepted
    · cases accepted
    · cases accepted
    · rename_i parsed some_field parsed_eq
      obtain rfl := Except.ok.inj accepted
      have apart : ∀ part ∈ ((split ',' spec.toList).map trim).filter (· ≠ []), ',' ∉ part := by
        intro part among comma
        obtain ⟨raw, split, rfl⟩ := List.mem_map.mp (List.mem_of_mem_filter among)
        exact notMem_of_mem_split split (subset_trim comma)
      have read := (List.forall₂_and_left _ _).mpr ⟨apart, mapM_eq_ok_iff.mp parsed_eq⟩
      refine ⟨some_field, fun field mem => ?_⟩
      obtain ⟨part, no_comma, parsed⟩ := exists_of_mem_of_forall₂ read.flip mem
      exact specified_of_parseFieldSpec parsed no_comma
  refine ⟨some_field, ?_⟩
  obtain ⟨some_field, specified⟩ := some_field
  have parts : split ',' ([','].intercalate (fields.map showField)) = fields.map showField :=
    split_intercalate (by simpa using some_field) (by
      simpa using fun field mem => notMem_showField (specified field mem))
  have trimmed : (fields.map showField).map trim = fields.map showField := by
    rw [List.map_map]
    exact List.map_congr_left fun field mem => trim_showField (specified field mem)
  have filled : (fields.map showField).filter (· ≠ []) = fields.map showField := by
    simp [showField]
  have read : (fields.map showField).mapM parseFieldSpec = .ok fields := by
    refine mapM_eq_ok_iff.mpr (List.forall₂_map_left_iff.mpr (List.forall₂_same.mpr ?_))
    exact fun field mem => parseFieldSpec_showField (specified field mem)
  rw [parseFieldSpecs, showFields, String.toList_ofList, parts, trimmed, filled, read]
  cases fields with
  | nil => exact absurd rfl some_field
  | cons field fields => rfl

theorem parseFieldSpecs_showFields_demo :
    parseFieldSpecs (showFields [.new "id" .int64 false, .new "at" (.timestamp .second none) true]) =
      .ok [.new "id" .int64 false, .new "at" (.timestamp .second none) true] := by
  have accepted : parseFieldSpecs " id: LONG,, at :Timestamp_S ??" =
      .ok [.new "id" .int64 false, .new "at" (.timestamp .second none) true] := by rfl
  exact (parseFieldSpecs_showFields accepted).2

end StreamlingPlugins.S2Source
