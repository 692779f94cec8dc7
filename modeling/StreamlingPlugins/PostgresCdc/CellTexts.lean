import StreamlingPlugins.PostgresCdc.Cells

/-!
# What the text of a cell tells

The text of a cell determines its JSON value, except that a JSON string is written without
its quotes.  The JSON value determines the cell, except that in arrays every element that
JSON does not have is written as null.
-/

namespace StreamlingPlugins.PostgresCdc

section

variable {lib : CellLibrary}

/-- Distinct values print differently, and a string is shorter than its JSON text. -/
structure CellLibrary.Faithful (lib : CellLibrary) : Prop where
  widen : Function.Injective lib.widen
  numericText : Function.Injective lib.numericText
  dateText : Function.Injective lib.dateText
  timeText : Function.Injective lib.timeText
  timeTzText : Function.Injective lib.timeTzText
  timestampText : Function.Injective lib.timestampText
  timestampTzText : Function.Injective lib.timestampTzText
  uuidText : Function.Injective lib.uuidText
  base64 : Function.Injective lib.base64
  shorter : ∀ text s, lib.fromStr text = some (.string s) → s.length < text.length

/-- Reading the value's JSON text gives the value back. -/
def CellLibrary.Inverts (lib : CellLibrary) (v : Json lib.F64) : Prop :=
  lib.fromStr (lib.toString v) = some v

/-! ## The text of a JSON value -/

def Json.IsString {F : Type} (v : Json F) : Prop :=
  ∃ s, v = .string s

/-- The first value is a string that spells the second one. -/
def Spells (lib : CellLibrary) (v w : Json lib.F64) : Prop :=
  ¬ w.IsString ∧ v = .string (lib.toString w)

theorem Spells.isString {v w : Json lib.F64} (spells : Spells lib v w) : v.IsString :=
  ⟨_, spells.2⟩

variable (lib) in
/-- The JSON text of a value, of a string its characters. -/
def jsonText : Json lib.F64 → String
  | .string s => s
  | v => lib.toString v

theorem jsonText_of_not_string {v : Json lib.F64} (not_string : ¬ v.IsString) :
    jsonText lib v = lib.toString v := by
  cases v with
  | string s => exact absurd ⟨s, rfl⟩ not_string
  | _ => rfl

theorem cellToUtf8_eq (c : Cell lib) : cellToUtf8 c = jsonText lib (cellToJson c) := by
  cases c with
  | string s => rfl
  | _ => rfl

theorem jsonText_eq_iff {v w : Json lib.F64} (inverse : lib.Inverts v) (inverse' : lib.Inverts w) :
    jsonText lib v = jsonText lib w ↔ v = w ∨ Spells lib v w ∨ Spells lib w v := by
  constructor
  · intro same
    by_cases string : v.IsString
    · obtain ⟨s, rfl⟩ := string
      by_cases string' : w.IsString
      · obtain ⟨s', rfl⟩ := string'
        exact .inl (congrArg _ same)
      · rw [jsonText_of_not_string string'] at same
        exact .inr (.inl ⟨string', congrArg _ same⟩)
    · rw [jsonText_of_not_string string] at same
      by_cases string' : w.IsString
      · obtain ⟨s', rfl⟩ := string'
        exact .inr (.inr ⟨string, congrArg _ same.symm⟩)
      · rw [jsonText_of_not_string string'] at same
        have read := inverse.symm.trans ((congrArg lib.fromStr same).trans inverse')
        exact .inl (Option.some.inj read)
  · rintro (rfl | ⟨not_string, rfl⟩ | ⟨not_string, rfl⟩)
    · rfl
    · exact (jsonText_of_not_string not_string).symm
    · exact jsonText_of_not_string not_string

/-- The text of a JSON value reads back as the value unless it is a string. -/
theorem fromStr_jsonText_iff (faithful : lib.Faithful) {v : Json lib.F64}
    (inverse : lib.Inverts v) : lib.fromStr (jsonText lib v) = some v ↔ ¬ v.IsString := by
  constructor
  · rintro read ⟨s, rfl⟩
    exact absurd (faithful.shorter _ _ read) (lt_irrefl _)
  · intro not_string
    rw [jsonText_of_not_string not_string]
    exact inverse

/-! ## Elements of an array -/

theorem map_eq_map_iff {α β γ : Type} {h : α → β} {k : α → γ}
    (same : ∀ x y, h x = h y ↔ k x = k y) {v w : List α} :
    v.map h = w.map h ↔ v.map k = w.map k := by
  induction v generalizing w with
  | nil => simp
  | cons x v ih =>
      cases w with
      | nil => simp
      | cons y w => simp only [List.map_cons, List.cons.injEq, same, ih]

theorem elementsToJson_eq_iff {T S : Type} {f : T → Json lib.F64} {visible : T → Option S}
    (null : ∀ x, f x = .null ↔ visible x = none)
    (same : ∀ x y, f x = f y ↔ visible x = visible y) {v w : List (Option T)} :
    elementsToJson f v = elementsToJson f w ↔
      v.map (fun item => item.bind visible) = w.map fun item => item.bind visible := by
  simp only [elementsToJson, Json.array.injEq]
  refine map_eq_map_iff ?_
  rintro (_ | x) (_ | y)
  · simp
  · simp [eq_comm, null]
  · simp [null]
  · exact same x y

theorem elementsToJson_inj {T : Type} {f : T → Json lib.F64} (injective : Function.Injective f)
    (not_null : ∀ x, f x ≠ .null) {v w : List (Option T)} :
    elementsToJson f v = elementsToJson f w ↔ v = w := by
  have null (x : T) : f x = .null ↔ some x = none := by simp [not_null]
  have same (x y : T) : f x = f y ↔ some x = some y := by simp [injective.eq_iff]
  rw [elementsToJson_eq_iff null same]
  simp

def Json.nonNull? {F : Type} : Json F → Option (Json F)
  | .null => none
  | v => some v

/-- Different arrays that print as the same JSON array: floats that JSON does not have, and
JSON nulls, are written as the null elements are. -/
def ArrayCell.Collides : ArrayCell lib → ArrayCell lib → Prop
  | .f32 v, .f32 w => v ≠ w ∧
    v.map (fun item => item.bind Float.finite?) = w.map fun item => item.bind Float.finite?
  | .f64 v, .f64 w => v ≠ w ∧
    v.map (fun item => item.bind Float.finite?) = w.map fun item => item.bind Float.finite?
  | .json v, .json w => v ≠ w ∧
    v.map (fun item => item.bind Json.nonNull?) = w.map fun item => item.bind Json.nonNull?
  | _, _ => False

/-- The arrays that are decoded for elements of a type. -/
inductive ArrayHolds : PgType → ArrayCell lib → Prop
  | bool (v : List (Option Bool)) : ArrayHolds .bool (.bool v)
  | other (v : List (Option String)) : ArrayHolds .other (.string v)
  | int2 (v : List (Option Int16)) : ArrayHolds .int2 (.i16 v)
  | int4 (v : List (Option Int32)) : ArrayHolds .int4 (.i32 v)
  | oid (v : List (Option UInt32)) : ArrayHolds .oid (.u32 v)
  | int8 (v : List (Option Int64)) : ArrayHolds .int8 (.i64 v)
  | float4 (v : List (Option (Float lib.F32))) : ArrayHolds .float4 (.f32 v)
  | float8 (v : List (Option (Float lib.F64))) : ArrayHolds .float8 (.f64 v)
  | numeric (v : List (Option lib.Numeric)) : ArrayHolds .numeric (.numeric v)
  | date (v : List (Option lib.Date)) : ArrayHolds .date (.date v)
  | time (v : List (Option lib.Time)) : ArrayHolds .time (.time v)
  | timetz (v : List (Option lib.TimeTz)) : ArrayHolds .timetz (.timeTz v)
  | timestamp (v : List (Option lib.Timestamp)) : ArrayHolds .timestamp (.timestamp v)
  | timestamptz (v : List (Option lib.TimestampTz)) : ArrayHolds .timestamptz (.timestampTz v)
  | uuid (v : List (Option lib.Uuid)) : ArrayHolds .uuid (.uuid v)
  | json (v : List (Option (Json lib.F64))) : ArrayHolds .json (.json v)
  | jsonb (v : List (Option (Json lib.F64))) : ArrayHolds .jsonb (.json v)
  | bytea (v : List (Option (List UInt8))) : ArrayHolds .bytea (.bytes v)

theorem string_elements_iff {T : Type} {text : T → String} (injective : Function.Injective text)
    {v w : List (Option T)} : elementsToJson (fun x => (.string (text x) : Json lib.F64)) v =
      elementsToJson (fun x => .string (text x)) w ↔ v = w :=
  elementsToJson_inj (fun _ _ same => injective (Json.string.inj same)) nofun

theorem integer_elements_iff {T : Type} {value : T → Int} (injective : Function.Injective value)
    {v w : List (Option T)} : elementsToJson (fun x => (integerJson (value x) : Json lib.F64)) v =
      elementsToJson (fun x => integerJson (value x)) w ↔ v = w := by
  refine elementsToJson_inj (fun x y same => ?_) nofun
  injection same with same
  injection same with same
  exact injective same

theorem float_elements_iff {T : Type} {f : T → lib.F64} (injective : Function.Injective f)
    {v w : List (Option (Float T))} : elementsToJson (fun x => floatJson (x.map f)) v =
      elementsToJson (fun x => floatJson (x.map f)) w ↔
        v.map (fun item => item.bind Float.finite?) =
          w.map fun item => item.bind Float.finite? := by
  refine elementsToJson_eq_iff ?_ ?_
  · rintro (_ | _ | _ | x) <;> simp [floatJson, Float.map, Float.finite?]
  · rintro (_ | _ | _ | x) (_ | _ | _ | y) <;>
      simp [floatJson, Float.map, Float.finite?, injective.eq_iff]

theorem float64_elements_iff {v w : List (Option (Float lib.F64))} :
    elementsToJson floatJson v = elementsToJson floatJson w ↔
      v.map (fun item => item.bind Float.finite?) = w.map fun item => item.bind Float.finite? := by
  have whole (x : Float lib.F64) : x.map id = x := by cases x <;> rfl
  have := float_elements_iff (v := v) (w := w) fun (x y : lib.F64) (same : id x = id y) => same
  simpa only [whole] using this

theorem json_elements_iff {v w : List (Option (Json lib.F64))} :
    elementsToJson id v = elementsToJson id w ↔
      v.map (fun item => item.bind Json.nonNull?) = w.map fun item => item.bind Json.nonNull? := by
  refine elementsToJson_eq_iff ?_ ?_
  · intro x
    cases x <;> simp [Json.nonNull?]
  · intro x y
    cases x <;> cases y <;> simp [Json.nonNull?]

/-- What is shown is the same when all is, or when the difference is hidden. -/
theorem iff_or_hidden {p q : Prop} (shown : p → q) : q ↔ p ∨ ¬ p ∧ q := by
  tauto

theorem arrayToJson_eq_iff (faithful : lib.Faithful) {t : PgType} {a b : ArrayCell lib}
    (held : ArrayHolds t a) (held' : ArrayHolds t b) :
    arrayToJson a = arrayToJson b ↔ a = b ∨ a.Collides b := by
  cases held with
  | bool v =>
      cases held' with
      | bool w =>
          simpa [arrayToJson, ArrayCell.Collides] using
            elementsToJson_inj (fun _ _ => Json.bool.inj) nofun
  | other v =>
      cases held' with
      | other w =>
          simpa [arrayToJson, ArrayCell.Collides] using string_elements_iff Function.injective_id
  | int2 v =>
      cases held' with
      | int2 w =>
          simpa [arrayToJson, ArrayCell.Collides] using
            integer_elements_iff fun _ _ => Int16.toInt_inj.mp
  | int4 v =>
      cases held' with
      | int4 w =>
          simpa [arrayToJson, ArrayCell.Collides] using
            integer_elements_iff fun _ _ => Int32.toInt_inj.mp
  | oid v =>
      cases held' with
      | oid w =>
          simpa [arrayToJson, ArrayCell.Collides] using integer_elements_iff fun _ _ same =>
            UInt32.toNat_inj.mp (Int.ofNat_inj.mp same)
  | int8 v =>
      cases held' with
      | int8 w =>
          simpa [arrayToJson, ArrayCell.Collides] using
            integer_elements_iff fun _ _ => Int64.toInt_inj.mp
  | float4 v =>
      cases held' with
      | float4 w =>
          simp only [arrayToJson, ArrayCell.Collides, ArrayCell.f32.injEq]
          rw [float_elements_iff faithful.widen]
          exact iff_or_hidden fun same => congrArg _ same
  | float8 v =>
      cases held' with
      | float8 w =>
          simp only [arrayToJson, ArrayCell.Collides, ArrayCell.f64.injEq]
          rw [float64_elements_iff]
          exact iff_or_hidden fun same => congrArg _ same
  | numeric v =>
      cases held' with
      | numeric w =>
          simpa [arrayToJson, ArrayCell.Collides] using string_elements_iff faithful.numericText
  | date v =>
      cases held' with
      | date w =>
          simpa [arrayToJson, ArrayCell.Collides] using string_elements_iff faithful.dateText
  | time v =>
      cases held' with
      | time w =>
          simpa [arrayToJson, ArrayCell.Collides] using string_elements_iff faithful.timeText
  | timetz v =>
      cases held' with
      | timetz w =>
          simpa [arrayToJson, ArrayCell.Collides] using string_elements_iff faithful.timeTzText
  | timestamp v =>
      cases held' with
      | timestamp w =>
          simpa [arrayToJson, ArrayCell.Collides] using string_elements_iff faithful.timestampText
  | timestamptz v =>
      cases held' with
      | timestamptz w =>
          simpa [arrayToJson, ArrayCell.Collides] using string_elements_iff faithful.timestampTzText
  | uuid v =>
      cases held' with
      | uuid w =>
          simpa [arrayToJson, ArrayCell.Collides] using string_elements_iff faithful.uuidText
  | json v =>
      cases held' with
      | json w =>
          simp only [arrayToJson, ArrayCell.Collides, ArrayCell.json.injEq]
          rw [json_elements_iff]
          exact iff_or_hidden fun same => congrArg _ same
  | jsonb v =>
      cases held' with
      | jsonb w =>
          simp only [arrayToJson, ArrayCell.Collides, ArrayCell.json.injEq]
          rw [json_elements_iff]
          exact iff_or_hidden fun same => congrArg _ same
  | bytea v =>
      cases held' with
      | bytea w => simpa [arrayToJson, ArrayCell.Collides] using string_elements_iff faithful.base64

/-! ## Cells of a text column -/

/-- The cells that are decoded for a column of a type that has no Arrow type of its own;
those of an unknown type are strings. -/
inductive Holds : Option PgType → Cell lib → Prop
  | unknown (v : String) : Holds none (.string v)
  | other (v : String) : Holds (some .other) (.string v)
  | numeric (v : lib.Numeric) : Holds (some .numeric) (.numeric v)
  | uuid (v : lib.Uuid) : Holds (some .uuid) (.uuid v)
  | timetz (v : lib.TimeTz) : Holds (some .timetz) (.timeTz v)
  | json (v : Json lib.F64) : Holds (some .json) (.json v)
  | jsonb (v : Json lib.F64) : Holds (some .jsonb) (.json v)
  | array {element : PgType} {a : ArrayCell lib} :
    ArrayHolds element a → Holds (some (.array element)) (.array a)

theorem Holds.utf8 {t : Option PgType} {c : Cell lib} (held : Holds t c) :
    ColBuilder.new (arrowTypeFor t) = .ok .utf8 ∧
      ColBuilder.utf8.append (some c) = some (.utf8 (cellToUtf8 c)) := by
  cases held <;> exact ⟨rfl, rfl⟩

/-- Different cells with the same text: a JSON string and the value that it spells, or
arrays with the same JSON. -/
def Cell.Collides : Cell lib → Cell lib → Prop
  | .json v, .json w => Spells lib v w ∨ Spells lib w v
  | .array a, .array b => a.Collides b
  | _, _ => False

theorem cellToJson_eq_or_spells_iff (faithful : lib.Faithful) {t : Option PgType} {c c' : Cell lib}
    (held : Holds t c) (held' : Holds t c') :
    (cellToJson c = cellToJson c' ∨ Spells lib (cellToJson c) (cellToJson c') ∨
      Spells lib (cellToJson c') (cellToJson c)) ↔ c = c' ∨ c.Collides c' := by
  -- texts of other types are strings, which spell no string, and arrays are no strings
  have strings (s s' : String) : ((.string s : Json lib.F64) = .string s' ∨
      Spells lib (.string s) (.string s') ∨ Spells lib (.string s') (.string s)) ↔ s = s' := by
    simp [Spells, Json.IsString]
  cases held with
  | unknown v =>
      cases held' with
      | unknown w => simpa [cellToJson, Cell.Collides] using strings v w
  | other v =>
      cases held' with
      | other w => simpa [cellToJson, Cell.Collides] using strings v w
  | numeric v =>
      cases held' with
      | numeric w =>
          simpa [cellToJson, Cell.Collides, faithful.numericText.eq_iff] using
            strings (lib.numericText v) (lib.numericText w)
  | uuid v =>
      cases held' with
      | uuid w =>
          simpa [cellToJson, Cell.Collides, faithful.uuidText.eq_iff] using
            strings (lib.uuidText v) (lib.uuidText w)
  | timetz v =>
      cases held' with
      | timetz w =>
          simpa [cellToJson, Cell.Collides, faithful.timeTzText.eq_iff] using
            strings (lib.timeTzText v) (lib.timeTzText w)
  | json v =>
      cases held' with
      | json w => simp [cellToJson, Cell.Collides]
  | jsonb v =>
      cases held' with
      | jsonb w => simp [cellToJson, Cell.Collides]
  | @array element a held =>
      cases held' with
      | @array _ b held' =>
          have no_string (x : ArrayCell lib) : ¬ (arrayToJson x).IsString := by
            rintro ⟨s, is_string⟩
            cases x <;> cases is_string
          have no_spelling (x y : ArrayCell lib) :
              ¬ Spells lib (arrayToJson x) (arrayToJson y) :=
            fun spells => no_string x spells.isString
          simpa [cellToJson, Cell.Collides, no_spelling] using
            arrayToJson_eq_iff faithful held held'

/-- Two cells of a text column get the same text exactly when they are the same or
collide, and the text of a JSON cell reads back exactly when it is no string. -/
theorem cellToUtf8_lossless_iff (faithful : lib.Faithful) {t : Option PgType} {c c' : Cell lib}
    (held : Holds t c) (held' : Holds t c') (inverse : lib.Inverts (cellToJson c))
    (inverse' : lib.Inverts (cellToJson c')) :
    ((c ≠ c' → ColBuilder.utf8.append (some c) ≠ ColBuilder.utf8.append (some c')) ↔
        c ≠ c' → ¬ c.Collides c') ∧
      ∀ v, c = .json v → (lib.fromStr (cellToUtf8 c) = some v ↔ ¬ v.IsString) := by
  have texts : cellToUtf8 c = cellToUtf8 c' ↔ c = c' ∨ c.Collides c' := by
    rw [cellToUtf8_eq, cellToUtf8_eq, jsonText_eq_iff inverse inverse',
      cellToJson_eq_or_spells_iff faithful held held']
  constructor
  · rw [held.utf8.2, held'.utf8.2]
    simp only [ne_eq, Option.some.injEq, ColumnValue.utf8.injEq, texts]
    tauto
  · rintro v rfl
    rw [cellToUtf8_eq]
    exact fromStr_jsonText_iff faithful inverse

end

/-! ## Small JSON values -/

/-- Values that are their own texts, and JSON without escapes, nesting or floats. -/
def plainLibrary : CellLibrary where
  F32 := Empty
  F64 := Empty
  Numeric := String
  Date := String
  Time := String
  TimeTz := String
  Timestamp := String
  TimestampTz := String
  Uuid := String
  widen := id
  numericText := id
  dateText := id
  timeText := id
  timeTzText := id
  timestampText := id
  timestampTzText := id
  uuidText := id
  base64 := fun bytes => String.ofList (bytes.map fun b => Char.ofNat b.toNat)
  numDaysFromCe := fun _ => 0
  numSecondsFromMidnight := fun _ => 0
  nanosecond := fun _ => 0
  timestampMicros := fun _ => 0
  timestampTzMicros := fun _ => 0
  toString
    | .null => "null"
    | .bool true => "true"
    | .bool false => "false"
    | .number (.integer i) => toString i
    | _ => ""
  fromStr
    | "null" => some .null
    | "true" => some (.bool true)
    | "false" => some (.bool false)
    | "1" => some (.number (.integer 1))
    | "2" => some (.number (.integer 2))
    | _ => none

theorem plainLibrary_faithful : plainLibrary.Faithful where
  widen := Function.injective_id
  numericText := Function.injective_id
  dateText := Function.injective_id
  timeText := Function.injective_id
  timeTzText := Function.injective_id
  timestampText := Function.injective_id
  timestampTzText := Function.injective_id
  uuidText := Function.injective_id
  base64 := by
    have bytewise : Function.Injective fun b : UInt8 => Char.ofNat b.toNat := by
      intro a b same
      have numbers := congrArg Char.toNat same
      have valid (b : UInt8) : b.toNat.isValidChar := .inl (by have := b.toNat_lt; omega)
      simp only [Char.toNat_ofNat, valid, if_true] at numbers
      exact UInt8.toNat_inj.mp numbers
    exact fun _ _ same => bytewise.list_map (String.ofList_injective same)
  shorter := by
    intro text s read
    simp only [plainLibrary] at read
    split at read <;> cases read

/-- Two JSON numbers. -/
theorem cellToUtf8_lossless_numbers :
    let one : Cell plainLibrary := .json (.number (.integer 1))
    let two : Cell plainLibrary := .json (.number (.integer 2))
    ColBuilder.utf8.append (some one) ≠ ColBuilder.utf8.append (some two) ∧
      plainLibrary.fromStr (cellToUtf8 one) = some (.number (.integer 1)) := by
  intro one two
  have held : Holds (some .jsonb) one := .jsonb _
  have held' : Holds (some .jsonb) two := .jsonb _
  obtain ⟨texts, read⟩ := cellToUtf8_lossless_iff plainLibrary_faithful held held' rfl rfl
  have not_string : ¬ (Json.number (.integer 1) : Json plainLibrary.F64).IsString := by
    rintro ⟨s, ⟨⟩⟩
  refine ⟨texts.mpr ?_ (by simp [one, two]), (read _ rfl).mpr not_string⟩
  simp [one, two, Cell.Collides, Spells]

/-- A JSON string has the text of the number that it spells, which does not read back as a
string, and NaN in an array has the text of a null element. -/
theorem not_lossless_string_and_nan :
    let string : Cell plainLibrary := .json (.string "1")
    let number : Cell plainLibrary := .json (.number (.integer 1))
    let nan : Cell plainLibrary := .array (.f64 [some .nan])
    let missing : Cell plainLibrary := .array (.f64 [none])
    (string ≠ number ∧ cellToUtf8 string = cellToUtf8 number) ∧
      plainLibrary.fromStr (cellToUtf8 string) ≠ some (.string "1") ∧
      (nan ≠ missing ∧ cellToUtf8 nan = cellToUtf8 missing) := by
  intro string number nan missing
  refine ⟨⟨by simp [string, number], rfl⟩, ?_, by simp [nan, missing], rfl⟩
  simp [string, cellToUtf8, cellToJson, plainLibrary]

end StreamlingPlugins.PostgresCdc
