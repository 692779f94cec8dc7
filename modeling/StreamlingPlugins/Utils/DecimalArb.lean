import StreamlingPlugins.Arrow.Buffers

/-!
# `decimal_arb` leaves as text

Wide integers and decimals of any precision are stored as bytes in fields that their metadata
marks.  `decimalArbLeavesAsText` rebuilds an array with every such leaf as its decimal text.
-/

namespace StreamlingPlugins.Utils

open Arrow

/-! ## What is defined elsewhere -/

structure DecimalLibrary (D : Type) where
  /-- `DecimalArbType::is_decimal_arb_field` -/
  isDecimalArbField : Field → Bool
  /-- `DecimalArbArray::try_from_array_and_field`, then `to_string_array`. -/
  toStringArray : Field → List (Option D) → Except String (List (Option D))
  /-- The exact decimal text of bytes at the scale of a field. -/
  text : Field → D → D
  exact : ∀ {field values texts}, toStringArray field values = .ok texts →
    texts = values.map (Option.map (text field))
  /-- How a type prints. -/
  display : DataType → String

inductive ArrowError
  | invalidArgumentError (message : String)
  | notYetImplemented (message : String)
  /-- An invalid argument by a constructor's own check. -/
  | rejected (rejection : Rejection)
  deriving DecidableEq

/-! ## Which types have leaves -/

section

variable {D : Type}

mutual

/-- Whether a container type holds a `decimal_arb` leaf at any depth. -/
def nestsDecimalArb (lib : DecimalLibrary D) : DataType → Bool
  | .list c | .largeList c | .listView c | .largeListView c | .fixedSizeList c _ | .map c _ =>
    holdsDecimalArb lib c
  | .struct children | .union _ children _ => anyHoldsDecimalArb lib children
  | _ => false

/-- The closure `holds`. -/
def holdsDecimalArb (lib : DecimalLibrary D) : Field → Bool
  | .mk name dataType nullable metadata =>
    lib.isDecimalArbField (.mk name dataType nullable metadata) || nestsDecimalArb lib dataType

def anyHoldsDecimalArb (lib : DecimalLibrary D) : Fields → Bool
  | .nil => false
  | .cons head tail => holdsDecimalArb lib head || anyHoldsDecimalArb lib tail

end

/-! ## Rebuilding -/

/-- `downcast_ref::<LargeBinaryArray>` -/
def asLargeBinary : {t : DataType} → BufferedArray D t → Option (List (Option D))
  | .largeBinary, .leaf _ values => some values
  | _, _ => none

/-- A `decimal_arb` column as exact decimal strings at the column's scale. -/
def decimalArbText (lib : DecimalLibrary D) (field : Field)
    (array : BufferedArray D field.dataType) : Except ArrowError (BufferedArray D .utf8) :=
  let err (e : String) : ArrowError :=
    .invalidArgumentError ("decimal_arb field '" ++ field.name ++ "': " ++ e)
  match asLargeBinary array with
  | none => .error (err "expected LargeBinary values")
  | some values =>
    match lib.toStringArray field values with
    | .ok texts => .ok (.leaf rfl texts)
    | .error e => .error (err e)

/-- An array with its field. -/
abbrev FieldArray (D : Type) := Σ field : Field, BufferedArray D field.dataType

/-- A field and its array with the leaves as text, given what becomes of a container there. -/
def leavesAsText (lib : DecimalLibrary D) :
    (field : Field) → BufferedArray D field.dataType →
      Except ArrowError (Σ t, BufferedArray D t) → Except ArrowError (FieldArray D)
  | .mk name dataType nullable metadata, array, container =>
    if lib.isDecimalArbField (.mk name dataType nullable metadata) then do
      let text ← decimalArbText lib (.mk name dataType nullable metadata) array
      return ⟨.new name .utf8 nullable, text⟩
    else if !nestsDecimalArb lib dataType then .ok ⟨.mk name dataType nullable metadata, array⟩
    else do
      let array ← container
      return ⟨.mk name array.1 nullable metadata, array.2⟩

mutual

/-- The array of a container of a field, rebuilt of its children. -/
def containerAsText (lib : DecimalLibrary D) (name : String) {t : DataType} :
    BufferedArray D t → Except ArrowError (Σ t, BufferedArray D t)
  | .struct _ columns nulls => do
    let columns ← columnsAsText lib columns
    let array ← (structTryNew columns.1 columns.2 nulls).mapError .rejected
    return ⟨_, array⟩
  | @BufferedArray.list _ c offsets values nulls => do
    let c ← leavesAsText lib c values (containerAsText lib c.name values)
    let array ← (listTryNew c.1 offsets c.2 nulls).mapError .rejected
    return ⟨_, array⟩
  | @BufferedArray.largeList _ c offsets values nulls => do
    let c ← leavesAsText lib c values (containerAsText lib c.name values)
    let array ← (largeListTryNew c.1 offsets c.2 nulls).mapError .rejected
    return ⟨_, array⟩
  | @BufferedArray.fixedSizeList _ c size _ values nulls => do
    let c ← leavesAsText lib c values (containerAsText lib c.name values)
    let array ← (fixedSizeListTryNew c.1 size c.2 nulls).mapError .rejected
    return ⟨_, array⟩
  | @BufferedArray.map _ entriesField sorted offsets entries nulls => do
    let c ← leavesAsText lib entriesField entries (containerAsText lib entriesField.name entries)
    let array ← (mapTryNew c.1 offsets c.2 nulls sorted).mapError .rejected
    return ⟨_, array⟩
  | @BufferedArray.leaf _ other _ _ =>
    .error (.notYetImplemented ("field '" ++ name ++ "': decimal_arb nested in " ++
      lib.display other ++ " cannot be written as text; CAST it to TEXT upstream"))

def columnsAsText (lib : DecimalLibrary D) {fields : Fields} :
    BufferedColumns D fields → Except ArrowError (Σ fields, BufferedColumns D fields)
  | .nil => .ok ⟨.nil, .nil⟩
  | @BufferedColumns.cons _ c _ values columns => do
    let head ← leavesAsText lib c values (containerAsText lib c.name values)
    let tail ← columnsAsText lib columns
    return ⟨.cons head.1 tail.1, .cons head.2 tail.2⟩

end

/-- Rewrites every `decimal_arb` leaf of a field's array, top-level or nested in structs, lists
and maps, to decimal text.  Columns without one are returned unchanged. -/
def decimalArbLeavesAsText (lib : DecimalLibrary D) (field : Field)
    (array : BufferedArray D field.dataType) : Except ArrowError (FieldArray D) :=
  leavesAsText lib field array (containerAsText lib field.name array)

end

end StreamlingPlugins.Utils
