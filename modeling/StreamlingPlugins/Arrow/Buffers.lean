import StreamlingPlugins.Arrow.Arrays

/-!
# Arrays with their buffers

Arrays as their constructors take them: offsets, child arrays, and a null buffer that need
not be there.  A constructor checks its parts and takes the length of the array from them.
Types agree by construction.
-/

namespace StreamlingPlugins.Arrow

/-! ## Buffers -/

/-- Which slots are valid. -/
abbrev NullBuffer := List Bool

/-- Without a null buffer every slot is valid. -/
def validAt (nulls : Option NullBuffer) (i : Nat) : Bool :=
  nulls.elim true fun valid => valid.getD i false

/-- At least one offset, none below the one before. -/
structure OffsetBuffer where
  offsets : List Nat
  nonempty : offsets ≠ []
  ascending : offsets.Pairwise (· ≤ ·)

namespace OffsetBuffer

/-- The number of lists that the offsets delimit. -/
def lists (self : OffsetBuffer) : Nat := self.offsets.length - 1

def last (self : OffsetBuffer) : Nat := self.offsets.getLast self.nonempty

/-- The slots of the values that the list at a slot consists of. -/
def slots (self : OffsetBuffer) (i : Nat) : List Nat :=
  List.range' (self.offsets.getD i 0) (self.offsets.getD (i + 1) 0 - self.offsets.getD i 0)

theorem getD_le_last (self : OffsetBuffer) {i : Nat} (bound : i < self.offsets.length) :
    self.offsets.getD i 0 ≤ self.last := by
  have at_last : self.last = self.offsets[self.offsets.length - 1] :=
    List.getLast_eq_getElem self.nonempty
  rw [List.getD_eq_getElem _ _ bound, at_last]
  rcases Nat.lt_or_ge i (self.offsets.length - 1) with before | final
  · exact List.pairwise_iff_getElem.mp self.ascending _ _ _ _ before
  · exact le_of_eq (by congr 1; omega)

/-- A list's slots are slots of the values that the offsets reach. -/
theorem lt_last_of_mem_slots (self : OffsetBuffer) {i k : Nat} (bound : i < self.lists)
    (member : k ∈ self.slots i) : k < self.last := by
  have next := self.getD_le_last (i := i + 1) (by unfold lists at bound; omega)
  rw [slots, List.mem_range'_1] at member
  omega

end OffsetBuffer

/-! ## Arrays -/

/-- The types whose arrays have child arrays here. -/
def DataType.hasChildren : DataType → Bool
  | .struct _ | .list _ | .largeList _ | .fixedSizeList _ _ | .map _ _ => true
  | _ => false

mutual

/-- An array of a type.  A slot of a leaf is `none` where the validity says so; one that is
null otherwise, as all of a `Null` array are, has a datum for it. -/
inductive BufferedArray (D : Type) : DataType → Type
  | leaf {t : DataType} (childless : t.hasChildren = false) (entries : List (Option D)) :
    BufferedArray D t
  | struct {fields : Fields} (length : Nat) (columns : BufferedColumns D fields)
    (nulls : Option NullBuffer) : BufferedArray D (.struct fields)
  | list {child : Field} (offsets : OffsetBuffer) (values : BufferedArray D child.dataType)
    (nulls : Option NullBuffer) : BufferedArray D (.list child)
  | largeList {child : Field} (offsets : OffsetBuffer) (values : BufferedArray D child.dataType)
    (nulls : Option NullBuffer) : BufferedArray D (.largeList child)
  | fixedSizeList {child : Field} {size : Int} (length : Nat)
    (values : BufferedArray D child.dataType) (nulls : Option NullBuffer) :
    BufferedArray D (.fixedSizeList child size)
  | map {entriesField : Field} {sorted : Bool} (offsets : OffsetBuffer)
    (entries : BufferedArray D entriesField.dataType) (nulls : Option NullBuffer) :
    BufferedArray D (.map entriesField sorted)

inductive BufferedColumns (D : Type) : Fields → Type
  | nil : BufferedColumns D .nil
  | cons {head : Field} {tail : Fields} (column : BufferedArray D head.dataType)
    (columns : BufferedColumns D tail) : BufferedColumns D (.cons head tail)

end

def BufferedArray.length {D : Type} {t : DataType} : BufferedArray D t → Nat
  | .leaf _ entries => entries.length
  | .struct length _ _ => length
  | .list offsets _ _ => offsets.lists
  | .largeList offsets _ _ => offsets.lists
  | .fixedSizeList length _ _ => length
  | .map offsets _ _ => offsets.lists

mutual

/-- What a slot of an array denotes. -/
def BufferedArray.entry {D : Type} {t : DataType} : BufferedArray D t → Nat → Value D
  | .leaf _ entries, i => (entries.getD i none).elim .null .datum
  | .struct _ columns nulls, i => if validAt nulls i then .struct (columns.entries i) else .null
  | .list offsets values nulls, i =>
    if validAt nulls i then .list ((offsets.slots i).map values.entry) else .null
  | .largeList offsets values nulls, i =>
    if validAt nulls i then .list ((offsets.slots i).map values.entry) else .null
  | @BufferedArray.fixedSizeList _ _ size _ values nulls, i =>
    if validAt nulls i then
      .list ((List.range' (i * size.toNat) size.toNat).map values.entry)
    else .null
  | .map offsets entries nulls, i =>
    if validAt nulls i then .map ((offsets.slots i).map entries.entry) else .null

def BufferedColumns.entries {D : Type} {fields : Fields} :
    BufferedColumns D fields → Nat → List (String × Value D)
  | .nil, _ => []
  | @BufferedColumns.cons _ head _ column columns, i =>
    (head.name, column.entry i) :: columns.entries i

end

/-- Whether a predicate holds of every column and its field. -/
def BufferedColumns.all {D : Type} (p : (field : Field) → BufferedArray D field.dataType → Bool) :
    {fields : Fields} → BufferedColumns D fields → Bool
  | _, .nil => true
  | .cons head _, .cons column columns => p head column && columns.all p

/-- The length of the first column. -/
def BufferedColumns.firstLength {D : Type} {fields : Fields} :
    BufferedColumns D fields → Option Nat
  | .nil => none
  | .cons column _ => some column.length

def Value.isNull {D : Type} : Value D → Bool
  | .null => true
  | _ => false

def BufferedArray.hasNull {D : Type} {t : DataType} (self : BufferedArray D t) : Bool :=
  (List.range self.length).any fun i => (self.entry i).isNull

/-! ## Constructors -/

/-- Which check of a constructor failed. -/
inductive Rejection
  | negativeSize
  | valuesLength
  | offsetsExceedValues
  | nullBufferLength
  | unmaskedNulls
  | nullEntries
  | noColumns
  | columnLengths
  deriving DecidableEq

section

variable {D : Type}

/-- A null buffer is as long as the array. -/
def nullsFit (nulls : Option NullBuffer) (length : Nat) : Bool :=
  nulls.all fun valid => valid.length = length

/-- A field takes nulls only where the slots that hold them are null themselves. -/
def nullsMasked (field : Field) (values : BufferedArray D field.dataType)
    (nulls : Option NullBuffer) (holder : Nat → Nat) : Bool :=
  field.isNullable ||
    (List.range values.length).all fun j =>
      !(values.entry j).isNull || !validAt nulls (holder j)

/-- What the constructors of lists check. -/
def checkLists (child : Field) (offsets : OffsetBuffer) (values : BufferedArray D child.dataType)
    (nulls : Option NullBuffer) : Except Rejection Unit :=
  if values.length < offsets.last then .error .offsetsExceedValues
  else if !nullsFit nulls offsets.lists then .error .nullBufferLength
  else if !child.isNullable && values.hasNull then .error .unmaskedNulls
  else .ok ()

/-- `ListArray::try_new` -/
def listTryNew (child : Field) (offsets : OffsetBuffer) (values : BufferedArray D child.dataType)
    (nulls : Option NullBuffer) : Except Rejection (BufferedArray D (.list child)) := do
  checkLists child offsets values nulls
  return .list offsets values nulls

/-- `LargeListArray::try_new` -/
def largeListTryNew (child : Field) (offsets : OffsetBuffer)
    (values : BufferedArray D child.dataType) (nulls : Option NullBuffer) :
    Except Rejection (BufferedArray D (.largeList child)) := do
  checkLists child offsets values nulls
  return .largeList offsets values nulls

/-- `FixedSizeListArray::try_new`: the length is that of the values in lists, for lists of
size 0 that of the null buffer, and 0 without one. -/
def fixedSizeListTryNew (child : Field) (size : Int) (values : BufferedArray D child.dataType)
    (nulls : Option NullBuffer) : Except Rejection (BufferedArray D (.fixedSizeList child size)) :=
  if size < 0 then .error .negativeSize
  else if size = 0 then .ok (.fixedSizeList (nulls.elim 0 List.length) values nulls)
  else if values.length % size.toNat ≠ 0 then .error .valuesLength
  else if !nullsFit nulls (values.length / size.toNat) then .error .nullBufferLength
  else if !nullsMasked child values nulls (· / size.toNat) then .error .unmaskedNulls
  else .ok (.fixedSizeList (values.length / size.toNat) values nulls)

/-- `MapArray::try_new` -/
def mapTryNew (entriesField : Field) (offsets : OffsetBuffer)
    (entries : BufferedArray D entriesField.dataType) (nulls : Option NullBuffer)
    (sorted : Bool) : Except Rejection (BufferedArray D (.map entriesField sorted)) :=
  if entries.length < offsets.last then .error .offsetsExceedValues
  else if entries.hasNull then .error .nullEntries
  else if !nullsFit nulls offsets.lists then .error .nullBufferLength
  else .ok (.map offsets entries nulls)

/-- `StructArray::try_new`: the length is that of the first column. -/
def structTryNew (fields : Fields) (columns : BufferedColumns D fields)
    (nulls : Option NullBuffer) : Except Rejection (BufferedArray D (.struct fields)) :=
  match columns.firstLength with
  | none => .error .noColumns
  | some length =>
    if !nullsFit nulls length then .error .nullBufferLength
    else if !columns.all fun _ column => column.length = length then .error .columnLengths
    else if !columns.all fun field column => nullsMasked field column nulls id then
      .error .unmaskedNulls
    else .ok (.struct length columns nulls)

end

/-! ## Well-formed arrays -/

mutual

/-- What the constructors checked, at every depth. -/
def BufferedArray.WellFormed {D : Type} {t : DataType} : BufferedArray D t → Prop
  | .leaf _ _ => True
  | .struct length columns nulls => columns.WellFormed length ∧ nullsFit nulls length ∧
    columns.all fun field column => nullsMasked field column nulls id
  | @BufferedArray.list _ child offsets values nulls => values.WellFormed ∧
    offsets.last ≤ values.length ∧ nullsFit nulls offsets.lists ∧
    (child.isNullable = false → values.hasNull = false)
  | @BufferedArray.largeList _ child offsets values nulls => values.WellFormed ∧
    offsets.last ≤ values.length ∧ nullsFit nulls offsets.lists ∧
    (child.isNullable = false → values.hasNull = false)
  | @BufferedArray.fixedSizeList _ child size length values nulls => values.WellFormed ∧
    0 ≤ size ∧ values.length = length * size.toNat ∧ nullsFit nulls length ∧
    nullsMasked child values nulls (· / size.toNat)
  | .map offsets entries nulls => entries.WellFormed ∧
    offsets.last ≤ entries.length ∧ nullsFit nulls offsets.lists ∧ entries.hasNull = false

/-- Every column is well-formed and of the same length. -/
def BufferedColumns.WellFormed {D : Type} {fields : Fields} :
    BufferedColumns D fields → Nat → Prop
  | .nil, _ => True
  | .cons column columns, length =>
    column.WellFormed ∧ column.length = length ∧ columns.WellFormed length

end

/-! ## Record batches -/

structure BufferedBatch (D : Type) where
  fields : Fields
  columns : BufferedColumns D fields
  numRows : Nat

structure BufferedBatch.WellFormed {D : Type} (batch : BufferedBatch D) : Prop where
  columns : batch.columns.WellFormed batch.numRows
  nulls : batch.columns.all fun field column => field.isNullable || !column.hasNull

/-- `RecordBatch::try_new`: as many rows as the first column has slots. -/
def BufferedBatch.tryNew {D : Type} (fields : Fields) (columns : BufferedColumns D fields) :
    Except Rejection (BufferedBatch D) :=
  match columns.firstLength with
  | none => .error .noColumns
  | some numRows =>
    if !columns.all fun field column => field.isNullable || !column.hasNull then
      .error .unmaskedNulls
    else if !columns.all fun _ column => column.length = numRows then .error .columnLengths
    else .ok ⟨fields, columns, numRows⟩

end StreamlingPlugins.Arrow
