import StreamlingPlugins.Arrow.DataType

/-!
# Arrow arrays

Arrays in their physical layout, each of a type and a length: validity, the offsets of
lists, and child arrays, of which a slice need not use everything.  `entry` is what a slot
of an array denotes.
-/

namespace StreamlingPlugins.Arrow

/-- What a slot holds: of a leaf type some datum. -/
inductive Value (D : Type)
  | null
  | datum (x : D)
  | struct (fields : List (String × Value D))
  | list (values : List (Value D))
  | map (entries : List (Value D))

/-- The types whose arrays have no child arrays here. -/
def DataType.isPlain : DataType → Bool
  | .struct _ | .list _ | .largeList _ | .fixedSizeList _ _ | .map _ _ | .dictionary _ _ => false
  | _ => true

/-- Where the lists of an array start and end in its values. -/
structure Offsets (n m : Nat) where
  offset : Fin (n + 1) → Nat
  ordered : ∀ i : Fin n, offset i.castSucc ≤ offset i.succ
  within : ∀ i, offset i ≤ m

/-- The slots of the values that the list at a slot consists of. -/
def Offsets.slots {n m : Nat} (offsets : Offsets n m) (i : Fin n) : List (Fin m) :=
  List.ofFn fun k : Fin (offsets.offset i.succ - offsets.offset i.castSucc) =>
    ⟨offsets.offset i.castSucc + k, by
      have ordered := offsets.ordered i
      have within := offsets.within i.succ
      omega⟩

/-- Lists that have no values. -/
def Offsets.empty (n : Nat) : Offsets n 0 :=
  ⟨fun _ => 0, fun _ => le_rfl, fun _ => le_rfl⟩

/-- The slots of a list of fixed size. -/
def fixedSlots {n : Nat} (size : Nat) (i : Fin n) : List (Fin (n * size)) :=
  List.ofFn fun k : Fin size => ⟨i * size + k, by
    have upto : (i + 1) * size ≤ n * size := Nat.mul_le_mul_right size i.isLt
    have next : (i + 1) * size = i * size + size := Nat.succ_mul _ _
    omega⟩

mutual

inductive ArrowArray (D : Type) : DataType → Nat → Type
  | leaf {t : DataType} {n : Nat} (plain : t.isPlain) (entries : Fin n → Option D) :
    ArrowArray D t n
  | struct {fields : Fields} {n : Nat} (columns : Columns D fields n) (valid : Fin n → Bool) :
    ArrowArray D (.struct fields) n
  | list {child : Field} {n m : Nat} (offsets : Offsets n m)
    (values : ArrowArray D child.dataType m) (valid : Fin n → Bool) : ArrowArray D (.list child) n
  | largeList {child : Field} {n m : Nat} (offsets : Offsets n m)
    (values : ArrowArray D child.dataType m) (valid : Fin n → Bool) :
    ArrowArray D (.largeList child) n
  | fixedSizeList {child : Field} {size : Int} {n : Nat}
    (values : ArrowArray D child.dataType (n * size.toNat)) (valid : Fin n → Bool) :
    ArrowArray D (.fixedSizeList child size) n
  | map {entriesField : Field} {sorted : Bool} {n m : Nat} (offsets : Offsets n m)
    (entries : ArrowArray D entriesField.dataType m) (valid : Fin n → Bool) :
    ArrowArray D (.map entriesField sorted) n
  | dictionary {key value : DataType} {n m : Nat} (keys : Fin n → Option (Fin m))
    (values : ArrowArray D value m) : ArrowArray D (.dictionary key value) n

/-- The columns of a struct array, one of each field. -/
inductive Columns (D : Type) : Fields → Nat → Type
  | nil {n : Nat} : Columns D .nil n
  | cons {head : Field} {tail : Fields} {n : Nat} (column : ArrowArray D head.dataType n)
    (columns : Columns D tail n) : Columns D (.cons head tail) n

end

mutual

/-- What a slot of an array denotes. -/
def ArrowArray.entry {D : Type} {t : DataType} {n : Nat} : ArrowArray D t n → Fin n → Value D
  | .leaf _ entries, i => (entries i).elim .null .datum
  | .struct columns valid, i => if valid i then .struct (columns.entries i) else .null
  | .list offsets values valid, i =>
    if valid i then .list ((offsets.slots i).map values.entry) else .null
  | .largeList offsets values valid, i =>
    if valid i then .list ((offsets.slots i).map values.entry) else .null
  | @ArrowArray.fixedSizeList _ _ size _ values valid, i =>
    if valid i then .list ((fixedSlots size.toNat i).map values.entry) else .null
  | .map offsets entries valid, i =>
    if valid i then .map ((offsets.slots i).map entries.entry) else .null
  | .dictionary keys values, i => (keys i).elim .null values.entry

def Columns.entries {D : Type} {fields : Fields} {n : Nat} :
    Columns D fields n → Fin n → List (String × Value D)
  | .nil, _ => []
  | @Columns.cons _ head _ _ column columns, i => (head.name, column.entry i) :: columns.entries i

end

/-! ## Parts of arrays -/

/-- A list array of either width, or a map array: lists of slots of a child array. -/
structure ListParts (D : Type) (child : DataType) (n : Nat) where
  length : Nat
  offsets : Offsets n length
  values : ArrowArray D child length
  valid : Fin n → Bool

section

variable {D : Type} {child : Field} {n : Nat}

def ArrowArray.asStruct {fields : Fields} :
    ArrowArray D (.struct fields) n → Columns D fields n × (Fin n → Bool)
  | .struct columns valid => (columns, valid)

def ArrowArray.asList : ArrowArray D (.list child) n → ListParts D child.dataType n
  | .list offsets values valid => ⟨_, offsets, values, valid⟩

def ArrowArray.asLargeList : ArrowArray D (.largeList child) n → ListParts D child.dataType n
  | .largeList offsets values valid => ⟨_, offsets, values, valid⟩

def ArrowArray.asMap {sorted : Bool} :
    ArrowArray D (.map child sorted) n → ListParts D child.dataType n
  | .map offsets entries valid => ⟨_, offsets, entries, valid⟩

/-- The lists of slots at a slot. -/
def ListParts.lists {child : DataType} (parts : ListParts D child n) (i : Fin n) :
    List (Value D) :=
  (parts.offsets.slots i).map parts.values.entry

theorem ArrowArray.entry_asStruct {fields : Fields} (array : ArrowArray D (.struct fields) n)
    (i : Fin n) : array.entry i =
      if array.asStruct.2 i then .struct (array.asStruct.1.entries i) else .null := by
  cases array with
  | leaf plain => cases plain
  | struct columns valid => rfl

theorem ArrowArray.entry_asList (array : ArrowArray D (.list child) n) (i : Fin n) :
    array.entry i = if array.asList.valid i then .list (array.asList.lists i) else .null := by
  cases array with
  | leaf plain => cases plain
  | list offsets values valid => rfl

theorem ArrowArray.entry_asLargeList (array : ArrowArray D (.largeList child) n) (i : Fin n) :
    array.entry i =
      if array.asLargeList.valid i then .list (array.asLargeList.lists i) else .null := by
  cases array with
  | leaf plain => cases plain
  | largeList offsets values valid => rfl

theorem ArrowArray.entry_asMap {sorted : Bool} (array : ArrowArray D (.map child sorted) n)
    (i : Fin n) :
    array.entry i = if array.asMap.valid i then .map (array.asMap.lists i) else .null := by
  cases array with
  | leaf plain => cases plain
  | map offsets entries valid => rfl

end

/-- `column_by_name`: the first column of a name, and its type. -/
def Columns.columnByName {D : Type} {fields : Fields} {n : Nat} (name : String) :
    Columns D fields n → Option (Σ t, ArrowArray D t n)
  | .nil => none
  | @Columns.cons _ head _ _ column columns =>
    if head.name = name then some ⟨head.dataType, column⟩ else columns.columnByName name

/-- Drops the first column of a name. -/
def Columns.without {D : Type} {n : Nat} (name : String) :
    {fields : Fields} → Columns D fields n → Σ fields, Columns D fields n
  | _, .nil => ⟨.nil, .nil⟩
  | .cons head tail, .cons column columns =>
    if head.name = name then ⟨tail, columns⟩
    else ⟨.cons head (columns.without name).1, .cons column (columns.without name).2⟩

structure RecordBatch (D : Type) where
  fields : Fields
  numRows : Nat
  columns : Columns D fields numRows

def RecordBatch.columnByName {D : Type} (batch : RecordBatch D) (name : String) :
    Option (Σ t, ArrowArray D t batch.numRows) :=
  batch.columns.columnByName name

/-! ## Validity -/

/-- The types whose arrays have no validity of their own. -/
def DataType.lacksValidity : DataType → Bool
  | .null | .union _ _ _ | .runEndEncoded _ _ => true
  | _ => false

/-- `Array::is_null`: what the validity of the array itself says.  A slot may be null
without it, as all of a `Null` array are and those of a dictionary whose value is. -/
def ArrowArray.isNull {D : Type} {t : DataType} {n : Nat} : ArrowArray D t n → Fin n → Bool
  | @ArrowArray.leaf _ t _ _ entries, i => !t.lacksValidity && (entries i).isNone
  | .struct _ valid, i => !valid i
  | .list _ _ valid, i => !valid i
  | .largeList _ _ valid, i => !valid i
  | .fixedSizeList _ valid, i => !valid i
  | .map _ _ valid, i => !valid i
  | .dictionary keys _, i => (keys i).isNone

/-! ## Null arrays -/

mutual

/-- An array in which every slot is null. -/
def newNullArray (D : Type) : (t : DataType) → (n : Nat) → ArrowArray D t n
  | .struct fields, n => .struct (nullColumns D fields n) fun _ => false
  | .list (.mk _ child _ _), n => .list (Offsets.empty n) (newNullArray D child 0) fun _ => false
  | .largeList (.mk _ child _ _), n =>
    .largeList (Offsets.empty n) (newNullArray D child 0) fun _ => false
  | .fixedSizeList (.mk _ child _ _) size, n =>
    .fixedSizeList (newNullArray D child (n * size.toNat)) fun _ => false
  | .map (.mk _ entries _ _) _, n => .map (Offsets.empty n) (newNullArray D entries 0) fun _ => false
  | .dictionary _ value, _ => .dictionary (fun _ => none) (newNullArray D value 0)
  | .null, _ | .boolean, _ | .int8, _ | .int16, _ | .int32, _ | .int64, _
  | .uint8, _ | .uint16, _ | .uint32, _ | .uint64, _ | .float16, _ | .float32, _ | .float64, _
  | .timestamp _ _, _ | .date32, _ | .date64, _ | .time32 _, _ | .time64 _, _ | .duration _, _
  | .interval _, _ | .binary, _ | .fixedSizeBinary _, _ | .largeBinary, _ | .binaryView, _
  | .utf8, _ | .largeUtf8, _ | .utf8View, _ | .listView _, _ | .largeListView _, _
  | .union _ _ _, _ | .decimal32 _ _, _ | .decimal64 _ _, _ | .decimal128 _ _, _
  | .decimal256 _ _, _ | .runEndEncoded _ _, _ => .leaf rfl fun _ => none

def nullColumns (D : Type) : (fields : Fields) → (n : Nat) → Columns D fields n
  | .nil, _ => .nil
  | .cons (.mk _ child _ _) tail, n => .cons (newNullArray D child n) (nullColumns D tail n)

end

theorem entry_newNullArray {D : Type} {t : DataType} {n : Nat} (i : Fin n) :
    (newNullArray D t n).entry i = .null := by
  cases t with
  | list child =>
      cases child
      rfl
  | largeList child =>
      cases child
      rfl
  | fixedSizeList child size =>
      cases child
      rfl
  | map entries sorted =>
      cases entries
      rfl
  | _ => rfl

end StreamlingPlugins.Arrow
