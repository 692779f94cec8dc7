import StreamlingPlugins.KeyedMap

/-!
# Arrow types

`DataType`, `Field` and `Fields` are Arrow's own schema types.  Two of them are
equal when everything in them is, names and metadata of nested fields included.
-/

namespace StreamlingPlugins.Arrow

inductive TimeUnit
  | second | millisecond | microsecond | nanosecond
  deriving DecidableEq

inductive IntervalUnit
  | yearMonth | dayTime | monthDayNano
  deriving DecidableEq

mutual

inductive DataType
  | null | boolean
  | int8 | int16 | int32 | int64
  | uint8 | uint16 | uint32 | uint64
  | float16 | float32 | float64
  | timestamp (unit : TimeUnit) (tz : Option String)
  | date32 | date64
  | time32 (unit : TimeUnit) | time64 (unit : TimeUnit)
  | duration (unit : TimeUnit) | interval (unit : IntervalUnit)
  | binary | fixedSizeBinary (size : Int) | largeBinary | binaryView
  | utf8 | largeUtf8 | utf8View
  | list (child : Field) | listView (child : Field) | fixedSizeList (child : Field) (size : Int)
  | largeList (child : Field) | largeListView (child : Field)
  | struct (children : Fields)
  | union (typeIds : List Int) (children : Fields) (dense : Bool)
  | dictionary (key value : DataType)
  | decimal32 (precision : Nat) (scale : Int) | decimal64 (precision : Nat) (scale : Int)
  | decimal128 (precision : Nat) (scale : Int) | decimal256 (precision : Nat) (scale : Int)
  | map (entries : Field) (sorted : Bool)
  | runEndEncoded (runEnds values : Field)
  deriving DecidableEq

inductive Field
  | mk (name : String) (dataType : DataType) (nullable : Bool) (metadata : BTreeMap String String)
  deriving DecidableEq

/-- The children of a struct, in order. -/
inductive Fields
  | nil
  | cons (head : Field) (tail : Fields)
  deriving DecidableEq

end

mutual

/-- The number of types within a type. -/
def DataType.nodes : DataType → Nat
  | .list c | .listView c | .fixedSizeList c _ | .largeList c | .largeListView c => c.nodes + 1
  | .struct children | .union _ children _ => children.nodes + 1
  | .dictionary key value => key.nodes + value.nodes + 1
  | .map entries _ => entries.nodes + 1
  | .runEndEncoded runEnds values => runEnds.nodes + values.nodes + 1
  | _ => 1

def Field.nodes : Field → Nat
  | .mk _ dataType _ _ => dataType.nodes

def Fields.nodes : Fields → Nat
  | .nil => 1
  | .cons head tail => head.nodes + tail.nodes + 1

end

namespace Field

def name : Field → String
  | .mk name _ _ _ => name

def dataType : Field → DataType
  | .mk _ dataType _ _ => dataType

def isNullable : Field → Bool
  | .mk _ _ nullable _ => nullable

/-- `Field::new`: a field without metadata. -/
def new (name : String) (dataType : DataType) (nullable : Bool) : Field :=
  .mk name dataType nullable ∅

@[simp] theorem name_new (name : String) (dataType : DataType) (nullable : Bool) :
    (new name dataType nullable).name = name := rfl

@[simp] theorem dataType_new (name : String) (dataType : DataType) (nullable : Bool) :
    (new name dataType nullable).dataType = dataType := rfl

@[simp] theorem isNullable_new (name : String) (dataType : DataType) (nullable : Bool) :
    (new name dataType nullable).isNullable = nullable := rfl

@[simp] theorem name_mk {name : String} {dataType : DataType} {nullable : Bool}
    {metadata : BTreeMap String String} :
    (mk name dataType nullable metadata).name = name := rfl

@[simp] theorem dataType_mk {name : String} {dataType : DataType} {nullable : Bool}
    {metadata : BTreeMap String String} :
    (mk name dataType nullable metadata).dataType = dataType := rfl

theorem nodes_dataType (f : Field) : f.dataType.nodes = f.nodes := by
  cases f
  rfl

@[simp] theorem isNullable_mk {name : String} {dataType : DataType} {nullable : Bool}
    {metadata : BTreeMap String String} :
    (mk name dataType nullable metadata).isNullable = nullable := rfl

end Field

namespace Fields

def toList : Fields → List Field
  | .nil => []
  | .cons head tail => head :: tail.toList

def names (fields : Fields) : List String := fields.toList.map Field.name

/-- The first field of a name. -/
def find (fields : Fields) (name : String) : Option Field :=
  fields.toList.find? (·.name = name)

@[simp] theorem toList_nil : nil.toList = [] := rfl

@[simp] theorem toList_cons {head : Field} {tail : Fields} :
    (cons head tail).toList = head :: tail.toList := rfl

@[simp] theorem names_nil : nil.names = [] := rfl

@[simp] theorem names_cons {head : Field} {tail : Fields} :
    (cons head tail).names = head.name :: tail.names := rfl

/-- A name is found exactly when a field has it. -/
theorem find_eq_none_iff {fields : Fields} {name : String} :
    fields.find name = none ↔ name ∉ fields.names := by
  simp [find, names]

end Fields

/-- Among distinct names, a field is found by its own. -/
theorem find?_name_of_mem {fields : List Field} {f : Field}
    (distinct : (fields.map Field.name).Nodup) (member : f ∈ fields) :
    fields.find? (·.name = f.name) = some f := by
  induction fields with
  | nil => cases member
  | cons head tail ih =>
      rw [List.map_cons, List.nodup_cons] at distinct
      rcases List.mem_cons.mp member with rfl | later
      · simp
      · have other : head.name ≠ f.name := fun same =>
          distinct.1 (same ▸ List.mem_map_of_mem later)
        simpa [other] using ih distinct.2 later

end StreamlingPlugins.Arrow
