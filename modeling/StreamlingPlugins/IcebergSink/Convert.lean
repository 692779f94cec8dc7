import StreamlingPlugins.Arrow.Arrays
import StreamlingPlugins.IcebergSink.Schema

/-!
# Converting arrays to the table's types

`convertArray` rebuilds structs by field name, and lists and maps around their converted
values.  Everything else, dictionaries and a change of list container included, is left to
arrow's strict cast.
-/

namespace StreamlingPlugins.IcebergSink

open Arrow

inductive ArrowError
  | castError (message : String)
  | invalidArgument (message : String)
  deriving DecidableEq

/-- arrow's strict cast, and what the checked constructors of arrays accept. -/
structure ArrowLibrary (D : Type) where
  cast : {source : DataType} → {n : Nat} → ArrowArray D source n → (target : DataType) →
    Except ArrowError (ArrowArray D target n)
  validate : {t : DataType} → {n : Nat} → ArrowArray D t n → Except ArrowError Unit

section

variable {D : Type} (lib : ArrowLibrary D)

/-- `try_new`: the array unless it is not accepted. -/
def ArrowLibrary.tryNew {t : DataType} {n : Nat} (array : ArrowArray D t n) :
    Except ArrowError (ArrowArray D t n) :=
  (lib.validate array).map fun _ => array

/-- The steps that are left before a container of the target is rebuilt. -/
def pendingSteps (source target : DataType) : Nat :=
  2 * source.nodes +
    match source, target with
    | .list _, .list _ | .largeList _, .largeList _ => 0
    | _, _ => 1

theorem pendingSteps_dictionary {key value target : DataType} :
    pendingSteps value target < pendingSteps (.dictionary key value) target := by
  have lt : 2 * value.nodes + 1 < 2 * (key.nodes + value.nodes + 1) := by omega
  unfold pendingSteps
  simp only [DataType.nodes]
  split <;> omega

mutual

/-- Casts the array, building structs by field name and recursing through lists and maps. -/
def convertArray {n : Nat} (source target : DataType) (array : ArrowArray D source n) :
    Except ArrowError (ArrowArray D target n) :=
  if same : source = target then .ok (same ▸ array)
  else
    match source, target, array with
    | .dictionary _ value, .struct children, array => do
      convertArray value (.struct children) (← lib.cast array value)
    | .dictionary _ value, .list child, array => do
      convertArray value (.list child) (← lib.cast array value)
    | .dictionary _ value, .largeList child, array => do
      convertArray value (.largeList child) (← lib.cast array value)
    | .dictionary _ value, .map entries ordered, array => do
      convertArray value (.map entries ordered) (← lib.cast array value)
    | .struct _, .struct toChildren, array => do
      let columns ← convertColumns array.asStruct.1 toChildren
      lib.tryNew (.struct columns array.asStruct.2)
    | .list child, .list toChild, array => do
      let list := array.asList
      let values ← convertArray child.dataType toChild.dataType list.values
      lib.tryNew (.list list.offsets values list.valid)
    | .largeList child, .largeList toChild, array => do
      let list := array.asLargeList
      let values ← convertArray child.dataType toChild.dataType list.values
      lib.tryNew (.largeList list.offsets values list.valid)
    -- changes only the container first, then recurses
    | .list child, .largeList toChild, array => do
      convertArray (.largeList child) (.largeList toChild) (← lib.cast array (.largeList child))
    | .largeList child, .list toChild, array => do
      convertArray (.list child) (.list toChild) (← lib.cast array (.list child))
    | .fixedSizeList child _, .list toChild, array => do
      convertArray (.list child) (.list toChild) (← lib.cast array (.list child))
    | .fixedSizeList child _, .largeList toChild, array => do
      convertArray (.largeList child) (.largeList toChild) (← lib.cast array (.largeList child))
    | .map (.mk _ (.struct _) _ _) _, .map (.mk _ (.struct toChildren) _ _) _, array => do
      let map := array.asMap
      let columns ← convertEntries map.values.asStruct.1 toChildren
      let entries ← lib.tryNew (.struct columns map.values.asStruct.2)
      lib.tryNew (.map map.offsets entries map.valid)
    | .map _ _, .map _ _, _ => .error (.castError "map entries are not a struct")
    | _, target, array => lib.cast array target
termination_by (target.nodes, pendingSteps source target)
decreasing_by
  all_goals
    first
    | exact Prod.Lex.right _ pendingSteps_dictionary
    | apply Prod.Lex.right
      simp only [pendingSteps, DataType.nodes]
      omega
    | apply Prod.Lex.left
      simp only [DataType.nodes, Field.nodes, Field.nodes_dataType]
      omega

/-- The columns of a struct: by name those of the input, and nulls for a missing one. -/
def convertColumns {fields : Fields} {n : Nat} (input : Columns D fields n) :
    (toChildren : Fields) → Except ArrowError (Columns D toChildren n)
  | .nil => .ok .nil
  | .cons child rest => do
    let column ←
      match input.columnByName child.name with
      | some ⟨source, column⟩ => convertArray source child.dataType column
      | none => .ok (newNullArray D child.dataType n)
    let columns ← convertColumns input rest
    .ok (.cons column columns)
termination_by toChildren => (toChildren.nodes, 0)
decreasing_by
  all_goals
    apply Prod.Lex.left
    simp only [Fields.nodes, Field.nodes_dataType]
    omega

/-- The columns of map entries, by position. -/
def convertEntries {fields : Fields} {n : Nat} :
    Columns D fields n → (toChildren : Fields) → Except ArrowError (Columns D toChildren n)
  | _, .nil => .ok .nil
  | @Columns.cons _ head _ _ column columns, .cons child rest => do
    let column ← convertArray head.dataType child.dataType column
    let columns ← convertEntries columns rest
    .ok (.cons column columns)
  | .nil, .cons _ _ => .error (.invalidArgument
      "Incorrect number of arrays for StructArray fields")
termination_by _ toChildren => (toChildren.nodes, 0)
decreasing_by
  all_goals
    apply Prod.Lex.left
    simp only [Fields.nodes, Field.nodes_dataType]
    omega

end

end

end StreamlingPlugins.IcebergSink
