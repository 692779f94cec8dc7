import StreamlingPlugins.IcebergSink.Schema

/-!
# The type table of the Iceberg sink

`icebergType` is the table of the sink's documentation, `ArrowOf` reads it
backwards, and `FollowsTypeTable` says that iceberg-rust converts schemas by it.
-/

namespace StreamlingPlugins.IcebergSink

open Arrow

/-! ## From Arrow to Iceberg -/

mutual

/-- The Iceberg type of an Arrow type, `none` where the table has no row.  The
fields of a struct have distinct names. -/
def icebergType : DataType → Option IcebergType
  | .boolean => some .boolean
  | .int8 | .int16 | .int32 | .uint8 | .uint16 => some .int
  | .int64 | .uint32 => some .long
  | .uint64 => some (.decimal 20 0)
  | .float16 | .float32 => some .float
  | .float64 => some .double
  | .decimal128 p s => some (.decimal p s)
  | .decimal256 _ _ | .utf8 | .largeUtf8 | .utf8View => some .string
  | .binary | .largeBinary | .binaryView => some .binary
  | .fixedSizeBinary n => some (.fixed n)
  | .date32 | .date64 => some .date
  | .time32 _ | .time64 _ => some .time
  | .timestamp _ none => some .timestamp
  | .timestamp _ (some _) => some .timestamptz
  | .dictionary _ value => icebergType value
  | .list (.mk _ c n _) | .largeList (.mk _ c n _) | .fixedSizeList (.mk _ c n _) _ =>
    (icebergType c).map (.list (!n))
  | .struct children =>
    if children.names.Nodup then (icebergFields children).map .struct else none
  | .map (.mk _ (.struct (.cons (.mk _ k _ _) (.cons (.mk _ v n _) .nil))) _ _) _ =>
    match icebergType k, icebergType v with
    | some key, some value => some (.map key (!n) value)
    | _, _ => none
  | _ => none

def icebergFields : Fields → Option NestedFields
  | .nil => some .nil
  | .cons (.mk name c n _) tail =>
    match icebergType c, icebergFields tail with
    | some fieldType, some fields => some (.cons name (!n) fieldType fields)
    | _, _ => none

end

/-! ## From Iceberg to Arrow -/

mutual

/-- The Arrow types of an Iceberg type. -/
def ArrowOf : IcebergType → DataType → Prop
  | .boolean, t => t = .boolean
  | .int, t => t = .int32
  | .long, t => t = .int64
  | .float, t => t = .float32
  | .double, t => t = .float64
  | .decimal p s, t => t = .decimal128 p s
  | .date, t => t = .date32
  | .time, t => t = .time64 .microsecond
  | .timestamp, t => t = .timestamp .microsecond none
  | .timestamptz, t => ∃ tz, t = .timestamp .microsecond (some tz)
  | .string, t => t = .utf8 ∨ t = .largeUtf8
  | .fixed n, t => t = .fixedSizeBinary n
  | .binary, t => t = .binary ∨ t = .largeBinary
  | .list required element, t =>
    ∃ child : Field, (t = .list child ∨ t = .largeList child) ∧
      child.isNullable = !required ∧ ArrowOf element child.dataType
  | .map key required value, t =>
    ∃ (entries k v : Field) (sorted : Bool), t = .map entries sorted ∧
      entries.dataType = .struct (.cons k (.cons v .nil)) ∧
      ArrowOf key k.dataType ∧ v.isNullable = !required ∧ ArrowOf value v.dataType
  | .struct fields, t => ∃ children, t = .struct children ∧ ArrowFieldsOf fields children

def ArrowFieldsOf : NestedFields → Fields → Prop
  | .nil, children => children = .nil
  | .cons name required fieldType fields, children =>
    ∃ (head : Field) (tail : Fields), children = .cons head tail ∧
      head.name = name ∧ head.isNullable = !required ∧
      ArrowOf fieldType head.dataType ∧ ArrowFieldsOf fields tail

end

/-! ## The assumptions on the libraries -/

/-- iceberg-rust converts schemas by the type table, with distinct column names, and
arrow casts between the leaf types of every allowlisted conversion. -/
structure Dependencies.FollowsTypeTable (deps : Dependencies) : Prop where
  toIceberg : ∀ {fields : List Field} {schema : IcebergSchema},
    deps.arrowSchemaToSchemaAutoAssignIds fields = .ok schema →
    (fields.map Field.name).Nodup ∧
      List.Forall₂ (fun (f : Field) (column : NestedField) => column.name = f.name ∧
        column.required = !f.isNullable ∧ icebergType f.dataType = some column.fieldType)
        fields schema
  toArrow : ∀ {schema : IcebergSchema} {target : List Field},
    deps.schemaToArrowSchema schema = .ok target →
    List.Forall₂ (fun (column : NestedField) (f : Field) => f.name = column.name ∧
      f.isNullable = !column.required ∧ ArrowOf column.fieldType f.dataType) schema target
  casts : ∀ {source target : DataType}, isLossless source target →
    deps.canCastTypes source target

/-! ## Converters that follow the table -/

mutual

/-- An Arrow type of an Iceberg type. -/
def arrowType : IcebergType → DataType
  | .boolean => .boolean
  | .int => .int32
  | .long => .int64
  | .float => .float32
  | .double => .float64
  | .decimal p s => .decimal128 p s
  | .date => .date32
  | .time => .time64 .microsecond
  | .timestamp => .timestamp .microsecond none
  | .timestamptz => .timestamp .microsecond (some "+00:00")
  | .string => .utf8
  | .fixed n => .fixedSizeBinary n
  | .binary => .largeBinary
  | .list required element => .list (.new "element" (arrowType element) (!required))
  | .map key required value =>
    .map (.new "key_value" (.struct (.cons (.new "key" (arrowType key) false)
      (.cons (.new "value" (arrowType value) (!required)) .nil))) false) false
  | .struct fields => .struct (arrowFields fields)

def arrowFields : NestedFields → Fields
  | .nil => .nil
  | .cons name required fieldType tail =>
    .cons (.new name (arrowType fieldType) (!required)) (arrowFields tail)

end

def arrowField (column : NestedField) : Field :=
  .new column.name (arrowType column.fieldType) (!column.required)

def nestedField (f : Field) : Except String NestedField :=
  match icebergType f.dataType with
  | some fieldType => .ok ⟨f.name, !f.isNullable, fieldType⟩
  | none => .error "unsupported Arrow data type"

/-- The converters of the type table, for schemas without `decimal_arb`. -/
def typeTable : Dependencies where
  isDecimalArbField _ := false
  nativeIntKindFromField _ := none
  precisionScaleFromField _ := none
  canCastTypes source target := source = target || isLossless source target
  displayType _ := ""
  arrowSchemaToSchemaAutoAssignIds fields :=
    if (fields.map Field.name).Nodup then fields.mapM nestedField
    else .error "multiple fields of one name"
  schemaToArrowSchema schema := .ok (schema.map arrowField)

mutual

theorem arrowOf_arrowType (i : IcebergType) : ArrowOf i (arrowType i) := by
  cases i with
  | list required element =>
      exact ⟨_, .inl rfl, rfl, arrowOf_arrowType element⟩
  | map key required value =>
      exact ⟨_, _, _, _, rfl, rfl, arrowOf_arrowType key, rfl, arrowOf_arrowType value⟩
  | struct fields =>
      exact ⟨_, rfl, arrowFieldsOf_arrowFields fields⟩
  | timestamptz => exact ⟨_, rfl⟩
  | string => exact .inl rfl
  | binary => exact .inr rfl
  | _ => exact rfl

theorem arrowFieldsOf_arrowFields (fields : NestedFields) :
    ArrowFieldsOf fields (arrowFields fields) := by
  cases fields with
  | nil => rfl
  | cons name required fieldType tail =>
      exact ⟨_, _, rfl, rfl, rfl, arrowOf_arrowType fieldType, arrowFieldsOf_arrowFields tail⟩

end

theorem nestedField_eq_ok {f : Field} {column : NestedField}
    (converted : nestedField f = .ok column) :
    column.name = f.name ∧ column.required = !f.isNullable ∧
      icebergType f.dataType = some column.fieldType := by
  unfold nestedField at converted
  split at converted
  · rename_i row
    cases converted
    exact ⟨rfl, rfl, row⟩
  · cases converted

/-- The converters of the type table follow it. -/
theorem typeTable_follows : typeTable.FollowsTypeTable where
  toIceberg {fields schema} converted := by
    simp only [typeTable] at converted
    split at converted
    · rename_i distinct
      exact ⟨distinct,
        (forall₂_of_mapM_eq_ok converted).imp fun _ _ column => nestedField_eq_ok column⟩
    · cases converted
  toArrow {schema target} converted := by
    cases converted
    rw [List.forall₂_map_right_iff, List.forall₂_same]
    exact fun column _ => ⟨rfl, rfl, arrowOf_arrowType column.fieldType⟩
  casts {source target} lossless := by
    simp [typeTable, lossless]

end StreamlingPlugins.IcebergSink
