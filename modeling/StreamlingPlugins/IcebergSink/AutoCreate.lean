import StreamlingPlugins.IcebergSink.TypeTable

/-!
# Auto-created tables

A table created by `tableSchemaFor` can be written by the same input exactly when
no written column holds a time of another unit than microseconds, nor a map whose
entries are dictionary-encoded.  The proof follows a column's type through
`storableType`, the type table and `checkConversion`.
-/

namespace StreamlingPlugins.IcebergSink

open Arrow

/-! ## Convertible types -/

mutual

/-- No time in another unit than microseconds at any depth, and no map whose entries
are anything but a struct. -/
def convertible : DataType → Bool
  | .time32 _ => false
  | .time64 unit => unit = .microsecond
  | .dictionary _ value => convertible value
  | .list (.mk _ c _ _) | .largeList (.mk _ c _ _) | .fixedSizeList (.mk _ c _ _) _ =>
    convertible c
  | .struct children => allConvertible children
  | .map (.mk _ (.struct children) _ _) _ => allConvertible children
  | .map _ _ => false
  | _ => true

def allConvertible : Fields → Bool
  | .nil => true
  | .cons (.mk _ c _ _) tail => convertible c && allConvertible tail

end

mutual

/-- The types of a table are convertible. -/
theorem convertible_of_arrowOf {i : IcebergType} {t : DataType} (table : ArrowOf i t) :
    convertible t := by
  cases i with
  | list required element =>
      obtain ⟨⟨_, c, _, _⟩, rfl | rfl, _, inner⟩ := table
      · simpa only [convertible, Field.dataType_mk] using convertible_of_arrowOf inner
      · simpa only [convertible, Field.dataType_mk] using convertible_of_arrowOf inner
  | map key required value =>
      obtain ⟨⟨_, _, _, _⟩, ⟨_, k, _, _⟩, ⟨_, v, _, _⟩, sorted, rfl, rfl, ofKey, _, ofValue⟩ := table
      simp only [convertible, allConvertible, Bool.and_true, Bool.and_eq_true]
      exact ⟨convertible_of_arrowOf ofKey, convertible_of_arrowOf ofValue⟩
  | struct fields =>
      obtain ⟨children, rfl, inner⟩ := table
      simpa only [convertible] using allConvertible_of_arrowFieldsOf inner
  | timestamptz =>
      obtain ⟨tz, rfl⟩ := table
      rfl
  | string | binary =>
      rcases table with rfl | rfl
      · rfl
      · rfl
  | _ =>
      cases table
      rfl
termination_by structural i

theorem allConvertible_of_arrowFieldsOf {fields : NestedFields} {children : Fields}
    (table : ArrowFieldsOf fields children) : allConvertible children := by
  cases fields with
  | nil =>
      cases table
      rfl
  | cons name required fieldType tail =>
      obtain ⟨⟨_, c, _, _⟩, rest, rfl, _, _, ofHead, ofTail⟩ := table
      simp only [allConvertible, Bool.and_eq_true]
      exact ⟨convertible_of_arrowOf ofHead, allConvertible_of_arrowFieldsOf ofTail⟩
termination_by structural fields

end

/-! ## Rows of the type table -/

/-- A map column stores its keys and values by position. -/
theorem icebergType_map_eq_some {name : String} {entries : DataType} {nullable sorted : Bool}
    {metadata : BTreeMap String String} {i : IcebergType}
    (row : icebergType (.map (.mk name entries nullable metadata) sorted) = some i) :
    ∃ (k v : Field) (key value : IcebergType), entries = .struct (.cons k (.cons v .nil)) ∧
      icebergType k.dataType = some key ∧ icebergType v.dataType = some value ∧
      i = .map key (!v.isNullable) value := by
  cases entries with
  | struct children =>
      cases children with
      | nil => cases row
      | cons first tail =>
          obtain ⟨_, k, _, _⟩ := first
          cases tail with
          | nil => cases row
          | cons second rest =>
              obtain ⟨_, v, _, _⟩ := second
              cases rest with
              | cons third rest => cases row
              | nil =>
                  simp only [icebergType] at row
                  split at row
                  · rename_i key value ofKey ofValue
                    cases row
                    exact ⟨_, _, key, value, rfl, ofKey, ofValue, rfl⟩
                  · cases row
  | _ => cases row

/-- A struct column keeps its children, whose names are distinct. -/
theorem icebergType_struct_eq_some {children : Fields} {i : IcebergType}
    (row : icebergType (.struct children) = some i) :
    children.names.Nodup ∧ ∃ fields, icebergFields children = some fields ∧ i = .struct fields := by
  simp only [icebergType] at row
  split at row
  · rename_i distinct
    obtain ⟨fields, ofChildren, rfl⟩ := Option.map_eq_some_iff.mp row
    exact ⟨distinct, fields, ofChildren, rfl⟩
  · cases row

theorem icebergFields_cons_eq_some {head : Field} {tail : Fields} {fields : NestedFields}
    (row : icebergFields (.cons head tail) = some fields) :
    ∃ fieldType rest, icebergType head.dataType = some fieldType ∧
      icebergFields tail = some rest ∧
      fields = .cons head.name (!head.isNullable) fieldType rest := by
  obtain ⟨name, c, nullable, metadata⟩ := head
  simp only [icebergFields] at row
  split at row
  · rename_i fieldType rest ofHead ofTail
    cases row
    exact ⟨fieldType, rest, ofHead, ofTail, rfl⟩
  · cases row

/-- The columns of a struct keep their names. -/
theorem names_eq_of_arrowFieldsOf {stored targets : Fields} {fields : NestedFields}
    (row : icebergFields stored = some fields) (arrow : ArrowFieldsOf fields targets) :
    targets.names = stored.names := by
  cases stored with
  | nil =>
      cases row
      cases arrow
      rfl
  | cons head tail =>
      obtain ⟨fieldType, rest, _, ofTail, rfl⟩ := icebergFields_cons_eq_some row
      obtain ⟨first, others, rfl, named, _, _, inner⟩ := arrow
      rw [Fields.names_cons, Fields.names_cons, named, names_eq_of_arrowFieldsOf ofTail inner]
termination_by structural stored

/-! ## Leaf types -/

/-- The types without children, as `checkConversion` tells them apart. -/
def isLeaf : DataType → Bool
  | .dictionary _ _ | .list _ | .largeList _ | .fixedSizeList _ _ | .map _ _ | .struct _ => false
  | _ => true

section

variable {deps : Dependencies} {column path : String}

theorem checkConversion_leaf {source target : DataType} (leaf : isLeaf source) :
    checkConversion deps path source target = [] ↔
      source = target ∨ (isLossless source target ∧ deps.canCastTypes source target) := by
  unfold checkConversion
  split
  · rename_i same
    simp [same]
  · rename_i other
    split <;> first
      | cases leaf
      | simp [other]

/-- Of a leaf type and its table type, the former converts losslessly to the latter
exactly when it is convertible. -/
theorem isLossless_leaf {source stored target : DataType} (leaf : isLeaf source)
    (other : source ≠ target) (created : storableType deps column source = .ok stored)
    {i : IcebergType} (known : icebergType stored = some i) (arrow : ArrowOf i target) :
    isLossless source target = convertible source := by
  cases source with
  | dictionary | list | largeList | fixedSizeList | map | struct => cases leaf
  | null => cases created
  | duration | interval | listView | largeListView | union | decimal32 | decimal64
  | runEndEncoded =>
      cases created
      cases known
  | timestamp unit tz =>
      cases created
      cases tz with
      | none =>
          cases known
          cases arrow
          cases unit <;> rfl
      | some zone =>
          cases known
          obtain ⟨tz, rfl⟩ := arrow
          cases unit <;> rfl
  | time64 unit =>
      cases created
      cases known
      cases arrow
      cases unit with
      | microsecond => exact absurd rfl other
      | second | millisecond | nanosecond => rfl
  | utf8 | largeUtf8 | utf8View | decimal256 =>
      cases created
      cases known
      rcases arrow with rfl | rfl
      · rfl
      · rfl
  | binary | largeBinary | binaryView =>
      cases created
      cases known
      rcases arrow with rfl | rfl
      · rfl
      · rfl
  | _ =>
      cases created
      cases known
      cases arrow
      first
        | rfl
        | exact absurd rfl other

/-! ## Storing a type -/

/-- What storing a child keeps of it. -/
theorem storableChild_eq_ok {child stored : Field}
    (created : storableChild deps column child = .ok stored) :
    deps.isDecimalArbField child = false ∧ ∃ s, storableType deps column child.dataType = .ok s ∧
      stored = .new child.name s child.isNullable := by
  obtain ⟨name, c, nullable, metadata⟩ := child
  simp only [storableChild] at created
  split at created
  · cases created
  · rename_i plain
    obtain ⟨s, inner, same⟩ := bind_eq_ok created
    cases same
    exact ⟨by simpa using plain, s, inner, rfl⟩

theorem storableChildren_cons_eq_ok {head : Field} {tail stored : Fields}
    (created : storableChildren deps column (.cons head tail) = .ok stored) :
    ∃ h t, storableChild deps column head = .ok h ∧ storableChildren deps column tail = .ok t ∧
      stored = .cons h t := by
  obtain ⟨h, ofHead, created⟩ := bind_eq_ok created
  obtain ⟨t, ofTail, created⟩ := bind_eq_ok created
  cases created
  exact ⟨h, t, ofHead, ofTail, rfl⟩

theorem storableChildren_names_eq {children stored : Fields}
    (created : storableChildren deps column children = .ok stored) :
    stored.names = children.names := by
  cases children with
  | nil =>
      cases created
      rfl
  | cons head tail =>
      obtain ⟨h, t, ofHead, ofTail, rfl⟩ := storableChildren_cons_eq_ok created
      obtain ⟨_, s, _, rfl⟩ := storableChild_eq_ok ofHead
      rw [Fields.names_cons, Fields.names_cons, storableChildren_names_eq ofTail]
      rfl
termination_by structural children

/-- A struct is only stored for a struct, or for a dictionary of structs. -/
theorem storableType_eq_struct {source : DataType} {stored : Fields}
    (created : storableType deps column source = .ok (.struct stored)) :
    (∃ children, source = .struct children ∧
        storableChildren deps column children = .ok stored) ∨
      ∃ key value, source = .dictionary key value := by
  cases source with
  | struct children =>
      obtain ⟨s, inner, same⟩ := bind_eq_ok created
      cases same
      exact .inl ⟨children, rfl, inner⟩
  | dictionary key value => exact .inr ⟨key, value, rfl⟩
  | list | largeList | fixedSizeList | map =>
      obtain ⟨_, _, same⟩ := bind_eq_ok created
      cases same
  | _ => cases created

/-- The type table has a row for a type, or for every child of it. -/
def HasRow : DataType → Prop
  | .struct children => ∃ fields, icebergFields children = some fields
  | t => ∃ i, icebergType t = some i

theorem HasRow.of_icebergType {t : DataType} {i : IcebergType} (row : icebergType t = some i) :
    HasRow t := by
  cases t with
  | struct children =>
      obtain ⟨_, fields, known, _⟩ := icebergType_struct_eq_some row
      exact ⟨fields, known⟩
  | _ => exact ⟨i, row⟩

/-- The entries of a stored map have rows. -/
theorem HasRow.entries {name : String} {entries : DataType} {nullable sorted : Bool}
    {metadata : BTreeMap String String} {i : IcebergType}
    (row : icebergType (.map (.mk name entries nullable metadata) sorted) = some i) :
    HasRow entries := by
  obtain ⟨⟨_, _, _, _⟩, ⟨_, _, _, _⟩, key, value, rfl, ofKey, ofValue, _⟩ :=
    icebergType_map_eq_some row
  simp only [Field.dataType_mk] at ofKey ofValue
  simp [HasRow, icebergFields, ofKey, ofValue]

mutual

/-- A type stored by a row of the table nests no `decimal_arb`. -/
theorem nestsDecimalArb_eq_false {source stored : DataType}
    (created : storableType deps column source = .ok stored) (row : HasRow stored) :
    nestsDecimalArb deps source = false := by
  cases source with
  | list child | largeList child | fixedSizeList child size =>
      obtain ⟨c, ofChild, same⟩ := bind_eq_ok created
      cases same
      obtain ⟨_, s, _, rfl⟩ := storableChild_eq_ok ofChild
      obtain ⟨_, row⟩ := row
      obtain ⟨i, known, _⟩ := Option.map_eq_some_iff.mp row
      exact holdsDecimalArb_eq_false ofChild (.of_icebergType known)
  | map entries sorted =>
      obtain ⟨c, ofChild, same⟩ := bind_eq_ok created
      cases same
      obtain ⟨_, row⟩ := row
      obtain ⟨name, entries', nullable, metadata⟩ := c
      exact holdsDecimalArb_eq_false ofChild (.entries row)
  | struct children =>
      obtain ⟨c, ofChildren, same⟩ := bind_eq_ok created
      cases same
      obtain ⟨fields, row⟩ := row
      exact anyHoldsDecimalArb_eq_false ofChildren row
  | listView | largeListView | union =>
      cases created
      obtain ⟨_, row⟩ := row
      cases row
  | _ => rfl
termination_by structural source

theorem holdsDecimalArb_eq_false {child stored : Field}
    (created : storableChild deps column child = .ok stored) (row : HasRow stored.dataType) :
    holdsDecimalArb deps child = false := by
  cases child with
  | mk name c nullable metadata =>
      obtain ⟨plain, s, ofType, rfl⟩ := storableChild_eq_ok created
      simp only [holdsDecimalArb, plain, Bool.false_or]
      exact nestsDecimalArb_eq_false ofType row
termination_by structural child

theorem anyHoldsDecimalArb_eq_false {children stored : Fields} {fields : NestedFields}
    (created : storableChildren deps column children = .ok stored)
    (row : icebergFields stored = some fields) : anyHoldsDecimalArb deps children = false := by
  cases children with
  | nil => rfl
  | cons head tail =>
      obtain ⟨h, t, ofHead, ofTail, rfl⟩ := storableChildren_cons_eq_ok created
      obtain ⟨fieldType, rest, headRow, tailRow, _⟩ := icebergFields_cons_eq_some row
      simp only [anyHoldsDecimalArb, Bool.or_eq_false_iff]
      exact ⟨holdsDecimalArb_eq_false ofHead (.of_icebergType headRow),
        anyHoldsDecimalArb_eq_false ofTail tailRow⟩
termination_by structural children

end

/-! ## Checking a type against its table type -/

theorem checkConversion_self {t : DataType} : checkConversion deps path t t = [] := by
  unfold checkConversion
  simp

theorem checkConversion_leaf_eq_nil_iff (documented : deps.FollowsTypeTable)
    {source stored target : DataType} {i : IcebergType} (leaf : isLeaf source)
    (other : source ≠ target) (created : storableType deps column source = .ok stored)
    (row : icebergType stored = some i) (arrow : ArrowOf i target) :
    checkConversion deps path source target = [] ↔ convertible source := by
  rw [checkConversion_leaf leaf, ← isLossless_leaf leaf other created row arrow]
  exact ⟨fun h => (h.resolve_left other).1, fun lossless => .inr ⟨lossless, documented.casts lossless⟩⟩

/-- A child is checked as its name and type. -/
theorem checkChildren_cons {head : Field} {tail targets : Fields} {t : Field}
    (found : targets.find head.name = some t) :
    checkChildren deps path (.cons head tail) targets =
      checkConversion deps (path ++ "." ++ head.name) head.dataType t.dataType ++
        checkChildren deps path tail targets := by
  obtain ⟨name, c, nullable, metadata⟩ := head
  simp only [Field.name_mk] at found
  simp only [checkChildren, found, Field.name_mk, Field.dataType_mk]

theorem missingNested_eq_nil {children targets : Fields} (names : targets.names = children.names) :
    missingNested path children targets = [] := by
  rw [missingNested, List.map_eq_nil_iff, List.filter_eq_nil_iff]
  intro t member missing
  simp only [Bool.and_eq_true, decide_eq_true_eq, Fields.find_eq_none_iff, ← names] at missing
  exact missing.2 (List.mem_map_of_mem member)

mutual

/-- A type is accepted against its table type exactly when it is convertible. -/
theorem checkConversion_eq_nil_iff (documented : deps.FollowsTypeTable)
    {source stored target : DataType} {i : IcebergType} {path : String}
    (created : storableType deps column source = .ok stored)
    (row : icebergType stored = some i) (arrow : ArrowOf i target) :
    checkConversion deps path source target = [] ↔ convertible source := by
  by_cases same : source = target
  · subst same
    simp [checkConversion_self, convertible_of_arrowOf arrow]
  · cases source with
    | dictionary key value =>
        simp only [checkConversion, same, if_false, convertible]
        exact checkConversion_eq_nil_iff documented created row arrow
    | list child | largeList child | fixedSizeList child size =>
        obtain ⟨c, ofChild, kept⟩ := bind_eq_ok created
        cases kept
        obtain ⟨_, s, ofType, rfl⟩ := storableChild_eq_ok ofChild
        obtain ⟨element, known, rfl⟩ := Option.map_eq_some_iff.mp row
        obtain ⟨name, c, nullable, metadata⟩ := child
        obtain ⟨t, rfl | rfl, _, inner⟩ := arrow
        · simp only [checkConversion, same, if_false, convertible]
          exact checkConversion_eq_nil_iff documented ofType known inner
        · simp only [checkConversion, same, if_false, convertible]
          exact checkConversion_eq_nil_iff documented ofType known inner
    | struct children =>
        obtain ⟨ss, ofChildren, kept⟩ := bind_eq_ok created
        cases kept
        obtain ⟨distinct, fields, known, rfl⟩ := icebergType_struct_eq_some row
        obtain ⟨targets, rfl, inner⟩ := arrow
        have names : targets.names = children.names :=
          (names_eq_of_arrowFieldsOf known inner).trans (storableChildren_names_eq ofChildren)
        have nodup : targets.names.Nodup := names_eq_of_arrowFieldsOf known inner ▸ distinct
        simp only [checkConversion, same, if_false, convertible, missingNested_eq_nil names,
          List.append_nil]
        exact checkChildren_eq_nil_iff documented ofChildren known inner
          fun t member => find?_name_of_mem nodup member
    | map entries sorted =>
        obtain ⟨c, ofEntries, kept⟩ := bind_eq_ok created
        cases kept
        obtain ⟨_, s, ofType, rfl⟩ := storableChild_eq_ok ofEntries
        obtain ⟨name, e, nullable, metadata⟩ := entries
        obtain ⟨k, v, key, value, rfl, ofKey, ofValue, rfl⟩ := icebergType_map_eq_some row
        obtain ⟨⟨_, _, _, _⟩, tk, tv, _, rfl, rfl, keyArrow, _, valueArrow⟩ := arrow
        cases e with
        | dictionary => simp [checkConversion, same, convertible]
        | struct children =>
            obtain ⟨_, ofChildren, kept⟩ := bind_eq_ok ofType
            cases kept
            cases children with
            | nil => cases ofChildren
            | cons first tail =>
                obtain ⟨_, _, ofFirst, ofTail, kept⟩ := storableChildren_cons_eq_ok ofChildren
                cases kept
                cases tail with
                | nil => cases ofTail
                | cons second rest =>
                    obtain ⟨_, _, ofSecond, ofRest, kept⟩ := storableChildren_cons_eq_ok ofTail
                    cases kept
                    cases rest with
                    | cons third others =>
                        obtain ⟨_, _, _, _, kept⟩ := storableChildren_cons_eq_ok ofRest
                        cases kept
                    | nil =>
                        obtain ⟨_, _, firstType, rfl⟩ := storableChild_eq_ok ofFirst
                        obtain ⟨_, _, secondType, rfl⟩ := storableChild_eq_ok ofSecond
                        obtain ⟨_, first, _, _⟩ := first
                        obtain ⟨_, second, _, _⟩ := second
                        simp only [checkConversion, same, if_false, convertible, allConvertible,
                          Bool.and_true, Bool.and_eq_true, List.append_eq_nil_iff]
                        exact and_congr
                          (checkConversion_eq_nil_iff documented firstType ofKey keyArrow)
                          (checkConversion_eq_nil_iff documented secondType ofValue valueArrow)
        | _ =>
            rcases storableType_eq_struct ofType with ⟨_, other, _⟩ | ⟨_, _, other⟩
            · cases other
            · cases other
    | _ =>
        exact checkConversion_leaf_eq_nil_iff documented rfl same created row arrow
termination_by structural source

theorem checkChildren_eq_nil_iff (documented : deps.FollowsTypeTable)
    {children stored rest targets : Fields} {fields : NestedFields} {path : String}
    (created : storableChildren deps column children = .ok stored)
    (row : icebergFields stored = some fields) (arrow : ArrowFieldsOf fields rest)
    (found : ∀ t ∈ rest.toList, targets.find t.name = some t) :
    checkChildren deps path children targets = [] ↔ allConvertible children := by
  cases children with
  | nil =>
      simp [checkChildren, allConvertible]
  | cons head tail =>
      cases head with
      | mk name c nullable metadata =>
        obtain ⟨h, t, ofHead, ofTail, rfl⟩ := storableChildren_cons_eq_ok created
        obtain ⟨_, s, ofType, rfl⟩ := storableChild_eq_ok ofHead
        obtain ⟨fieldType, others, headRow, tailRow, rfl⟩ := icebergFields_cons_eq_some row
        obtain ⟨first, next, rfl, named, _, headArrow, tailArrow⟩ := arrow
        have foundHead : targets.find (Arrow.Field.mk name c nullable metadata).name = some first :=
          named ▸ found first (by simp)
        rw [checkChildren_cons foundHead, List.append_eq_nil_iff, allConvertible, Bool.and_eq_true,
          checkChildren_eq_nil_iff documented ofTail tailRow tailArrow
            fun t member => found t (List.mem_cons_of_mem _ member)]
        exact and_congr_left fun _ => checkConversion_eq_nil_iff documented ofType headRow headArrow
termination_by structural children

end

end

/-! ## Columns -/

section

variable {deps : Dependencies}

/-- A written column and the table column created for it. -/
def ColumnOf (deps : Dependencies) (f t : Field) : Prop :=
  t.name = f.name ∧ ∃ (s : DataType) (i : IcebergType),
    (if deps.isDecimalArbField f then .ok .utf8 else storableType deps f.name f.dataType) = .ok s ∧
      icebergType s = some i ∧ ArrowOf i t.dataType

theorem storableField_eq_ok {f stored : Field} (created : storableField deps f = .ok stored) :
    stored.name = f.name ∧
      (if deps.isDecimalArbField f then .ok .utf8 else storableType deps f.name f.dataType) =
        .ok stored.dataType := by
  unfold storableField at created
  split at created
  · rename_i arbitrary
    cases created
    simp only [arbitrary, if_true]
    exact ⟨rfl, rfl⟩
  · rename_i plain
    obtain ⟨s, ofType, kept⟩ := bind_eq_ok created
    cases kept
    rw [if_neg plain]
    exact ⟨rfl, ofType⟩

/-- A column that is no top-level `decimal_arb` has a convertible type. -/
def ConvertibleColumn (deps : Dependencies) (f : Field) : Prop :=
  deps.isDecimalArbField f ∨ convertible f.dataType

/-- A table column is without problems exactly when its input column is convertible. -/
theorem columnProblems_eq_nil_iff (documented : deps.FollowsTypeTable) {written : List Field}
    {f t : Field} (columnOf : ColumnOf deps f t)
    (found : written.find? (·.name = t.name) = some f) :
    BatchProjector.columnProblems deps written t = [] ↔ ConvertibleColumn deps f := by
  obtain ⟨_, stored, i, ofType, row, arrow⟩ := columnOf
  simp only [BatchProjector.columnProblems, found, ConvertibleColumn]
  by_cases arbitrary : deps.isDecimalArbField f
  · simp only [arbitrary, if_true] at ofType
    cases ofType
    cases row
    rcases arrow with same | same
    · simp [arbitrary, same, isDecimalArbTarget]
    · simp [arbitrary, same, isDecimalArbTarget]
  · rw [if_neg arbitrary] at ofType
    simp only [arbitrary, nestsDecimalArb_eq_false ofType (.of_icebergType row),
      Bool.false_eq_true, if_false, false_or]
    exact checkConversion_eq_nil_iff documented ofType row arrow

/-! ## The created table -/

/-- The table created from a schema has a column for each written one, under
distinct names. -/
theorem columns_of_tableSchemaFor (documented : deps.FollowsTypeTable)
    {input target : List Field} {includeOpColumn : Bool} {schema : IcebergSchema}
    (created : tableSchemaFor deps input includeOpColumn = .ok schema)
    (loaded : deps.schemaToArrowSchema schema = .ok target) :
    ((writtenFields input includeOpColumn).map Field.name).Nodup ∧
      List.Forall₂ (ColumnOf deps) (writtenFields input includeOpColumn) target := by
  obtain ⟨fields, stored, created⟩ := bind_eq_ok created
  split at created
  · cases created
  · split at created
    · rename_i converted
      cases created
      obtain ⟨distinct, rows⟩ := documented.toIceberg converted
      have stores := forall₂_of_mapM_eq_ok stored
      have columns := forall₂_comp (forall₂_comp stores rows) (documented.toArrow loaded)
      have names : fields.map Field.name = (writtenFields input includeOpColumn).map Field.name :=
        map_eq_of_forall₂ (stores.imp fun _ _ created => (storableField_eq_ok created).1)
      refine ⟨names ▸ distinct, columns.imp ?_⟩
      rintro f t ⟨column, ⟨stored, created, named, _, row⟩, targetNamed, _, arrow⟩
      obtain ⟨kept, ofType⟩ := storableField_eq_ok created
      exact ⟨targetNamed.trans (named.trans kept), stored.dataType, column.fieldType, ofType, row,
        arrow⟩
    · cases created

/-- A table created by `tableSchemaFor` can be written by the same input exactly when
every written column is convertible. -/
theorem tryNew_isOk_iff (documented : deps.FollowsTypeTable)
    {input target : List Field} {includeOpColumn : Bool} {schema : IcebergSchema}
    (created : tableSchemaFor deps input includeOpColumn = .ok schema)
    (loaded : deps.schemaToArrowSchema schema = .ok target) :
    (BatchProjector.tryNew deps input target includeOpColumn).isOk ↔
      ∀ f ∈ writtenFields input includeOpColumn, ConvertibleColumn deps f := by
  obtain ⟨distinct, columns⟩ := columns_of_tableSchemaFor documented created loaded
  have members := (List.forall₂_and_left _ _).mpr ⟨fun _ member => member, columns⟩
  have known : ((writtenFields input includeOpColumn).map Field.name).filter (fun name =>
      decide (target.find? (·.name = name) = none)) = [] := by
    rw [← map_eq_of_forall₂ (columns.imp fun _ _ columnOf => columnOf.1),
      List.filter_eq_nil_iff]
    intro name named missing
    obtain ⟨t, member, rfl⟩ := List.mem_map.mp named
    simp only [decide_eq_true_eq, List.find?_eq_none] at missing
    exact missing t member rfl
  have problems : target.flatMap (BatchProjector.columnProblems deps
      (writtenFields input includeOpColumn)) = [] ↔
      ∀ f ∈ writtenFields input includeOpColumn, ConvertibleColumn deps f := by
    rw [List.flatMap_eq_nil_iff]
    apply forall_mem_iff_of_forall₂
    refine members.imp ?_
    rintro f t ⟨member, columnOf⟩
    apply columnProblems_eq_nil_iff documented columnOf
    rw [columnOf.1]
    exact find?_name_of_mem distinct member
  rw [← problems]
  simp only [BatchProjector.tryNew, known, ne_eq, not_true_eq_false, if_false]
  split
  · rename_i some_problem
    simp [some_problem, Except.isOk, Except.toBool]
  · rename_i none_problem
    simp_all [Except.isOk, Except.toBool]

/-- Orders with a dictionary of labels, keyed amounts and a zoned timestamp. -/
def ordersInput : List Field :=
  [.new "labels" (.list (.new "item" (.dictionary .int32 .utf8) true)) true,
    .new "amounts" (.map (.new "entries" (.struct (.cons (.new "keys" .largeUtf8 false)
      (.cons (.new "values" .uint64 true) .nil))) false) false) false,
    .new "at" (.timestamp .nanosecond (some "Europe/Berlin")) false,
    .new "_gs_op" .utf8 false]

def ordersSchema : IcebergSchema :=
  [⟨"labels", false, .list false .string⟩, ⟨"amounts", true, .map .string false (.decimal 20 0)⟩,
    ⟨"at", true, .timestamptz⟩, ⟨"_gs_op", true, .string⟩]

def timesInput : List Field := [.new "t" (.time64 .nanosecond) true]

/-- A schema of convertible columns and the table created for it. -/
theorem tryNew_isOk_iff_orders :
    (BatchProjector.tryNew typeTable ordersInput (ordersSchema.map arrowField) true).isOk ↔
      ∀ f ∈ writtenFields ordersInput true, ConvertibleColumn typeTable f :=
  tryNew_isOk_iff typeTable_follows (show tableSchemaFor typeTable ordersInput true = .ok ordersSchema from rfl) rfl

/-- The table created for a column of nanosecond times cannot be written by it. -/
theorem nanosecond_times_are_unwritable :
    typeTable.FollowsTypeTable ∧
      ∃ schema target, tableSchemaFor typeTable timesInput false = .ok schema ∧
        typeTable.schemaToArrowSchema schema = .ok target ∧
        (BatchProjector.tryNew typeTable timesInput target false).isOk = false :=
  ⟨typeTable_follows, [⟨"t", false, .time⟩], _, rfl, rfl, by decide +kernel⟩

end

end StreamlingPlugins.IcebergSink
