import StreamlingPlugins.Utils.LeafShapes

/-!
# What rebuilding an array leaves of it

Every container is rebuilt with the slots it had and with its values' exact text, or it loses
all its slots, or its constructor refuses it; which of these is decided by its shape alone.
-/

namespace StreamlingPlugins.Utils

open Arrow

section

variable {D : Type} {lib : DecimalLibrary D}

/-! ## Exact text -/

theorem isNull_onStruct {f : List (String × Value D) → List (String × Value D)} (v : Value D) :
    (onStruct f v).isNull = v.isNull := by
  cases v <;> rfl

theorem isNull_onList {f : Value D → Value D} (v : Value D) :
    (onList f v).isNull = v.isNull := by
  cases v <;> rfl

theorem isNull_onMap {f : Value D → Value D} (v : Value D) : (onMap f v).isNull = v.isNull := by
  cases v <;> rfl

theorem isNull_onDatum {f : D → D} (v : Value D) : (onDatum f v).isNull = v.isNull := by
  cases v <;> rfl

theorem isNull_typeText {t : DataType} (v : Value D) : (typeText lib t v).isNull = v.isNull := by
  cases t with
  | struct children => exact isNull_onStruct v
  | list c => exact isNull_onList v
  | largeList c => exact isNull_onList v
  | fixedSizeList c size => exact isNull_onList v
  | map c sorted => exact isNull_onMap v
  | _ => rfl

/-- Text is null exactly where the bytes are. -/
theorem isNull_fieldText {field : Field} (v : Value D) :
    (fieldText lib field v).isNull = v.isNull := by
  cases field with
  | mk name t nullable metadata =>
      unfold fieldText
      split
      · exact isNull_onDatum v
      · exact isNull_typeText v

theorem onList_id : onList (id : Value D → Value D) = id := by
  funext v
  cases v <;> simp [onList]

theorem onMap_id : onMap (id : Value D → Value D) = id := by
  funext v
  cases v <;> simp [onMap]

theorem onStruct_id : onStruct (id : List (String × Value D) → _) = id := by
  funext v
  cases v <;> simp [onStruct]

mutual

/-- A type without a leaf has nothing to replace. -/
theorem typeText_eq_id : {t : DataType} → nestsDecimalArb lib t = false → typeText lib t = id
  | .list c, without | .largeList c, without | .fixedSizeList c _, without => by
    have child : fieldText lib c = id := fieldText_eq_id without
    funext v
    rw [typeText, child, onList_id]
  | .map c _, without => by
    have child : fieldText lib c = id := fieldText_eq_id without
    funext v
    rw [typeText, child, onMap_id]
  | .struct children, without => by
    have fields : columnsText lib children = id := columnsText_eq_id without
    funext v
    rw [typeText, fields, onStruct_id]
  | .null, _ | .boolean, _ | .int8, _ | .int16, _ | .int32, _ | .int64, _
  | .uint8, _ | .uint16, _ | .uint32, _ | .uint64, _ | .float16, _ | .float32, _ | .float64, _
  | .timestamp _ _, _ | .date32, _ | .date64, _ | .time32 _, _ | .time64 _, _ | .duration _, _
  | .interval _, _ | .binary, _ | .fixedSizeBinary _, _ | .largeBinary, _ | .binaryView, _
  | .utf8, _ | .largeUtf8, _ | .utf8View, _ | .listView _, _ | .largeListView _, _
  | .union _ _ _, _ | .decimal32 _ _, _ | .decimal64 _ _, _ | .decimal128 _ _, _
  | .decimal256 _ _, _ | .runEndEncoded _ _, _ | .dictionary _ _, _ => rfl

theorem fieldText_eq_id :
    {field : Field} → holdsDecimalArb lib field = false → fieldText lib field = id
  | .mk name t nullable metadata, without => by
    obtain ⟨unmarked, nested⟩ := Bool.or_eq_false_iff.mp without
    have type : typeText lib t = id := typeText_eq_id nested
    funext v
    simp [fieldText, unmarked, type]

theorem columnsText_eq_id :
    {fields : Fields} → anyHoldsDecimalArb lib fields = false → columnsText lib fields = id
  | .nil, _ => by
    funext values
    rfl
  | .cons head tail, without => by
    obtain ⟨first, later⟩ := Bool.or_eq_false_iff.mp without
    have value : fieldText lib head = id := fieldText_eq_id first
    have values : columnsText lib tail = id := columnsText_eq_id later
    funext all
    cases all with
    | nil => rfl
    | cons entry rest => simp [columnsText, value, values]

end

/-! ## Leaves within types -/

mutual

theorem leafWithin_of_nests : {t : DataType} → nestsDecimalArb lib t = true →
    leafWithin lib t = true
  | .list _, nests | .largeList _, nests | .listView _, nests | .largeListView _, nests
  | .fixedSizeList _ _, nests | .map _ _, nests => fieldLeafWithin_of_holds nests
  | .struct _, nests | .union _ _ _, nests => anyLeafWithin_of_anyHolds nests

theorem fieldLeafWithin_of_holds : {field : Field} → holdsDecimalArb lib field = true →
    fieldLeafWithin lib field = true
  | .mk _ _ _ _, holds => by
    rcases Bool.or_eq_true_iff.mp holds with marked | nests
    · exact Bool.or_eq_true_iff.mpr (.inl marked)
    · exact Bool.or_eq_true_iff.mpr (.inr (leafWithin_of_nests nests))

theorem anyLeafWithin_of_anyHolds : {fields : Fields} → anyHoldsDecimalArb lib fields = true →
    anyLeafWithin lib fields = true
  | .cons _ _, holds => by
    rcases Bool.or_eq_true_iff.mp holds with first | later
    · exact Bool.or_eq_true_iff.mpr (.inl (fieldLeafWithin_of_holds first))
    · exact Bool.or_eq_true_iff.mpr (.inr (anyLeafWithin_of_anyHolds later))

end

/-- A type that has a leaf and no child arrays here is another container. -/
theorem leafOutside_of_childless {t : DataType} (nests : nestsDecimalArb lib t = true)
    (childless : t.hasChildren = false) : leafOutside lib t = true := by
  cases t with
  | listView c => exact fieldLeafWithin_of_holds nests
  | largeListView c => exact fieldLeafWithin_of_holds nests
  | union typeIds children dense => exact anyLeafWithin_of_anyHolds nests
  | _ => first | cases nests | cases childless

/-! ## What becomes of an array -/

/-- The slots of an array, each with its value replaced. -/
structure Keeps (f : Value D → Value D) {t t' : DataType} (array : BufferedArray D t)
    (array' : BufferedArray D t') : Prop where
  length : array'.length = array.length
  entry : ∀ i < array.length, array'.entry i = f (array.entry i)

/-- An array that had slots has none, or they are kept. -/
def Becomes (empty : Bool) (f : Value D → Value D) {t t' : DataType} (array : BufferedArray D t)
    (array' : BufferedArray D t') : Prop :=
  if empty then array'.length = 0 ∧ 0 < array.length else Keeps f array array'

def ContainerBecomes (lib : DecimalLibrary D) {t : DataType} (array : BufferedArray D t) :
    Except ArrowError (Σ t, BufferedArray D t) → Prop
  | .ok rebuilt => refused lib array = false ∧
    Becomes (emptied lib array) (typeText lib t) array rebuilt.2
  | .error _ => refused lib array = true

/-- A field of the same name and nullability, with what becomes of its array. -/
structure FieldBecomes (lib : DecimalLibrary D) (field : Field)
    (array : BufferedArray D field.dataType) (rebuilt : FieldArray D) : Prop where
  kept : (isRebuilt lib field && refused lib array) = false
  name : rebuilt.1.name = field.name
  isNullable : rebuilt.1.isNullable = field.isNullable
  becomes : Becomes (isRebuilt lib field && emptied lib array) (fieldText lib field) array rebuilt.2

def ResultBecomes (lib : DecimalLibrary D) (field : Field)
    (array : BufferedArray D field.dataType) : Except ArrowError (FieldArray D) → Prop
  | .ok rebuilt => FieldBecomes lib field array rebuilt
  | .error _ => (isRebuilt lib field && refused lib array) = true

theorem Becomes.keeps {f : Value D → Value D} {t t' : DataType} {array : BufferedArray D t}
    {array' : BufferedArray D t'} {empty : Bool} (becomes : Becomes empty f array array')
    (full : empty = false) : Keeps f array array' := by
  simpa [Becomes, full] using becomes

theorem Becomes.length_eq_zero {f : Value D → Value D} {t t' : DataType}
    {array : BufferedArray D t} {array' : BufferedArray D t'} {empty : Bool}
    (becomes : Becomes empty f array array') (none_left : empty = true) :
    array'.length = 0 ∧ 0 < array.length := by
  simpa [Becomes, none_left] using becomes

theorem Keeps.refl {f : Value D → Value D} {t : DataType} {array : BufferedArray D t}
    (same : f = id) : Keeps f array array :=
  ⟨rfl, fun _ _ => by rw [same]; rfl⟩

theorem hasNull_eq_false_of_length {t : DataType} {array : BufferedArray D t}
    (none_left : array.length = 0) : array.hasNull = false := by
  simp [BufferedArray.hasNull, none_left]

/-- Nulls are where they were. -/
theorem Becomes.hasNull_eq_false {f : Value D → Value D} {t t' : DataType}
    {array : BufferedArray D t} {array' : BufferedArray D t'} {empty : Bool}
    (becomes : Becomes empty f array array') (nulls : ∀ v, (f v).isNull = v.isNull)
    (without : array.hasNull = false) : array'.hasNull = false := by
  cases empty with
  | true => exact hasNull_eq_false_of_length (becomes.length_eq_zero rfl).1
  | false =>
      have kept := becomes.keeps rfl
      unfold BufferedArray.hasNull at without ⊢
      rw [kept.length]
      rw [List.any_eq_false] at without ⊢
      intro i member
      rw [kept.entry i (List.mem_range.mp member), nulls]
      exact without i member

/-! ## Containers of one child -/

/-- A container becomes what its constructor makes of its child. -/
theorem container_becomes_of_child {t : DataType} {array : BufferedArray D t} {c : Field}
    {values : BufferedArray D c.dataType} (type : Field → DataType)
    {tryNew : (c : FieldArray D) → Except Rejection (BufferedArray D (type c.1))} (lost : Bool)
    (shape : refused lib array = (isRebuilt lib c && refused lib values || lost))
    (fails : lost = true → ∀ rebuilt, FieldBecomes lib c values rebuilt →
      ∃ rejection, tryNew rebuilt = .error rejection)
    (succeeds : lost = false → ∀ rebuilt, FieldBecomes lib c values rebuilt →
      ∃ array', tryNew rebuilt = .ok array' ∧
        Becomes (emptied lib array) (typeText lib t) array array')
    {result : Except ArrowError (FieldArray D)} (child : ResultBecomes lib c values result) :
    ContainerBecomes lib array (do
      let c ← result
      let array ← (tryNew c).mapError .rejected
      return ⟨_, array⟩) := by
  cases result with
  | error e => simp [ContainerBecomes, bind, Except.bind, shape, show _ = true from child]
  | ok rebuilt =>
      cases cause : lost with
      | true =>
          obtain ⟨rejection, rejected⟩ := fails cause rebuilt child
          simp [ContainerBecomes, bind, Except.bind, rejected, shape, cause, Except.mapError]
      | false =>
          obtain ⟨array', made, becomes⟩ := succeeds cause rebuilt child
          simp only [ContainerBecomes, bind, Except.bind, made, cause, shape, child.kept,
            Except.mapError, pure, Except.pure]
          exact ⟨rfl, becomes⟩

/-! ## Lists -/

section

variable {c : Field} {offsets : OffsetBuffer} {values : BufferedArray D c.dataType}
  {nulls : Option NullBuffer} {rebuilt : FieldArray D} {empty : Bool}

/-- Lists are refused exactly where their offsets reach slots that are gone. -/
theorem checkLists_eq (becomes : Becomes empty (fieldText lib c) values rebuilt.2)
    (nullable : rebuilt.1.isNullable = c.isNullable) (reach : offsets.last ≤ values.length)
    (fit : nullsFit nulls offsets.lists)
    (without : c.isNullable = false → values.hasNull = false) :
    checkLists rebuilt.1 offsets rebuilt.2 nulls =
      if empty && decide (0 < offsets.last) then .error .offsetsExceedValues else .ok () := by
  have unmasked : (!rebuilt.1.isNullable && rebuilt.2.hasNull) = false := by
    rw [nullable]
    cases allowed : c.isNullable with
    | true => rfl
    | false => exact becomes.hasNull_eq_false isNull_fieldText (without allowed)
  cases empty with
  | true =>
      have gone := (becomes.length_eq_zero rfl).1
      simp [checkLists, gone, fit, unmasked]
  | false =>
      have kept := (becomes.keeps rfl).length
      have within : ¬ values.length < offsets.last := by omega
      simp [checkLists, kept, within, fit, unmasked]

/-- The values of a list are those that it had. -/
theorem slots_map_eq (becomes : Becomes empty (fieldText lib c) values rebuilt.2)
    (reach : offsets.last ≤ values.length)
    (kept : (empty && decide (0 < offsets.last)) = false) {i : Nat} (bound : i < offsets.lists) :
    (offsets.slots i).map rebuilt.2.entry =
      ((offsets.slots i).map values.entry).map (fieldText lib c) := by
  rw [List.map_map]
  refine List.map_congr_left fun k member => ?_
  have below := offsets.lt_last_of_mem_slots bound member
  have full : empty = false := by
    have some_slot : decide (0 < offsets.last) = true := decide_eq_true (by omega)
    simpa [some_slot] using kept
  exact (becomes.keeps full).entry k (by omega)

theorem list_becomes (formed : (BufferedArray.list offsets values nulls).WellFormed)
    {result : Except ArrowError (FieldArray D)} (child : ResultBecomes lib c values result) :
    ContainerBecomes lib (.list offsets values nulls) (do
      let c ← result
      let array ← (listTryNew c.1 offsets c.2 nulls).mapError .rejected
      return ⟨_, array⟩) := by
  obtain ⟨-, reach, fit, without⟩ := formed
  refine container_becomes_of_child .list
    (isRebuilt lib c && emptied lib values && decide (0 < offsets.last)) ?_
    (fun cause rebuilt child => ?_) (fun cause rebuilt child => ?_) child
  · rw [refused, Bool.and_or_distrib_left, Bool.and_assoc]
  · exact ⟨.offsetsExceedValues, by
      simp [listTryNew, checkLists_eq child.becomes child.isNullable reach fit without, cause,
        bind, Except.bind]⟩
  · refine ⟨.list offsets rebuilt.2 nulls, ?_, rfl, fun i bound => ?_⟩
    · simp only [listTryNew, checkLists_eq child.becomes child.isNullable reach fit without,
        cause]
      rfl
    · simp only [BufferedArray.entry, typeText, slots_map_eq child.becomes reach cause bound]
      cases validAt nulls i <;> rfl

theorem largeList_becomes (formed : (BufferedArray.largeList offsets values nulls).WellFormed)
    {result : Except ArrowError (FieldArray D)} (child : ResultBecomes lib c values result) :
    ContainerBecomes lib (.largeList offsets values nulls) (do
      let c ← result
      let array ← (largeListTryNew c.1 offsets c.2 nulls).mapError .rejected
      return ⟨_, array⟩) := by
  obtain ⟨-, reach, fit, without⟩ := formed
  refine container_becomes_of_child .largeList
    (isRebuilt lib c && emptied lib values && decide (0 < offsets.last)) ?_
    (fun cause rebuilt child => ?_) (fun cause rebuilt child => ?_) child
  · rw [refused, Bool.and_or_distrib_left, Bool.and_assoc]
  · exact ⟨.offsetsExceedValues, by
      simp [largeListTryNew, checkLists_eq child.becomes child.isNullable reach fit without, cause,
        bind, Except.bind]⟩
  · refine ⟨.largeList offsets rebuilt.2 nulls, ?_, rfl, fun i bound => ?_⟩
    · simp only [largeListTryNew, checkLists_eq child.becomes child.isNullable reach fit without,
        cause]
      rfl
    · simp only [BufferedArray.entry, typeText, slots_map_eq child.becomes reach cause bound]
      cases validAt nulls i <;> rfl

/-- A map is refused like a list, and its entries are not null. -/
theorem mapTryNew_eq (becomes : Becomes empty (fieldText lib c) values rebuilt.2)
    (reach : offsets.last ≤ values.length) (fit : nullsFit nulls offsets.lists)
    (without : values.hasNull = false) {sorted : Bool} :
    mapTryNew rebuilt.1 offsets rebuilt.2 nulls sorted =
      if empty && decide (0 < offsets.last) then .error .offsetsExceedValues
      else .ok (.map offsets rebuilt.2 nulls) := by
  have no_null := becomes.hasNull_eq_false isNull_fieldText without
  cases empty with
  | true =>
      have gone := (becomes.length_eq_zero rfl).1
      simp [mapTryNew, gone, fit, no_null]
  | false =>
      have kept := (becomes.keeps rfl).length
      have within : ¬ values.length < offsets.last := by omega
      simp [mapTryNew, kept, within, fit, no_null]

theorem map_becomes {sorted : Bool}
    (formed : (.map offsets values nulls : BufferedArray D (.map c sorted)).WellFormed)
    {result : Except ArrowError (FieldArray D)} (child : ResultBecomes lib c values result) :
    ContainerBecomes lib (.map offsets values nulls : BufferedArray D (.map c sorted)) (do
      let c ← result
      let array ← (mapTryNew c.1 offsets c.2 nulls sorted).mapError .rejected
      return ⟨_, array⟩) := by
  obtain ⟨-, reach, fit, without⟩ := formed
  refine container_becomes_of_child (DataType.map · sorted)
    (isRebuilt lib c && emptied lib values && decide (0 < offsets.last)) ?_
    (fun cause rebuilt child => ?_) (fun cause rebuilt child => ?_) child
  · rw [refused, Bool.and_or_distrib_left, Bool.and_assoc]
  · exact ⟨.offsetsExceedValues, by simp [mapTryNew_eq child.becomes reach fit without, cause]⟩
  · refine ⟨.map offsets rebuilt.2 nulls, ?_, rfl, fun i bound => ?_⟩
    · simp [mapTryNew_eq child.becomes reach fit without, cause]
    · simp only [BufferedArray.entry, typeText, slots_map_eq child.becomes reach cause bound]
      cases validAt nulls i <;> rfl

end

/-! ## Lists of fixed size -/

section

variable {c : Field} {size : Int} {length : Nat} {values : BufferedArray D c.dataType}
  {nulls : Option NullBuffer} {rebuilt : FieldArray D} {empty : Bool}

/-- What is masked stays so. -/
theorem Becomes.nullsMasked_eq (becomes : Becomes empty (fieldText lib c) values rebuilt.2)
    (nullable : rebuilt.1.isNullable = c.isNullable) {holder : Nat → Nat}
    (masked : nullsMasked c values nulls holder) :
    nullsMasked rebuilt.1 rebuilt.2 nulls holder := by
  unfold nullsMasked at masked ⊢
  rw [nullable]
  rcases Bool.or_eq_true_iff.mp masked with allowed | each
  · exact Bool.or_eq_true_iff.mpr (.inl allowed)
  · refine Bool.or_eq_true_iff.mpr (.inr (List.all_eq_true.mpr fun j member => ?_))
    cases empty with
    | true => simp [(becomes.length_eq_zero rfl).1] at member
    | false =>
        have kept := becomes.keeps rfl
        rw [kept.length] at member
        rw [kept.entry j (List.mem_range.mp member), isNull_fieldText]
        exact List.all_eq_true.mp each j member

/-- The values of a list are those that it had. -/
theorem fixed_slots_map_eq (kept : Keeps (fieldText lib c) values rebuilt.2)
    (counted : values.length = length * size.toNat) {i : Nat} (bound : i < length) :
    (List.range' (i * size.toNat) size.toNat).map rebuilt.2.entry =
      ((List.range' (i * size.toNat) size.toNat).map values.entry).map (fieldText lib c) := by
  rw [List.map_map]
  refine List.map_congr_left fun k member => kept.entry k ?_
  have upto : (i + 1) * size.toNat ≤ length * size.toNat := Nat.mul_le_mul_right _ bound
  rw [Nat.succ_mul] at upto
  rw [List.mem_range'_1] at member
  omega

/-- Lists of size 0 are those that the null buffer has. -/
theorem becomes_unsized (fit : nullsFit nulls length) :
    Becomes (emptied lib (.fixedSizeList length values nulls :
        BufferedArray D (.fixedSizeList c 0))) (typeText lib (.fixedSizeList c 0))
      (.fixedSizeList length values nulls : BufferedArray D (.fixedSizeList c 0))
      (.fixedSizeList (nulls.elim 0 List.length) rebuilt.2 nulls :
        BufferedArray D (.fixedSizeList rebuilt.1 0)) := by
  have entries (i : Nat) :
      (BufferedArray.fixedSizeList (nulls.elim 0 List.length) rebuilt.2 nulls :
        BufferedArray D (.fixedSizeList rebuilt.1 0)).entry i =
      typeText lib (.fixedSizeList c 0) ((.fixedSizeList length values nulls :
        BufferedArray D (.fixedSizeList c 0)).entry i) := by
    simp only [BufferedArray.entry, typeText]
    cases validAt nulls i <;> rfl
  cases nulls with
  | none =>
      rcases Nat.eq_zero_or_pos length with rfl | some_list
      · exact ⟨rfl, fun i _ => entries i⟩
      · simp [Becomes, emptied, some_list, BufferedArray.length]
  | some valid =>
      have counted : valid.length = length := by simpa [nullsFit] using fit
      exact ⟨counted, fun i _ => entries i⟩

theorem fixedSizeList_becomes
    (formed : (BufferedArray.fixedSizeList length values nulls :
      BufferedArray D (.fixedSizeList c size)).WellFormed)
    {result : Except ArrowError (FieldArray D)} (child : ResultBecomes lib c values result) :
    ContainerBecomes lib (.fixedSizeList length values nulls :
        BufferedArray D (.fixedSizeList c size)) (do
      let c ← result
      let array ← (fixedSizeListTryNew c.1 size c.2 nulls).mapError .rejected
      return ⟨_, array⟩) := by
  obtain ⟨-, natural, counted, fit, masked⟩ := formed
  refine container_becomes_of_child (DataType.fixedSizeList · size)
    (decide (size ≠ 0) && (isRebuilt lib c && emptied lib values) && nulls.isSome) ?_
    (fun cause rebuilt child => ?_) (fun cause rebuilt child => ?_) child
  · rw [refused]
    cases isRebuilt lib c <;> simp
  · obtain ⟨⟨sized, gone⟩, present⟩ : (size ≠ 0 ∧
        (isRebuilt lib c && emptied lib values) = true) ∧ nulls.isSome = true := by
      simpa using cause
    obtain ⟨none_left, some_slot⟩ := child.becomes.length_eq_zero gone
    obtain ⟨valid, rfl⟩ := Option.isSome_iff_exists.mp present
    have counted_nulls : valid.length = length := by simpa [nullsFit] using fit
    have some_list : length ≠ 0 := by
      rintro rfl
      omega
    have misfit : nullsFit (some valid) 0 = false := by
      simp only [nullsFit, Option.all_some, counted_nulls]
      exact decide_eq_false some_list
    exact ⟨.nullBufferLength, by
      simp [fixedSizeListTryNew, natural.not_gt, sized, none_left, misfit]⟩
  · by_cases unsized : size = 0
    · subst unsized
      exact ⟨.fixedSizeList (nulls.elim 0 List.length) rebuilt.2 nulls, rfl,
        becomes_unsized fit⟩
    · have sized : 0 < size.toNat := by omega
      cases gone : isRebuilt lib c && emptied lib values with
      | true =>
          obtain ⟨none_left, some_slot⟩ := child.becomes.length_eq_zero gone
          have unmasked : nulls = none := by simpa [unsized, gone] using cause
          subst unmasked
          have still := child.becomes.nullsMasked_eq child.isNullable masked
          refine ⟨.fixedSizeList 0 rebuilt.2 none, ?_, ?_⟩
          · simp [fixedSizeListTryNew, natural.not_gt, unsized, none_left, nullsFit, still]
          · have some_list : 0 < length := by
              rcases Nat.eq_zero_or_pos length with rfl | some_list
              · omega
              · exact some_list
            simpa [Becomes, emptied, unsized, gone, BufferedArray.length] using some_list
      | false =>
          have kept := child.becomes.keeps gone
          have still := child.becomes.nullsMasked_eq child.isNullable masked
          refine ⟨.fixedSizeList length rebuilt.2 nulls, ?_, ?_⟩
          · simp [fixedSizeListTryNew, natural.not_gt, unsized, kept.length, counted, still,
              Nat.mul_div_cancel _ sized, fit]
          · have full : emptied lib (.fixedSizeList length values nulls :
                BufferedArray D (.fixedSizeList c size)) = false := by
              simp [emptied, unsized, gone]
            rw [full]
            refine ⟨rfl, fun i bound => ?_⟩
            simp only [BufferedArray.entry, typeText, fixed_slots_map_eq kept counted bound]
            cases validAt nulls i <;> rfl

end

/-! ## Structs -/

inductive ColumnsBecome (lib : DecimalLibrary D) : {fields fields' : Fields} →
    BufferedColumns D fields → BufferedColumns D fields' → Prop
  | nil : ColumnsBecome lib .nil .nil
  | cons {head : Field} {tail tail' : Fields} {column : BufferedArray D head.dataType}
    {columns : BufferedColumns D tail} {rebuilt : FieldArray D} {columns' : BufferedColumns D tail'}
    (first : FieldBecomes lib head column rebuilt) (later : ColumnsBecome lib columns columns') :
    ColumnsBecome lib (.cons column columns)
      (@BufferedColumns.cons D rebuilt.1 tail' rebuilt.2 columns')

def ColumnsResult (lib : DecimalLibrary D) {fields : Fields} (columns : BufferedColumns D fields) :
    Except ArrowError (Σ fields, BufferedColumns D fields) → Prop
  | .ok rebuilt => anyRefused lib columns = false ∧ ColumnsBecome lib columns rebuilt.2
  | .error _ => anyRefused lib columns = true

section

variable {fields fields' : Fields} {columns : BufferedColumns D fields}
  {columns' : BufferedColumns D fields'} {n k : Nat} {nulls : Option NullBuffer}

/-- Columns that keep their slots keep their names and have the exact text. -/
theorem ColumnsBecome.entries_eq (become : ColumnsBecome lib columns columns')
    (formed : columns.WellFormed n) (full : anyEmptied lib columns = false) {i : Nat}
    (bound : i < n) : columns'.entries i = columnsText lib fields (columns.entries i) := by
  induction become with
  | nil => rfl
  | cons first later ih =>
      obtain ⟨-, length, rest⟩ := formed
      obtain ⟨here, there⟩ := Bool.or_eq_false_iff.mp full
      have kept := first.becomes.keeps here
      simp only [BufferedColumns.entries, columnsText, first.name, ih rest there,
        kept.entry i (length ▸ bound)]

theorem ColumnsBecome.length_eq (become : ColumnsBecome lib columns columns')
    (formed : columns.WellFormed n) (full : anyEmptied lib columns = false) :
    columns'.all fun _ column => column.length = n := by
  induction become with
  | nil => rfl
  | cons first later ih =>
      obtain ⟨-, length, rest⟩ := formed
      obtain ⟨here, there⟩ := Bool.or_eq_false_iff.mp full
      have kept := (first.becomes.keeps here).length
      simpa [BufferedColumns.all, kept, length] using ih rest there

theorem ColumnsBecome.length_eq_zero (become : ColumnsBecome lib columns columns')
    (gone : allEmptied lib columns = true) :
    columns'.all fun _ column => column.length = 0 := by
  induction become with
  | nil => rfl
  | cons first later ih =>
      obtain ⟨here, there⟩ := Bool.and_eq_true_iff.mp gone
      have none_left := (first.becomes.length_eq_zero here).1
      simpa [BufferedColumns.all, none_left] using ih there

/-- Where a column is emptied, columns of one length have no slots. -/
theorem ColumnsBecome.eq_zero_of_anyEmptied (become : ColumnsBecome lib columns columns')
    (formed : columns.WellFormed n) (gone : anyEmptied lib columns = true)
    (same : columns'.all fun _ column => column.length = k) : k = 0 ∧ 0 < n := by
  induction become with
  | nil => cases gone
  | cons first later ih =>
      obtain ⟨-, length, rest⟩ := formed
      obtain ⟨here, there⟩ := Bool.and_eq_true_iff.mp same
      rcases Bool.or_eq_true_iff.mp gone with this_one | another
      · obtain ⟨none_left, some_slot⟩ := first.becomes.length_eq_zero this_one
        have counted := of_decide_eq_true here
        omega
      · exact ih rest another there

/-- Where a column is kept, columns of one length have as many slots as before. -/
theorem ColumnsBecome.eq_of_not_allEmptied (become : ColumnsBecome lib columns columns')
    (formed : columns.WellFormed n) (kept : allEmptied lib columns = false)
    (same : columns'.all fun _ column => column.length = k) : k = n := by
  induction become with
  | nil => cases kept
  | cons first later ih =>
      obtain ⟨-, length, rest⟩ := formed
      obtain ⟨here, there⟩ := Bool.and_eq_true_iff.mp same
      rcases Bool.and_eq_false_iff.mp kept with this_one | another
      · have as_before := (first.becomes.keeps this_one).length
        have counted := of_decide_eq_true here
        omega
      · exact ih rest another there

theorem ColumnsBecome.nullsMasked_eq (become : ColumnsBecome lib columns columns')
    (masked : columns.all fun field column => nullsMasked field column nulls id) :
    columns'.all fun field column => nullsMasked field column nulls id := by
  induction become with
  | nil => rfl
  | cons first later ih =>
      obtain ⟨here, there⟩ := Bool.and_eq_true_iff.mp masked
      exact Bool.and_eq_true_iff.mpr
        ⟨first.becomes.nullsMasked_eq first.isNullable here, ih there⟩

/-- Columns with a leaf are some, and the first has the length of all. -/
theorem ColumnsBecome.firstLength_eq (become : ColumnsBecome lib columns columns')
    (holds : anyHoldsDecimalArb lib fields = true)
    (same : columns'.all fun _ column => column.length = k) : columns'.firstLength = some k := by
  cases become with
  | nil => cases holds
  | cons first later =>
      exact congrArg some (of_decide_eq_true (Bool.and_eq_true_iff.mp same).1)

theorem anyEmptied_of_allEmptied (holds : anyHoldsDecimalArb lib fields = true)
    (gone : allEmptied lib columns = true) : anyEmptied lib columns = true := by
  cases columns with
  | nil => cases holds
  | cons column columns =>
      exact Bool.or_eq_true_iff.mpr (.inl (Bool.and_eq_true_iff.mp gone).1)

theorem structTryNew_eq_ok {array : BufferedArray D (.struct fields)}
    (made : structTryNew fields columns nulls = .ok array) :
    ∃ length, nullsFit nulls length ∧ columns.all fun _ column => column.length = length := by
  unfold structTryNew at made
  cases first : columns.firstLength with
  | none => simp [first] at made
  | some length =>
      refine ⟨length, ?_⟩
      cases fit : nullsFit nulls length with
      | false => simp [first, fit] at made
      | true =>
          cases same : columns.all fun _ column => column.length = length with
          | false => simp [first, fit, same] at made
          | true => exact ⟨rfl, rfl⟩

theorem struct_becomes (formed : (BufferedArray.struct n columns nulls).WellFormed)
    (holds : anyHoldsDecimalArb lib fields = true)
    {result : Except ArrowError (Σ fields, BufferedColumns D fields)}
    (children : ColumnsResult lib columns result) :
    ContainerBecomes lib (.struct n columns nulls) (do
      let columns ← result
      let array ← (structTryNew columns.1 columns.2 nulls).mapError .rejected
      return ⟨_, array⟩) := by
  obtain ⟨each, fit, masked⟩ := formed
  cases result with
  | error e =>
      simp [ContainerBecomes, bind, Except.bind, refused, show _ = true from children]
  | ok rebuilt =>
      obtain ⟨kept, become⟩ := children
      have still := become.nullsMasked_eq masked
      have make {length : Nat} (fit : nullsFit nulls length)
          (same : rebuilt.2.all fun _ column => column.length = length) :
          structTryNew rebuilt.1 rebuilt.2 nulls = .ok (.struct length rebuilt.2 nulls) := by
        simp [structTryNew, become.firstLength_eq holds same, fit, same, still]
      cases some_gone : anyEmptied lib columns with
      | false =>
          have not_all : allEmptied lib columns = false := by
            by_contra all_gone
            simp [anyEmptied_of_allEmptied holds (by simpa using all_gone)] at some_gone
          have made := make fit (become.length_eq each some_gone)
          simp only [ContainerBecomes, bind, Except.bind, made, Except.mapError, pure, Except.pure,
            refused, kept, some_gone, emptied, not_all, Bool.and_false]
          refine ⟨rfl, rfl, fun i bound => ?_⟩
          simp only [BufferedArray.entry, typeText, become.entries_eq each some_gone bound]
          cases validAt nulls i <;> rfl
      | true =>
          cases unmasked : nulls.isNone && allEmptied lib columns with
          | true =>
              obtain ⟨absent, all_gone⟩ := Bool.and_eq_true_iff.mp unmasked
              obtain rfl : nulls = none := Option.isNone_iff_eq_none.mp absent
              have gone := become.length_eq_zero all_gone
              have some_slot := (become.eq_zero_of_anyEmptied each some_gone gone).2
              simp only [ContainerBecomes, bind, Except.bind, make rfl gone, Except.mapError, pure,
                Except.pure, refused, kept, some_gone, emptied, unmasked]
              exact ⟨rfl, rfl, some_slot⟩
          | false =>
              have rejected : ∃ rejection,
                  structTryNew rebuilt.1 rebuilt.2 nulls = .error rejection := by
                cases made : structTryNew rebuilt.1 rebuilt.2 nulls with
                | error rejection => exact ⟨rejection, rfl⟩
                | ok array =>
                    obtain ⟨length, fit', same⟩ := structTryNew_eq_ok made
                    obtain ⟨rfl, some_slot⟩ := become.eq_zero_of_anyEmptied each some_gone same
                    rcases Bool.and_eq_false_iff.mp unmasked with present | not_all
                    · cases nulls with
                      | none => cases present
                      | some valid =>
                          simp only [nullsFit, Option.all_some, decide_eq_true_eq] at fit fit'
                          omega
                    · have := become.eq_of_not_allEmptied each not_all same
                      omega
              obtain ⟨rejection, rejected⟩ := rejected
              simp [ContainerBecomes, bind, Except.bind, rejected, Except.mapError, refused,
                some_gone, unmasked]

end

/-! ## Fields -/

theorem leaf_of_asLargeBinary {t : DataType} {array : BufferedArray D t}
    {values : List (Option D)} (binary : asLargeBinary array = some values) :
    array.length = values.length ∧
      ∀ i, array.entry i = (values.getD i none).elim .null .datum := by
  cases array with
  | leaf childless entries =>
      cases t with
      | largeBinary =>
          obtain rfl := Option.some.inj binary
          exact ⟨rfl, fun i => rfl⟩
      | _ => cases binary
  | _ => cases binary

/-- A leaf that is read is its exact text. -/
theorem decimalArbText_keeps {field : Field} {array : BufferedArray D field.dataType}
    {text : BufferedArray D .utf8} (read : decimalArbText lib field array = .ok text) :
    Keeps (onDatum (lib.text field)) array text := by
  simp only [decimalArbText] at read
  cases binary : asLargeBinary array with
  | none => simp [binary] at read
  | some values =>
      simp only [binary] at read
      cases printed : lib.toStringArray field values with
      | error e => simp [printed] at read
      | ok texts =>
          simp only [printed] at read
          obtain rfl := Except.ok.inj read
          obtain rfl := lib.exact printed
          obtain ⟨length, entries⟩ := leaf_of_asLargeBinary binary
          refine ⟨(List.length_map _).trans length.symm, fun i bound => ?_⟩
          have at_slot : (values.map (Option.map (lib.text field))).getD i none =
              (values.getD i none).map (lib.text field) :=
            List.getD_map values none (Option.map (lib.text field))
          rw [entries i]
          refine (congrArg (fun slot => slot.elim Value.null Value.datum) at_slot).trans ?_
          cases values.getD i none <;> rfl

theorem leavesAsText_becomes {field : Field} {array : BufferedArray D field.dataType}
    {container : Except ArrowError (Σ t, BufferedArray D t)}
    (inside : fieldLeafOutside lib field = false)
    (readable : unreadableIn lib field array (unreadable lib array) = false)
    (within : nestsDecimalArb lib field.dataType = true →
      leafOutside lib field.dataType = false → unreadable lib array = false →
        ContainerBecomes lib array container) :
    ResultBecomes lib field array (leavesAsText lib field array container) := by
  cases field with
  | mk name t nullable metadata =>
      obtain ⟨here, there⟩ := Bool.or_eq_false_iff.mp readable
      cases marked : lib.isDecimalArbField (.mk name t nullable metadata) with
      | true =>
          cases read : decimalArbText lib (.mk name t nullable metadata) array with
          | error e => simp [marked, read, Except.isOk, Except.toBool] at here
          | ok text =>
              simp only [leavesAsText, marked, read, bind, Except.bind, pure, Except.pure, if_true]
              have unbuilt : isRebuilt lib (.mk name t nullable metadata) = false := by
                simp [isRebuilt, marked]
              have exact_text : fieldText lib (.mk name t nullable metadata) =
                  onDatum (lib.text (.mk name t nullable metadata)) := by
                funext v
                simp [fieldText, marked]
              refine ⟨by rw [unbuilt]; rfl, rfl, rfl, ?_⟩
              rw [unbuilt, exact_text]
              exact decimalArbText_keeps read
      | false =>
          cases nests : nestsDecimalArb lib t with
          | false =>
              have unbuilt : isRebuilt lib (.mk name t nullable metadata) = false := by
                simp [isRebuilt, nests]
              simp only [leavesAsText, marked, nests]
              refine ⟨by rw [unbuilt]; rfl, rfl, rfl, ?_⟩
              rw [unbuilt]
              refine Keeps.refl (fieldText_eq_id ?_)
              simp [holdsDecimalArb, marked, nests]
          | true =>
              have built : isRebuilt lib (.mk name t nullable metadata) = true := by
                simp [isRebuilt, marked, nests]
              have outside : leafOutside lib t = false := by
                simpa [fieldLeafOutside, marked] using inside
              have became := within nests outside (by simpa [built] using there)
              simp only [leavesAsText, marked, nests]
              cases container with
              | error e => exact Bool.and_eq_true_iff.mpr ⟨built, became⟩
              | ok rebuilt =>
                  obtain ⟨kept, becomes⟩ := became
                  have same_text : fieldText lib (.mk name t nullable metadata) =
                      typeText lib t := by
                    funext v
                    simp [fieldText, marked]
                  refine ⟨by rw [kept, Bool.and_false], rfl, rfl, ?_⟩
                  rw [built, Bool.true_and, same_text]
                  exact becomes

/-! ## Every container -/

mutual

/-- What a container becomes, by the containers in it. -/
theorem container_becomes (name : String) {t : DataType} : (array : BufferedArray D t) →
    array.WellFormed → nestsDecimalArb lib t = true → leafOutside lib t = false →
      unreadable lib array = false →
        ContainerBecomes lib array (containerAsText lib name array)
  | .leaf childless _, _, nests, inside, _ => by
    rw [leafOutside_of_childless nests childless] at inside
    cases inside
  | .struct _ columns _, formed, nests, inside, readable =>
    struct_becomes formed nests (columns_become columns formed.1 inside readable)
  | @BufferedArray.list _ c _ values _, formed, _, inside, readable =>
    list_becomes formed
      (leavesAsText_becomes inside readable (container_becomes c.name values formed.1))
  | @BufferedArray.largeList _ c _ values _, formed, _, inside, readable =>
    largeList_becomes formed
      (leavesAsText_becomes inside readable (container_becomes c.name values formed.1))
  | @BufferedArray.fixedSizeList _ c _ _ values _, formed, _, inside, readable =>
    fixedSizeList_becomes formed
      (leavesAsText_becomes inside readable (container_becomes c.name values formed.1))
  | @BufferedArray.map _ c _ _ entries _, formed, _, inside, readable =>
    map_becomes formed
      (leavesAsText_becomes inside readable (container_becomes c.name entries formed.1))

theorem columns_become {n : Nat} {fields : Fields} : (columns : BufferedColumns D fields) →
    columns.WellFormed n → anyLeafOutside lib fields = false → anyUnreadable lib columns = false →
      ColumnsResult lib columns (columnsAsText lib columns)
  | .nil, _, _, _ => ⟨rfl, .nil⟩
  | @BufferedColumns.cons _ c _ values columns, formed, inside, readable => by
    obtain ⟨inside_here, inside_there⟩ := Bool.or_eq_false_iff.mp inside
    obtain ⟨readable_here, readable_there⟩ := Bool.or_eq_false_iff.mp readable
    have first := leavesAsText_becomes inside_here readable_here
      (container_becomes c.name values formed.1)
    have later := columns_become columns formed.2.2 inside_there readable_there
    unfold columnsAsText
    cases head : leavesAsText lib c values (containerAsText lib c.name values) with
    | error e =>
        rw [head] at first
        exact Bool.or_eq_true_iff.mpr (.inl first)
    | ok rebuilt =>
        rw [head] at first
        cases tail : columnsAsText lib columns with
        | error e =>
            rw [tail] at later
            exact Bool.or_eq_true_iff.mpr (.inr later)
        | ok others =>
            rw [tail] at later
            exact ⟨Bool.or_eq_false_iff.mpr ⟨first.kept, later.1⟩, .cons first later.2⟩

end

end

end StreamlingPlugins.Utils
