import StreamlingPlugins.IcebergSink.AutoCreate
import StreamlingPlugins.IcebergSink.Convert

/-!
# Conversions keep what slots denote

`Keeps` says of two slots, of types of which one converts to the other, that they denote the
same data.  An accepted pair of types has a derivation of `Accepts`, and along it
`convertArray` keeps every slot.
-/

namespace StreamlingPlugins.IcebergSink

open Arrow

/-! ## The same data -/

/-- A leaf's datum: an instant, or something else. -/
inductive Datum (E : Type)
  | instant (nanos : Int)
  | other (x : E)
  deriving DecidableEq

/-- The same datum, but for the sub-microsecond digits of nanosecond timestamps. -/
def KeepsDatum {E : Type} (source target : DataType) (x y : Datum E) : Prop :=
  y = x ∨ ∃ tz tz' nanos, source = .timestamp .nanosecond tz ∧
    target = .timestamp .microsecond tz' ∧ x = .instant nanos ∧
    y = .instant (nanos.tdiv 1000 * 1000)

/-- The list types, with the field of their elements. -/
inductive ListOf : DataType → Field → Prop
  | list (c : Field) : ListOf (.list c) c
  | largeList (c : Field) : ListOf (.largeList c) c
  | fixedSizeList (c : Field) (size : Int) : ListOf (.fixedSizeList c size) c

mutual

/-- A slot of the first type and one of the second denote the same data. -/
inductive Keeps {E : Type} : DataType → DataType → Value (Datum E) → Value (Datum E) → Prop
  | same {t : DataType} {v : Value (Datum E)} : Keeps t t v v
  | null {source target : DataType} : Keeps source target .null .null
  | datum {source target : DataType} {x y : Datum E} :
    isLossless source target → KeepsDatum source target x y →
    Keeps source target (.datum x) (.datum y)
  | dictionary {key value target : DataType} {v w : Value (Datum E)} :
    Keeps value target v w → Keeps (.dictionary key value) target v w
  | list {source target : DataType} {c c' : Field} {vs ws : List (Value (Datum E))} :
    ListOf source c → ListOf target c' → AllKeep c.dataType c'.dataType vs ws →
    Keeps source target (.list vs) (.list ws)
  | struct {children targets : Fields} {vs ws : List (String × Value (Datum E))} :
    (∀ name ∈ children.names, name ∈ targets.names) → FieldsKeep children vs targets targets ws →
    Keeps (.struct children) (.struct targets) (.struct vs) (.struct ws)
  | map {name name' : String} {k v k' v' : Field} {nullable nullable' sorted sorted' : Bool}
    {metadata metadata' : BTreeMap String String} {vs ws : List (Value (Datum E))} :
    EntriesKeep k v k' v' vs ws →
    Keeps (.map (.mk name (.struct (.cons k (.cons v .nil))) nullable metadata) sorted)
      (.map (.mk name' (.struct (.cons k' (.cons v' .nil))) nullable' metadata') sorted')
      (.map vs) (.map ws)

/-- As many elements, each of them kept. -/
inductive AllKeep {E : Type} :
    DataType → DataType → List (Value (Datum E)) → List (Value (Datum E)) → Prop
  | nil {source target : DataType} : AllKeep source target [] []
  | cons {source target : DataType} {v w : Value (Datum E)} {vs ws : List (Value (Datum E))} :
    Keeps source target v w → AllKeep source target vs ws →
    AllKeep source target (v :: vs) (w :: ws)

/-- The target fields hold the values of the source fields of their names, or null where
there is none.  A name is that of the first field that has it, of the source and of the
target. -/
inductive FieldsKeep {E : Type} : Fields → List (String × Value (Datum E)) →
    Fields → Fields → List (String × Value (Datum E)) → Prop
  | nil {children targets : Fields} {vs : List (String × Value (Datum E))} :
    FieldsKeep children vs targets .nil []
  | found {children targets rest : Fields} {vs ws : List (String × Value (Datum E))}
    {f t : Field} {v w : Value (Datum E)} :
    children.find t.name = some f → vs.lookup t.name = some v →
    Keeps f.dataType t.dataType v w → FieldsKeep children vs targets rest ws →
    FieldsKeep children vs targets (.cons t rest) ((t.name, w) :: ws)
  | missing {children targets rest : Fields} {vs ws : List (String × Value (Datum E))}
    {t : Field} :
    children.find t.name = none → FieldsKeep children vs targets rest ws →
    FieldsKeep children vs targets (.cons t rest) ((t.name, .null) :: ws)
  | repeated {children targets rest : Fields} {vs ws : List (String × Value (Datum E))}
    {t : Field} {w : Value (Datum E)} :
    targets.find t.name ≠ some t → FieldsKeep children vs targets rest ws →
    FieldsKeep children vs targets (.cons t rest) ((t.name, w) :: ws)

/-- As many map entries, each of them with its key and its value kept. -/
inductive EntriesKeep {E : Type} : Field → Field → Field → Field →
    List (Value (Datum E)) → List (Value (Datum E)) → Prop
  | nil {k v k' v' : Field} : EntriesKeep k v k' v' [] []
  | null {k v k' v' : Field} {vs ws : List (Value (Datum E))} :
    EntriesKeep k v k' v' vs ws → EntriesKeep k v k' v' (.null :: vs) (.null :: ws)
  | entry {k v k' v' : Field} {a b a' b' : Value (Datum E)} {vs ws : List (Value (Datum E))} :
    Keeps k.dataType k'.dataType a a' → Keeps v.dataType v'.dataType b b' →
    EntriesKeep k v k' v' vs ws →
    EntriesKeep k v k' v' (.struct [(k.name, a), (v.name, b)] :: vs)
      (.struct [(k'.name, a'), (v'.name, b')] :: ws)

end

/-! ## What the checks accept -/

/-- The pairs of types that `checkConversion` accepts. -/
inductive Accepts : DataType → DataType → Prop
  | same (t : DataType) : Accepts t t
  | dictionary {key value target : DataType} :
    Accepts value target → Accepts (.dictionary key value) target
  | struct {children targets : Fields} :
    (∀ f ∈ children.toList, ∃ t, targets.find f.name = some t) →
    (∀ f t, f ∈ children.toList → targets.find f.name = some t → Accepts f.dataType t.dataType) →
    Accepts (.struct children) (.struct targets)
  | list {source target : DataType} {c c' : Field} :
    ListOf source c → target = .list c' ∨ target = .largeList c' →
    Accepts c.dataType c'.dataType → Accepts source target
  | map {name name' : String} {k v k' v' : Field} {nullable nullable' sorted sorted' : Bool}
    {metadata metadata' : BTreeMap String String} :
    Accepts k.dataType k'.dataType → Accepts v.dataType v'.dataType →
    Accepts (.map (.mk name (.struct (.cons k (.cons v .nil))) nullable metadata) sorted)
      (.map (.mk name' (.struct (.cons k' (.cons v' .nil))) nullable' metadata') sorted')
  | leaf {source target : DataType} : isLossless source target → Accepts source target

section

variable {deps : Dependencies}

theorem lossless_of_no_problem {source target : DataType} {message : String}
    (accepted : (if isLossless source target && deps.canCastTypes source target then []
      else [message]) = []) : isLossless source target := by
  split at accepted
  · rename_i ok
    exact (Bool.and_eq_true _ _ ▸ ok).1
  · cases accepted

/-- Maps of which one has other than two entry fields are refused. -/
theorem check_map_malformed {source target : Field} {sorted sorted' : Bool} {path : String}
    (same : DataType.map source sorted ≠ .map target sorted')
    (malformed : (∀ k v, source.dataType ≠ .struct (.cons k (.cons v .nil))) ∨
      ∀ k v, target.dataType ≠ .struct (.cons k (.cons v .nil))) :
    checkConversion deps path (.map source sorted) (.map target sorted') ≠ [] := by
  intro accepted
  unfold checkConversion at accepted
  rw [if_neg same] at accepted
  split at accepted
  case h_9 source_eq target_eq =>
    cases source_eq
    cases target_eq
    rcases malformed with other | other
    · exact other _ _ rfl
    · exact other _ _ rfl
  case h_10 => cases accepted
  case h_11 other => exact other _ _ _ _ rfl rfl
  all_goals cases ‹DataType.map _ _ = _›

mutual

theorem accepts_of_check {source target : DataType} {path : String}
    (accepted : checkConversion deps path source target = []) : Accepts source target := by
  by_cases same : source = target
  · subst same
    exact .same _
  · cases source with
    | dictionary key value =>
        simp only [checkConversion, same, if_false] at accepted
        exact .dictionary (accepts_of_check accepted)
    | list child | largeList child | fixedSizeList child size =>
        obtain ⟨name, c, nullable, metadata⟩ := child
        cases target with
        | list t =>
            simp only [checkConversion, same, if_false] at accepted
            exact .list (by constructor) (.inl rfl) (accepts_of_check accepted)
        | largeList t =>
            simp only [checkConversion, same, if_false] at accepted
            exact .list (by constructor) (.inr rfl) (accepts_of_check accepted)
        | _ =>
            simp only [checkConversion, same, if_false] at accepted
            exact .leaf (lossless_of_no_problem accepted)
    | struct children =>
        cases target with
        | struct targets =>
            simp only [checkConversion, same, if_false, List.append_eq_nil_iff] at accepted
            have found := children_of_check accepted.1
            refine .struct (fun f mem => ?_) fun f t mem at_name => ?_
            · obtain ⟨t, at_name, _⟩ := found f mem
              exact ⟨t, at_name⟩
            · obtain ⟨t', at_name', child_accepted⟩ := found f mem
              cases at_name.symm.trans at_name'
              exact child_accepted
        | _ =>
            simp only [checkConversion, same, if_false] at accepted
            exact .leaf (lossless_of_no_problem accepted)
    | map entries sorted =>
        obtain ⟨name, e, nullable, metadata⟩ := entries
        cases target with
        | map entries' sorted' =>
            have refused := fun malformed => check_map_malformed same (.inl malformed) accepted
            have refused' := fun malformed => check_map_malformed same (.inr malformed) accepted
            obtain ⟨name', e', nullable', metadata'⟩ := entries'
            cases e with
            | struct children =>
                rcases children with _ | ⟨⟨_, kd, _, _⟩, _ | ⟨⟨_, vd, _, _⟩, _ | ⟨_, _⟩⟩⟩
                · exact absurd nofun refused
                · exact absurd nofun refused
                · by_cases two : ∃ k v, e' = .struct (.cons k (.cons v .nil))
                  · obtain ⟨k, v, rfl⟩ := two
                    simp only [checkConversion, same, if_false, List.append_eq_nil_iff] at accepted
                    exact .map (accepts_of_check accepted.1) (accepts_of_check accepted.2)
                  · exact absurd (fun k v other => two ⟨k, v, other⟩) refused'
                · exact absurd nofun refused
            | _ => exact absurd nofun refused
        | _ =>
            simp only [checkConversion, same, if_false] at accepted
            exact .leaf (lossless_of_no_problem accepted)
    | _ =>
        rcases (checkConversion_leaf rfl).mp accepted with rfl | ⟨lossless, _⟩
        · exact .same _
        · exact .leaf lossless
termination_by structural source

theorem children_of_check {children targets : Fields} {path : String}
    (accepted : checkChildren deps path children targets = []) :
    ∀ f ∈ children.toList, ∃ t, targets.find f.name = some t ∧ Accepts f.dataType t.dataType := by
  cases children with
  | nil => simp
  | cons head tail =>
      obtain ⟨name, c, nullable, metadata⟩ := head
      rw [checkChildren, List.append_eq_nil_iff] at accepted
      obtain ⟨first, others⟩ := accepted
      refine List.forall_mem_cons.mpr ⟨?_, children_of_check others⟩
      split at first
      · rename_i t found
        exact ⟨t, found, accepts_of_check first⟩
      · cases first
termination_by structural children

end

end

/-! ## What arrow's cast keeps -/

/-- The pairs of leaf types that are cast, of which the first may be dictionary encoded. -/
inductive CastPair : DataType → DataType → Prop
  | same (t : DataType) : CastPair t t
  | lossless {source target : DataType} : isLossless source target → CastPair source target
  | dictionary {key value target : DataType} :
    CastPair value target → CastPair (.dictionary key value) target

/-- The strict cast keeps every slot or fails: of leaf types, of dictionaries that it
unpacks, and of lists whose container it changes. -/
structure ArrowLibrary.Faithful {E : Type} (lib : ArrowLibrary (Datum E)) : Prop where
  leaf : ∀ {source target : DataType} {n : Nat} {array : ArrowArray (Datum E) source n}
    {result : ArrowArray (Datum E) target n}, CastPair source target →
    lib.cast array target = .ok result → ∀ i, Keeps source target (array.entry i) (result.entry i)
  unpack : ∀ {key value : DataType} {n : Nat}
    {array : ArrowArray (Datum E) (.dictionary key value) n} {result : ArrowArray (Datum E) value n},
    lib.cast array value = .ok result → ∀ i, result.entry i = array.entry i
  container : ∀ {source target : DataType} {c : Field} {n : Nat}
    {array : ArrowArray (Datum E) source n} {result : ArrowArray (Datum E) target n},
    ListOf source c → target = .list c ∨ target = .largeList c →
    lib.cast array target = .ok result → ∀ i, result.entry i = array.entry i

/-- The types around whose children arrays are rebuilt. -/
inductive IsContainer : DataType → Prop
  | struct (children : Fields) : IsContainer (.struct children)
  | list (c : Field) : IsContainer (.list c)
  | largeList (c : Field) : IsContainer (.largeList c)
  | map (entries : Field) (sorted : Bool) : IsContainer (.map entries sorted)

theorem castPair_of_accepts {source target : DataType} (accepted : Accepts source target)
    (no_container : ¬ IsContainer target) : CastPair source target := by
  induction accepted with
  | same t => exact .same t
  | dictionary _ ih => exact .dictionary (ih no_container)
  | struct => exact absurd (.struct _) no_container
  | list _ is_list _ _ =>
      rcases is_list with rfl | rfl
      · exact absurd (.list _) no_container
      · exact absurd (.largeList _) no_container
  | map => exact absurd (.map _ _) no_container
  | leaf lossless => exact .lossless lossless

/-! ## Converting -/

section

variable {E : Type} {lib : ArrowLibrary (Datum E)} {n : Nat}

theorem tryNew_eq_ok {t : DataType} {array result : ArrowArray (Datum E) t n}
    (built : lib.tryNew array = .ok result) : result = array := by
  unfold ArrowLibrary.tryNew at built
  cases checked : lib.validate array with
  | error e =>
      rw [checked] at built
      cases built
  | ok =>
      rw [checked] at built
      cases built
      rfl

/-- Arrays of the first type are kept slot by slot. -/
def ConvertKeeps (lib : ArrowLibrary (Datum E)) (source target : DataType) : Prop :=
  ∀ {n : Nat} {array : ArrowArray (Datum E) source n} {result : ArrowArray (Datum E) target n},
    convertArray lib source target array = .ok result →
    ∀ i, Keeps source target (array.entry i) (result.entry i)

theorem convertArray_same {t : DataType} {array result : ArrowArray (Datum E) t n}
    (converted : convertArray lib t t array = .ok result) : result = array := by
  rw [convertArray, dif_pos rfl] at converted
  cases converted
  rfl

/-! ### Lists -/

/-- Two lists of kept elements, or two nulls. -/
def ListsKeep (source target : DataType) (v w : Value (Datum E)) : Prop :=
  (v = .null ∧ w = .null) ∨ ∃ vs ws, v = .list vs ∧ w = .list ws ∧ AllKeep source target vs ws

theorem ListsKeep.keeps {source target : DataType} {c c' : Field} {v w : Value (Datum E)}
    (lists : ListsKeep c.dataType c'.dataType v w) (list : ListOf source c)
    (list' : ListOf target c') : Keeps source target v w := by
  rcases lists with ⟨rfl, rfl⟩ | ⟨vs, ws, rfl, rfl, all⟩
  · exact .null
  · exact .list list list' all

theorem allKeep_map {source target : DataType} {m : Nat} {slots : List (Fin m)}
    {values : ArrowArray (Datum E) source m} {values' : ArrowArray (Datum E) target m}
    (keeps : ∀ j, Keeps source target (values.entry j) (values'.entry j)) :
    AllKeep source target (slots.map values.entry) (slots.map values'.entry) := by
  induction slots with
  | nil => exact .nil
  | cons j slots ih => exact .cons (keeps j) ih

/-- The same lists of slots, of values that are kept. -/
theorem listsKeep_of_values {source target : DataType} (parts : ListParts (Datum E) source n)
    {values : ArrowArray (Datum E) target parts.length}
    (keeps : ∀ j, Keeps source target (parts.values.entry j) (values.entry j)) (i : Fin n) :
    ListsKeep source target (if parts.valid i then .list (parts.lists i) else .null)
      (if parts.valid i then .list ((parts.offsets.slots i).map values.entry) else .null) := by
  split
  · exact .inr ⟨_, _, rfl, rfl, allKeep_map keeps⟩
  · exact .inl ⟨rfl, rfl⟩

theorem convertList_keeps {c c' : Field} (element : ConvertKeeps lib c.dataType c'.dataType)
    {array : ArrowArray (Datum E) (.list c) n} {result : ArrowArray (Datum E) (.list c') n}
    (converted : convertArray lib (.list c) (.list c') array = .ok result) (i : Fin n) :
    ListsKeep c.dataType c'.dataType (array.entry i) (result.entry i) := by
  by_cases same : c = c'
  · subst same
    rw [convertArray_same converted, array.entry_asList]
    exact listsKeep_of_values _ (fun _ => .same) i
  · rw [convertArray, dif_neg (by simpa using same)] at converted
    obtain ⟨values, values_eq, converted⟩ := bind_eq_ok converted
    rw [tryNew_eq_ok converted, array.entry_asList]
    exact listsKeep_of_values _ (element values_eq) i

theorem convertLargeList_keeps {c c' : Field} (element : ConvertKeeps lib c.dataType c'.dataType)
    {array : ArrowArray (Datum E) (.largeList c) n}
    {result : ArrowArray (Datum E) (.largeList c') n}
    (converted : convertArray lib (.largeList c) (.largeList c') array = .ok result) (i : Fin n) :
    ListsKeep c.dataType c'.dataType (array.entry i) (result.entry i) := by
  by_cases same : c = c'
  · subst same
    rw [convertArray_same converted, array.entry_asLargeList]
    exact listsKeep_of_values _ (fun _ => .same) i
  · rw [convertArray, dif_neg (by simpa using same)] at converted
    obtain ⟨values, values_eq, converted⟩ := bind_eq_ok converted
    rw [tryNew_eq_ok converted, array.entry_asLargeList]
    exact listsKeep_of_values _ (element values_eq) i

theorem convertLists_keeps (faithful : lib.Faithful) {source target : DataType} {c c' : Field}
    (list : ListOf source c) (target_eq : target = .list c' ∨ target = .largeList c')
    (element : ConvertKeeps lib c.dataType c'.dataType) : ConvertKeeps lib source target := by
  intro n array result converted i
  rcases target_eq with rfl | rfl
  · cases list with
    | list => exact (convertList_keeps element converted i).keeps (.list c) (.list c')
    | largeList =>
        rw [convertArray, dif_neg nofun] at converted
        obtain ⟨mid, cast_eq, converted⟩ := bind_eq_ok converted
        rw [← faithful.container (.largeList c) (.inl rfl) cast_eq]
        exact (convertList_keeps element converted i).keeps (.largeList c) (.list c')
    | fixedSizeList _ size =>
        rw [convertArray, dif_neg nofun] at converted
        obtain ⟨mid, cast_eq, converted⟩ := bind_eq_ok converted
        rw [← faithful.container (.fixedSizeList c size) (.inl rfl) cast_eq]
        exact (convertList_keeps element converted i).keeps (.fixedSizeList c size) (.list c')
  · cases list with
    | largeList =>
        exact (convertLargeList_keeps element converted i).keeps (.largeList c) (.largeList c')
    | list =>
        rw [convertArray, dif_neg nofun] at converted
        obtain ⟨mid, cast_eq, converted⟩ := bind_eq_ok converted
        rw [← faithful.container (.list c) (.inr rfl) cast_eq]
        exact (convertLargeList_keeps element converted i).keeps (.list c) (.largeList c')
    | fixedSizeList _ size =>
        rw [convertArray, dif_neg nofun] at converted
        obtain ⟨mid, cast_eq, converted⟩ := bind_eq_ok converted
        rw [← faithful.container (.fixedSizeList c size) (.inr rfl) cast_eq]
        exact (convertLargeList_keeps element converted i).keeps (.fixedSizeList c size)
          (.largeList c')

/-! ### Structs -/

/-- A column is found by name when a field is, and its slots by name in those of the struct. -/
theorem columnByName_spec {fields : Fields} (input : Columns (Datum E) fields n) (name : String) :
    match input.columnByName name with
    | none => fields.find name = none
    | some ⟨t, column⟩ => ∃ f ∈ fields.toList, fields.find name = some f ∧ t = f.dataType ∧
        ∀ i, (input.entries i).lookup name = some (column.entry i) := by
  cases fields with
  | nil =>
      cases input
      rfl
  | cons head tail =>
      obtain _ | ⟨column, columns⟩ := input
      have rest := columnByName_spec columns name
      by_cases named : head.name = name
      · simp only [Columns.columnByName, named, if_true]
        refine ⟨head, by simp, by simp [Fields.find, named], rfl, fun i => ?_⟩
        simp [Columns.entries, named]
      · have named' : (name == head.name) = false := by simpa using fun same => named same.symm
        simp only [Columns.columnByName, named, if_false]
        split at rest
        · simpa [Fields.find, named] using rest
        · obtain ⟨f, mem, found, t_eq, slots⟩ := rest
          refine ⟨f, List.mem_cons_of_mem _ mem, by simpa [Fields.find, named] using found, t_eq,
            fun i => ?_⟩
          simpa [Columns.entries, List.lookup, named'] using slots i
termination_by structural fields

theorem convertColumns_keeps {fields targets rest : Fields} {input : Columns (Datum E) fields n}
    {columns : Columns (Datum E) rest n}
    (children : ∀ f t, f ∈ fields.toList → targets.find t.name = some t →
      fields.find t.name = some f → ConvertKeeps lib f.dataType t.dataType)
    (converted : convertColumns lib input rest = .ok columns) (i : Fin n) :
    FieldsKeep fields (input.entries i) targets rest (columns.entries i) := by
  cases rest with
  | nil =>
      rw [convertColumns] at converted
      cases converted
      exact .nil
  | cons t rest =>
      rw [convertColumns] at converted
      have spec := columnByName_spec input t.name
      split at converted
      · rename_i source found_column found_eq
        rw [found_eq] at spec
        obtain ⟨f, mem, found, rfl, slots⟩ := spec
        obtain ⟨column, column_eq, converted⟩ := bind_eq_ok converted
        obtain ⟨others, others_eq, converted⟩ := bind_eq_ok converted
        cases converted
        have tail := convertColumns_keeps children others_eq i
        by_cases first : targets.find t.name = some t
        · exact .found found (slots i) (children f t mem first found column_eq i) tail
        · exact .repeated first tail
      · rename_i not_found
        rw [not_found] at spec
        obtain ⟨_, ⟨⟩, converted⟩ := bind_eq_ok converted
        obtain ⟨others, others_eq, converted⟩ := bind_eq_ok converted
        cases converted
        rw [Columns.entries, entry_newNullArray]
        exact .missing spec (convertColumns_keeps children others_eq i)
termination_by structural rest

theorem names_subset_of_found {children targets : Fields}
    (found : ∀ f ∈ children.toList, ∃ t, targets.find f.name = some t) :
    ∀ name ∈ children.names, name ∈ targets.names := by
  simp only [Fields.names, List.forall_mem_map]
  intro f mem
  obtain ⟨t, at_name⟩ := found f mem
  by_contra absent
  rw [Fields.find_eq_none_iff.mpr absent] at at_name
  cases at_name

theorem convertStruct_keeps {children targets : Fields}
    (found : ∀ f ∈ children.toList, ∃ t, targets.find f.name = some t)
    (each : ∀ f t, f ∈ children.toList → targets.find t.name = some t →
      children.find t.name = some f → ConvertKeeps lib f.dataType t.dataType) :
    ConvertKeeps lib (.struct children) (.struct targets) := by
  intro n array result converted i
  by_cases same : children = targets
  · subst same
    rw [convertArray_same converted]
    exact .same
  · rw [convertArray, dif_neg (by simpa using same)] at converted
    obtain ⟨columns, columns_eq, converted⟩ := bind_eq_ok converted
    rw [tryNew_eq_ok converted, array.entry_asStruct, ArrowArray.entry]
    split
    · exact .struct (names_subset_of_found found) (convertColumns_keeps each columns_eq i)
    · exact .null

/-! ### Maps -/

/-- The same slots of entries, of which keys and values are kept. -/
theorem entriesKeep_map {k v k' v' : Field} {m : Nat} {slots : List (Fin m)}
    (key : ConvertKeeps lib k.dataType k'.dataType)
    (value : ConvertKeeps lib v.dataType v'.dataType)
    {entries : ArrowArray (Datum E) (.struct (.cons k (.cons v .nil))) m}
    {columns : Columns (Datum E) (.cons k' (.cons v' .nil)) m}
    (converted : convertEntries lib entries.asStruct.1 (.cons k' (.cons v' .nil)) = .ok columns) :
    EntriesKeep k v k' v' (slots.map entries.entry)
      (slots.map (ArrowArray.struct columns entries.asStruct.2).entry) := by
  cases entries with
  | leaf plain => cases plain
  | struct input valid =>
      obtain _ | ⟨keys, values⟩ := input
      obtain _ | ⟨values, nothing⟩ := values
      cases nothing
      simp only [ArrowArray.asStruct, convertEntries] at converted ⊢
      obtain ⟨keys', keys_eq, converted⟩ := bind_eq_ok converted
      obtain ⟨rest, rest_eq, converted⟩ := bind_eq_ok converted
      obtain ⟨values', values_eq, rest_eq⟩ := bind_eq_ok rest_eq
      cases rest_eq
      cases converted
      induction slots with
      | nil => exact .nil
      | cons j slots ih =>
          rw [List.map_cons, List.map_cons, ArrowArray.entry, ArrowArray.entry]
          split
          · exact .entry (key keys_eq j) (value values_eq j) ih
          · exact .null ih

theorem convertMap_keeps {name name' : String} {k v k' v' : Field}
    {nullable nullable' sorted sorted' : Bool} {metadata metadata' : BTreeMap String String}
    (key : ConvertKeeps lib k.dataType k'.dataType)
    (value : ConvertKeeps lib v.dataType v'.dataType) :
    ConvertKeeps lib
      (.map (.mk name (.struct (.cons k (.cons v .nil))) nullable metadata) sorted)
      (.map (.mk name' (.struct (.cons k' (.cons v' .nil))) nullable' metadata') sorted') := by
  intro n array result converted i
  by_cases same : DataType.map (.mk name (.struct (.cons k (.cons v .nil))) nullable metadata)
      sorted = .map (.mk name' (.struct (.cons k' (.cons v' .nil))) nullable' metadata') sorted'
  · cases same
    rw [convertArray_same converted]
    exact .same
  · rw [convertArray, dif_neg same] at converted
    obtain ⟨columns, columns_eq, converted⟩ := bind_eq_ok converted
    obtain ⟨entries, entries_eq, converted⟩ := bind_eq_ok converted
    rw [tryNew_eq_ok converted, tryNew_eq_ok entries_eq, array.entry_asMap]
    change Keeps _ _ _ (if array.asMap.valid i then .map ((array.asMap.offsets.slots i).map
      (ArrowArray.struct columns array.asMap.values.asStruct.2).entry) else .null)
    split
    · exact .map (entriesKeep_map key value columns_eq)
    · exact .null

/-! ## Accepted conversions -/

theorem isPlain_of_lossless {source target : DataType} (lossless : isLossless source target) :
    source.isPlain := by
  cases source with
  | dictionary | struct | list | largeList | fixedSizeList | map =>
      cases target <;> cases lossless
  | _ => rfl

theorem convertArray_plain {source target : DataType} {array : ArrowArray (Datum E) source n}
    (plain : source.isPlain) (other : source ≠ target) :
    convertArray lib source target array = lib.cast array target := by
  rw [convertArray, dif_neg other]
  split <;> first
    | rfl
    | cases plain

theorem convertArray_dictionary {key value target : DataType}
    {array : ArrowArray (Datum E) (.dictionary key value) n}
    (other : .dictionary key value ≠ target) :
    convertArray lib (.dictionary key value) target array =
        (lib.cast array value >>= fun array => convertArray lib value target array) ∨
      (¬ IsContainer target ∧
        convertArray lib (.dictionary key value) target array = lib.cast array target) := by
  rw [convertArray, dif_neg other]
  cases target with
  | struct | list | largeList | map => exact .inl rfl
  | _ => exact .inr ⟨nofun, rfl⟩

theorem convertKeeps_of_accepts (faithful : lib.Faithful) {source target : DataType}
    (accepted : Accepts source target) : ConvertKeeps lib source target := by
  induction accepted with
  | same t =>
      intro n array result converted i
      rw [convertArray_same converted]
      exact .same
  | @dictionary key value target accepted ih =>
      intro n array result converted i
      by_cases same : .dictionary key value = target
      · subst same
        rw [convertArray_same converted]
        exact .same
      · rcases convertArray_dictionary same with steps | ⟨no_container, steps⟩
        · rw [steps] at converted
          obtain ⟨mid, cast_eq, converted⟩ := bind_eq_ok converted
          rw [← faithful.unpack cast_eq]
          exact .dictionary (ih converted i)
        · rw [steps] at converted
          exact faithful.leaf (castPair_of_accepts (.dictionary accepted) no_container) converted i
  | @struct children targets found accepted ih =>
      refine convertStruct_keeps found fun f t mem first at_name => ?_
      have named : f.name = t.name := by simpa using List.find?_some at_name
      intro n array result converted
      exact ih f t mem (named ▸ first) converted
  | list list target_eq _ ih => exact convertLists_keeps faithful list target_eq ih
  | map _ _ key value => exact convertMap_keeps key value
  | @leaf source target lossless =>
      intro n array result converted i
      by_cases same : source = target
      · subst same
        rw [convertArray_same converted]
        exact .same
      · rw [convertArray_plain (isPlain_of_lossless lossless) same] at converted
        exact faithful.leaf (.lossless lossless) converted i

/-- Null is kept as null, and nothing else becomes null. -/
theorem Keeps.null_iff : ∀ {source target : DataType} {v w : Value (Datum E)},
    Keeps source target v w → (v = .null ↔ w = .null)
  | _, _, _, _, .same | _, _, _, _, .null => Iff.rfl
  | _, _, _, _, .dictionary inner => inner.null_iff
  | _, _, _, _, .datum _ _ | _, _, _, _, .list _ _ _ | _, _, _, _, .struct _ _
  | _, _, _, _, .map _ => by simp

/-- A conversion that the check accepts keeps what every slot denotes. -/
theorem convertArray_keeps {deps : Dependencies} {path : String} (faithful : lib.Faithful)
    {source target : DataType} (accepted : checkConversion deps path source target = [])
    {array : ArrowArray (Datum E) source n} {result : ArrowArray (Datum E) target n}
    (converted : convertArray lib source target array = .ok result) (i : Fin n) :
    Keeps source target (array.entry i) (result.entry i) ∧
      (array.entry i = .null ↔ result.entry i = .null) := by
  have keeps := convertKeeps_of_accepts faithful (accepts_of_check accepted) converted i
  exact ⟨keeps, keeps.null_iff⟩

end

/-! ## Leaf arrays -/

section

variable {E : Type}

/-- Casts leaf arrays by keeping their data, and nothing else. -/
def leafCast {source : DataType} {n : Nat} (array : ArrowArray (Datum E) source n)
    (target : DataType) : Except ArrowError (ArrowArray (Datum E) target n) :=
  if same : source = target then .ok (same ▸ array)
  else
    match array with
    | .leaf _ entries =>
      if plain : target.isPlain then .ok (.leaf plain entries)
      else .error (.castError "not a leaf type")
    | _ => .error (.castError "not a leaf type")

/-- A cast that fails on everything but leaf types, and constructors that accept all. -/
def leafLibrary : ArrowLibrary (Datum E) where
  cast := leafCast
  validate := fun _ => .ok ()

theorem leafCast_eq_ok {source target : DataType} {n : Nat}
    {array : ArrowArray (Datum E) source n} {result : ArrowArray (Datum E) target n}
    (cast_eq : leafCast array target = .ok result) :
    (source = target ∨ source.isPlain) ∧ ∀ i, result.entry i = array.entry i := by
  unfold leafCast at cast_eq
  split at cast_eq
  · rename_i same
    subst same
    cases cast_eq
    exact ⟨.inl rfl, fun _ => rfl⟩
  · split at cast_eq
    · rename_i plain entries
      split at cast_eq
      · cases cast_eq
        exact ⟨.inr plain, fun _ => rfl⟩
      · cases cast_eq
    · cases cast_eq

theorem leafLibrary_faithful : (leafLibrary : ArrowLibrary (Datum E)).Faithful where
  leaf := by
    intro source target n array result pair cast_eq i
    obtain ⟨of_source, kept⟩ := leafCast_eq_ok cast_eq
    rw [kept]
    rcases of_source with rfl | plain
    · exact .same
    · cases pair with
      | same => exact .same
      | dictionary => cases plain
      | lossless lossless =>
          cases array with
          | leaf _ entries =>
              rw [ArrowArray.entry]
              cases entries i with
              | none => exact .null
              | some x => exact .datum lossless (.inl rfl)
          | _ => cases plain
  unpack := fun cast_eq => (leafCast_eq_ok cast_eq).2
  container := fun _ _ cast_eq => (leafCast_eq_ok cast_eq).2

end

/-! ## Structs of integers -/

def int32Array {n : Nat} (values : Fin n → Option Int) : ArrowArray (Datum Int) .int32 n :=
  .leaf (by decide) fun i => (values i).map .other

def int64Array {n : Nat} (values : Fin n → Option Int) : ArrowArray (Datum Int) .int64 n :=
  .leaf (by decide) fun i => (values i).map .other

theorem convert_int32Array {n : Nat} (values : Fin n → Option Int) :
    convertArray leafLibrary .int32 .int64 (int32Array values) = .ok (int64Array values) := by
  rw [convertArray_plain (by decide) (by decide)]
  rfl

/-- A struct of one integer field, made of a struct that has a field of its name. -/
theorem convert_to_integer {name : String} {fields : Fields} {n : Nat}
    {columns : Columns (Datum Int) fields n} {valid : Fin n → Bool} {values : Fin n → Option Int}
    (other : fields ≠ .cons (.new name .int64 true) .nil)
    (column : columns.columnByName name = some ⟨.int32, int32Array values⟩) :
    convertArray leafLibrary (.struct fields) (.struct (.cons (.new name .int64 true) .nil))
        (.struct columns valid) = .ok (.struct (.cons (int64Array values) .nil) valid) := by
  rw [convertArray, dif_neg (by simpa using other)]
  change (convertColumns leafLibrary columns _ >>= _) = _
  rw [convertColumns, show (Field.new name .int64 true).name = name from rfl, column]
  change ((convertArray leafLibrary .int32 .int64 (int32Array values) >>= _) >>= _) = _
  rw [convert_int32Array, convertColumns]
  rfl

/-- A field of a wider type. -/
theorem convertArray_keeps_widened :
    let array : ArrowArray (Datum Int) (.struct (.cons (.new "a" .int32 true) .nil)) 2 :=
      .struct (.cons (int32Array ![some 7, none]) .nil) ![true, false]
    let result : ArrowArray (Datum Int) (.struct (.cons (.new "a" .int64 true) .nil)) 2 :=
      .struct (.cons (int64Array ![some 7, none]) .nil) ![true, false]
    ∀ i, Keeps (.struct (.cons (.new "a" .int32 true) .nil))
        (.struct (.cons (.new "a" .int64 true) .nil)) (array.entry i) (result.entry i) ∧
      (array.entry i = .null ↔ result.entry i = .null) :=
  convertArray_keeps leafLibrary_faithful
    (by rfl : checkConversion typeTable "s" (.struct (.cons (.new "a" .int32 true) .nil))
      (.struct (.cons (.new "a" .int64 true) .nil)) = [])
    (convert_to_integer (by decide) rfl)

/-- Of two fields of one name only the first is kept: the other ones can differ in arrays
that an accepted conversion makes the same. -/
theorem not_lossless_repeated_name :
    let target : DataType := .struct (.cons (.new "a" .int64 true) .nil)
    let source : DataType :=
      .struct (.cons (.new "a" .int32 true) (.cons (.new "a" .int32 true) .nil))
    let array (second : Int) : ArrowArray (Datum Int) source 1 :=
      .struct (.cons (int32Array ![some 1]) (.cons (int32Array ![some second]) .nil)) ![true]
    checkConversion typeTable "s" source target = [] ∧
      (array 2).entry 0 ≠ (array 3).entry 0 ∧
      ∃ result, convertArray leafLibrary source target (array 2) = .ok result ∧
        convertArray leafLibrary source target (array 3) = .ok result := by
  refine ⟨rfl, fun same => ?_, _, convert_to_integer (by decide) rfl,
    convert_to_integer (by decide) rfl⟩
  simp [ArrowArray.entry, Columns.entries, int32Array] at same

end StreamlingPlugins.IcebergSink
