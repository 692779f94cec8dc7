import StreamlingPlugins.S3.Partitioning

/-!
# Which batches are partitioned exactly

A path segment determines the texts that a row's partition columns show, where a
null shows the default partition's name, and a hidden one what the formatter makes of
it.  Groups hold the rows' indices modulo `2 ^ 32`.
-/

namespace StreamlingPlugins.S3

/-! ## Exact partitions -/

/-- Both cells are null, or both show the same text. -/
def Cell.Same : Cell → Cell → Prop
  | .value (.ok text), .value (.ok text') => text = text'
  | .value _, _ => False
  | _, .value _ => False
  | _, _ => True

/-- The text a cell is filed under. -/
def Cell.shown : Cell → Option String
  | .null => some hiveDefaultPartition
  | .hiddenNull rendered | .value rendered => rendered.toOption

section

variable {Row : Type} (cell : Row → Nat → Cell) (config : PartitionConfig)

/-- The rows agree on every partition column. -/
def Agree (row other : Row) : Prop :=
  ∀ column ∈ config.partitionColumns, (cell row column.2).Same (cell other column.2)

/-- The rows show the same texts: a null the default partition's name, and any other cell
what the formatter makes of it. -/
def ShownAlike (row other : Row) : Prop :=
  ∀ column ∈ config.partitionColumns, (cell row column.2).shown = (cell other column.2).shown

/-- The outputs hold the rows at these indices: each row once, in order, with the rows
it agrees with, under its own path segment. -/
structure Gathered (rows : List Row) (outputs : List (PartitionedOutput Row))
    (indices : List (List Nat)) : Prop where
  each : List.Forall₂ (fun output l => output.batch = takeRows rows l ∧ l.Pairwise (· < ·) ∧
    ∀ i ∈ l, ∀ row ∈ rows[i]?, buildPartitionKey cell config row = .ok output.pathSegment)
    outputs indices
  once : indices.flatten.Perm (List.range rows.length)
  together : ∀ i j row other, rows[i]? = some row → rows[j]? = some other →
    ((∃ l ∈ indices, i ∈ l ∧ j ∈ l) ↔ Agree cell config row other)

/-- The rows are partitioned exactly, and by the fast path as by the general one. -/
structure ExactPartition (rows : List Row) (outputs : List (PartitionedOutput Row)) : Prop where
  gathered : ∃ indices, Gathered cell config rows outputs indices
  fastPath : ∀ group, groupRows cell config rows = .ok [group] →
    outputs.map PartitionedOutput.batch = [takeRows rows group.2]

/-- Nulls show a text of their own, and no index that wraps takes another row. -/
structure Separable (rows : List Row) : Prop where
  nulls : ∀ row ∈ rows, ∀ other ∈ rows,
    ShownAlike cell config row other ↔ Agree cell config row other
  wraps : ∀ i < rows.length, rows[i % 2 ^ 32]? = rows[i]?

end

/-! ## Path segments -/

theorem notMem_urlencode {text : String} : 47 ∉ urlencode text := by
  intro mem
  rcases Percent.mem_encode mem with ⟨kept, _⟩ | percent | digit
  · cases kept
  · cases percent
  · cases digit

theorem urlencode_inj {text text' : String} : urlencode text = urlencode text' ↔ text = text' :=
  (Percent.encode_inj rfl).trans utf8_inj

/-- The default partition's name is its own encoding. -/
theorem urlencode_hiveDefaultPartition :
    urlencode hiveDefaultPartition = utf8 hiveDefaultPartition := by
  decide

theorem buildPart_ok {name : String} {c : Cell} {part : List UInt8}
    (built : buildPart name c = .ok part) :
    ∃ text, c.shown = some text ∧ part = utf8 name ++ 61 :: urlencode text := by
  rcases c with _ | (_ | text) | (_ | text)
  · cases built
    exact ⟨_, rfl, by rw [urlencode_hiveDefaultPartition]⟩
  · cases built
  · cases built
    exact ⟨text, rfl, rfl⟩
  · cases built
  · cases built
    exact ⟨text, rfl, rfl⟩

/-- The path segment that shows these texts. -/
def segmentOf (columns : List (String × Nat)) (texts : List String) : List UInt8 :=
  [47].intercalate
    (List.zipWith (fun column text => utf8 column.1 ++ 61 :: urlencode text) columns texts)

/-- A path segment determines its texts. -/
theorem segmentOf_inj {columns : List (String × Nat)} {texts texts' : List String}
    (length : columns.length = texts.length) (length' : columns.length = texts'.length)
    (same : segmentOf columns texts = segmentOf columns texts') : texts = texts' := by
  induction columns generalizing texts texts' with
  | nil =>
      rw [List.eq_nil_of_length_eq_zero length.symm, List.eq_nil_of_length_eq_zero length'.symm]
  | cons column columns ih =>
      obtain ⟨text, texts, rfl⟩ := List.exists_cons_of_length_eq_add_one length.symm
      obtain ⟨text', texts', rfl⟩ := List.exists_cons_of_length_eq_add_one length'.symm
      rw [List.length_cons, List.length_cons, Nat.add_right_cancel_iff] at length length'
      cases columns with
      | nil =>
          rw [List.eq_nil_of_length_eq_zero length.symm,
            List.eq_nil_of_length_eq_zero length'.symm] at same ⊢
          simp only [segmentOf, List.zipWith_cons_cons, List.zipWith_nil_left,
            List.intercalate_singleton, List.append_cancel_left_eq, List.cons.injEq,
            true_and] at same
          rw [urlencode_inj.mp same]
      | cons next columns =>
          have tail : ∀ t : List String, (next :: columns).length = t.length →
              ∀ text, segmentOf (column :: next :: columns) (text :: t) =
                utf8 column.1 ++ 61 :: (urlencode text ++ 47 :: segmentOf (next :: columns) t) := by
            intro t t_length text
            obtain ⟨second, t, rfl⟩ := List.exists_cons_of_length_eq_add_one t_length.symm
            simp [segmentOf, List.intercalate_cons_cons]
          rw [tail _ length, tail _ length'] at same
          obtain ⟨_, same⟩ := List.cons.inj (List.append_cancel_left same)
          obtain ⟨first, rest⟩ := append_cons_inj_of_notMem notMem_urlencode notMem_urlencode same
          rw [urlencode_inj.mp first, ih length length' rest]

section

variable {Row : Type} {cell : Row → Nat → Cell} {config : PartitionConfig}

theorem buildPartitionKey_ok {row : Row} {key : List UInt8}
    (built : buildPartitionKey cell config row = .ok key) :
    ∃ texts, List.Forall₂ (fun column text => (cell row column.2).shown = some text)
      config.partitionColumns texts ∧ key = segmentOf config.partitionColumns texts := by
  unfold buildPartitionKey at built
  split at built
  · rename_i parts parts_eq
    cases built
    have pairs := forall₂_of_mapM_eq_ok parts_eq
    unfold segmentOf
    clear parts_eq
    generalize config.partitionColumns = columns at pairs ⊢
    suffices found : ∃ texts, List.Forall₂ (fun column text =>
        (cell row column.2).shown = some text) columns texts ∧
        parts = List.zipWith (fun column text => utf8 column.1 ++ 61 :: urlencode text)
          columns texts by
      obtain ⟨texts, shown, rfl⟩ := found
      exact ⟨texts, shown, rfl⟩
    induction pairs with
    | nil => exact ⟨[], .nil, rfl⟩
    | cons part _ ih =>
        obtain ⟨texts, shown, rest⟩ := ih
        obtain ⟨text, first, part_eq⟩ := buildPart_ok part
        exact ⟨text :: texts, .cons first shown, by rw [part_eq, rest, List.zipWith_cons_cons]⟩
  · cases built

/-- Rows are filed together exactly if they show the same texts. -/
theorem buildPartitionKey_eq_iff {row other : Row} {key key' : List UInt8}
    (built : buildPartitionKey cell config row = .ok key)
    (built' : buildPartitionKey cell config other = .ok key') :
    key = key' ↔ ShownAlike cell config row other := by
  obtain ⟨texts, shown, rfl⟩ := buildPartitionKey_ok built
  obtain ⟨texts', shown', rfl⟩ := buildPartitionKey_ok built'
  have texts_iff : texts = texts' ↔ ShownAlike cell config row other := by
    unfold ShownAlike
    clear built built'
    generalize config.partitionColumns = columns at shown shown' ⊢
    induction shown generalizing texts' with
    | nil =>
        cases shown'
        simp
    | cons first _ ih =>
        cases shown' with
        | cons first' shown' =>
            rw [List.forall_mem_cons, ← ih _ shown', first, first', List.cons.injEq,
              Option.some_inj]
  rw [← texts_iff]
  exact ⟨segmentOf_inj shown.length_eq shown'.length_eq, fun same => by rw [same]⟩

/-! ## Groups -/

variable (cell config) in
/-- The path segment of a row that has one. -/
def keyOf (row : Row) : List UInt8 :=
  match buildPartitionKey cell config row with
  | .ok key => key
  | .error _ => []

variable (cell config) in
/-- The indices of the rows with a path segment. -/
def classOf (rows : List Row) (key : List UInt8) : List Nat :=
  (rows.zipIdx.filter fun row => keyOf cell config row.1 = key).map Prod.snd

theorem groupRows_ok {rows : List Row} {groups : List (List UInt8 × List Nat)}
    (grouped : groupRows cell config rows = .ok groups) :
    (∀ row ∈ rows, buildPartitionKey cell config row = .ok (keyOf cell config row)) ∧
      Grouped (rows.zipIdx.map fun row => (keyOf cell config row.1, row.2 % 2 ^ 32)) groups := by
  have run : ∀ (l : List (Row × Nat)) (items : List (List UInt8 × Nat))
      (acc : List (List UInt8 × List Nat)), Grouped items acc →
      l.foldlM (fun groups row =>
        match buildPartitionKey cell config row.1 with
        | .ok key => .ok (pushGroup key (row.2 % 2 ^ 32) groups)
        | .error e => .error e) acc = Except.ok groups →
      (∀ row ∈ l, buildPartitionKey cell config row.1 = .ok (keyOf cell config row.1)) ∧
        Grouped (items ++ l.map fun row => (keyOf cell config row.1, row.2 % 2 ^ 32)) groups := by
    intro l
    induction l with
    | nil =>
        rintro items acc so_far done
        cases done
        simpa using so_far
    | cons row l ih =>
        intro items acc so_far done
        rw [List.foldlM_cons] at done
        obtain ⟨acc', step, rest⟩ := bind_eq_ok done
        cases built : buildPartitionKey cell config row.1 with
        | error e =>
            rw [built] at step
            cases step
        | ok key =>
            rw [built] at step
            cases step
            have key_eq : keyOf cell config row.1 = key := by
              simp [keyOf, built]
            obtain ⟨keys, all⟩ := ih _ _ (so_far.push key (row.2 % 2 ^ 32)) rest
            refine ⟨List.forall_mem_cons.mpr ⟨by rw [built, key_eq], keys⟩, ?_⟩
            rw [List.map_cons, key_eq]
            simpa using all
  obtain ⟨keys, all⟩ := run rows.zipIdx [] [] .nil grouped
  refine ⟨fun row mem => ?_, by simpa using all⟩
  obtain ⟨i, _, at_i⟩ := List.getElem_of_mem mem
  exact keys (row, i) (List.mem_zipIdx_iff_getElem?.mpr (List.getElem?_eq_some_iff.mpr ⟨_, at_i⟩))

/-- A group holds the indices of its rows, as `u32`. -/
theorem valuesOf_eq (rows : List Row) (key : List UInt8) :
    valuesOf key (rows.zipIdx.map fun row => (keyOf cell config row.1, row.2 % 2 ^ 32)) =
      (classOf cell config rows key).map (· % 2 ^ 32) := by
  simp [valuesOf, classOf, List.filter_map, Function.comp_def]

theorem mem_classOf {rows : List Row} {key : List UInt8} {i : Nat} :
    i ∈ classOf cell config rows key ↔
      ∃ row, rows[i]? = some row ∧ keyOf cell config row = key := by
  simp only [classOf, List.mem_map, List.mem_filter, decide_eq_true_eq]
  constructor
  · rintro ⟨⟨row, j⟩, ⟨mem, key_eq⟩, rfl⟩
    exact ⟨row, List.mem_zipIdx_iff_getElem?.mp mem, key_eq⟩
  · rintro ⟨row, at_i, key_eq⟩
    exact ⟨(row, i), ⟨List.mem_zipIdx_iff_getElem?.mpr at_i, key_eq⟩, rfl⟩

theorem pairwise_classOf (rows : List Row) (key : List UInt8) :
    (classOf cell config rows key).Pairwise (· < ·) := by
  have kept : (classOf cell config rows key).Sublist (rows.zipIdx.map Prod.snd) :=
    List.filter_sublist.map _
  rw [List.zipIdx_map_snd] at kept
  exact .sublist kept List.pairwise_lt_range'

theorem lt_of_mem_classOf {rows : List Row} {key : List UInt8} :
    ∀ i ∈ classOf cell config rows key, i < rows.length := by
  intro i mem
  obtain ⟨row, at_i, _⟩ := mem_classOf.mp mem
  exact (List.getElem?_eq_some_iff.mp at_i).1

/-- Taking rows by wrapped indices is the same exactly where they hold the same rows. -/
theorem takeRows_wrapped_iff {rows : List Row} {l : List Nat} (bounds : ∀ i ∈ l, i < rows.length) :
    takeRows rows (l.map (· % 2 ^ 32)) = takeRows rows l ↔
      ∀ i ∈ l, rows[i % 2 ^ 32]? = rows[i]? := by
  induction l with
  | nil => simp [takeRows]
  | cons i l ih =>
      obtain ⟨bound, bounds⟩ := List.forall_mem_cons.mp bounds
      have wrapped : i % 2 ^ 32 < rows.length := (Nat.mod_le _ _).trans_lt bound
      rw [List.forall_mem_cons, ← ih bounds]
      simp only [takeRows, List.map_cons, List.filterMap_cons, List.getElem?_eq_getElem bound,
        List.getElem?_eq_getElem wrapped, List.cons.injEq, Option.some_inj]

theorem takeRows_range (rows : List Row) : takeRows rows (List.range rows.length) = rows := by
  induction rows with
  | nil => rfl
  | cons row rows ih =>
      unfold takeRows at ih ⊢
      rw [List.length_cons, List.range_succ_eq_map, List.filterMap_cons, List.filterMap_map]
      simpa [Function.comp_def] using ih

/-! ## What is put out -/

variable {order : IterationOrder (List UInt8 × List Nat)} {rows : List Row}
  {outputs : List (PartitionedOutput Row)}

/-- The outputs are those of the groups, or the batch itself for a single one. -/
theorem partitionBatch_ok (done : partitionBatch cell config order rows = .ok outputs) :
    ∃ groups, groupRows cell config rows = .ok groups ∧
      (outputs.map PartitionedOutput.pathSegment).Perm (groups.map Prod.fst) ∧
      ((∃ group, groups = [group] ∧ outputs = [⟨group.1, rows⟩]) ∨
        outputs = (order.arrange groups).map (takeGroup rows)) := by
  have arranged : ∀ groups : List (List UInt8 × List Nat),
      (((order.arrange groups).map (takeGroup rows)).map PartitionedOutput.pathSegment).Perm
        (groups.map Prod.fst) := by
    intro groups
    rw [List.map_map]
    exact (order.perm groups).map _
  unfold partitionBatch at done
  split at done
  · rename_i empty
    cases List.isEmpty_iff.mp empty
    cases done
    have none_left : order.arrange [] = [] := (order.perm []).eq_nil
    exact ⟨[], rfl, .nil, .inr (by rw [none_left]; rfl)⟩
  · split at done
    · cases done
    · rename_i segment indices grouped
      cases done
      exact ⟨_, grouped, .refl _, .inl ⟨_, rfl, rfl⟩⟩
    · rename_i groups _ grouped
      cases done
      exact ⟨groups, grouped, arranged groups, .inr rfl⟩

section

variable {groups : List (List UInt8 × List Nat)}
  (grouped : groupRows cell config rows = .ok groups)

include grouped

theorem group_eq {group : List UInt8 × List Nat} (mem : group ∈ groups) :
    group.2 = (classOf cell config rows group.1).map (· % 2 ^ 32) := by
  rw [(groupRows_ok grouped).2.values group mem, valuesOf_eq]

theorem keyOf_mem {i : Nat} {row : Row} (at_i : rows[i]? = some row) :
    keyOf cell config row ∈ groups.map Prod.fst :=
  ((groupRows_ok grouped).2.mem_keys _).mpr ⟨i % 2 ^ 32, List.mem_map.mpr
    ⟨(row, i), List.mem_zipIdx_iff_getElem?.mpr at_i, rfl⟩⟩

/-- A single group holds every row. -/
theorem classOf_single {group : List UInt8 × List Nat} (single : groups = [group]) :
    classOf cell config rows group.1 = List.range rows.length := by
  have all : ∀ row ∈ rows.zipIdx, keyOf cell config row.1 = group.1 := by
    rintro ⟨row, i⟩ mem
    have known := keyOf_mem grouped (List.mem_zipIdx_iff_getElem?.mp mem)
    simpa [single] using known
  unfold classOf
  rw [List.filter_eq_self.mpr (by simpa using all), List.zipIdx_map_snd, List.range_eq_range']

end

/-- A row's index, wrapped, is in the output of its path segment. -/
theorem exists_output_of_row (done : partitionBatch cell config order rows = .ok outputs) {i : Nat}
    {row other : Row} (at_i : rows[i]? = some row) (wrapped : rows[i % 2 ^ 32]? = some other) :
    ∃ output ∈ outputs, output.pathSegment = keyOf cell config row ∧ other ∈ output.batch := by
  obtain ⟨groups, grouped, _, ⟨group, single, rfl⟩ | rfl⟩ := partitionBatch_ok done
  · have known := keyOf_mem grouped at_i
    rw [single, List.map_singleton, List.mem_singleton] at known
    exact ⟨_, List.mem_singleton_self _, known.symm, List.mem_of_getElem? wrapped⟩
  · obtain ⟨group, in_groups, key_eq⟩ := List.mem_map.mp (keyOf_mem grouped at_i)
    refine ⟨_, List.mem_map_of_mem ((order.perm groups).mem_iff.mpr in_groups), key_eq, ?_⟩
    refine List.mem_filterMap.mpr ⟨i % 2 ^ 32, ?_, wrapped⟩
    rw [group_eq grouped in_groups]
    exact List.mem_map_of_mem (mem_classOf.mpr ⟨row, at_i, key_eq.symm⟩)

/-- What an output holds is a row with its path segment, or stands at such a row's index
after it wrapped. -/
theorem exists_row_of_mem_batch (done : partitionBatch cell config order rows = .ok outputs)
    {output : PartitionedOutput Row} (mem : output ∈ outputs) {other : Row}
    (held : other ∈ output.batch) :
    ∃ (i : Nat) (row : Row), rows[i]? = some row ∧ keyOf cell config row = output.pathSegment ∧
      (other = row ∨ rows[i % 2 ^ 32]? = some other) := by
  obtain ⟨groups, grouped, _, ⟨group, single, rfl⟩ | rfl⟩ := partitionBatch_ok done
  · rw [List.mem_singleton] at mem
    subst mem
    obtain ⟨i, at_i⟩ := List.mem_iff_getElem?.mp held
    have known := keyOf_mem grouped at_i
    rw [single, List.map_singleton, List.mem_singleton] at known
    exact ⟨i, other, at_i, known, .inl rfl⟩
  · obtain ⟨group, arranged, rfl⟩ := List.mem_map.mp mem
    obtain ⟨j, taken, at_j⟩ := List.mem_filterMap.mp held
    rw [group_eq grouped ((order.perm groups).mem_iff.mp arranged)] at taken
    obtain ⟨i, in_class, rfl⟩ := List.mem_map.mp taken
    obtain ⟨row, at_i, key_eq⟩ := mem_classOf.mp in_class
    exact ⟨i, row, at_i, key_eq, .inr at_j⟩

/-- Without wrapped indices each output holds the rows with its path segment. -/
theorem batch_eq (done : partitionBatch cell config order rows = .ok outputs)
    (wraps : ∀ i < rows.length, rows[i % 2 ^ 32]? = rows[i]?) :
    ∀ output ∈ outputs,
      output.batch = takeRows rows (classOf cell config rows output.pathSegment) := by
  obtain ⟨groups, grouped, _, ⟨group, single, rfl⟩ | rfl⟩ := partitionBatch_ok done
  · rintro output (_ | ⟨_, none⟩)
    · rw [classOf_single grouped single, takeRows_range]
    · cases none
  · intro output mem
    obtain ⟨group, in_groups, rfl⟩ := List.mem_map.mp mem
    unfold takeGroup
    rw [group_eq grouped ((order.perm groups).mem_iff.mp in_groups)]
    exact (takeRows_wrapped_iff lt_of_mem_classOf).mpr
      fun i in_class => wraps i (lt_of_mem_classOf i in_class)

theorem gathered_of_separable (done : partitionBatch cell config order rows = .ok outputs)
    (separable : Separable cell config rows) :
    Gathered cell config rows outputs
      (outputs.map fun output => classOf cell config rows output.pathSegment) := by
  obtain ⟨groups, grouped, segments, _⟩ := partitionBatch_ok done
  obtain ⟨keys, all⟩ := groupRows_ok grouped
  have built {i : Nat} {row : Row} (at_i : rows[i]? = some row) :
      buildPartitionKey cell config row = .ok (keyOf cell config row) :=
    keys row (List.mem_of_getElem? at_i)
  have nodup : (outputs.map PartitionedOutput.pathSegment).Nodup := segments.nodup_iff.mpr all.nodup
  have classes : outputs.map (fun output => classOf cell config rows output.pathSegment) =
      (outputs.map PartitionedOutput.pathSegment).map (classOf cell config rows) := by
    rw [List.map_map]
    rfl
  refine ⟨?_, ?_, ?_⟩
  · rw [List.forall₂_map_right_iff, List.forall₂_same]
    intro output mem
    refine ⟨batch_eq done separable.wraps output mem, pairwise_classOf rows _, ?_⟩
    intro i in_class row at_i
    obtain ⟨row', at_i', key_eq⟩ := mem_classOf.mp in_class
    cases at_i'.symm.trans at_i
    rw [built at_i, key_eq]
  · rw [classes]
    refine (List.perm_ext_iff_of_nodup ?_ List.nodup_range).mpr ?_
    · refine List.nodup_flatten.mpr ⟨?_, ?_⟩
      · intro l mem
        obtain ⟨key, _, rfl⟩ := List.mem_map.mp mem
        exact (pairwise_classOf rows key).imp Nat.ne_of_lt
      · rw [List.pairwise_map]
        refine nodup.imp ?_
        intro key key' apart i mem mem'
        obtain ⟨row, at_i, key_eq⟩ := mem_classOf.mp mem
        obtain ⟨row', at_i', key_eq'⟩ := mem_classOf.mp mem'
        cases at_i.symm.trans at_i'
        exact apart (key_eq.symm.trans key_eq')
    · intro i
      rw [List.mem_flatten, List.mem_range]
      constructor
      · rintro ⟨l, mem, in_l⟩
        obtain ⟨key, _, rfl⟩ := List.mem_map.mp mem
        exact lt_of_mem_classOf i in_l
      · intro bound
        have at_i := List.getElem?_eq_getElem bound
        have known := segments.mem_iff.mpr (keyOf_mem grouped at_i)
        exact ⟨_, List.mem_map_of_mem known, mem_classOf.mpr ⟨_, at_i, rfl⟩⟩
  · intro i j row other at_i at_j
    rw [classes]
    have same_iff := buildPartitionKey_eq_iff (built at_i) (built at_j)
    have nulls := separable.nulls row (List.mem_of_getElem? at_i) other (List.mem_of_getElem? at_j)
    constructor
    · rintro ⟨l, mem, in_l, in_l'⟩
      obtain ⟨key, _, rfl⟩ := List.mem_map.mp mem
      obtain ⟨row', at_i', key_eq⟩ := mem_classOf.mp in_l
      obtain ⟨other', at_j', key_eq'⟩ := mem_classOf.mp in_l'
      cases at_i'.symm.trans at_i
      cases at_j'.symm.trans at_j
      exact nulls.mp (same_iff.mp (key_eq.trans key_eq'.symm))
    · intro agree
      have known := segments.mem_iff.mpr (keyOf_mem grouped at_i)
      exact ⟨_, List.mem_map_of_mem known, mem_classOf.mpr ⟨row, at_i, rfl⟩,
        mem_classOf.mpr ⟨other, at_j, (same_iff.mpr (nulls.mpr agree)).symm⟩⟩

/-! ## What exactness needs -/

/-- With distinct path segments the indices of an output are those of its rows. -/
theorem Gathered.eq_classOf {indices : List (List Nat)}
    (gathered : Gathered cell config rows outputs indices)
    (nodup : (outputs.map PartitionedOutput.pathSegment).Nodup)
    (keys : ∀ row ∈ rows, buildPartitionKey cell config row = .ok (keyOf cell config row))
    {output : PartitionedOutput Row} {l : List Nat} (pair : (output, l) ∈ outputs.zip indices) :
    l = classOf cell config rows output.pathSegment := by
  obtain ⟨length, each⟩ := List.forall₂_iff_zip.mp gathered.each
  have nodup' : ((outputs.zip indices).map fun pair => pair.1.pathSegment).Nodup := by
    have firsts : (outputs.zip indices).map Prod.fst = outputs := List.map_fst_zip length.le
    rw [← firsts, List.map_map] at nodup
    exact nodup
  have sorted := (each pair).2.1
  have mem_iff : ∀ j, j ∈ l ↔ j ∈ classOf cell config rows output.pathSegment := by
    intro j
    constructor
    · intro in_l
      have bound : j < rows.length := List.mem_range.mp (gathered.once.mem_iff.mp
        (List.mem_flatten.mpr ⟨l, (List.of_mem_zip pair).2, in_l⟩))
      have at_j := List.getElem?_eq_getElem bound
      have key := (each pair).2.2 j in_l _ at_j
      rw [keys _ (List.mem_of_getElem? at_j)] at key
      exact mem_classOf.mpr ⟨_, at_j, Except.ok.inj key⟩
    · intro in_class
      obtain ⟨row, at_j, key_eq⟩ := mem_classOf.mp in_class
      obtain ⟨l', mem, in_l'⟩ := List.mem_flatten.mp (gathered.once.mem_iff.mpr
        (List.mem_range.mpr (lt_of_mem_classOf j in_class)))
      have seconds : (outputs.zip indices).map Prod.snd = indices := List.map_snd_zip length.ge
      rw [← seconds] at mem
      obtain ⟨⟨output', _⟩, pair', rfl⟩ := List.mem_map.mp mem
      have key := (each pair').2.2 j in_l' row at_j
      rw [keys row (List.mem_of_getElem? at_j), key_eq] at key
      cases List.inj_on_of_nodup_map nodup' pair' pair (Except.ok.inj key).symm
      exact in_l'
  have perm : l.Perm (classOf cell config rows output.pathSegment) :=
    (List.perm_ext_iff_of_nodup (sorted.imp Nat.ne_of_lt)
      ((pairwise_classOf rows _).imp Nat.ne_of_lt)).mpr mem_iff
  exact perm.eq_of_pairwise (fun a b _ _ less less' => absurd less (Nat.lt_asymm less')) sorted
    (pairwise_classOf rows _)

theorem separable_of_exact (done : partitionBatch cell config order rows = .ok outputs)
    (exact : ExactPartition cell config rows outputs) : Separable cell config rows := by
  obtain ⟨⟨indices, gathered⟩, fastPath⟩ := exact
  obtain ⟨groups, grouped, segments, shape⟩ := partitionBatch_ok done
  obtain ⟨keys, all⟩ := groupRows_ok grouped
  have nodup : (outputs.map PartitionedOutput.pathSegment).Nodup := segments.nodup_iff.mpr all.nodup
  obtain ⟨length, each⟩ := List.forall₂_iff_zip.mp gathered.each
  -- the output that holds a row
  have holds {i : Nat} {row : Row} (at_i : rows[i]? = some row) :
      ∃ output l, (output, l) ∈ outputs.zip indices ∧ output.pathSegment = keyOf cell config row ∧
        i ∈ l := by
    have known := segments.mem_iff.mpr (keyOf_mem grouped at_i)
    obtain ⟨output, mem, key_eq⟩ := List.mem_map.mp known
    have firsts : (outputs.zip indices).map Prod.fst = outputs := List.map_fst_zip length.le
    rw [← firsts] at mem
    obtain ⟨⟨output', l⟩, pair, same⟩ := List.mem_map.mp mem
    cases same
    refine ⟨output', l, pair, key_eq, ?_⟩
    rw [gathered.eq_classOf nodup keys pair, key_eq]
    exact mem_classOf.mpr ⟨row, at_i, rfl⟩
  constructor
  · intro row mem other mem'
    obtain ⟨i, at_i⟩ := List.mem_iff_getElem?.mp mem
    obtain ⟨j, at_j⟩ := List.mem_iff_getElem?.mp mem'
    rw [← buildPartitionKey_eq_iff (keys row mem) (keys other mem'),
      ← gathered.together i j row other at_i at_j]
    constructor
    · intro same
      obtain ⟨output, l, pair, key_eq, in_l⟩ := holds at_i
      refine ⟨l, (List.of_mem_zip pair).2, in_l, ?_⟩
      rw [gathered.eq_classOf nodup keys pair, key_eq]
      exact mem_classOf.mpr ⟨other, at_j, same.symm⟩
    · rintro ⟨l, listed, in_l, in_l'⟩
      have seconds : (outputs.zip indices).map Prod.snd = indices := List.map_snd_zip length.ge
      rw [← seconds] at listed
      obtain ⟨⟨output, _⟩, pair, rfl⟩ := List.mem_map.mp listed
      have key := (each pair).2.2 i in_l row at_i
      have key' := (each pair).2.2 j in_l' other at_j
      rw [keys row mem] at key
      rw [keys other mem'] at key'
      exact (Except.ok.inj key).trans (Except.ok.inj key').symm
  · intro i bound
    have at_i := List.getElem?_eq_getElem bound
    rcases shape with ⟨group, rfl, rfl⟩ | rfl
    · have fast := List.singleton_inj.mp (fastPath group grouped)
      have range := classOf_single grouped rfl
      rw [group_eq grouped List.mem_cons_self] at fast
      have taken : takeRows rows ((classOf cell config rows group.1).map (· % 2 ^ 32)) =
          takeRows rows (classOf cell config rows group.1) := by
        rw [← fast, range, takeRows_range]
      refine (takeRows_wrapped_iff lt_of_mem_classOf).mp taken i ?_
      rw [range]
      exact List.mem_range.mpr bound
    · obtain ⟨output, l, pair, key_eq, in_l⟩ := holds at_i
      obtain ⟨group, in_groups, rfl⟩ := List.mem_map.mp (List.of_mem_zip pair).1
      have taken := (each pair).1
      unfold takeGroup at taken
      rw [group_eq grouped ((order.perm groups).mem_iff.mp in_groups)] at taken
      rw [gathered.eq_classOf nodup keys pair] at taken in_l
      exact (takeRows_wrapped_iff lt_of_mem_classOf).mp taken i in_l

theorem fastPath_of_separable (done : partitionBatch cell config order rows = .ok outputs)
    (separable : Separable cell config rows) {group : List UInt8 × List Nat}
    (grouped : groupRows cell config rows = .ok [group]) :
    outputs.map PartitionedOutput.batch = [takeRows rows group.2] := by
  have batches := batch_eq done separable.wraps
  obtain ⟨groups, grouped', segments, _⟩ := partitionBatch_ok done
  cases grouped.symm.trans grouped'
  obtain ⟨output, rfl⟩ : ∃ output, outputs = [output] := by
    have length := segments.length_eq
    simp only [List.length_map, List.length_singleton] at length
    exact List.length_eq_one_iff.mp length
  have segment : output.pathSegment = group.1 := by
    simpa using segments
  have bounds : ∀ i ∈ classOf cell config rows group.1, i < rows.length := lt_of_mem_classOf
  have taken := (takeRows_wrapped_iff bounds).mpr
    fun i in_class => separable.wraps i (bounds i in_class)
  rw [List.map_singleton, batches output List.mem_cons_self, segment,
    group_eq grouped List.mem_cons_self, taken]

/-- A batch is partitioned exactly if its nulls are filed together, no text with them,
and no index wraps to another row, and only then. -/
theorem partitionBatch_exact_iff (done : partitionBatch cell config order rows = .ok outputs) :
    ExactPartition cell config rows outputs ↔ Separable cell config rows :=
  ⟨separable_of_exact done, fun separable => ⟨⟨_, gathered_of_separable done separable⟩,
    fun _ grouped => fastPath_of_separable done separable grouped⟩⟩

end

/-- Rows of one nullable text column. -/
def textCell (row : Option String) (_ : Nat) : Cell :=
  row.elim .null fun text => .value (.ok text)

def listed {α : Type} : IterationOrder α :=
  ⟨id, fun _ => .refl _⟩

theorem partitionBatch_apart :
    partitionBatch textCell ⟨["dt"], [0]⟩ listed [none, some "a"] =
      .ok [⟨utf8 "dt=__HIVE_DEFAULT_PARTITION__", [none]⟩, ⟨utf8 "dt=a", [some "a"]⟩] := by
  rfl

theorem partitionBatch_exact_iff_apart :
    ExactPartition textCell ⟨["dt"], [0]⟩ [none, some "a"]
        [⟨utf8 "dt=__HIVE_DEFAULT_PARTITION__", [none]⟩, ⟨utf8 "dt=a", [some "a"]⟩] ↔
      Separable textCell ⟨["dt"], [0]⟩ [none, some "a"] :=
  partitionBatch_exact_iff partitionBatch_apart

/-- A null shares the batch of the text `__HIVE_DEFAULT_PARTITION__`. -/
theorem not_exact_of_sentinel : ¬ ∀ (config : PartitionConfig) (rows : List (Option String))
    (outputs : List (PartitionedOutput (Option String))),
    partitionBatch textCell config listed rows = .ok outputs →
      ExactPartition textCell config rows outputs := by
  intro exact
  have together : partitionBatch textCell ⟨["dt"], [0]⟩ listed [none, some hiveDefaultPartition] =
      .ok [⟨utf8 "dt=__HIVE_DEFAULT_PARTITION__", [none, some hiveDefaultPartition]⟩] := by
    rfl
  have separable := separable_of_exact together (exact _ _ _ together)
  have agree := (separable.nulls none (by simp) (some hiveDefaultPartition) (by simp)).mp (by
    rintro column (_ | ⟨_, none⟩)
    · rfl
    · cases none)
  exact agree ("dt", 0) List.mem_cons_self

end StreamlingPlugins.S3
