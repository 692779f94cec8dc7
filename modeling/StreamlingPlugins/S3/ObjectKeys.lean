import StreamlingPlugins.Hex
import StreamlingPlugins.S3.PartitionExactness

/-!
# Object keys

The key of an uploaded object, the object store's path made of it, and a reader of
Hive-style partition values.
-/

namespace StreamlingPlugins.S3

/-! ## Keys and paths -/

/-- The hyphenated text of a UUID. -/
def uuidText (uuid : BitVec 128) : String :=
  let digits := Hex.digits 32 uuid.toNat
  String.ofList (['-'].intercalate [digits.take 8, (digits.drop 8).take 4, (digits.drop 12).take 4,
    (digits.drop 16).take 4, digits.drop 20])

/-- The `prefix` option, without trailing slashes. -/
def initPrefix (option : Option String) : Option String :=
  option.map fun p => String.ofList (trimEndMatches (· = '/') p.toList)

def buildKey (keyPrefix : Option String) (partitionSegment : Option (List UInt8))
    (uuid : BitVec 128) : List UInt8 :=
  let filename := utf8 ("batch_" ++ uuidText uuid ++ ".parquet")
  match keyPrefix, partitionSegment with
  | some p, some segment => utf8 p ++ 47 :: (segment ++ 47 :: filename)
  | some p, none => utf8 p ++ 47 :: filename
  | none, some segment => segment ++ 47 :: filename
  | none, none => filename

/-- What `percent_encode` keeps: ASCII outside the set. -/
def pathKept (invalid : UInt8 → Bool) (b : UInt8) : Bool :=
  b < 128 && ! invalid b

/-- The object store's `PathPart::from`: a relative segment or an encoded one. -/
def pathPart (invalid : UInt8 → Bool) (segment : List UInt8) : List UInt8 :=
  if segment = utf8 "." then utf8 "%2E"
  else if segment = utf8 ".." then utf8 "%2E%2E"
  else Percent.encode (pathKept invalid) segment

/-- The object store's `Path::from`, with the characters that `invalid` holds escaped. -/
def pathFrom (invalid : UInt8 → Bool) (key : List UInt8) : List UInt8 :=
  [47].intercalate (((key.splitOn 47).map (pathPart invalid)).filter (· ≠ []))

/-! ## Hive-style readers -/

/-- A segment's column name and value, split at the first `=` and decoded once. -/
def readSegment (segment : List UInt8) : List UInt8 × List UInt8 :=
  (Percent.decode (segment.takeWhile (· ≠ 61)),
    Percent.decode ((segment.dropWhile (· ≠ 61)).drop 1))

/-- The partition columns of a key: the segments before the file name. -/
def readPartitions (columns : Nat) (key : List UInt8) : List (List UInt8 × List UInt8) :=
  let directories := (key.splitOn 47).dropLast
  (directories.drop (directories.length - columns)).map readSegment

/-! ## Column names -/

/-- Column names hold no ASCII characters other than letters, digits and underscores. -/
def PartitionConfig.Plain (config : PartitionConfig) : Prop :=
  ∀ name ∈ config.columns, ∀ c ∈ name.toList, c.toNat < 128 → c.isAlphanum ∨ c = '_'

theorem PartitionConfig.plain_of_parse {other : Char → Bool} {debug : List String → String}
    {partitionColumns : Option String} {fields : List String} {config : PartitionConfig}
    (parsed : PartitionConfig.parse other debug partitionColumns fields = .ok (some config)) :
    config.Plain := by
  unfold parse at parsed
  split at parsed
  · cases parsed
  · simp only at parsed
    split at parsed
    · cases parsed
    · split at parsed
      · cases parsed
      · split at parsed
        · cases parsed
        · rename_i valid
          split at parsed
          · cases parsed
          · cases parsed
            intro name mem c in_name ascii
            have all := List.find?_eq_none.mp valid name mem
            simp only [decide_not, Bool.not_eq_true, Bool.not_eq_false', decide_eq_true_eq,
              List.all_eq_true, Bool.or_eq_true] at all
            have kept := all c in_name
            unfold isAlphanumeric at kept
            rwa [if_pos ascii] at kept

/-- A separator is no byte of a plain name. -/
theorem PartitionConfig.Plain.notMem {config : PartitionConfig} (plain : config.Plain)
    {name : String} (mem : name ∈ config.columns) {b : UInt8} (ascii : b.toNat < 128)
    (separator : (Char.ofNat b.toNat).isAlphanum = false ∧ Char.ofNat b.toNat ≠ '_') :
    b ∉ utf8 name := by
  intro in_name
  obtain ⟨c, in_string, same⟩ := mem_of_mem_utf8 in_name ascii
  have c_eq : c = Char.ofNat b.toNat := by
    rw [← same, Char.ofNat_toNat]
  rcases plain name mem c in_string (same ▸ ascii) with letter | underscore
  · rw [c_eq, separator.1] at letter
    cases letter
  · exact separator.2 (c_eq.symm.trans underscore)

/-! ## Paths of keys -/

theorem notMem_uuidText (uuid : BitVec 128) : '/' ∉ (uuidText uuid).toList := by
  have letters : ∀ c ∈ Hex.digits 32 uuid.toNat, c ≠ '/' := by
    rintro c mem rfl
    have letter := Hex.isAlphanum_of_mem_digits mem
    cases letter
  intro mem
  simp only [uuidText, String.toList_ofList, List.intercalate_cons_cons,
    List.intercalate_singleton, List.mem_append, List.mem_singleton] at mem
  have taken {n m : Nat} : '/' ∉ ((Hex.digits 32 uuid.toNat).drop n).take m :=
    fun mem => letters _ (List.mem_of_mem_drop (List.mem_of_mem_take mem)) rfl
  have started : '/' ∉ (Hex.digits 32 uuid.toNat).take 8 :=
    fun mem => letters _ (List.mem_of_mem_take mem) rfl
  have ended : '/' ∉ (Hex.digits 32 uuid.toNat).drop 20 :=
    fun mem => letters _ (List.mem_of_mem_drop mem) rfl
  simp [taken, started, ended] at mem

/-- A file name is one segment. -/
theorem notMem_filename (uuid : BitVec 128) :
    47 ∉ utf8 ("batch_" ++ uuidText uuid ++ ".parquet") := by
  intro mem
  obtain ⟨c, in_string, same⟩ := mem_of_mem_utf8 mem (by decide)
  have c_eq : c = '/' := by
    rw [← Char.ofNat_toNat c, same]
    rfl
  subst c_eq
  simp only [String.toList_append, List.mem_append] at in_string
  rcases in_string with (front | uuid_part) | back
  · revert front
    decide
  · exact notMem_uuidText uuid uuid_part
  · revert back
    decide

section

variable {invalid : UInt8 → Bool}

theorem notMem_pathPart {segment : List UInt8} (free : 47 ∉ segment) :
    47 ∉ pathPart invalid segment := by
  unfold pathPart
  split_ifs
  · decide
  · decide
  · intro mem
    rcases Percent.mem_encode mem with ⟨_, in_segment⟩ | percent | digit
    · exact free in_segment
    · cases percent
    · cases digit

theorem pathPart_ne_nil {segment : List UInt8} (filled : segment ≠ []) :
    pathPart invalid segment ≠ [] := by
  unfold pathPart
  split_ifs
  · decide
  · decide
  · have longer : segment.length ≤ (Percent.encode (pathKept invalid) segment).length :=
      Percent.length_le_encode segment
    have pos := List.length_pos_iff.mpr filled
    exact List.length_pos_iff.mp (by omega)

theorem notMem_of_mem_splitOn {sep : UInt8} {bytes part : List UInt8}
    (mem : part ∈ bytes.splitOn sep) : sep ∉ part := by
  induction bytes generalizing part with
  | nil =>
      rw [List.splitOn_nil, List.mem_singleton] at mem
      simp [mem]
  | cons b bytes ih =>
      rw [List.splitOn_cons_eq_if_modifyHead] at mem
      split at mem
      · rcases List.mem_cons.mp mem with rfl | later
        · simp
        · exact ih later
      · rename_i other
        cases parts : bytes.splitOn sep with
        | nil => exact absurd parts (List.splitOn_ne_nil sep bytes)
        | cons first rest =>
            rw [parts] at mem ih
            rcases List.mem_cons.mp mem with rfl | later
            · have before := ih List.mem_cons_self
              simp only [beq_iff_eq] at other
              simp [before, Ne.symm other]
            · exact ih (List.mem_cons_of_mem _ later)

/-- The segments of a path are the key's, encoded, without the empty ones. -/
theorem splitOn_pathFrom {key : List UInt8}
    (filled : ((key.splitOn 47).map (pathPart invalid)).filter (· ≠ []) ≠ []) :
    (pathFrom invalid key).splitOn 47 =
      ((key.splitOn 47).map (pathPart invalid)).filter (· ≠ []) := by
  refine List.splitOn_intercalate 47 ?_ filled
  intro part mem
  obtain ⟨segment, in_key, rfl⟩ := List.mem_map.mp (List.mem_of_mem_filter mem)
  exact notMem_pathPart (notMem_of_mem_splitOn in_key)

/-- A partition segment reads as its name and its value, decoded once. -/
theorem readSegment_pathPart (percent : invalid 37 = true) (equals : invalid 61 = false)
    {name value : List UInt8} (free : 61 ∉ name) :
    readSegment (pathPart invalid (name ++ 61 :: value)) = (name, value) := by
  have has_equals : 61 ∈ name ++ 61 :: value := by simp
  have no_dot : name ++ 61 :: value ≠ utf8 "." := by
    intro same
    rw [same] at has_equals
    revert has_equals
    decide
  have no_dots : name ++ 61 :: value ≠ utf8 ".." := by
    intro same
    rw [same] at has_equals
    revert has_equals
    decide
  have escaped : pathKept invalid 37 = false := by
    simp [pathKept, percent]
  have encoded_free : ∀ b ∈ Percent.encode (pathKept invalid) name, b ≠ 61 := by
    rintro b mem rfl
    rcases Percent.mem_encode mem with ⟨_, in_name⟩ | percent | digit
    · exact free in_name
    · cases percent
    · cases digit
  have encoded : pathPart invalid (name ++ 61 :: value) =
      Percent.encode (pathKept invalid) name ++
        61 :: Percent.encode (pathKept invalid) value := by
    unfold pathPart
    rw [if_neg no_dot, if_neg no_dots, Percent.encode_append, Percent.encode_cons]
    simp [pathKept, equals]
  unfold readSegment
  rw [encoded, List.takeWhile_append_of_pos (by simpa using encoded_free),
    List.dropWhile_append_of_pos (by simpa using encoded_free)]
  simp [Percent.decode_encode escaped]

/-- The path of an object's key reads as the names and encoded texts of its segment. -/
theorem readPartitions_key (percent : invalid 37 = true) (equals : invalid 61 = false)
    {columns : List (String × Nat)} {texts : List String} (length : columns.length = texts.length)
    (names : ∀ column ∈ columns, 47 ∉ utf8 column.1 ∧ 61 ∉ utf8 column.1)
    (keyPrefix : Option String) (uuid : BitVec 128) :
    readPartitions columns.length
        (pathFrom invalid (buildKey keyPrefix (some (segmentOf columns texts)) uuid)) =
      List.zipWith (fun column text => (utf8 column.1, urlencode text)) columns texts := by
  obtain ⟨file, file_eq⟩ : ∃ file, utf8 ("batch_" ++ uuidText uuid ++ ".parquet") = file := ⟨_, rfl⟩
  have file_free : 47 ∉ file := file_eq ▸ notMem_filename uuid
  have file_filled : file ≠ [] := by
    rw [← file_eq, utf8_append, utf8_append]
    simp [show utf8 "batch_" = [98, 97, 116, 99, 104, 95] from by decide]
  obtain ⟨parts, parts_eq⟩ : ∃ parts, List.zipWith
      (fun column text => utf8 column.1 ++ 61 :: urlencode text) columns texts = parts := ⟨_, rfl⟩
  have parts_free : ∀ part ∈ parts, 47 ∉ part ∧ part ≠ [] := by
    intro part mem
    rw [← parts_eq, ← List.map_uncurry_zip_eq_zipWith] at mem
    obtain ⟨⟨column, text⟩, pair, rfl⟩ := List.mem_map.mp mem
    have name_free := (names column (List.of_mem_zip pair).1).1
    refine ⟨?_, by simp⟩
    simp [name_free, notMem_urlencode]
  obtain ⟨lead, key_eq⟩ : ∃ lead,
      (buildKey keyPrefix (some (segmentOf columns texts)) uuid).splitOn 47 =
        lead ++ ((segmentOf columns texts).splitOn 47 ++ [file]) := by
    unfold buildKey
    simp only [file_eq]
    cases keyPrefix with
    | none =>
        exact ⟨[], by rw [List.splitOn_append_cons_self, List.splitOn_eq_singleton file_free]; rfl⟩
    | some p =>
        exact ⟨(utf8 p).splitOn 47, by rw [List.splitOn_append_cons_self,
          List.splitOn_append_cons_self, List.splitOn_eq_singleton file_free]⟩
  have parts_kept :
      (((segmentOf columns texts).splitOn 47).map (pathPart invalid)).filter (· ≠ []) =
        parts.map (pathPart invalid) := by
    unfold segmentOf
    rw [parts_eq]
    rcases List.eq_nil_or_concat parts with rfl | ⟨_, _, rfl⟩
    · have dropped : pathPart invalid [] = [] := by
        unfold pathPart
        rw [if_neg (by decide), if_neg (by decide)]
        rfl
      simp [dropped]
    · rw [List.splitOn_intercalate 47 (fun part mem => (parts_free part mem).1) (by simp)]
      refine List.filter_eq_self.mpr fun encoded mem => ?_
      obtain ⟨part, in_parts, rfl⟩ := List.mem_map.mp mem
      simpa using pathPart_ne_nil (parts_free part in_parts).2
  have kept : (((buildKey keyPrefix (some (segmentOf columns texts)) uuid).splitOn 47).map
      (pathPart invalid)).filter (· ≠ []) =
        (lead.map (pathPart invalid)).filter (· ≠ []) ++ parts.map (pathPart invalid) ++
          [pathPart invalid file] := by
    rw [key_eq, List.map_append, List.map_append, List.filter_append, List.filter_append,
      parts_kept]
    simp [pathPart_ne_nil file_filled]
  have parts_length : columns.length = parts.length := by
    rw [← parts_eq, List.length_zipWith, ← length, Nat.min_self]
  unfold readPartitions
  rw [splitOn_pathFrom (by rw [kept]; simp), kept, List.dropLast_concat]
  simp only [List.length_append, List.length_map, parts_length, Nat.add_sub_cancel]
  rw [List.drop_left, List.map_map, ← parts_eq, List.map_zipWith, ← List.map_uncurry_zip_eq_zipWith,
    ← List.map_uncurry_zip_eq_zipWith]
  refine List.map_congr_left ?_
  rintro ⟨column, text⟩ pair
  exact readSegment_pathPart percent equals (names column (List.of_mem_zip pair).1).2

/-! ## Reading values back -/

variable {Row : Type}

/-- Rows whose partition cells are non-null texts. -/
def valueCell (value : Row → Nat → String) (row : Row) (column : Nat) : Cell :=
  .value (.ok (value row column))

/-- The key of an object with this segment gives back the row's partition values. -/
def ReadsBack (invalid : UInt8 → Bool) (config : PartitionConfig) (value : Row → Nat → String)
    (keyPrefix : Option String) (segment : List UInt8) (row : Row) : Prop :=
  ∀ uuid, readPartitions config.partitionColumns.length
      (pathFrom invalid (buildKey keyPrefix (some segment) uuid)) =
    config.partitionColumns.map fun column => (utf8 column.1, utf8 (value row column.2))

theorem buildPartitionKey_valueCell (config : PartitionConfig) (value : Row → Nat → String)
    (row : Row) :
    buildPartitionKey (valueCell value) config row = .ok (segmentOf config.partitionColumns
      (config.partitionColumns.map fun column => value row column.2)) := by
  have parts : config.partitionColumns.mapM
      (fun column => buildPart column.1 (valueCell value row column.2)) =
      .ok (config.partitionColumns.map fun column =>
        utf8 column.1 ++ 61 :: urlencode (value row column.2)) :=
    List.mapM_pure
  unfold buildPartitionKey segmentOf
  rw [parts, List.zipWith_map_right, List.zipWith_self]

/-- The key of a row's segment gives back the values that the row's encode to. -/
theorem readsBack_segment_iff (percent : invalid 37 = true) (equals : invalid 61 = false)
    {config : PartitionConfig} (plain : config.Plain) (value : Row → Nat → String)
    (keyPrefix : Option String) {row other : Row} {segment : List UInt8}
    (built : buildPartitionKey (valueCell value) config row = .ok segment) :
    ReadsBack invalid config value keyPrefix segment other ↔
      ∀ column ∈ config.partitionColumns,
        urlencode (value row column.2) = utf8 (value other column.2) := by
  rw [buildPartitionKey_valueCell] at built
  cases built
  have names : ∀ column ∈ config.partitionColumns, 47 ∉ utf8 column.1 ∧ 61 ∉ utf8 column.1 := by
    intro column mem
    have known := (List.of_mem_zip mem).1
    exact ⟨plain.notMem known (by decide) (by decide), plain.notMem known (by decide) (by decide)⟩
  have read : ∀ uuid, readPartitions config.partitionColumns.length (pathFrom invalid
      (buildKey keyPrefix (some (segmentOf config.partitionColumns
        (config.partitionColumns.map fun column => value row column.2))) uuid)) = _ :=
    readPartitions_key percent equals (by simp) names keyPrefix
  unfold ReadsBack
  simp only [read, List.zipWith_map_right, List.zipWith_self, forall_const, List.map_inj_left,
    Prod.mk.injEq, true_and]

/-- The values of the rows hold no character that is escaped. -/
def Unescaped (config : PartitionConfig) (value : Row → Nat → String) (rows : List Row) : Prop :=
  ∀ row ∈ rows, ∀ column ∈ config.partitionColumns, ∀ b ∈ utf8 (value row column.2),
    unreserved b = true

/-- A row has the partition values of the row at its wrapped index. -/
def WrapsAlike (config : PartitionConfig) (value : Row → Nat → String) (rows : List Row) : Prop :=
  ∀ (i : Nat) (row other : Row), rows[i]? = some row → rows[i % 2 ^ 32]? = some other →
    ∀ column ∈ config.partitionColumns, value other column.2 = value row column.2

/-- The objects' keys give back the values of the rows they hold exactly if no value of the
batch holds a character that is escaped and no index wraps to a row with other values. -/
theorem readsBack_iff {other : Char → Bool} {debug : List String → String}
    {partitionColumns : Option String} {fields : List String} {config : PartitionConfig}
    (parsed : PartitionConfig.parse other debug partitionColumns fields = .ok (some config))
    (percent : invalid 37 = true) (equals : invalid 61 = false) (option : Option String)
    {value : Row → Nat → String} {order : IterationOrder (List UInt8 × List Nat)}
    {rows : List Row} {outputs : List (PartitionedOutput Row)}
    (done : partitionBatch (valueCell value) config order rows = .ok outputs) :
    (∀ output ∈ outputs, ∀ row ∈ output.batch,
      ReadsBack invalid config value (initPrefix option) output.pathSegment row) ↔
      Unescaped config value rows ∧ WrapsAlike config value rows := by
  have plain := PartitionConfig.plain_of_parse parsed
  obtain ⟨groups, grouped, _⟩ := partitionBatch_ok done
  have built {i : Nat} {row : Row} (at_i : rows[i]? = some row) :
      buildPartitionKey (valueCell value) config row = .ok (keyOf (valueCell value) config row) :=
    (groupRows_ok grouped).1 row (List.mem_of_getElem? at_i)
  constructor
  · intro back
    have encodes : ∀ (i : Nat) (row wrapped : Row), rows[i]? = some row →
        rows[i % 2 ^ 32]? = some wrapped → ∀ column ∈ config.partitionColumns,
          urlencode (value row column.2) = utf8 (value wrapped column.2) := by
      intro i row wrapped at_i at_wrapped
      obtain ⟨output, mem, key_eq, held⟩ := exists_output_of_row done at_i at_wrapped
      refine (readsBack_segment_iff percent equals plain value (initPrefix option)
        (built at_i)).mp ?_
      rw [← key_eq]
      exact back output mem wrapped held
    -- An index below the modulus stands for itself.
    have alike : WrapsAlike config value rows := by
      intro i row wrapped at_i at_wrapped column mem
      have itself := encodes _ wrapped wrapped at_wrapped (by rwa [Nat.mod_mod]) column mem
      exact (urlencode_inj.mp ((encodes i row wrapped at_i at_wrapped column mem).trans
        itself.symm)).symm
    refine ⟨fun row mem column listed => ?_, alike⟩
    obtain ⟨i, bound, at_i⟩ := List.mem_iff_getElem.mp mem
    have at_i : rows[i]? = some row := by rw [List.getElem?_eq_getElem bound, at_i]
    have at_wrapped := List.getElem?_eq_getElem ((Nat.mod_le i (2 ^ 32)).trans_lt bound)
    have encoded := encodes i row _ at_i at_wrapped column listed
    rw [alike i row _ at_i at_wrapped column listed] at encoded
    exact Percent.encode_eq_self_iff.mp encoded
  · rintro ⟨unescaped, alike⟩ output mem held_row held
    obtain ⟨i, row, at_i, key_eq, source⟩ := exists_row_of_mem_batch done mem held
    have same : ∀ column ∈ config.partitionColumns,
        value held_row column.2 = value row column.2 := by
      rcases source with rfl | wrapped
      · exact fun _ _ => rfl
      · exact alike i row held_row at_i wrapped
    rw [← key_eq, readsBack_segment_iff percent equals plain value (initPrefix option) (built at_i)]
    intro column listed
    rw [same column listed]
    exact Percent.encode_eq_self_iff.mpr
      (unescaped row (List.mem_of_getElem? at_i) column listed)

end

/-- Control characters, and those that object stores recommend avoiding. -/
def invalidInPaths (b : UInt8) : Bool :=
  b < 32 || b = 127 ||
    [47, 92, 123, 94, 125, 37, 96, 93, 34, 62, 91, 126, 60, 35, 124, 42, 63].contains b

theorem parse_dt : PartitionConfig.parse (fun _ => false) (fun _ => "") (some "dt") ["dt"] =
    .ok (some ⟨["dt"], [0]⟩) := by
  decide

theorem partitionBatch_dt (text : String) (row : Unit) :
    partitionBatch (valueCell fun _ _ => text) ⟨["dt"], [0]⟩ listed [row] =
      .ok [⟨segmentOf [("dt", 0)] [text], [row]⟩] := by
  have key : buildPartitionKey (valueCell fun (_ : Unit) _ => text) ⟨["dt"], [0]⟩ row =
      .ok (segmentOf [("dt", 0)] [text]) := buildPartitionKey_valueCell _ _ _
  unfold partitionBatch groupRows
  simp [key, pushGroup]

theorem readsBack_iff_plain :
    (∀ output ∈ [(⟨segmentOf [("dt", 0)] ["2025-03-24"], [()]⟩ : PartitionedOutput Unit)],
      ∀ row ∈ output.batch, ReadsBack invalidInPaths ⟨["dt"], [0]⟩ (fun _ _ => "2025-03-24")
        (initPrefix none) output.pathSegment row) ↔
      Unescaped ⟨["dt"], [0]⟩ (fun _ _ => "2025-03-24") [()] ∧
        WrapsAlike ⟨["dt"], [0]⟩ (fun _ _ => "2025-03-24") [()] :=
  readsBack_iff parse_dt rfl rfl none (partitionBatch_dt "2025-03-24" ())

/-- A blank is read back as `%20`. -/
theorem not_readsBack_blank : ¬ ∀ (value : String) (outputs : List (PartitionedOutput Unit)),
    partitionBatch (valueCell fun _ _ => value) ⟨["dt"], [0]⟩ listed [()] = .ok outputs →
      ∀ output ∈ outputs, ∀ row ∈ output.batch,
        ReadsBack invalidInPaths ⟨["dt"], [0]⟩ (fun _ _ => value) none output.pathSegment row := by
  intro back
  have plain := PartitionConfig.plain_of_parse parse_dt
  have read := back " " _ (partitionBatch_dt " " ()) _ List.mem_cons_self () List.mem_cons_self
  have kept := (readsBack_segment_iff rfl rfl plain (fun _ _ => " ") none
    (buildPartitionKey_valueCell _ _ ())).mp read ("dt", 0) List.mem_cons_self
  revert kept
  decide

end StreamlingPlugins.S3
