import StreamlingPlugins.Fallible
import StreamlingPlugins.S2.Routing

/-!
# Where S2 records go

Every row goes to the stream whose name its own column values render, and a batch with a
value that would leave its part of the namespace is refused before a record is submitted.
So is a null, unless only the column's type or its dictionary says that it is one.
-/

namespace StreamlingPlugins.S2

open Arrow

/-! ## Templates -/

/-- What parsing has read of a template at a point. -/
def readSoFar (literal : List Char) : Option (List Char) → List Char
  | none => literal
  | some column => '{' :: column

theorem parseFrom_text {template : String} {chars literal : List Char}
    {column : Option (List Char)} {segments : List Segment}
    (parsed : parseFrom template chars literal column = .ok segments) :
    segments.flatMap Segment.text = readSoFar literal column ++ chars := by
  induction chars generalizing literal column segments with
  | nil =>
      cases column with
      | some column => cases parsed
      | none =>
          cases parsed
          by_cases empty : literal = []
          · simp [empty, readSoFar]
          · simp [empty, readSoFar, Segment.text]
  | cons c chars ih =>
      cases column with
      | none =>
          unfold parseFrom at parsed
          split at parsed
          · rename_i opens
            obtain ⟨later, rest, rfl⟩ := map_eq_ok parsed
            rw [List.flatMap_append, ih rest, opens]
            by_cases empty : literal = []
            · simp [empty, readSoFar]
            · simp [empty, readSoFar, Segment.text]
          · split at parsed
            · cases parsed
            · rw [ih parsed]
              simp [readSoFar]
      | some column =>
          unfold parseFrom at parsed
          split at parsed
          · rename_i closes
            split at parsed
            · cases parsed
            · obtain ⟨later, rest, rfl⟩ := map_eq_ok parsed
              rw [List.flatMap_cons, ih rest, closes]
              simp [readSoFar, Segment.text]
          · split at parsed
            · cases parsed
            · rw [ih parsed]
              simp [readSoFar]

/-- The segments of an accepted template are its text. -/
theorem StreamTemplate.text_segments (template : StreamTemplate) :
    template.segments.flatMap Segment.text = template.text.toList := by
  have parsed := template.parsed
  unfold parseStreamTemplate at parsed
  split at parsed
  · cases parsed
  · exact parseFrom_text parsed

/-! ## Runs -/

/-- The records of runs, each with the stream it goes to. -/
def placements (runs : List (StreamName × List AppendRecord)) :
    List (StreamName × AppendRecord) :=
  runs.flatMap fun run => run.2.map fun record => (run.1, record)

/-- No run is empty, and neighbours are of different streams. -/
structure ProperRuns (runs : List (StreamName × List AppendRecord)) : Prop where
  filled : ∀ run ∈ runs, run.2 ≠ []
  apart : runs.IsChain fun run next => run.1 ≠ next.1

theorem ProperRuns.push {runs : List (StreamName × List AppendRecord)}
    (proper : ProperRuns runs) (placed : AppendRecord × StreamName) :
    ProperRuns (pushRecord runs placed) ∧
      placements (pushRecord runs placed) = placements runs ++ [placed.swap] := by
  unfold pushRecord
  cases last : runs.getLast? with
  | none =>
      rw [List.getLast?_eq_none_iff] at last
      subst last
      exact ⟨⟨by simp, .singleton _⟩, rfl⟩
  | some run =>
      obtain ⟨before, rfl⟩ := List.getLast?_eq_some_iff.mp last
      obtain ⟨stream, records⟩ := run
      obtain ⟨record, stream'⟩ := placed
      obtain ⟨chain, _, joint⟩ := List.isChain_append.mp proper.apart
      by_cases same : stream = stream'
      · subst same
        simp only [if_pos, List.dropLast_concat]
        refine ⟨⟨?_, List.isChain_append.mpr ⟨chain, .singleton _, ?_⟩⟩, ?_⟩
        · intro run member
          rcases List.mem_append.mp member with earlier | final
          · exact proper.filled run (List.mem_append_left _ earlier)
          · cases List.mem_singleton.mp final
            simp
        · rintro run is_last next ⟨⟩
          exact joint run is_last (stream, records) rfl
        · simp [placements]
      · simp only [if_neg same]
        refine ⟨⟨?_, List.isChain_append.mpr ⟨proper.apart, .singleton _, ?_⟩⟩, ?_⟩
        · intro run member
          rcases List.mem_append.mp member with earlier | final
          · exact proper.filled run earlier
          · cases List.mem_singleton.mp final
            simp
        · rintro run is_last next ⟨⟩
          rw [List.getLast?_concat] at is_last
          cases is_last
          exact same
        · simp [placements]

theorem foldl_pushRecord {runs : List (StreamName × List AppendRecord)}
    (proper : ProperRuns runs) (pairs : List (AppendRecord × StreamName)) :
    ProperRuns (pairs.foldl pushRecord runs) ∧
      placements (pairs.foldl pushRecord runs) =
        placements runs ++ pairs.map Prod.swap := by
  induction pairs generalizing runs with
  | nil => exact ⟨proper, by simp⟩
  | cons pair pairs ih =>
      obtain ⟨pushed, placed⟩ := proper.push pair
      obtain ⟨grown, placed'⟩ := ih pushed
      exact ⟨grown, by rw [List.foldl_cons, placed', placed]; simp⟩

/-- The runs of a batch are its records in order, each with its stream. -/
theorem groupByStream_exact (records : List AppendRecord) (streams : List StreamName) :
    ProperRuns (groupByStream records streams) ∧
      placements (groupByStream records streams) = streams.zip records := by
  obtain ⟨proper, placed⟩ := foldl_pushRecord ⟨by simp, .nil⟩ (records.zip streams)
  refine ⟨proper, placed.trans ?_⟩
  rw [List.zip_swap]
  rfl

/-! ## Names -/

section

variable {D : Type} {lib : Libraries D} {n : Nat} {columns : List (String × TemplateColumn n)}
  {segments : List Segment} {row : Fin n}

/-- The stream of one row, without what was parsed for earlier rows. -/
def Libraries.rowStream (lib : Libraries D) (columns : List (String × TemplateColumn n))
    (segments : List Segment) (row : Fin n) : Except String StreamName :=
  match segments.foldlM (pushSegment columns row) "" with
  | .error e => .error e
  | .ok name => (lib.parseStreamName name).mapError fun e =>
      "s2_sink: stream_template resolved to invalid stream name '" ++ name ++ "': " ++ e

/-- Names parsed for earlier rows change nothing. -/
theorem resolveRows_eq_mapM {parsed : BTreeMap String StreamName}
    (memo : ∀ name stream, parsed[name]? = some stream → lib.parseStreamName name = .ok stream)
    (rows : List (Fin n)) :
    lib.resolveRows columns segments rows parsed = rows.mapM (lib.rowStream columns segments) := by
  induction rows generalizing parsed with
  | nil => rfl
  | cons row rows ih =>
      rw [List.mapM_cons]
      unfold Libraries.resolveRows
      cases rendered : segments.foldlM (pushSegment columns row) "" with
      | error e =>
          rw [Libraries.rowStream, rendered]
          rfl
      | ok name =>
          have at_row : lib.rowStream columns segments row =
              (lib.parseStreamName name).mapError fun e =>
                "s2_sink: stream_template resolved to invalid stream name '" ++ name ++ "': " ++
                  e := by
            rw [Libraries.rowStream, rendered]
          rw [at_row]
          dsimp only
          cases found : parsed[name]? with
          | some stream =>
              rw [memo name stream found, ih memo]
              rfl
          | none =>
              cases valid : lib.parseStreamName name with
              | error e => rfl
              | ok stream =>
                  have memo' : ∀ name' stream', (parsed.insert name stream)[name']? = some stream' →
                      lib.parseStreamName name' = .ok stream' := by
                    intro name' stream' found'
                    rw [Std.ExtTreeMap.getElem?_insert] at found'
                    split at found'
                    · rename_i same
                      cases found'
                      rwa [← Std.LawfulEqOrd.eq_of_compare same]
                    · exact memo name' stream' found'
                  dsimp only
                  rw [ih memo']
                  rfl

/-- What a segment adds to a row's name. -/
def pieceOf (columns : List (String × TemplateColumn n)) (row : Fin n) :
    Segment → Except String String
  | .literal literal => .ok literal
  | .column column =>
    match columns.lookup column with
    | none => .error "no entry found for key"
    | some found => placeholder column found row

theorem foldlM_pushSegment (name : String) :
    segments.foldlM (pushSegment columns row) name =
      (segments.mapM (pieceOf columns row)).map (name ++ String.join ·) := by
  induction segments generalizing name with
  | nil => simp [Except.map, pure, Except.pure]
  | cons segment segments ih =>
      have pushed : pushSegment columns row name segment =
          (pieceOf columns row segment).map (name ++ ·) := by
        cases segment with
        | literal literal => rfl
        | column column =>
            dsimp only [pushSegment, pieceOf]
            cases columns.lookup column <;> rfl
      rw [List.foldlM_cons, List.mapM_cons, pushed]
      cases pieceOf columns row segment with
      | error e => rfl
      | ok piece =>
          change segments.foldlM (pushSegment columns row) (name ++ piece) = _
          rw [ih]
          cases rest : segments.mapM (pieceOf columns row) with
          | error e => simp [Except.map, bind, Except.bind]
          | ok pieces =>
              simp [Except.map, bind, Except.bind, pure, Except.pure, String.append_assoc]

end

/-! ## Cells -/

section

variable {D : Type} {lib : Libraries D} {batch : RecordBatch D} {segments : List Segment}
  {columns : List (String × TemplateColumn batch.numRows)} {row : Fin batch.numRows}

/-- The text of a row's value in a column. -/
def cellText (lib : Libraries D) (batch : RecordBatch D) (name : String)
    (row : Fin batch.numRows) : Except String String :=
  match batch.columnByName name with
  | none => .error "not found"
  | some ⟨t, column⟩ => (lib.formatter t column).bind (· row)

/-- A row has a null in a column. -/
def NullAt (batch : RecordBatch D) (name : String) (row : Fin batch.numRows) : Prop :=
  ∃ t column, batch.columnByName name = some ⟨t, column⟩ ∧ column.entry row = .null

def segmentText (lib : Libraries D) (batch : RecordBatch D) (row : Fin batch.numRows) :
    Segment → Except String String
  | .literal text => .ok text
  | .column name => cellText lib batch name row

/-- The template with a row's own column values. -/
def renderedName (lib : Libraries D) (batch : RecordBatch D) (segments : List Segment)
    (row : Fin batch.numRows) : Except String String :=
  (segments.mapM (segmentText lib batch row)).map String.join

/-- What the checks of a row let a segment add to its name. -/
inductive Admits (lib : Libraries D) (batch : RecordBatch D) (row : Fin batch.numRows) :
    Segment → String → Prop
  | literal (text : String) : Admits lib batch row (.literal text) text
  | column {name text : String} {t : DataType} {column : ArrowArray D t batch.numRows}
    {value : Fin batch.numRows → Except String String}
    (present : batch.columnByName name = some ⟨t, column⟩)
    (formatted : lib.formatter t column = .ok value) (valid : column.isNull row = false)
    (rendered : value row = .ok text) (inside : '/' ∉ text.toList) :
    Admits lib batch row (.column name) text

theorem Admits.segmentText_eq {segment : Segment} {text : String}
    (admits : Admits lib batch row segment text) :
    segmentText lib batch row segment = .ok text := by
  cases admits with
  | literal => rfl
  | column present formatted valid rendered inside =>
      simp [segmentText, cellText, present, formatted, Except.bind, rendered]

theorem Admits.fills {segment : Segment} {text : String}
    (admits : Admits lib batch row segment text) :
    Part.Fills '/' segment.part text.toList := by
  cases admits with
  | literal text => exact .fixed _
  | column present formatted valid rendered inside => exact .hole inside

theorem templateColumn_eq_ok_iff {name : String} {found : TemplateColumn batch.numRows} :
    lib.templateColumn batch name = .ok found ↔
      ∃ t column value, batch.columnByName name = some ⟨t, column⟩ ∧
        lib.formatter t column = .ok value ∧ found = ⟨column.isNull, value⟩ := by
  unfold Libraries.templateColumn
  constructor
  · intro done
    split at done
    · cases done
    · rename_i t column present
      split at done
      · cases done
      · rename_i value formatted
        cases done
        exact ⟨t, column, value, present, formatted, rfl⟩
  · rintro ⟨t, column, value, present, formatted, rfl⟩
    simp [present, formatted]

theorem lookup_templateColumns (collected : lib.templateColumns batch segments = .ok columns)
    {name : String} (member : name ∈ columnNames segments) :
    ∃ found, columns.lookup name = some found ∧ lib.templateColumn batch name = .ok found := by
  have results := mapM_eq_ok_iff.mp collected
  generalize columnNames segments = names at member results
  clear collected
  induction results with
  | nil => cases member
  | @cons head entry names columns first _ ih =>
      obtain ⟨found, at_head, rfl⟩ := map_eq_ok first
      by_cases same : name = head
      · subst same
        exact ⟨found, by simp, at_head⟩
      · rw [List.lookup_cons, beq_false_of_ne same]
        exact ih ((List.mem_cons.mp member).resolve_left same)

theorem placeholder_eq_ok_iff {n : Nat} {name text : String} {column : TemplateColumn n}
    {row : Fin n} :
    placeholder name column row = .ok text ↔
      column.isNull row = false ∧ column.value row = .ok text ∧ '/' ∉ text.toList := by
  unfold placeholder
  constructor
  · intro done
    split at done
    · cases done
    · rename_i valid
      split at done
      · cases done
      · rename_i value rendered
        split at done
        · cases done
        · rename_i inside
          cases done
          exact ⟨by simpa using valid, rendered, inside⟩
  · rintro ⟨valid, rendered, inside⟩
    simp [valid, rendered, inside]

theorem pieceOf_eq_ok_iff (collected : lib.templateColumns batch segments = .ok columns)
    {segment : Segment} (member : segment ∈ segments) {text : String} :
    pieceOf columns row segment = .ok text ↔ Admits lib batch row segment text := by
  cases segment with
  | literal literal =>
      constructor
      · rintro ⟨⟩
        exact .literal _
      · rintro ⟨⟩
        rfl
  | column name =>
      have named : name ∈ columnNames segments :=
        List.mem_filterMap.mpr ⟨_, member, rfl⟩
      obtain ⟨found, at_name, templated⟩ := lookup_templateColumns collected named
      obtain ⟨t, column, value, present, formatted, rfl⟩ := templateColumn_eq_ok_iff.mp templated
      simp only [pieceOf, at_name, placeholder_eq_ok_iff]
      constructor
      · rintro ⟨valid, rendered, inside⟩
        exact .column present formatted valid rendered inside
      · rintro (_ | ⟨present', formatted', valid, rendered, inside⟩)
        cases present.symm.trans present'
        cases formatted.symm.trans formatted'
        exact ⟨valid, rendered, inside⟩

/-- The stream of a row is what its own values render, where all of them are admitted. -/
theorem rowStream_eq_ok_iff (collected : lib.templateColumns batch segments = .ok columns)
    {stream : StreamName} :
    lib.rowStream columns segments row = .ok stream ↔
      ∃ texts, List.Forall₂ (Admits lib batch row) segments texts ∧ stream = String.join texts ∧
        lib.validStreamName stream = .ok () := by
  have pieces : ∀ texts, segments.mapM (pieceOf columns row) = .ok texts ↔
      List.Forall₂ (Admits lib batch row) segments texts := fun texts =>
    mapM_eq_ok_iff.trans (forall₂_iff_of_agree fun segment member text =>
      pieceOf_eq_ok_iff collected member)
  unfold Libraries.rowStream
  rw [foldlM_pushSegment]
  constructor
  · intro done
    split at done
    · cases done
    · rename_i name rendered
      obtain ⟨texts, all, rfl⟩ := map_eq_ok rendered
      obtain ⟨⟨⟩, valid, rfl⟩ := map_eq_ok (mapError_eq_ok.mp done)
      exact ⟨texts, (pieces texts).mp all, by simp, valid⟩
  · rintro ⟨texts, all, rfl, valid⟩
    simp [(pieces texts).mpr all, Except.map, Libraries.parseStreamName, valid, Except.mapError]

/-- The template of a row with its own values. -/
theorem renderedName_of_admits {texts : List String}
    (all : List.Forall₂ (Admits lib batch row) segments texts) :
    renderedName lib batch segments row = .ok (String.join texts) := by
  have rendered : segments.mapM (segmentText lib batch row) = .ok texts :=
    mapM_eq_ok_iff.mpr (all.imp fun _ _ admits => admits.segmentText_eq)
  rw [renderedName, rendered]
  rfl

/-! ## What a batch must pass -/

/-- The checks a batch passes before a record of it is submitted. -/
structure Passes (lib : Libraries D) (segments : List Segment) (batch : RecordBatch D) : Prop where
  records : ∃ ops jsonRows records, lib.dbzOpsFromBatch batch = .ok ops ∧
    lib.jsonRows (withoutOpColumn batch) = .ok jsonRows ∧
    lib.appendRecordsFromJsonRows jsonRows ops = .ok records
  columns : ∀ name ∈ columnNames segments, ∃ found, lib.templateColumn batch name = .ok found
  cells : ∀ row, ∀ segment ∈ segments, ∃ text, Admits lib batch row segment text
  names : ∀ row name, renderedName lib batch segments row = .ok name →
    lib.validStreamName name = .ok ()

/-- Every record goes to the stream its own row's values render, in the order of the rows,
and no two neighbouring runs are of one stream. -/
structure Routed (lib : Libraries D) (segments : List Segment) (batch : RecordBatch D)
    (runs : List (StreamName × List AppendRecord)) : Prop where
  proper : ProperRuns runs
  placed : ∃ (ops jsonRows : List String) (streams : List StreamName),
    lib.dbzOpsFromBatch batch = .ok ops ∧ lib.jsonRows (withoutOpColumn batch) = .ok jsonRows ∧
    jsonRows.length = batch.numRows ∧ ops.length = batch.numRows ∧
    List.Forall₂ (fun row stream => renderedName lib batch segments row = .ok stream)
      (List.finRange batch.numRows) streams ∧
    placements runs = streams.zip (List.zipWith AppendRecord.mk jsonRows ops)

theorem appendRecord_eq_ok {row op : String} {record : AppendRecord}
    (done : lib.appendRecord row op = .ok record) : record = ⟨row, op⟩ := by
  obtain ⟨_, _, done⟩ := bind_eq_ok done
  obtain ⟨_, _, done⟩ := bind_eq_ok done
  cases done
  rfl

theorem appendRecordsFromJsonRows_eq_ok {jsonRows ops : List String}
    {records : List AppendRecord}
    (done : lib.appendRecordsFromJsonRows jsonRows ops = .ok records) :
    ops.length = jsonRows.length ∧ records = List.zipWith AppendRecord.mk jsonRows ops := by
  unfold Libraries.appendRecordsFromJsonRows at done
  split at done
  · cases done
  · rename_i lengths
    refine ⟨not_not.mp lengths, ?_⟩
    have results : List.Forall₂
        (fun (entry : String × String) record => id record = AppendRecord.mk entry.1 entry.2)
        (jsonRows.zip ops) records :=
      (mapM_eq_ok_iff.mp done).imp fun _ _ each => appendRecord_eq_ok each
    have zipped := map_eq_of_forall₂ results
    rw [List.map_id] at zipped
    rw [zipped, List.zip_eq_zipWith, List.map_zipWith]

theorem length_dbzOpsFromBatch {ops : List String} (done : lib.dbzOpsFromBatch batch = .ok ops) :
    ops.length = batch.numRows := by
  unfold Libraries.dbzOpsFromBatch at done
  split at done
  · cases done
  · rw [← (mapM_eq_ok_iff.mp done).length_eq, List.length_finRange]

theorem resolveStreams_eq_ok_iff {streams : List StreamName} :
    lib.resolveStreams segments batch = .ok streams ↔
      ∃ columns, lib.templateColumns batch segments = .ok columns ∧
        List.Forall₂ (fun row stream => lib.rowStream columns segments row = .ok stream)
          (List.finRange batch.numRows) streams := by
  unfold Libraries.resolveStreams
  cases collected : lib.templateColumns batch segments with
  | error e => simp
  | ok columns =>
      have memo : ∀ name stream, (∅ : BTreeMap String StreamName)[name]? = some stream →
          lib.parseStreamName name = .ok stream := by simp
      simp only [resolveRows_eq_mapM memo, mapM_eq_ok_iff, Except.ok.injEq, exists_eq_left']

/-- What a batch that becomes runs has passed. -/
theorem processBatchInner_eq_ok_iff {runs : List (StreamName × List AppendRecord)} :
    lib.processBatchInner (.template segments) batch = .ok runs ↔
      ∃ ops jsonRows records streams, lib.dbzOpsFromBatch batch = .ok ops ∧
        lib.jsonRows (withoutOpColumn batch) = .ok jsonRows ∧
        lib.appendRecordsFromJsonRows jsonRows ops = .ok records ∧
        lib.resolveStreams segments batch = .ok streams ∧ groupByStream records streams = runs := by
  constructor
  · intro done
    obtain ⟨ops, read, done⟩ := bind_eq_ok done
    obtain ⟨jsonRows, shown, done⟩ := bind_eq_ok done
    obtain ⟨records, built, done⟩ := bind_eq_ok done
    simp only [Libraries.route] at done
    split at done
    · cases done
    · rename_i streams resolved
      split at done
      · cases done
      · cases done
        exact ⟨ops, jsonRows, records, streams, read, mapError_eq_ok.mp shown, built, resolved,
          rfl⟩
  · rintro ⟨ops, jsonRows, records, streams, read, shown, built, resolved, rfl⟩
    obtain ⟨columns, _, each⟩ := resolveStreams_eq_ok_iff.mp resolved
    obtain ⟨lengths, rfl⟩ := appendRecordsFromJsonRows_eq_ok built
    have counted := length_dbzOpsFromBatch read
    have same : streams.length = (List.zipWith AppendRecord.mk jsonRows ops).length := by
      rw [← each.length_eq, List.length_finRange, List.length_zipWith]
      omega
    simp [Libraries.processBatchInner, read, shown, built, Libraries.route, resolved, same,
      bind, Except.bind, Except.mapError]

theorem routed_of_processBatchInner {runs : List (StreamName × List AppendRecord)}
    (done : lib.processBatchInner (.template segments) batch = .ok runs) :
    Routed lib segments batch runs := by
  obtain ⟨ops, jsonRows, records, streams, read, shown, built, resolved, rfl⟩ :=
    processBatchInner_eq_ok_iff.mp done
  obtain ⟨lengths, rfl⟩ := appendRecordsFromJsonRows_eq_ok built
  obtain ⟨columns, collected, each⟩ := resolveStreams_eq_ok_iff.mp resolved
  obtain ⟨proper, placed⟩ :=
    groupByStream_exact (List.zipWith AppendRecord.mk jsonRows ops) streams
  have counted := length_dbzOpsFromBatch read
  refine ⟨proper, ops, jsonRows, streams, read, shown, lengths ▸ counted, counted, ?_, placed⟩
  refine each.imp fun row stream at_row => ?_
  obtain ⟨texts, all, rfl, _⟩ := (rowStream_eq_ok_iff collected).mp at_row
  exact renderedName_of_admits all

/-- A batch becomes runs exactly when it passes the checks. -/
theorem exists_processBatchInner_iff :
    (∃ runs, lib.processBatchInner (.template segments) batch = .ok runs) ↔
      Passes lib segments batch := by
  constructor
  · rintro ⟨runs, done⟩
    obtain ⟨ops, jsonRows, records, streams, read, shown, built, resolved, rfl⟩ :=
      processBatchInner_eq_ok_iff.mp done
    obtain ⟨columns, collected, each⟩ := resolveStreams_eq_ok_iff.mp resolved
    have at_row : ∀ row, ∃ texts, List.Forall₂ (Admits lib batch row) segments texts ∧
        lib.validStreamName (String.join texts) = .ok () := by
      intro row
      obtain ⟨stream, at_row⟩ := exists_of_mem_of_forall₂ each (List.mem_finRange row)
      obtain ⟨texts, all, rfl, valid⟩ := (rowStream_eq_ok_iff collected).mp at_row
      exact ⟨texts, all, valid⟩
    refine ⟨⟨ops, jsonRows, records, read, shown, built⟩, fun name member => ?_,
      fun row segment member => ?_, fun row name rendered => ?_⟩
    · obtain ⟨found, _, templated⟩ := lookup_templateColumns collected member
      exact ⟨found, templated⟩
    · obtain ⟨texts, all, _⟩ := at_row row
      exact exists_of_mem_of_forall₂ all member
    · obtain ⟨texts, all, valid⟩ := at_row row
      rw [renderedName_of_admits all] at rendered
      cases rendered
      exact valid
  · rintro ⟨⟨ops, jsonRows, records, read, shown, built⟩, columns, cells, names⟩
    have collected : ∃ columns, lib.templateColumns batch segments = .ok columns := by
      obtain ⟨entries, each⟩ := exists_forall₂_of_forall_mem fun name member => by
        obtain ⟨found, templated⟩ := columns name member
        exact (⟨(name, found), by rw [templated]; rfl⟩ : ∃ entry,
          (lib.templateColumn batch name).map (fun column => (name, column)) = .ok entry)
      exact ⟨entries, mapM_eq_ok_iff.mpr each⟩
    obtain ⟨columns, collected⟩ := collected
    have each : ∃ streams, List.Forall₂
        (fun row stream => lib.rowStream columns segments row = .ok stream)
        (List.finRange batch.numRows) streams := by
      refine exists_forall₂_of_forall_mem fun row _ => ?_
      obtain ⟨texts, all⟩ := exists_forall₂_of_forall_mem (cells row)
      exact ⟨_, (rowStream_eq_ok_iff collected).mpr
        ⟨texts, all, rfl, names row _ (renderedName_of_admits all)⟩⟩
    obtain ⟨streams, each⟩ := each
    exact ⟨_, processBatchInner_eq_ok_iff.mpr ⟨ops, jsonRows, records, streams, read, shown, built,
      resolveStreams_eq_ok_iff.mpr ⟨columns, collected, each⟩, rfl⟩⟩

end

/-! ## The property -/

section

variable {D : Type} (lib : Libraries D) (segments : List Segment) (batch : RecordBatch D)

/-- Whatever the state of the sink, the call for a batch returns an error at once: no
record is submitted, no producer is opened. -/
def Refused (lib : Libraries D) (target : StreamTarget) (batch : RecordBatch D) : Prop :=
  ∀ sink : S2Sink, ∃ sink' e begun, sink.step (lib.processBatch target batch) = some (sink', []) ∧
    sink'.tickets = sink.tickets ∧ sink'.producers = sink.producers ∧
    sink'.calls = sink.calls ++ [⟨.processBatch, sink.tickets.length, .returned (.error e) begun⟩]

/-- What routing promises of a batch under a template. -/
structure RoutingHolds : Prop where
  routed : ∀ runs, lib.processBatchInner (.template segments) batch = .ok runs →
    Routed lib segments batch runs
  /-- A null or a value that contains '/' fails the batch before a record is submitted. -/
  refused : ∀ row, ∀ name ∈ columnNames segments,
    (NullAt batch name row ∨ ∃ text, cellText lib batch name row = .ok text ∧ '/' ∈ text.toList) →
      Refused lib (.template segments) batch
  /-- With at most one placeholder in each component, different values go apart. -/
  apart : holesApart '/' false (segments.map Segment.part) = true → ∀ runs,
    lib.processBatchInner (.template segments) batch = .ok runs → ∀ row row',
      ∀ name ∈ columnNames segments,
        cellText lib batch name row ≠ cellText lib batch name row' →
          renderedName lib batch segments row ≠ renderedName lib batch segments row'

variable {lib segments batch}

theorem Passes.exists_admits (passes : Passes lib segments batch) (row : Fin batch.numRows) :
    ∃ texts, List.Forall₂ (Admits lib batch row) segments texts :=
  exists_forall₂_of_forall_mem (passes.cells row)

/-- Rows of one name have the same values under a template that keeps its placeholders
apart. -/
theorem Passes.cellText_eq (passes : Passes lib segments batch)
    (apart : holesApart '/' false (segments.map Segment.part) = true)
    {row row' : Fin batch.numRows} {name : String} (member : name ∈ columnNames segments)
    (same : renderedName lib batch segments row = renderedName lib batch segments row') :
    cellText lib batch name row = cellText lib batch name row' := by
  obtain ⟨texts, all⟩ := passes.exists_admits row
  obtain ⟨texts', all'⟩ := passes.exists_admits row'
  rw [renderedName_of_admits all, renderedName_of_admits all', Except.ok.injEq,
    ← String.toList_inj, String.toList_join, String.toList_join] at same
  have fills : ∀ {row texts}, List.Forall₂ (Admits lib batch row) segments texts →
      List.Forall₂ (Part.Fills '/') (segments.map Segment.part) (texts.map String.toList) := by
    intro row texts all
    exact List.forall₂_map_left_iff.mpr (List.forall₂_map_right_iff.mpr
      (all.imp fun _ _ admits => admits.fills))
  have filled := fillings_eq apart (fills all) (fills all') (by simpa [List.flatMap] using same)
  obtain rfl := List.map_injective_iff.mpr (fun _ _ => String.toList_injective) filled
  obtain ⟨segment, within, named⟩ := List.mem_filterMap.mp member
  cases segment with
  | literal text => cases named
  | column name' =>
      cases named
      obtain ⟨text, here, there⟩ := exists_common_of_forall₂ all all' within
      exact here.segmentText_eq.trans there.segmentText_eq.symm

theorem mem_columnNames_iff {name : String} :
    name ∈ columnNames segments ↔ Segment.column name ∈ segments := by
  unfold columnNames
  rw [List.mem_filterMap]
  constructor
  · rintro ⟨segment, within, named⟩
    cases segment with
    | literal text => cases named
    | column name' =>
        cases named
        exact within
  · exact fun within => ⟨_, within, rfl⟩

/-- A batch of some rows is refused exactly when it becomes no runs. -/
theorem refused_iff {target : StreamTarget} (row : Fin batch.numRows) :
    Refused lib target batch ↔ ∀ runs, lib.processBatchInner target batch ≠ .ok runs := by
  have rows : batch.numRows ≠ 0 := Nat.ne_zero_of_lt row.isLt
  constructor
  · intro refused runs done
    obtain ⟨sink', e, begun, taken, _, _, calls⟩ := refused (.new "" none false)
    simp only [S2Sink.step, Libraries.processBatch, done, S2Sink.new, rows, if_false] at taken
    cases taken
    cases calls
  · intro failing sink
    cases outcome : lib.processBatchInner target batch with
    | ok runs => exact absurd outcome (failing runs)
    | error e =>
        simp only [S2Sink.step, Libraries.processBatch, outcome, Except.map]
        by_cases running : sink.running = false
        · rw [if_pos running]
          exact ⟨_, _, _, rfl, rfl, rfl, rfl⟩
        · rw [if_neg running, if_neg rows]
          exact ⟨_, _, _, rfl, rfl, rfl, rfl⟩

/-- **Routing, and the nulls it misses.** What routing promises of a batch holds exactly
when no template column has a null in a batch that passes all checks: a null which the
array's own validity does not show. -/
theorem routing_holds_iff (lib : Libraries D) (template : StreamTemplate)
    (batch : RecordBatch D) :
    RoutingHolds lib template.segments batch ↔
      (Passes lib template.segments batch →
        ∀ row, ∀ name ∈ columnNames template.segments, ¬ NullAt batch name row) := by
  constructor
  · intro holds passes row name member null
    obtain ⟨runs, done⟩ := exists_processBatchInner_iff.mpr passes
    exact (refused_iff row).mp (holds.refused row name member (.inl null)) runs done
  · intro unmarked
    refine ⟨fun runs done => routed_of_processBatchInner done,
      fun row name member unfit => (refused_iff row).mpr fun runs done => ?_,
      fun apart runs done row row' name member differ same => ?_⟩
    · have passes := exists_processBatchInner_iff.mp ⟨runs, done⟩
      rcases unfit with null | ⟨text, shown, outside⟩
      · exact unmarked passes row name member null
      · obtain ⟨text', admits⟩ := passes.cells row _ (mem_columnNames_iff.mp member)
        cases shown.symm.trans admits.segmentText_eq
        cases admits with
        | column _ _ _ _ inside => exact inside outside
    · have passes := exists_processBatchInner_iff.mp ⟨runs, done⟩
      exact differ (passes.cellText_eq apart member same)

end

/-! ## A null that only the type shows -/

/-- Texts are rendered as they are and a null of a `Null` array as nothing; the JSON of a
row of nulls is an empty object. -/
def demoLibraries : Libraries String where
  text := id
  formatter t _ column := .ok fun row =>
    match column.entry row with
    | .datum text => .ok text
    | _ => if t = .null then .ok "" else .error "not rendered here"
  arrayValueToString _ _ _ _ := .error "not rendered here"
  validStreamName name := if name = "" then .error "stream name is empty" else .ok ()
  jsonRows batch := .ok (List.replicate batch.numRows "\x7b\x7d")
  validBody _ := .ok ()
  validHeaders _ := .ok ()

def demoTemplate : StreamTemplate where
  text := "tenant-{tenant}"
  segments := [.literal "tenant-", .column "tenant"]
  parsed := by rfl

/-- One inserted row whose tenant has the type `Null`. -/
def demoBatch : RecordBatch String where
  fields := .cons (.new "_gs_op" .utf8 false) (.cons (.new "tenant" .null true) .nil)
  numRows := 1
  columns := .cons (.leaf rfl fun _ => some "i") (.cons (.leaf rfl fun _ => none) .nil)

/-- The row without a tenant goes to the stream `tenant-`. -/
theorem demoBatch_routed :
    demoLibraries.processBatchInner (.template demoTemplate.segments) demoBatch =
      .ok [("tenant-", [⟨"\x7b\x7d", "c"⟩])] := by
  rfl

theorem not_routing_holds_demo :
    ¬ RoutingHolds demoLibraries demoTemplate.segments demoBatch := by
  intro holds
  let row : Fin demoBatch.numRows := ⟨0, Nat.zero_lt_one⟩
  have null : NullAt demoBatch "tenant" row := ⟨.null, .leaf rfl fun _ => none, rfl, rfl⟩
  have refused := holds.refused row "tenant" (by decide) (.inl null)
  exact (refused_iff row).mp refused _ demoBatch_routed

end StreamlingPlugins.S2
