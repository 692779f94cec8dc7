import StreamlingPlugins.S2.RoutingExactness
import StreamlingPlugins.S2Source.Converter
import StreamlingPlugins.S2Source.DecodeAgreement

/-!
# From the sink to the source

What the sink appends to a stream, the source reads back as the rows that were routed there: in
order, of their own kinds, with their own bodies, however the batches of the two are cut.
-/

namespace StreamlingPlugins.S2

open Arrow
open S2Source (SourceRecord JsonDecoder TypedMode convertRaw convert decodeStrict describe)

variable {D : Type} {lib : Libraries D} {target : StreamTarget} {batch : RecordBatch D}

/-! ## What is sent -/

/-- The text of a row's operation; a null reads as the empty text. -/
def Libraries.kindAt (lib : Libraries D) {n : Nat} :
    (t : DataType) → ArrowArray D t n → Fin n → Except String String
  | .utf8, .leaf _ entries, row => .ok ((entries row).elim "" lib.text)
  | t, column, row =>
    if column.isNull row then .ok "" else lib.arrayValueToString t column row

def Libraries.rowKind (lib : Libraries D) (batch : RecordBatch D) (row : Fin batch.numRows) :
    Except String String :=
  match batch.columnByName columnNameOp with
  | none => .error ""
  | some column => lib.kindAt column.1 column.2 row

/-- The stream that a row's own values give. -/
def Libraries.streamOf (lib : Libraries D) (target : StreamTarget) (batch : RecordBatch D)
    (row : Fin batch.numRows) : Except String StreamName :=
  match target with
  | .fixed stream => .ok stream
  | .template segments => renderedName lib batch segments row

/-- A row by its kind and its JSON. -/
structure SentRow where
  kind : String
  json : String

def SentRow.record (row : SentRow) : AppendRecord :=
  ⟨row.json, (dbzOpFromRowKind row.kind).getD ""⟩

/-- The rows of a batch, each with the stream it goes to. -/
structure Sent (lib : Libraries D) (target : StreamTarget) (batch : RecordBatch D)
    (sent : List (StreamName × SentRow)) : Prop where
  streams : List.Forall₂ (fun row placed => lib.streamOf target batch row = .ok placed.1)
    (List.finRange batch.numRows) sent
  kinds : List.Forall₂ (fun row placed => lib.rowKind batch row = .ok placed.2.kind)
    (List.finRange batch.numRows) sent
  json : lib.jsonRows (withoutOpColumn batch) = .ok (sent.map fun placed => placed.2.json)
  known : ∀ placed ∈ sent, (dbzOpFromRowKind placed.2.kind).isSome

section

variable {n : Nat} {t : DataType} {column : ArrowArray D t n} {row : Fin n}

theorem kindAt_of_ne (other : t ≠ .utf8) : lib.kindAt t column row =
    if column.isNull row then .ok "" else lib.arrayValueToString t column row := by
  unfold Libraries.kindAt
  split
  · exact absurd rfl other
  · rfl

theorem opAt_of_ne (other : t ≠ .utf8) {op : String} (read : lib.opAt t column row = .ok op) :
    column.isNull row = true ∧ toOp "" = .ok op ∨ ¬ column.isNull row = true ∧
      ∃ value, lib.arrayValueToString t column row = .ok value ∧ toOp value = .ok op := by
  unfold Libraries.opAt at read
  split at read
  · exact absurd rfl other
  split at read
  · rename_i null
    exact .inl ⟨null, read⟩
  · rename_i filled
    split at read
    · rename_i value shown
      exact .inr ⟨filled, value, shown, read⟩
    · cases read

/-- An op that is read is the op of the row's kind. -/
theorem opAt_ok {op : String} (read : lib.opAt t column row = .ok op) :
    ∃ kind, lib.kindAt t column row = .ok kind ∧ dbzOpFromRowKind kind = some op := by
  have known {kind : String} (done : toOp kind = .ok op) : dbzOpFromRowKind kind = some op := by
    unfold toOp at done
    split at done
    · rename_i op' found
      cases done
      exact found
    · cases done
  by_cases text : t = .utf8
  · subst text
    cases column with
    | leaf plain entries => exact ⟨_, rfl, known read⟩
  · rw [kindAt_of_ne text]
    rcases opAt_of_ne text read with ⟨null, empty⟩ | ⟨filled, value, shown, op_eq⟩
    · exact ⟨"", if_pos null, known empty⟩
    · exact ⟨value, (if_neg filled).trans shown, known op_eq⟩

end

/-- A list that answers each index is what the answers make of the indices. -/
theorem exists_map_finRange {β : Type} {n : Nat} {R : Fin n → β → Prop} {l : List β}
    (pairs : List.Forall₂ R (List.finRange n) l) :
    ∃ f, l = (List.finRange n).map f ∧ ∀ i, R i (f i) := by
  have size : l.length = n := pairs.length_eq.symm.trans List.length_finRange
  refine ⟨fun i => l.get ⟨i, size ▸ i.isLt⟩, List.ext_getElem (by simp [size]) (by simp),
    fun i => ?_⟩
  have at_i := (List.forall₂_iff_get.mp pairs).2 i (by simp) (size ▸ i.isLt)
  simpa using at_i

/-- The runs that records are routed to place each record on its own row's stream. -/
theorem placements_of_route {records : List AppendRecord}
    {runs : List (StreamName × List AppendRecord)} (counted : records.length = batch.numRows)
    (routed : lib.route target records batch = .ok runs) :
    ∃ streams, List.Forall₂ (fun row stream => lib.streamOf target batch row = .ok stream)
        (List.finRange batch.numRows) streams ∧ placements runs = streams.zip records := by
  cases target with
  | fixed stream =>
      cases routed
      refine ⟨(List.finRange batch.numRows).map fun _ => stream, ?_, ?_⟩
      · exact List.forall₂_map_right_iff.mpr (List.forall₂_same.mpr fun row _ => rfl)
      · rw [List.map_const', List.length_finRange, ← counted]
        simp only [placements, List.flatMap_singleton]
        clear counted
        induction records with
        | nil => rfl
        | cons record records ih => rw [List.length_cons, List.replicate_succ, List.zip_cons_cons,
            List.map_cons, ih]
  | template segments =>
      simp only [Libraries.route] at routed
      split at routed
      · cases routed
      · rename_i streams resolved
        split at routed
        · cases routed
        · cases routed
          obtain ⟨columns, collected, each⟩ := resolveStreams_eq_ok_iff.mp resolved
          refine ⟨streams, each.imp fun row stream at_row => ?_,
            (groupByStream_exact records streams).2⟩
          obtain ⟨texts, all, rfl, -⟩ := (rowStream_eq_ok_iff collected).mp at_row
          exact renderedName_of_admits all

/-- What a batch that becomes runs sends. -/
theorem exists_sent {runs : List (StreamName × List AppendRecord)}
    (done : lib.processBatchInner target batch = .ok runs) :
    ∃ sent, Sent lib target batch sent ∧
      placements runs = sent.map fun placed => (placed.1, placed.2.record) := by
  obtain ⟨ops, read, done⟩ := bind_eq_ok done
  obtain ⟨jsonRows, shown, done⟩ := bind_eq_ok done
  obtain ⟨records, built, routed⟩ := bind_eq_ok done
  obtain ⟨lengths, rfl⟩ := appendRecordsFromJsonRows_eq_ok built
  have counted := length_dbzOpsFromBatch read
  obtain ⟨streams, each_stream, placed⟩ := placements_of_route
    (by rw [List.length_zipWith]; omega) routed
  unfold Libraries.dbzOpsFromBatch at read
  split at read
  · cases read
  rename_i column found
  obtain ⟨stream, rfl, stream_at⟩ := exists_map_finRange each_stream
  obtain ⟨op, rfl, op_at⟩ := exists_map_finRange (mapM_eq_ok_iff.mp read)
  choose kind kind_at known using fun row => opAt_ok (op_at row)
  have json_size : jsonRows.length = (List.finRange batch.numRows).length := by
    rw [← lengths, List.length_map]
  obtain ⟨json, rfl, -⟩ := exists_map_finRange (R := fun _ _ => True) (l := jsonRows)
    (List.forall₂_iff_get.mpr ⟨json_size.symm, fun _ _ _ => trivial⟩)
  refine ⟨(List.finRange batch.numRows).map fun row => (stream row, ⟨kind row, json row⟩),
    ⟨?_, ?_, ?_, ?_⟩, ?_⟩
  · exact List.forall₂_map_right_iff.mpr (List.forall₂_same.mpr fun row _ => stream_at row)
  · refine List.forall₂_map_right_iff.mpr (List.forall₂_same.mpr fun row _ => ?_)
    simpa [Libraries.rowKind, found] using kind_at row
  · rw [List.map_map]
    exact mapError_eq_ok.mp shown
  · simp [known]
  · rw [placed, List.zipWith_map, List.zipWith_self, List.zip_map', List.map_map]
    refine List.map_congr_left fun row _ => ?_
    simp [SentRow.record, known]

/-! ## What is read back -/

/-- A record as it is read from its stream, with the position and the time it got there. -/
def AppendRecord.readBack (stream : StreamName) (record : AppendRecord)
    (stamp : UInt64 × UInt64) : SourceRecord :=
  ⟨stream, stamp.1, stamp.2, [(utf8 "dbz.op", utf8 record.op)], utf8 record.body⟩

/-- The records that calls appended to a stream. -/
def appended (calls : List (List (StreamName × List AppendRecord))) (stream : StreamName) :
    List AppendRecord :=
  ((calls.flatMap placements).filter fun placed => placed.1 = stream).map Prod.snd

/-- The records of a stream, read back. -/
def readRecords (stream : StreamName) (records : List AppendRecord)
    (stamps : List (UInt64 × UInt64)) : List SourceRecord :=
  List.zipWith (AppendRecord.readBack stream) records stamps

/-- The rows that batches sent to a stream. -/
def rowsTo (sent : List (List (StreamName × SentRow))) (stream : StreamName) : List SentRow :=
  (sent.flatten.filter fun placed => placed.1 = stream).map Prod.snd

/-- A part of a stream that is read together. -/
def part {α : Type} (skipped taken : Nat) (l : List α) : List α :=
  (l.drop skipped).take taken

/-- The kind comes back. -/
theorem gsOp_readBack {row : SentRow} (known : (dbzOpFromRowKind row.kind).isSome)
    (stream : StreamName) (stamp : UInt64 × UInt64) :
    S2Source.gsOp (row.record.readBack stream stamp) = row.kind := by
  obtain ⟨op, found⟩ := Option.isSome_iff_exists.mp known
  simp only [S2Source.gsOp, AppendRecord.readBack, SentRow.record, found, Option.getD_some,
    List.find?_cons, decide_true]
  unfold dbzOpFromRowKind at found
  split at found
  · cases found
    simp [S2Source.rowKindFromDbzOp, *]
  · split at found
    · cases found
      simp [S2Source.rowKindFromDbzOp, utf8_inj, *]
    · split at found
      · cases found
        simp [S2Source.rowKindFromDbzOp, utf8_inj, *]
      · cases found

section

variable {Row : Type} {d : JsonDecoder Row}

/-- A line of JSON decodes to a value alone. -/
def Decodes (d : JsonDecoder Row) (json : String) (value : Row) : Prop :=
  ∀ record : SourceRecord, record.body = utf8 json → decodeStrict d [record] = .ok [value]

theorem map_zipWith_left {α β γ δ : Type} {f : α → β → γ} {g : γ → δ} {h : α → δ} {l : List α}
    {m : List β} (same : ∀ a ∈ l, ∀ b, g (f a b) = h a) (sizes : m.length = l.length) :
    (List.zipWith f l m).map g = l.map h := by
  induction l generalizing m with
  | nil => rfl
  | cons a l ih =>
      cases m with
      | nil => cases sizes
      | cons b m =>
          obtain ⟨first, others⟩ := List.forall_mem_cons.mp same
          rw [List.zipWith_cons_cons, List.map_cons, List.map_cons, first b,
            ih others (by simpa using sizes)]

variable {rows : List SentRow} {stream : StreamName} {stamps : List (UInt64 × UInt64)}

theorem map_readRecords {β : Type} {g : SourceRecord → β} {h : SentRow → β}
    (same : ∀ row ∈ rows, ∀ stamp, g (row.record.readBack stream stamp) = h row)
    (stamped : stamps.length = rows.length) :
    (readRecords stream (rows.map SentRow.record) stamps).map g = rows.map h := by
  rw [readRecords, List.zipWith_map_left]
  exact map_zipWith_left same stamped

/-- Rows of a stream that are read together and decode. -/
theorem convert_readRecords (closes : d.RowsClose) {values : List Row}
    (known : ∀ row ∈ rows, (dbzOpFromRowKind row.kind).isSome)
    (decodes : List.Forall₂ (fun row value => Decodes d row.json value) rows values)
    (stamped : stamps.length = rows.length) (mode : TypedMode) :
    ∃ batch, convert d mode (readRecords stream (rows.map SentRow.record) stamps) = .ok batch ∧
      batch.gsOp = rows.map SentRow.kind ∧ batch.rows = values := by
  have kinds : (readRecords stream (rows.map SentRow.record) stamps).map S2Source.gsOp =
      rows.map SentRow.kind :=
    map_readRecords (fun row mem stamp => gsOp_readBack (known row mem) stream stamp) stamped
  by_cases nothing : rows = []
  · subst nothing
    cases decodes
    exact ⟨describe mode.includeMetadata [] [], by simp [convert, readRecords], rfl, rfl⟩
  have some_record : readRecords stream (rows.map SentRow.record) stamps ≠ [] := by
    intro none_read
    rw [none_read] at kinds
    exact nothing (List.map_eq_nil_iff.mp kinds.symm)
  have decoded : List.Forall₂ (fun record value => decodeStrict d [record] = .ok [value])
      (readRecords stream (rows.map SentRow.record) stamps) values := by
    clear kinds nothing some_record known
    induction decodes generalizing stamps with
    | nil => exact .nil
    | cons first _ ih =>
        cases stamps with
        | nil => cases stamped
        | cons stamp stamps => exact .cons (first _ rfl) (ih (by simpa using stamped))
  obtain ⟨-, rows', together, alone⟩ := S2Source.decodeStrict_of_alone closes some_record
    fun record mem => by
      obtain ⟨value, alone⟩ := exists_of_mem_of_forall₂ decoded mem
      exact ⟨[value], alone⟩
  have unique : Relator.RightUnique fun record value => decodeStrict d [record] = .ok [value] :=
    fun record value value' first second =>
      List.singleton_inj.mp (Except.ok.inj (first.symm.trans second))
  obtain rfl : values = rows' := unique.forall₂ decoded alone
  refine ⟨describe mode.includeMetadata _ values, ?_, kinds, rfl⟩
  unfold convert
  rw [if_neg some_record, together]
  exact S2Source.tryNew_describe alone.length_eq.symm

end

/-! ## The round trip -/

section

variable {Row : Type} {d : JsonDecoder Row} {toJson : List (String × String) → String}

/-- What parts of one stream read back as: the kinds and the bodies of the rows sent to it. -/
structure ReadsBack (d : JsonDecoder Row) (toJson : List (String × String) → String)
    (records : List SourceRecord) (rows : List SentRow) : Prop where
  kinds : (convertRaw toJson records).gsOp = rows.map SentRow.kind
  bodies : (convertRaw toJson records).body = rows.map SentRow.json
  typed : ∀ values, List.Forall₂ (fun row value => Decodes d row.json value) rows values →
    ∀ mode, ∃ batch, convert d mode records = .ok batch ∧
      batch.gsOp = rows.map SentRow.kind ∧ batch.rows = values

/-- Batches send what becomes the records of their calls. -/
theorem exists_sent_of_accepted {batches : List (RecordBatch D)}
    {calls : List (List (StreamName × List AppendRecord))}
    (accepted : List.Forall₂ (fun batch runs => lib.processBatchInner target batch = .ok runs)
      batches calls) :
    ∃ sent, List.Forall₂ (Sent lib target) batches sent ∧
      calls.flatMap placements = sent.flatten.map fun placed => (placed.1, placed.2.record) := by
  induction accepted with
  | nil => exact ⟨[], .nil, rfl⟩
  | cons done _ ih =>
      obtain ⟨first, first_sent, first_placed⟩ := exists_sent done
      obtain ⟨others, others_sent, others_placed⟩ := ih
      refine ⟨first :: others, .cons first_sent others_sent, ?_⟩
      rw [List.flatMap_cons, first_placed, others_placed, List.flatten_cons, List.map_append]

theorem known_of_mem_rowsTo {batches : List (RecordBatch D)}
    {sent : List (List (StreamName × SentRow))}
    (each : List.Forall₂ (Sent lib target) batches sent) {stream : StreamName} {row : SentRow}
    (mem : row ∈ rowsTo sent stream) : (dbzOpFromRowKind row.kind).isSome := by
  obtain ⟨placed, placed_mem, rfl⟩ := List.mem_map.mp mem
  obtain ⟨rows, rows_mem, placed_mem⟩ := List.mem_flatten.mp (List.mem_of_mem_filter placed_mem)
  obtain ⟨batch, sends⟩ := exists_of_mem_of_forall₂ each.flip rows_mem
  exact sends.known placed placed_mem

theorem part_readRecords {stream : StreamName} {rows : List SentRow}
    {stamps : List (UInt64 × UInt64)} {skipped taken : Nat} :
    part skipped taken (readRecords stream (rows.map SentRow.record) stamps) =
      readRecords stream ((part skipped taken rows).map SentRow.record)
        (part skipped taken stamps) := by
  simp only [part, readRecords, List.drop_zipWith, List.take_zipWith, List.map_drop, List.map_take]

/-- **What is sent is read back.**  Of any batches that the sink appends, and of any part of a
stream that the source reads together, the source gives the rows that their own values sent
there, in order, of their own kinds and with their own bodies. -/
theorem sent_readsBack (closes : d.RowsClose) {batches : List (RecordBatch D)}
    {calls : List (List (StreamName × List AppendRecord))}
    (accepted : List.Forall₂ (fun batch runs => lib.processBatchInner target batch = .ok runs)
      batches calls) :
    ∃ sent, List.Forall₂ (Sent lib target) batches sent ∧
      ∀ stream stamps, stamps.length = (appended calls stream).length → ∀ skipped taken,
        ReadsBack d toJson
          (part skipped taken (readRecords stream (appended calls stream) stamps))
          (part skipped taken (rowsTo sent stream)) := by
  obtain ⟨sent, each, placed⟩ := exists_sent_of_accepted accepted
  refine ⟨sent, each, fun stream stamps stamped skipped taken => ?_⟩
  have on_stream : appended calls stream = (rowsTo sent stream).map SentRow.record := by
    rw [appended, placed, rowsTo, List.filter_map, List.map_map, List.map_map]
    rfl
  rw [on_stream, List.length_map] at stamped
  have sizes : (part skipped taken stamps).length =
      (part skipped taken (rowsTo sent stream)).length := by
    simp [part, stamped]
  have known : ∀ row ∈ part skipped taken (rowsTo sent stream),
      (dbzOpFromRowKind row.kind).isSome := fun row mem =>
    known_of_mem_rowsTo each (List.mem_of_mem_drop (List.mem_of_mem_take mem))
  rw [on_stream, part_readRecords]
  exact {
    kinds := map_readRecords (fun row mem stamp => gsOp_readBack (known row mem) stream stamp) sizes
    bodies := map_readRecords (fun row _ _ => fromUtf8Lossy_utf8 row.json) sizes
    typed := fun values decodes mode => convert_readRecords closes known decodes sizes mode }

end

/-- The JSON of a row is an object with its `id`. -/
def idLibraries : Libraries String :=
  { demoLibraries with
    jsonRows := fun batch =>
      match batch.columnByName "id" with
      | none => .ok (List.replicate batch.numRows "\x7b\x7d")
      | some column => .ok ((List.finRange batch.numRows).map fun row =>
        match column.2.entry row with
        | .datum text => "\x7b\"id\":" ++ text ++ "\x7d"
        | _ => "\x7b\x7d") }

def idTemplate : StreamTemplate where
  text := "ids-{id}"
  segments := [.literal "ids-", .column "id"]
  parsed := by rfl

theorem isPlain_utf8 : DataType.utf8.isPlain := rfl

theorem isPlain_int64 : DataType.int64.isPlain := rfl

/-- A row that is inserted, another one deleted, and the first updated. -/
def idBatch : RecordBatch String where
  fields := .cons (.new "_gs_op" .utf8 false) (.cons (.new "id" .int64 false) .nil)
  numRows := 3
  columns := .cons (.leaf isPlain_utf8 fun row => ["i", "d", "u"][row.val]?)
    (.cons (.leaf isPlain_int64 fun row => ["1", "2", "1"][row.val]?) .nil)

def idRuns : List (StreamName × List AppendRecord) :=
  [("ids-1", [⟨"\x7b\"id\":1\x7d", "c"⟩]), ("ids-2", [⟨"\x7b\"id\":2\x7d", "d"⟩]),
    ("ids-1", [⟨"\x7b\"id\":1\x7d", "u"⟩])]

theorem idBatch_routed :
    idLibraries.processBatchInner (.template idTemplate.segments) idBatch = .ok idRuns := by
  rfl

theorem decodes_id : Decodes S2Source.idDecoder "\x7b\"id\":1\x7d" 1 := by
  intro record body
  have trimmed : S2Source.trimAscii (utf8 "\x7b\"id\":1\x7d") = utf8 "\x7b\"id\":1\x7d" := by
    decide
  have read : Tokenizer.decode 1 (.empty : S2Source.idDecoder.tokenizer.Tape)
      (utf8 "\x7b\"id\":1\x7d") = .ok (⟨[utf8 "\x7b\"id\":1\x7d"], none⟩, []) := rfl
  have closed := S2Source.closed_of_stream S2Source.idDecoder_rowsClose
    (Tokenizer.decode_eq_ok_iff.mp read).1 (by simpa using ⟨1, rfl⟩) _ List.mem_cons_self
  refine (S2Source.decodesAlone_iff S2Source.idDecoder_rowsClose).mpr ⟨rfl, ?_, 1, ?_, rfl⟩
  · rwa [body, trimmed]
  · rw [body, trimmed]
    rfl

/-- The row inserted and its update come back from their stream, in order. -/
theorem sent_readsBack_demo :
    ∃ batch, convert S2Source.idDecoder ⟨true, .skip⟩
        (readRecords "ids-1" (appended [idRuns] "ids-1") [(0, 5), (1, 6)]) = .ok batch ∧
      batch.gsOp = ["i", "u"] ∧ batch.rows = [1, 1] := by
  obtain ⟨sent, each, reads⟩ :=
    sent_readsBack S2Source.idDecoder_rowsClose (.cons idBatch_routed .nil)
  have back : ReadsBack S2Source.idDecoder (fun _ => "")
      (readRecords "ids-1" (appended [idRuns] "ids-1") [(0, 5), (1, 6)])
      (part 0 2 (rowsTo sent "ids-1")) :=
    reads "ids-1" [(0, 5), (1, 6)] rfl 0 2
  have kinds : (part 0 2 (rowsTo sent "ids-1")).map SentRow.kind = ["i", "u"] :=
    back.kinds.symm
  have bodies : (part 0 2 (rowsTo sent "ids-1")).map SentRow.json =
      ["\x7b\"id\":1\x7d", "\x7b\"id\":1\x7d"] :=
    back.bodies.symm
  have decodes : List.Forall₂ (fun row value => Decodes S2Source.idDecoder row.json value)
      (part 0 2 (rowsTo sent "ids-1")) [1, 1] := by
    have shown : List.Forall₂ (Decodes S2Source.idDecoder)
        ((part 0 2 (rowsTo sent "ids-1")).map SentRow.json) [1, 1] := by
      rw [bodies]
      exact .cons decodes_id (.cons decodes_id .nil)
    exact List.forall₂_map_left_iff.mp shown
  obtain ⟨batch, converted, gsOp, rows⟩ := back.typed [1, 1] decodes ⟨true, .skip⟩
  exact ⟨batch, converted, gsOp.trans kinds, rows⟩

end StreamlingPlugins.S2
