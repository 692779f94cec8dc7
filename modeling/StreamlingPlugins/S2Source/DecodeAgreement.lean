import StreamlingPlugins.Fallible
import StreamlingPlugins.S2Source.Convert

/-!
# Decoding together and alone

One decoder reads all bodies as one stream, so what it decodes are the values of their
concatenation.  They are the bodies themselves when each body decodes alone.
-/

namespace StreamlingPlugins.S2Source

section

variable {Row : Type} {d : JsonDecoder Row}

/-- The trimmed bodies, as they are fed to the decoder. -/
def bodies (records : List SourceRecord) : List (List UInt8) :=
  records.map fun record => trimAscii record.body

/-! ## What decodes -/

theorem decodeAll_eq_ok {budget : Nat} {tape final : d.tokenizer.Tape} {buf : List UInt8} :
    decodeAll d budget tape buf = .ok final ↔
      Tokenizer.decode budget tape buf = .ok (final, []) := by
  unfold decodeAll
  split
  · rename_i empty
    subst empty
    simp [Tokenizer.decode]
  · cases decoded : Tokenizer.decode budget tape buf with
    | error e => simp
    | ok read =>
        obtain ⟨tape', rest⟩ := read
        by_cases some_rest : rest = []
        · subst some_rest
          rename_i some_buf
          have progress : 0 < buf.length := List.length_pos_of_ne_nil some_buf
          simp [progress, decodeAll]
        · -- the budget is spent, and the rest is not read at all
          have again := (Tokenizer.decode_again some_rest decoded).2
          have stuck : decodeAll d budget tape' rest = .error .budget := by
            unfold decodeAll
            simp [some_rest, again]
          simp [stuck, some_rest]

theorem decodeBodies_eq_ok {budget : Nat} {earlier records : List SourceRecord}
    {tape final : d.tokenizer.Tape} :
    decodeBodies d budget earlier tape records = .ok final ↔
      [] ∉ bodies records ∧
        Tokenizer.decode budget tape (bodies records).flatten = .ok (final, []) := by
  induction records generalizing earlier tape with
  | nil => simp [decodeBodies, bodies, Tokenizer.decode]
  | cons record records ih =>
      have split_bodies : bodies (record :: records) =
          trimAscii record.body :: bodies records := rfl
      rw [split_bodies, List.flatten_cons, Tokenizer.decode_append, List.mem_cons, not_or]
      unfold decodeBodies
      by_cases empty : trimAscii record.body = []
      · simp [empty]
      · rw [if_neg empty]
        cases decoded : decodeAll d budget tape (trimAscii record.body) with
        | error failure =>
            have unread (mid : d.tokenizer.Tape) :
                ¬ Tokenizer.decode budget tape (trimAscii record.body) = .ok (mid, []) := by
              rw [← decodeAll_eq_ok, decoded]
              intro same
              cases same
            cases failure <;> simp [unread]
        | ok mid =>
            have read := decodeAll_eq_ok.mp decoded
            simp only [ih, read, Except.ok.injEq, Prod.mk.injEq, and_true, exists_eq_left']
            constructor
            · rintro ⟨full, rest⟩
              exact ⟨⟨Ne.symm empty, full⟩, rest⟩
            · rintro ⟨⟨_, full⟩, rest⟩
              exact ⟨full, rest⟩

theorem flush_getD_eq_ok {tape : d.tokenizer.Tape} {rows : List Row} :
    (∃ batch, d.flush tape = .ok batch ∧ batch.getD [] = rows) ↔
      tape.current = none ∧ tape.values.mapM d.decodeRow = .ok rows := by
  obtain ⟨values, current⟩ := tape
  cases current with
  | some unfinished => simp [JsonDecoder.flush]
  | none =>
      by_cases no_values : values = []
      · subst no_values
        simp [JsonDecoder.flush, pure, Except.pure]
      · cases decoded : values.mapM d.decodeRow with
        | error e => simp [JsonDecoder.flush, no_values, decoded, Except.map]
        | ok rows' => simp [JsonDecoder.flush, no_values, decoded, Except.map]

/-- The records decode together when their bodies hold as many rows. -/
theorem decodeStrict_eq_ok {records : List SourceRecord} {rows : List Row} :
    decodeStrict d records = .ok rows ↔
      d.build = .ok () ∧ [] ∉ bodies records ∧
        ∃ values, d.tokenizer.Stream (bodies records).flatten values ∧
          values.length = records.length ∧ values.mapM d.decodeRow = .ok rows := by
  constructor
  · intro decoded
    obtain ⟨_, built, reading⟩ := bind_eq_ok decoded
    obtain ⟨⟨values, current⟩, read, flushing⟩ := bind_eq_ok reading
    obtain ⟨batch, flushed, counting⟩ := bind_eq_ok flushing
    obtain ⟨full, read⟩ := decodeBodies_eq_ok.mp read
    obtain ⟨finished, row_values⟩ := flush_getD_eq_ok.mp ⟨batch, mapError_eq_ok.mp flushed, rfl⟩
    simp only at finished counting row_values
    subst finished
    split at counting
    · rename_i counted
      cases counting
      have same_length := (forall₂_of_mapM_eq_ok row_values).length_eq
      exact ⟨mapError_eq_ok.mp built, full, values, (Tokenizer.decode_eq_ok_iff.mp read).1,
        same_length.trans counted, row_values⟩
    · cases counting
  · rintro ⟨built, full, values, stream, counted, row_values⟩
    have read : decodeBodies d records.length [] .empty records = .ok ⟨values, none⟩ :=
      decodeBodies_eq_ok.mpr ⟨full, Tokenizer.decode_eq_ok_iff.mpr ⟨stream, counted.le⟩⟩
    obtain ⟨batch, flushed, rfl⟩ : ∃ batch, d.flush ⟨values, none⟩ = .ok batch ∧
        batch.getD [] = rows := flush_getD_eq_ok.mpr ⟨rfl, row_values⟩
    have same_length := (forall₂_of_mapM_eq_ok row_values).length_eq
    simp only [decodeStrict, built, read, flushed, Except.mapError, bind, Except.bind,
      ← same_length, counted, if_true]

/-! ## A record alone -/

theorem trimAscii_head {bytes rest : List UInt8} {b : UInt8}
    (trimmed : trimAscii bytes = b :: rest) : isAsciiWhitespace b = false := by
  have head : (bytes.dropWhile isAsciiWhitespace).head? = some b := by
    obtain ⟨more, whole⟩ := List.rdropWhile_prefix isAsciiWhitespace
      (bytes.dropWhile isAsciiWhitespace)
    unfold trimAscii at trimmed
    rw [← whole, trimmed]
    rfl
  have := List.head?_dropWhile_not isAsciiWhitespace bytes
  simpa [head] using this

theorem trimAscii_getLast {bytes : List UInt8} (some_byte : trimAscii bytes ≠ []) :
    isAsciiWhitespace ((trimAscii bytes).getLast some_byte) = false := by
  have := List.rdropWhile_last_not isAsciiWhitespace _ some_byte
  exact Bool.eq_false_iff.mpr this

theorem isAsciiWhitespace_of_json {b : UInt8} (blank : isJsonWhitespace b) :
    isAsciiWhitespace b := by
  simp only [isJsonWhitespace, isAsciiWhitespace, decide_eq_true_eq] at blank ⊢
  tauto

/-- Values that are rows end themselves. -/
theorem closed_of_stream (closes : d.RowsClose) {items : List UInt8} {values : List (List UInt8)}
    (stream : d.tokenizer.Stream items values)
    (decodable : ∀ value ∈ values, ∃ row, d.decodeRow value = .ok row) :
    ∀ value ∈ values, d.tokenizer.Closed value := by
  induction stream with
  | nil => exact nofun
  | blank _ _ ih => exact ih decodable
  | closed closed _ ih =>
      obtain ⟨_, others⟩ := List.forall_mem_cons.mp decodable
      exact List.forall_mem_cons.mpr ⟨closed, ih others⟩
  | endsBefore ends _ _ =>
      obtain ⟨⟨row, decoded⟩, _⟩ := List.forall_mem_cons.mp decodable
      obtain ⟨e, failed⟩ := closes _ _ ends
      rw [failed] at decoded
      cases decoded

/-- A trimmed body that holds a row is this row. -/
theorem body_eq_of_stream (closes : d.RowsClose) {body value : List UInt8} {row : Row}
    (stream : d.tokenizer.Stream (trimAscii body) [value])
    (decoded : d.decodeRow value = .ok row) : trimAscii body = value := by
  generalize body_eq : trimAscii body = items at stream
  cases stream with
  | blank blank _ =>
      have not_space := trimAscii_head body_eq
      rw [isAsciiWhitespace_of_json blank] at not_space
      cases not_space
  | @closed value items values closed rest =>
      rcases List.eq_nil_or_concat items with rfl | ⟨front, last, rfl⟩
      · rw [List.append_nil]
      · rw [List.concat_eq_append] at body_eq rest
        have some_byte : trimAscii body ≠ [] := by simp [body_eq]
        have not_space := trimAscii_getLast some_byte
        have blank := rest.blanks last (by simp)
        simp only [body_eq, ← List.append_assoc, List.getLast_append_singleton] at not_space
        rw [isAsciiWhitespace_of_json blank] at not_space
        cases not_space
  | endsBefore ends _ =>
      obtain ⟨e, failed⟩ := closes _ _ ends
      rw [failed] at decoded
      cases decoded

theorem decodesAlone_iff (closes : d.RowsClose) {record : SourceRecord} {rows : List Row} :
    decodeStrict d [record] = .ok rows ↔
      d.build = .ok () ∧ d.tokenizer.Closed (trimAscii record.body) ∧
        ∃ row, d.decodeRow (trimAscii record.body) = .ok row ∧ rows = [row] := by
  rw [decodeStrict_eq_ok]
  have one_body : (bodies [record]).flatten = trimAscii record.body := by simp [bodies]
  rw [one_body]
  constructor
  · rintro ⟨built, _, values, stream, counted, row_values⟩
    obtain ⟨value, rfl⟩ := List.length_eq_one_iff.mp counted
    rcases mapM_eq_ok_iff.mp row_values with _ | ⟨decoded, ⟨⟩⟩
    have closed := closed_of_stream closes stream (by simpa using ⟨_, decoded⟩) value (by simp)
    rw [body_eq_of_stream closes stream decoded]
    exact ⟨built, closed, _, decoded, rfl⟩
  · rintro ⟨built, closed, row, decoded, rfl⟩
    have some_byte : trimAscii record.body ≠ [] := by
      obtain ⟨text, _, _, body_eq, _⟩ := closed
      simp [body_eq]
    refine ⟨built, by simpa [bodies] using some_byte.symm, [trimAscii record.body], ?_, rfl,
      mapM_eq_ok_iff.mpr (.cons decoded .nil)⟩
    have all_closed : ∀ value ∈ [trimAscii record.body], d.tokenizer.Closed value := by
      simpa using closed
    simpa using Tokenizer.stream_flatten all_closed

theorem singleton_of_decodeStrict {record : SourceRecord} {rows : List Row}
    (decoded : decodeStrict d [record] = .ok rows) : ∃ row, rows = [row] := by
  obtain ⟨_, _, values, _, counted, row_values⟩ := decodeStrict_eq_ok.mp decoded
  have same_length := (forall₂_of_mapM_eq_ok row_values).length_eq
  exact List.length_eq_one_iff.mp (same_length.symm.trans counted)

/-- Records that each decode alone decode together, row by row. -/
theorem decodeStrict_of_alone (closes : d.RowsClose) {records : List SourceRecord}
    (some_record : records ≠ [])
    (alone : ∀ record ∈ records, ∃ rows, decodeStrict d [record] = .ok rows) :
    d.tokenizer.Stream (bodies records).flatten (bodies records) ∧
      ∃ rows, decodeStrict d records = .ok rows ∧
        List.Forall₂ (fun record row => decodeStrict d [record] = .ok [row]) records rows := by
  have closed : ∀ body ∈ bodies records, d.tokenizer.Closed body := by
    simp only [bodies, List.forall_mem_map]
    intro record mem
    obtain ⟨rows, decoded⟩ := alone record mem
    exact ((decodesAlone_iff closes).mp decoded).2.1
  have stream := Tokenizer.stream_flatten closed
  obtain ⟨first, first_mem⟩ := List.exists_mem_of_ne_nil records some_record
  obtain ⟨_, first_decoded⟩ := alone first first_mem
  have each : ∀ record ∈ records, ∃ row, decodeStrict d [record] = .ok [row] := by
    intro record mem
    obtain ⟨rows, decoded⟩ := alone record mem
    obtain ⟨row, rfl⟩ := singleton_of_decodeStrict decoded
    exact ⟨row, decoded⟩
  obtain ⟨rows, pairs⟩ := exists_forall₂_of_forall_mem each
  refine ⟨stream, rows, decodeStrict_eq_ok.mpr
    ⟨(decodeStrict_eq_ok.mp first_decoded).1, ?_, bodies records, stream, by simp [bodies],
      mapM_eq_ok_iff.mpr ?_⟩, pairs⟩
  · intro empty
    obtain ⟨text, _, _, body_eq, _⟩ := closed [] empty
    simp at body_eq
  · refine List.forall₂_map_left_iff.mpr (pairs.imp fun record row decoded => ?_)
    obtain ⟨_, _, row', row_eq, same⟩ := (decodesAlone_iff closes).mp decoded
    cases same
    exact row_eq

/-! ## Converting -/

variable (d) in
/-- The records that decode alone, each with its row. -/
def decodedAlone (records : List SourceRecord) : List (SourceRecord × Row) :=
  records.filterMap fun record =>
    match decodeStrict d [record] with
    | .ok [row] => some (record, row)
    | _ => none

theorem decodedAlone_of_forall₂ {records : List SourceRecord} {rows : List Row}
    (pairs : List.Forall₂ (fun record row => decodeStrict d [record] = .ok [row]) records rows) :
    (decodedAlone d records).map Prod.fst = records ∧
      (decodedAlone d records).map Prod.snd = rows := by
  induction pairs with
  | nil => exact ⟨rfl, rfl⟩
  | cons decoded _ ih =>
      unfold decodedAlone at ih ⊢
      rw [List.filterMap_cons, decoded]
      exact ⟨congrArg _ ih.1, congrArg _ ih.2⟩

theorem decodeSkipping_spec {records : List SourceRecord} {indexed : List (SourceRecord × Nat)}
    (from_records : ∀ entry ∈ indexed, records[entry.2]? = some entry.1) :
    (decodeSkipping d indexed).1 = (decodedAlone d (indexed.map Prod.fst)).map Prod.snd ∧
      ((decodeSkipping d indexed).2.filterMap fun i => records[i]?) =
        (decodedAlone d (indexed.map Prod.fst)).map Prod.fst := by
  induction indexed with
  | nil => exact ⟨rfl, rfl⟩
  | cons entry indexed ih =>
      obtain ⟨record, index⟩ := entry
      obtain ⟨at_index, others⟩ := List.forall_mem_cons.mp from_records
      obtain ⟨rows_eq, kept_eq⟩ := ih others
      simp only at at_index
      unfold decodeSkipping decodedAlone
      cases decoded : decodeStrict d [record] with
      | error e =>
          simp only [List.map_cons, List.filterMap_cons, decoded]
          exact ⟨rows_eq, kept_eq⟩
      | ok rows =>
          obtain ⟨row, rfl⟩ := singleton_of_decodeStrict decoded
          simp only [List.map_cons, List.filterMap_cons, decoded, at_index]
          exact ⟨congrArg _ rows_eq, congrArg _ kept_eq⟩

theorem tryNew_describe {includeMetadata : Bool} {kept : List SourceRecord} {rows : List Row}
    (same_length : rows.length = kept.length) :
    (describe includeMetadata kept rows).tryNew = .ok (describe includeMetadata kept rows) := by
  unfold RecordBatch.tryNew
  rw [if_pos]
  cases includeMetadata <;> simp [describe, metadataArrays, same_length]

/-- Skipping keeps the records that decode alone, each with its row. -/
theorem convert_skipping {includeMetadata : Bool} {records : List SourceRecord} {e : PluginError}
    (some_record : records ≠ []) (failed : decodeStrict d records = .error e) :
    convert d ⟨includeMetadata, .skip⟩ records =
      .ok (describe includeMetadata ((decodedAlone d records).map Prod.fst)
        ((decodedAlone d records).map Prod.snd)) := by
  have indexed : ∀ entry ∈ records.zipIdx, records[entry.2]? = some entry.1 :=
    fun _ mem => List.mem_zipIdx_iff_getElem?.mp mem
  obtain ⟨rows_eq, kept_eq⟩ := decodeSkipping_spec (d := d) indexed
  rw [List.zipIdx_map_fst] at rows_eq kept_eq
  unfold convert
  rw [if_neg some_record, failed]
  simp only [rows_eq, kept_eq]
  exact tryNew_describe (by simp)

/-! ## Agreement -/

/-- Decoding together agrees with decoding each record alone, and what is converted
describes the record that its row was decoded from. -/
structure DecodesAgree (d : JsonDecoder Row) (records : List SourceRecord) : Prop where
  decodes : (∃ rows, decodeStrict d records = .ok rows) ↔
    ∀ record ∈ records, ∃ rows, decodeStrict d [record] = .ok rows
  rows : ∀ rows, decodeStrict d records = .ok rows →
    List.Forall₂ (fun record row => decodeStrict d [record] = .ok [row]) records rows
  describes : ∀ mode batch, convert d mode records = .ok batch →
    batch = describe mode.includeMetadata ((decodedAlone d records).map Prod.fst)
      ((decodedAlone d records).map Prod.snd)
  skips : ∀ includeMetadata, ∃ batch, convert d ⟨includeMetadata, .skip⟩ records = .ok batch

/-- The bodies hold as many rows as there are, but are not these rows. -/
def Straddles (d : JsonDecoder Row) (records : List SourceRecord) : Prop :=
  d.build = .ok () ∧ [] ∉ bodies records ∧
    ∃ values, d.tokenizer.Stream (bodies records).flatten values ∧
      values.length = records.length ∧ (∀ value ∈ values, ∃ row, d.decodeRow value = .ok row) ∧
      values ≠ bodies records

theorem agree_of_decodes {records : List SourceRecord} {rows : List Row}
    (some_record : records ≠ []) (decoded : decodeStrict d records = .ok rows)
    (pairs : List.Forall₂ (fun record row => decodeStrict d [record] = .ok [row]) records rows) :
    DecodesAgree d records := by
  obtain ⟨kept_eq, rows_eq⟩ := decodedAlone_of_forall₂ pairs
  have converted (mode : TypedMode) :
      convert d mode records = .ok (describe mode.includeMetadata records rows) := by
    unfold convert
    rw [if_neg some_record, decoded]
    exact tryNew_describe pairs.length_eq.symm
  refine ⟨⟨fun _ record mem => ?_, fun _ => ⟨rows, decoded⟩⟩, ?_, ?_, fun _ => ⟨_, converted _⟩⟩
  · obtain ⟨row, alone⟩ := exists_of_mem_of_forall₂ pairs mem
    exact ⟨_, alone⟩
  · intro rows' decoded'
    cases decoded.symm.trans decoded'
    exact pairs
  · intro mode batch converted'
    cases (converted mode).symm.trans converted'
    rw [kept_eq, rows_eq]

theorem agree_of_fails {records : List SourceRecord} {e : PluginError}
    (some_record : records ≠ []) (failed : decodeStrict d records = .error e)
    (some_alone : ¬ ∀ record ∈ records, ∃ rows, decodeStrict d [record] = .ok rows) :
    DecodesAgree d records := by
  refine ⟨⟨?_, fun all => absurd all some_alone⟩, ?_, ?_,
    fun _ => ⟨_, convert_skipping some_record failed⟩⟩
  · rintro ⟨rows, decoded⟩
    rw [failed] at decoded
    cases decoded
  · intro rows decoded
    rw [failed] at decoded
    cases decoded
  · rintro ⟨includeMetadata, onMalformed⟩ batch converted
    cases onMalformed with
    | error =>
        simp only [convert, if_neg some_record, failed] at converted
        cases converted
    | skip =>
        rw [convert_skipping some_record failed] at converted
        cases converted
        rfl

theorem not_agree_of_straddles (closes : d.RowsClose) {records : List SourceRecord}
    (some_record : records ≠ []) (straddles : Straddles d records) : ¬ DecodesAgree d records := by
  obtain ⟨built, full, values, stream, counted, decodable, not_bodies⟩ := straddles
  obtain ⟨rows, pairs⟩ := exists_forall₂_of_forall_mem decodable
  have decoded := decodeStrict_eq_ok.mpr
    ⟨built, full, values, stream, counted, mapM_eq_ok_iff.mpr pairs⟩
  intro agree
  have alone := agree.decodes.mp ⟨rows, decoded⟩
  exact not_bodies (stream.unique (decodeStrict_of_alone closes some_record alone).1)

/-- Decoding together agrees with decoding alone unless a row straddles two bodies. -/
theorem decodesAgree_iff (closes : d.RowsClose) {records : List SourceRecord}
    (some_record : records ≠ []) : DecodesAgree d records ↔ ¬ Straddles d records := by
  constructor
  · exact fun agree straddles => not_agree_of_straddles closes some_record straddles agree
  · intro apart
    cases decoded : decodeStrict d records with
    | error e =>
        refine agree_of_fails some_record decoded fun all => ?_
        obtain ⟨_, rows, together, _⟩ := decodeStrict_of_alone closes some_record all
        rw [decoded] at together
        cases together
    | ok rows =>
        obtain ⟨built, full, values, stream, counted, row_values⟩ := decodeStrict_eq_ok.mp decoded
        have decodable : ∀ value ∈ values, ∃ row, d.decodeRow value = .ok row :=
          fun _ mem => exists_of_mem_of_forall₂ (forall₂_of_mapM_eq_ok row_values) mem
        have values_eq : values = bodies records := by
          by_contra not_bodies
          exact apart ⟨built, full, values, stream, counted, decodable, not_bodies⟩
        subst values_eq
        have closed := closed_of_stream closes stream decodable
        have alone : ∀ record ∈ records, ∃ rows, decodeStrict d [record] = .ok rows := by
          intro record mem
          have body_mem : trimAscii record.body ∈ bodies records := List.mem_map_of_mem mem
          obtain ⟨row, row_eq⟩ := decodable _ body_mem
          exact ⟨[row], (decodesAlone_iff closes).mpr ⟨built, closed _ body_mem, row, row_eq, rfl⟩⟩
        obtain ⟨_, rows', together, pairs⟩ := decodeStrict_of_alone closes some_record alone
        cases decoded.symm.trans together
        exact agree_of_decodes some_record decoded pairs

end

/-! ## Objects with an `id` -/

/-- The rows of the schema `id:int64`, for ids of one digit: objects are read to the brace
that closes them. -/
def idDecoder : JsonDecoder Int where
  build := .ok ()
  State := Nat
  enter := fun b => if b = 123 then .ok 1 else .error "expected \x7b"
  next := fun depth b =>
    if b = 123 then .ok (.inside (depth + 1))
    else if b = 125 then if depth = 1 then .ok .closes else .ok (.inside (depth - 1))
    else .ok (.inside depth)
  truncated := fun _ => "Truncated record whilst reading object"
  decodeRow := fun value =>
    match value with
    | [123, 34, 105, 100, 34, 58, digit, 125] => .ok (digit.toNat - 48)
    | _ => .error "expected an id"

theorem idDecoder_rowsClose : idDecoder.RowsClose := by
  rintro value item ⟨depth, _, follows⟩
  simp only [JsonDecoder.tokenizer, idDecoder] at follows
  split at follows
  · cases follows
  · split at follows
    · split at follows <;> cases follows
    · cases follows

def idRecord (seqNum : UInt64) (body : String) : SourceRecord :=
  ⟨"events", seqNum, 0, [], utf8 body⟩

/-- Two records whose bodies are the two rows. -/
theorem decodesAgree_two_ids :
    DecodesAgree idDecoder [idRecord 0 "\x7b\"id\":1\x7d", idRecord 1 " \x7b\"id\":2\x7d\n"] := by
  refine (decodesAgree_iff idDecoder_rowsClose (by simp)).mpr ?_
  rintro ⟨_, _, values, stream, counted, _, not_bodies⟩
  have read := Tokenizer.decode_eq_ok_iff.mpr ⟨stream, counted.le⟩
  cases read
  exact not_bodies rfl

/-- A row that ends in the body of the next record is taken for two rows of two records. -/
theorem not_decodesAgree_cut :
    ¬ DecodesAgree idDecoder [idRecord 0 "\x7b\"id\":1", idRecord 1 "\x7d\x7b\"id\":2\x7d"] := by
  refine not_agree_of_straddles idDecoder_rowsClose (by simp) ⟨rfl, by decide, ?_⟩
  have read : Tokenizer.decode 2 (.empty : idDecoder.tokenizer.Tape)
      (utf8 "\x7b\"id\":1\x7d\x7b\"id\":2\x7d") =
      .ok (⟨[utf8 "\x7b\"id\":1\x7d", utf8 "\x7b\"id\":2\x7d"], none⟩, []) := rfl
  refine ⟨_, (Tokenizer.decode_eq_ok_iff.mp read).1, rfl, ?_, by decide⟩
  · simp only [List.forall_mem_cons]
    exact ⟨⟨1, rfl⟩, ⟨2, rfl⟩, nofun⟩

end StreamlingPlugins.S2Source
