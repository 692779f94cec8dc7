import StreamlingPlugins.MySql.RowOrder

/-!
# Applying a batch twice

A batch that was applied is applied again after a crash.  With a column outside
the primary key its statements upsert and delete, and the table stays as it is.
Without one there is nothing to update on a duplicate key, so the inserts of the
batch are plain ones and succeed again only if the batch deletes what it inserts.
-/

namespace StreamlingPlugins.MySql

variable {Value : Type} [DecidableEq Value]

/-! ## Plain inserts -/

namespace Layout

variable {layout : Layout} {t t' : Table (List (Cell Value)) (TableRow Value)}

/-- A plain insert needs its key to be new. -/
theorem insertRow_plain {row : TableRow Value} :
    layout.insertRow false [] t row = some t' ↔
      t (layout.keyOf row) = none ∧ (layout.upsert row).apply t = t' := by
  unfold insertRow
  cases held : t (layout.keyOf row) with
  | none => simp [upsert, Change.apply]
  | some old => simp

/-- Plain inserts need new keys, no two of them equal. -/
theorem foldlM_insertRow_plain {rows : List (TableRow Value)} :
    rows.foldlM (layout.insertRow false []) t = some t' ↔
      (rows.map layout.keyOf).Nodup ∧ (∀ row ∈ rows, t (layout.keyOf row) = none) ∧
        Change.replay t (rows.map layout.upsert) = t' := by
  induction rows generalizing t with
  | nil => simp
  | cons row rows ih =>
      have steps : (row :: rows).foldlM (layout.insertRow false []) t = some t' ↔
          t (layout.keyOf row) = none ∧
            rows.foldlM (layout.insertRow false []) ((layout.upsert row).apply t) = some t' := by
        rw [List.foldlM_cons]
        constructor
        · intro inserted
          obtain ⟨next, first, rest⟩ := Option.bind_eq_some_iff.mp inserted
          obtain ⟨fresh, rfl⟩ := insertRow_plain.mp first
          exact ⟨fresh, rest⟩
        · rintro ⟨fresh, rest⟩
          exact Option.bind_eq_some_iff.mpr ⟨_, insertRow_plain.mpr ⟨fresh, rfl⟩, rest⟩
      have others : (∀ r ∈ rows, (layout.upsert row).apply t (layout.keyOf r) = none) ↔
          layout.keyOf row ∉ rows.map layout.keyOf ∧ ∀ r ∈ rows, t (layout.keyOf r) = none := by
        constructor
        · intro fresh
          refine ⟨fun taken => ?_, fun r member => ?_⟩
          · obtain ⟨r, member, same⟩ := List.mem_map.mp taken
            have held : (layout.upsert row).apply t (layout.keyOf row) = some row :=
              Change.apply_self ..
            rw [← same, fresh r member] at held
            cases held
          · have unset := fresh r member
            rcases eq_or_ne (layout.keyOf r) (layout.keyOf row) with same | other
            · have held : (layout.upsert row).apply t (layout.keyOf row) = some row :=
                Change.apply_self ..
              rw [← same, unset] at held
              cases held
            · rwa [Change.apply_of_ne t other] at unset
        · rintro ⟨new, fresh⟩ r member
          have other : layout.keyOf r ≠ layout.keyOf row := fun same =>
            new (same ▸ List.mem_map_of_mem member)
          exact (Change.apply_of_ne t other).trans (fresh r member)
      rw [steps, ih, others, List.map_cons, List.nodup_cons, List.forall_mem_cons, List.map_cons,
        Change.replay_cons]
      tauto

end Layout

/-! ## The batch, twice -/

namespace MySqlSink

variable {sink : MySqlSink} {batch : RecordBatch Value}
  {t t' : Table (List (Cell Value)) (TableRow Value)}

/-- The changes of a batch: its upserts and then its removals. -/
def changes (sink : MySqlSink) (batch : RecordBatch Value) :
    List (Change (List (Cell Value)) (TableRow Value)) :=
  sink.upserts batch (sink.insertIndices batch) ++ sink.removals batch (sink.deleteIndices batch)

/-- Without a column outside the key a batch succeeds exactly if all rows it
inserts are new, and then its changes are made. -/
theorem processBatch_plain (upserting : sink.Upserting) (full : sink.FullKeys batch)
    (keyed : sink.layout.WellKeyed t) (bound : sink.Bound batch)
    (bare : sink.sinkColumnNames.filter (· ∉ sink.primaryKeyColumns) = []) :
    sink.executeAll t (sink.processBatch batch) = some t' ↔
      (((sink.insertIndices batch).map (sink.row batch)).map sink.layout.keyOf).Nodup ∧
        (∀ row ∈ (sink.insertIndices batch).map (sink.row batch),
          t (sink.layout.keyOf row) = none) ∧
        Change.replay t (sink.changes batch) = t' := by
  have upserts := bound.upserts
  rw [← flatten_chunks sink.chunkSize (sink.insertIndices batch)] at upserts
  rw [processBatch, executeAll_append, executeAll_inserts upserting upserts, flatten_chunks, bare,
    Option.bind_eq_some_iff]
  have upserted : sink.layout.WellKeyed
      (Change.replay t (sink.upserts batch (sink.insertIndices batch))) :=
    wellKeyed_upserts keyed _
  have deleted := executeAll_deletes upserting full upserted bound
  rw [changes, Change.replay_append]
  constructor
  · rintro ⟨next, inserted, rest⟩
    obtain ⟨distinct, fresh, rfl⟩ := Layout.foldlM_insertRow_plain.mp inserted
    rw [List.map_map] at rest
    exact ⟨distinct, fresh, Option.some.inj (deleted.symm.trans rest)⟩
  · rintro ⟨distinct, fresh, replayed⟩
    refine ⟨_, Layout.foldlM_insertRow_plain.mpr ⟨distinct, fresh, rfl⟩, ?_⟩
    rw [List.map_map]
    exact deleted.trans (congrArg some replayed)

/-- A key that the batch deletes is gone afterwards. -/
theorem changes_deleted {i j : Nat} (deletion : j ∈ sink.deleteIndices batch)
    (same : sink.layout.keyOf (sink.row batch j) = sink.layout.keyOf (sink.row batch i)) :
    Change.replay t (sink.changes batch) (sink.layout.keyOf (sink.row batch i)) = none := by
  have removed : sink.removals batch (sink.deleteIndices batch) =
      ((sink.deleteIndices batch).map fun i => sink.layout.keyOf (sink.row batch i)).map
        fun key => ⟨key, none⟩ := by
    rw [List.map_map]
    rfl
  rw [changes, Change.replay_append, removed, Change.replay_removals, if_pos]
  exact same ▸ List.mem_map_of_mem deletion

/-- A key that the batch inserts and does not delete is there afterwards. -/
theorem changes_inserted {i : Nat} (insertion : i ∈ sink.insertIndices batch)
    (kept : ∀ j ∈ sink.deleteIndices batch,
      sink.layout.keyOf (sink.row batch j) ≠ sink.layout.keyOf (sink.row batch i)) :
    Change.replay t (sink.changes batch) (sink.layout.keyOf (sink.row batch i)) ≠ none := by
  have untouched : ∀ c ∈ sink.removals batch (sink.deleteIndices batch),
      c.key ≠ sink.layout.keyOf (sink.row batch i) := List.forall_mem_map.mpr kept
  rw [changes, Change.replay_append, Change.replay_of_forall_ne _ untouched, Change.replay_apply,
    lastFor_upserts]
  have listed : i ∈ (sink.insertIndices batch).filter fun j =>
      sink.layout.keyOf (sink.row batch j) = sink.layout.keyOf (sink.row batch i) :=
    List.mem_filter.mpr ⟨insertion, by simp⟩
  obtain ⟨last, found⟩ := Option.ne_none_iff_exists'.mp
    (mt List.getLast?_eq_none_iff.mp (List.ne_nil_of_mem listed))
  rw [found]
  exact Option.some_ne_none _

/-- **A batch that succeeded succeeds again and changes nothing**, if and only if
there is a column outside the key or the batch deletes every key it inserts. -/
theorem processBatch_again_iff (upserting : sink.Upserting) (full : sink.FullKeys batch)
    (keyed : sink.layout.WellKeyed t)
    (applied : sink.executeAll t (sink.processBatch batch) = some t') :
    sink.executeAll t' (sink.processBatch batch) = some t' ↔
      (∃ c ∈ sink.sinkColumnNames, c ∉ sink.primaryKeyColumns) ∨
        ∀ i ∈ sink.insertIndices batch, ∃ j ∈ sink.deleteIndices batch,
          sink.layout.keyOf (sink.row batch j) = sink.layout.keyOf (sink.row batch i) := by
  have bound := bound_of_executeAll upserting applied
  have keyed_after : sink.layout.WellKeyed (Change.replay t (sink.changes batch)) := by
    rw [changes, Change.replay_append]
    exact wellKeyed_removals (wellKeyed_upserts keyed _) _
  rcases eq_or_ne (sink.sinkColumnNames.filter (· ∉ sink.primaryKeyColumns)) [] with bare | some_column
  · have none_outside : ¬ ∃ c ∈ sink.sinkColumnNames, c ∉ sink.primaryKeyColumns := by
      simpa using bare
    obtain ⟨distinct, _, rfl⟩ := (processBatch_plain upserting full keyed bound bare).mp applied
    rw [processBatch_plain upserting full keyed_after bound bare, or_iff_right none_outside]
    constructor
    · rintro ⟨_, fresh, _⟩ i insertion
      by_contra kept
      exact changes_inserted insertion (fun j deletion same => kept ⟨j, deletion, same⟩)
        (fresh _ (List.mem_map_of_mem insertion))
    · intro deletes
      refine ⟨distinct, List.forall_mem_map.mpr fun i insertion => ?_, Change.replay_replay t _⟩
      obtain ⟨j, deletion, same⟩ := deletes i insertion
      exact changes_deleted deletion same
  · have configured : sink.Configured := ⟨upserting.distinct, upserting.keyed, upserting.subset,
      some_column, upserting.update, upserting.positive⟩
    have outside : ∃ c ∈ sink.sinkColumnNames, c ∉ sink.primaryKeyColumns := by
      simpa using some_column
    rw [processBatch_replays configured full keyed bound, ← Change.replay_append] at applied
    cases applied
    rw [← changes]
    rw [processBatch_replays configured full keyed_after bound, ← Change.replay_append, ← changes,
      Change.replay_replay]
    simp [outside]

end MySqlSink

/-! ## A table of keys only -/

section Demo

/-- A sink for `(_gs_op, id)` with primary key `id` and defaults elsewhere. -/
def idsSink : MySqlSink where
  lookup key := if key = "primary_key" then some "id" else none
  schema := ["_gs_op", "id"]

/-- One inserted id, deleted again or not. -/
def idBatch (deleted : Bool) : RecordBatch Nat where
  numRows := if deleted then 2 else 1
  columns := if deleted then [.utf8 [some "i", some "d"], .other [some 1, some 1]]
    else [.utf8 [some "i"], .other [some 1]]
  lengths := by cases deleted <;> decide

theorem idsSink_upserting : idsSink.Upserting where
  distinct := by decide
  keyed := by decide
  subset := by decide
  update := by decide
  positive := by decide

theorem idsSink_fullKeys (deleted : Bool) : idsSink.FullKeys (idBatch deleted) := by
  unfold MySqlSink.FullKeys
  cases deleted <;> decide

theorem wellKeyed_empty : idsSink.layout.WellKeyed
    (fun _ => none : Table (List (Cell Nat)) (TableRow Nat)) :=
  fun _ _ held => nomatch held

/-- The batch that inserted an id fails when it is applied again. -/
theorem MySqlSink.replayed_id_fails : ¬ ∀ (sink : MySqlSink) (batch : RecordBatch Nat)
    (t t' : Table (List (Cell Nat)) (TableRow Nat)), sink.Upserting → sink.FullKeys batch →
      sink.layout.WellKeyed t → sink.executeAll t (sink.processBatch batch) = some t' →
        sink.executeAll t' (sink.processBatch batch) = some t' := by
  intro idempotent
  have again := idempotent idsSink (idBatch false) _ _ idsSink_upserting (idsSink_fullKeys false)
    wellKeyed_empty rfl
  have failed : (idsSink.executeAll (Function.update (fun _ => none) [some (.value 1)]
      (some [some (.value 1)])) (idsSink.processBatch (idBatch false))).isNone := by
    decide
  rw [Option.isNone_iff_eq_none] at failed
  exact absurd (again.symm.trans failed) (Option.some_ne_none _)

theorem MySqlSink.processBatch_again_iff_ids :
    ∃ t', idsSink.executeAll (fun _ => none) (idsSink.processBatch (idBatch true)) = some t' ∧
      (idsSink.executeAll t' (idsSink.processBatch (idBatch true)) = some t' ↔
        (∃ c ∈ idsSink.sinkColumnNames, c ∉ idsSink.primaryKeyColumns) ∨
          ∀ i ∈ idsSink.insertIndices (idBatch true), ∃ j ∈ idsSink.deleteIndices (idBatch true),
            idsSink.layout.keyOf (idsSink.row (idBatch true) j) =
              idsSink.layout.keyOf (idsSink.row (idBatch true) i)) :=
  ⟨_, rfl, MySqlSink.processBatch_again_iff idsSink_upserting (idsSink_fullKeys true)
    wellKeyed_empty rfl⟩

end Demo

end StreamlingPlugins.MySql
