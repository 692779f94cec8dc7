import StreamlingPlugins.Fallible
import StreamlingPlugins.Machine
import StreamlingPlugins.PostgresCdc.Store

/-!
# Restarting from the persisted value

`StorableProjection` says what a restart may keep of a live cache: for each table
the storable states of `history ++ [current]`, and everything else unchanged.
`fromPersisted_toPersisted` shows that the persisted value carries exactly that,
for a well-formed cache, and the operations keep the cache well-formed.
-/

namespace StreamlingPlugins.PostgresCdc

open Std

variable {TableState PgType Mask : Type} {etl : Etl TableState PgType Mask}

/-- What is assumed of etl: masks survive their bytes, and an applied schema
accepts a change. -/
structure Etl.Lawful (etl : Etl TableState PgType Mask) : Prop where
  fromBytes_toBytes : ∀ mask, etl.fromBytes (etl.toBytes mask) = mask
  withSchemaChange_applied : ∀ tableId previous previousMask snapshotId mask,
    etl.withSchemaChange (.newApplied tableId previous previousMask) snapshotId mask =
      .ok ⟨tableId, .applying snapshotId mask previous previousMask⟩

/-- A built-in Postgres type is found by its oid. -/
def Etl.BuiltIn (etl : Etl TableState PgType Mask) (typ : PgType) : Prop :=
  etl.fromOid (etl.oid typ) = some typ

/-! ## The storable projection -/

/-- The storable states of a table, oldest first. -/
def Etl.storableChain (etl : Etl TableState PgType Mask) (inner : Inner TableState PgType Mask)
    (tableId : TableId) : List TableState :=
  (inner.history tableId ++ inner.tableStates[tableId]?.toList).filter etl.shouldStore

/-- `restored` is what a restart may keep of `live`. -/
structure StorableProjection (etl : Etl TableState PgType Mask)
    (live restored : Inner TableState PgType Mask) : Prop where
  tableStates : ∀ tableId : TableId,
    restored.tableStates[tableId]? = (etl.storableChain live tableId).getLast?
  tableStateHistory : ∀ tableId : TableId, restored.tableStateHistory[tableId]? =
    if (etl.storableChain live tableId).dropLast = [] then none
      else some (etl.storableChain live tableId).dropLast
  tableSchemas : restored.tableSchemas = live.tableSchemas
  destinationTablesMetadata : restored.destinationTablesMetadata = live.destinationTablesMetadata
  replicationCheckpoints : restored.replicationCheckpoints = live.replicationCheckpoints

/-- Every schema version has a property, and is stored under its own id and snapshot. -/
def SchemasKeyed (Holds : TableSchema PgType → Prop)
    (schemas : BTreeMap TableId (BTreeMap SnapshotId (TableSchema PgType))) : Prop :=
  ∀ tableId snapshotId schema, schemas.versions (tableId, snapshotId) = some schema →
    schema.id = tableId ∧ schema.snapshotId = snapshotId ∧ Holds schema

/-- What the operations keep: no history without a state, no table without a
schema version, and every version under its own id and snapshot. -/
structure Inner.WellFormed (etl : Etl TableState PgType Mask)
    (inner : Inner TableState PgType Mask) : Prop where
  history : ∀ tableId : TableId, inner.tableStates[tableId]? = none → inner.history tableId = []
  filled : inner.tableSchemas.NoneEmpty
  keyed : SchemasKeyed (fun schema => ∀ column ∈ schema.columnSchemas, etl.BuiltIn column.typ)
    inner.tableSchemas

section

variable {Holds : TableSchema PgType → Prop}

theorem SchemasKeyed.empty :
    SchemasKeyed Holds (∅ : BTreeMap TableId (BTreeMap SnapshotId (TableSchema PgType))) := by
  intro tableId snapshotId schema version
  simp [BTreeMap.versions] at version

/-- A version that is stored under its own id and snapshot. -/
theorem SchemasKeyed.insertVersion
    {schemas : BTreeMap TableId (BTreeMap SnapshotId (TableSchema PgType))}
    (keyed : SchemasKeyed Holds schemas) {schema : TableSchema PgType} (holds : Holds schema) :
    SchemasKeyed Holds (schemas.insertVersion schema.id schema.snapshotId schema) := by
  intro tableId snapshotId stored version
  rw [BTreeMap.versions_insertVersion] at version
  by_cases same : (tableId, snapshotId) = (schema.id, schema.snapshotId)
  · rw [same, Change.apply_self] at version
    obtain rfl := Option.some.inj version
    obtain ⟨rfl, rfl⟩ := Prod.mk.inj same
    exact ⟨rfl, rfl, holds⟩
  · rw [Change.apply_of_ne _ same] at version
    exact keyed tableId snapshotId stored version

end

section RoundTrip

variable {inner : Inner TableState PgType Mask}

/-! ## Each part survives -/

theorem Etl.restoreColumn_persistColumn {column : ColumnSchema PgType}
    (builtIn : etl.BuiltIn column.typ) : etl.restoreColumn (etl.persistColumn column) = column := by
  cases column
  simp_all [Etl.restoreColumn, Etl.persistColumn, Etl.BuiltIn]

theorem Etl.restoreTableSchema_persistTableSchema {schema : TableSchema PgType}
    (builtIn : ∀ column ∈ schema.columnSchemas, etl.BuiltIn column.typ) :
    etl.restoreTableSchema (etl.persistTableSchema schema) = schema := by
  have columns : (schema.columnSchemas.map etl.persistColumn).map etl.restoreColumn =
      schema.columnSchemas := by
    rw [List.map_map]
    exact (List.map_congr_left fun column member =>
      Etl.restoreColumn_persistColumn (builtIn column member)).trans (List.map_id _)
  cases schema
  simp_all [Etl.restoreTableSchema, Etl.persistTableSchema]

theorem Etl.restoreDestinationMetadata_persist (lawful : etl.Lawful) (tableId : TableId)
    (metadata : DestinationTableMetadata Mask) :
    etl.restoreDestinationMetadata (etl.persistDestinationMetadata tableId metadata) =
      .ok metadata := by
  obtain ⟨name, schema⟩ := metadata
  cases schema with
  | creating snapshotId mask =>
      simp [Etl.restoreDestinationMetadata, Etl.persistDestinationMetadata,
        Etl.persistDestinationSchema, lawful.fromBytes_toBytes, DestinationTableMetadata.newCreating]
  | applying snapshotId mask previousSnapshotId previousMask =>
      simp only [Etl.restoreDestinationMetadata, Etl.persistDestinationMetadata,
        Etl.persistDestinationSchema, lawful.fromBytes_toBytes, lawful.withSchemaChange_applied,
        restoreSnapshotId_persistSnapshotId]
  | applied snapshotId mask =>
      simp [Etl.restoreDestinationMetadata, Etl.persistDestinationMetadata,
        Etl.persistDestinationSchema, lawful.fromBytes_toBytes, DestinationTableMetadata.newApplied]

/-- The states a run of entries restores, and the histories of those that have one. -/
theorem Etl.foldl_restoreTableState (entries : List (PersistedTableStateEntry TableState))
    (inner : Inner TableState PgType Mask) :
    entries.foldl restoreTableState inner =
      { inner with
        tableStates := entries.foldl (fun m e => m.insert e.tableId e.current) inner.tableStates
        tableStateHistory := (entries.filter fun e => ¬ e.history = []).foldl
          (fun m e => m.insert e.tableId e.history) inner.tableStateHistory } := by
  induction entries generalizing inner with
  | nil => rfl
  | cons e entries ih =>
      rw [List.foldl_cons, ih]
      by_cases bare : e.history = [] <;> simp [restoreTableState, bare]

theorem Etl.persistTableState_eq_some {tableId : TableId} {current : TableState}
    {entry : PersistedTableStateEntry TableState}
    (held : inner.tableStates[tableId]? = some current) :
    etl.persistTableState inner tableId current = some entry ↔
      entry.tableId = tableId ∧ (etl.storableChain inner tableId).getLast? = some entry.current ∧
        entry.history = (etl.storableChain inner tableId).dropLast := by
  obtain ⟨id, current', history⟩ := entry
  have chain : etl.storableChain inner tableId =
      (inner.history tableId ++ [current]).filter etl.shouldStore := by
    simp [Etl.storableChain, held]
  simp only [Etl.persistTableState, ← chain, Option.map_eq_some_iff,
    PersistedTableStateEntry.mk.injEq]
  constructor
  · rintro ⟨last, found, rfl, rfl, rfl⟩
    exact ⟨rfl, found, rfl⟩
  · rintro ⟨rfl, found, rfl⟩
    exact ⟨current', found, rfl, rfl, rfl⟩

/-- A table has an entry exactly when it has a state and a storable chain; the
entry splits the chain at its last state. -/
theorem Etl.mem_toPersisted_tableStates {entry : PersistedTableStateEntry TableState} :
    entry ∈ (etl.toPersisted inner).tableStates ↔
      (∃ current, inner.tableStates[entry.tableId]? = some current) ∧
        (etl.storableChain inner entry.tableId).getLast? = some entry.current ∧
        entry.history = (etl.storableChain inner entry.tableId).dropLast := by
  simp only [Etl.toPersisted, List.mem_filterMap, Prod.exists,
    ExtTreeMap.mem_toList_iff_getElem?_eq_some]
  constructor
  · rintro ⟨tableId, current, held, persisted⟩
    obtain ⟨rfl, rest⟩ := (etl.persistTableState_eq_some held).mp persisted
    exact ⟨⟨current, held⟩, rest⟩
  · rintro ⟨⟨current, held⟩, rest⟩
    exact ⟨entry.tableId, current, held, (etl.persistTableState_eq_some held).mpr ⟨rfl, rest⟩⟩

/-- A table without a state has no storable chain. -/
theorem Inner.WellFormed.storableChain_of_none (wf : inner.WellFormed etl) {tableId : TableId}
    (absent : inner.tableStates[tableId]? = none) : etl.storableChain inner tableId = [] := by
  simp [Etl.storableChain, absent, wf.history tableId absent]

/-- A table with a storable chain has a state. -/
theorem Inner.WellFormed.exists_of_storableChain (wf : inner.WellFormed etl) {tableId : TableId}
    (nonempty : etl.storableChain inner tableId ≠ []) :
    ∃ current, inner.tableStates[tableId]? = some current := by
  by_contra absent
  push Not at absent
  exact nonempty (wf.storableChain_of_none (Option.eq_none_iff_forall_ne_some.mpr absent))

/-- The restored states are the last storable ones. -/
theorem Inner.WellFormed.restore_tableStates (wf : inner.WellFormed etl) (tableId : TableId) :
    ((etl.toPersisted inner).tableStates.foldl
      (fun (m : BTreeMap TableId TableState) e => m.insert e.tableId e.current) ∅)[tableId]? =
        (etl.storableChain inner tableId).getLast? := by
  refine BTreeMap.foldl_insert_getElem? (fun e member => ?_)
    (t := fun tableId => (etl.storableChain inner tableId).getLast?) (fun tableId held => ?_) tableId
  · exact (Etl.mem_toPersisted_tableStates.mp member).2.1
  · obtain ⟨last, found⟩ := Option.ne_none_iff_exists'.mp held
    have current := wf.exists_of_storableChain (List.ne_nil_of_mem (List.mem_of_getLast? found))
    exact ⟨⟨tableId, last, (etl.storableChain inner tableId).dropLast⟩,
      Etl.mem_toPersisted_tableStates.mpr ⟨current, found, rfl⟩, rfl⟩

/-- The restored histories are the storable states before the last one. -/
theorem Inner.WellFormed.restore_tableStateHistory (wf : inner.WellFormed etl)
    (tableId : TableId) :
    (((etl.toPersisted inner).tableStates.filter fun e => ¬ e.history = []).foldl
      (fun (m : BTreeMap TableId (List TableState)) e => m.insert e.tableId e.history)
        ∅)[tableId]? =
      if (etl.storableChain inner tableId).dropLast = [] then none
        else some (etl.storableChain inner tableId).dropLast := by
  refine BTreeMap.foldl_insert_getElem? (t := fun tableId =>
    if (etl.storableChain inner tableId).dropLast = [] then none
      else some (etl.storableChain inner tableId).dropLast) (fun e member => ?_)
    (fun tableId held => ?_) tableId
  · obtain ⟨present, kept⟩ := List.mem_filter.mp member
    have history := (Etl.mem_toPersisted_tableStates.mp present).2.2
    simp only [decide_eq_true_eq, history] at kept
    simp only [history, if_neg kept]
  · have some_history : (etl.storableChain inner tableId).dropLast ≠ [] := by
      intro bare
      simp [bare] at held
    have nonempty : etl.storableChain inner tableId ≠ [] := by
      intro bare
      simp [bare] at some_history
    exact ⟨⟨tableId, (etl.storableChain inner tableId).getLast nonempty,
        (etl.storableChain inner tableId).dropLast⟩,
      List.mem_filter.mpr ⟨Etl.mem_toPersisted_tableStates.mpr
        ⟨wf.exists_of_storableChain nonempty, List.getLast?_eq_some_getLast nonempty, rfl⟩,
          by simpa using some_history⟩, rfl⟩

/-- Each version of a schema restores under its own id and snapshot. -/
theorem SchemasKeyed.versions_restored {Holds : TableSchema PgType → Prop}
    (keyed : SchemasKeyed Holds inner.tableSchemas) :
    BTreeMap.versions ((etl.toPersisted inner).tableSchemas.foldl
      (fun (schemas : BTreeMap TableId (BTreeMap SnapshotId (TableSchema PgType))) schema =>
        let restored := etl.restoreTableSchema schema
        schemas.insertVersion restored.id restored.snapshotId restored) ∅) =
      fun k => (inner.tableSchemas.versions k).map fun schema =>
        etl.restoreTableSchema (etl.persistTableSchema schema) := by
  refine BTreeMap.versions_foldl_insertVersion_eq (fun e member => ?_) fun k held => ?_
  · obtain ⟨schema, stored, rfl⟩ := List.mem_map.mp member
    obtain ⟨⟨tableId, snapshotId⟩, version⟩ := BTreeMap.mem_flatValues.mp stored
    obtain ⟨rfl, rfl, -⟩ := keyed _ _ _ version
    exact Option.map_eq_some_iff.mpr ⟨schema, version, rfl⟩
  · obtain ⟨_, mapped⟩ := Option.ne_none_iff_exists'.mp held
    obtain ⟨schema, version, rfl⟩ := Option.map_eq_some_iff.mp mapped
    obtain ⟨own, snapshot, -⟩ := keyed k.1 k.2 schema version
    exact ⟨etl.persistTableSchema schema,
      List.mem_map_of_mem (BTreeMap.mem_flatValues.mpr ⟨k, version⟩), Prod.ext own snapshot⟩

theorem Inner.WellFormed.restore_tableSchemas (wf : inner.WellFormed etl) :
    (etl.toPersisted inner).tableSchemas.foldl (fun schemas schema =>
      let restored := etl.restoreTableSchema schema
      schemas.insertVersion restored.id restored.snapshotId restored) ∅ = inner.tableSchemas := by
  refine BTreeMap.ext_versions (BTreeMap.NoneEmpty.foldl_insertVersion _
    (fun schema => (etl.restoreTableSchema schema).id)
    (fun schema => (etl.restoreTableSchema schema).snapshotId) etl.restoreTableSchema
    fun k inner held => by simp at held) wf.filled (wf.keyed.versions_restored.trans ?_)
  funext k
  cases version : inner.tableSchemas.versions k with
  | none => rfl
  | some schema =>
      rw [Option.map_some, Etl.restoreTableSchema_persistTableSchema (wf.keyed _ _ _ version).2.2]

theorem Etl.restore_replicationCheckpoints :
    (etl.toPersisted inner).replicationCheckpoints.foldl
      (fun (checkpoints : BTreeMap WorkerType PgLsn) entry =>
        checkpoints.insert (WorkerType.ofTableOid entry.1) entry.2) ∅ =
      inner.replicationCheckpoints := by
  refine ExtTreeMap.ext_getElem? fun w => BTreeMap.foldl_insert_getElem?
    (t := fun w => inner.replicationCheckpoints[w]?) (fun e member => ?_) (fun w held => ?_) w
  · obtain ⟨⟨w, lsn⟩, stored, rfl⟩ := List.mem_map.mp member
    simpa using ExtTreeMap.mem_toList_iff_getElem?_eq_some.mp stored
  · obtain ⟨lsn, found⟩ := Option.ne_none_iff_exists'.mp held
    exact ⟨_, List.mem_map_of_mem (ExtTreeMap.mem_toList_iff_getElem?_eq_some.mpr found), by simp⟩

theorem Etl.Lawful.restore_destinationTables (lawful : etl.Lawful) :
    etl.restoreDestinationTables ∅ (etl.toPersisted inner).destinationTablesMetadata =
      .ok inner.destinationTablesMetadata := by
  have fold (entries : List (TableId × DestinationTableMetadata Mask))
      (tables : BTreeMap TableId (DestinationTableMetadata Mask)) :
      etl.restoreDestinationTables tables
          (entries.map fun entry => etl.persistDestinationMetadata entry.1 entry.2) =
        .ok (entries.foldl (fun m e => m.insert e.1 e.2) tables) := by
    induction entries generalizing tables with
    | nil => rfl
    | cons e entries ih =>
        rw [List.map_cons, List.foldl_cons, ← ih]
        simp only [Etl.restoreDestinationTables, List.foldlM_cons,
          Etl.restoreDestinationMetadata_persist lawful]
        rfl
  refine (fold _ _).trans (congrArg _ (ExtTreeMap.ext_getElem? fun tableId =>
    BTreeMap.foldl_insert_getElem? (t := fun tableId => inner.destinationTablesMetadata[tableId]?)
      (fun e member => ?_) (fun tableId held => ?_) tableId))
  · exact ExtTreeMap.mem_toList_iff_getElem?_eq_some.mp member
  · obtain ⟨metadata, found⟩ := Option.ne_none_iff_exists'.mp held
    exact ⟨_, ExtTreeMap.mem_toList_iff_getElem?_eq_some.mpr found, rfl⟩

/-- **Persisting and restoring.** The persisted value of a well-formed cache
restores its storable projection. -/
theorem Etl.Lawful.fromPersisted_toPersisted (lawful : etl.Lawful) (wf : inner.WellFormed etl) :
    ∃ restored, etl.fromPersisted (etl.toPersisted inner) = .ok restored ∧
      StorableProjection etl inner restored := by
  unfold Etl.fromPersisted
  simp only [Etl.foldl_restoreTableState, Inner.empty, lawful.restore_destinationTables]
  refine ⟨_, rfl, wf.restore_tableStates, wf.restore_tableStateHistory, wf.restore_tableSchemas,
    rfl, Etl.restore_replicationCheckpoints⟩

/-- What is restored is keyed, whatever was persisted. -/
theorem Etl.keyed_fromPersisted {persisted : PersistedEtlState TableState}
    (restored : etl.fromPersisted persisted = .ok inner) :
    SchemasKeyed (fun _ => True) inner.tableSchemas := by
  have fold (schemas : List PersistedTableSchema)
      {m : BTreeMap TableId (BTreeMap SnapshotId (TableSchema PgType))}
      (keyed : SchemasKeyed (fun _ => True) m) : SchemasKeyed (fun _ => True)
        (schemas.foldl (fun schemas schema =>
          let restored := etl.restoreTableSchema schema
          schemas.insertVersion restored.id restored.snapshotId restored) m) := by
    induction schemas generalizing m with
    | nil => exact keyed
    | cons schema schemas ih => exact ih (keyed.insertVersion trivial)
  simp only [Etl.fromPersisted, Etl.foldl_restoreTableState] at restored
  obtain ⟨tables, _, done⟩ := bind_eq_ok restored
  cases done
  exact fold _ .empty

/-- A restored cache is well-formed. -/
theorem StorableProjection.wellFormed {restored : Inner TableState PgType Mask}
    (projection : StorableProjection etl inner restored) (wf : inner.WellFormed etl) :
    restored.WellFormed etl where
  history tableId absent := by
    rw [projection.tableStates, List.getLast?_eq_none_iff] at absent
    simp [Inner.history, projection.tableStateHistory, absent]
  filled := by
    rw [projection.tableSchemas]
    exact wf.filled
  keyed := by
    rw [projection.tableSchemas]
    exact wf.keyed

/-- A restored cache has lost nothing that a second restart would lose. -/
theorem StorableProjection.idempotent {restored : Inner TableState PgType Mask}
    (projection : StorableProjection etl inner restored) :
    StorableProjection etl restored restored := by
  have chain (tableId : TableId) :
      etl.storableChain restored tableId = etl.storableChain inner tableId := by
    have storable : ∀ state ∈ etl.storableChain inner tableId, etl.shouldStore state = true :=
      fun state member => (List.mem_filter.mp member).2
    have history : restored.history tableId = (etl.storableChain inner tableId).dropLast := by
      unfold Inner.history
      rw [projection.tableStateHistory]
      split_ifs with bare
      · rw [bare]
        rfl
      · rfl
    have joined : restored.history tableId ++ restored.tableStates[tableId]?.toList =
        etl.storableChain inner tableId := by
      rw [history, projection.tableStates]
      rcases List.eq_nil_or_concat (etl.storableChain inner tableId) with bare | ⟨rest, last, split⟩
      · simp [bare]
      · simp [split]
    rw [Etl.storableChain, joined]
    exact List.filter_eq_self.mpr storable
  refine ⟨fun tableId => ?_, fun tableId => ?_, rfl, rfl, rfl⟩
  · rw [chain, projection.tableStates]
  · rw [chain, projection.tableStateHistory]

end RoundTrip

/-! ## The operations keep the cache well-formed -/

section Operations

variable {inner : Inner TableState PgType Mask}

@[simp] theorem Inner.updateTableState_tableStates (tableId : TableId) (state : TableState) :
    (inner.updateTableState tableId state).tableStates =
      inner.tableStates.insert tableId state := by
  unfold Inner.updateTableState
  split <;> rfl

@[simp] theorem Inner.updateTableState_tableSchemas (tableId : TableId) (state : TableState) :
    (inner.updateTableState tableId state).tableSchemas = inner.tableSchemas := by
  unfold Inner.updateTableState
  split <;> rfl

/-- Only the updated table's history grows. -/
theorem Inner.updateTableState_history_of_ne {tableId other : TableId} (state : TableState)
    (ne : other ≠ tableId) :
    (inner.updateTableState tableId state).history other = inner.history other := by
  unfold Inner.updateTableState
  split
  · simp [Inner.history, ExtTreeMap.getElem?_insert, Ne.symm ne]
  · rfl

theorem Inner.WellFormed.updateTableState (wf : inner.WellFormed etl) (tableId : TableId)
    (state : TableState) : (inner.updateTableState tableId state).WellFormed etl where
  history other absent := by
    by_cases same : other = tableId
    · subst same
      simp at absent
    · rw [Inner.updateTableState_history_of_ne state same]
      refine wf.history other ?_
      simpa [ExtTreeMap.getElem?_insert, Ne.symm same] using absent
  filled := by simpa using wf.filled
  keyed := by simpa using wf.keyed

theorem Inner.WellFormed.updateTableStates (wf : inner.WellFormed etl)
    (updates : List (TableId × TableState)) : (inner.updateTableStates updates).WellFormed etl := by
  induction updates generalizing inner with
  | nil => exact wf
  | cons update updates ih => exact ih (wf.updateTableState update.1 update.2)

theorem Inner.WellFormed.rollbackTableState (wf : inner.WellFormed etl) {tableId : TableId}
    {previous : TableState} {updated : Inner TableState PgType Mask}
    (rolled : inner.rollbackTableState tableId = .ok (previous, updated)) :
    updated.WellFormed etl := by
  unfold Inner.rollbackTableState at rolled
  split at rolled
  · cases rolled
  · cases rolled
    refine ⟨fun other absent => ?_, wf.filled, wf.keyed⟩
    by_cases same : other = tableId
    · subst same
      simp at absent
    · simp only [ExtTreeMap.getElem?_insert, Std.compare_eq_iff_eq, Ne.symm same,
        if_false] at absent
      simpa [Inner.history, ExtTreeMap.getElem?_insert, Ne.symm same] using wf.history other absent

variable {Holds : TableSchema PgType → Prop}

theorem Inner.WellFormed.storeTableSchema (wf : inner.WellFormed etl) {schema : TableSchema PgType}
    (builtIn : ∀ column ∈ schema.columnSchemas, etl.BuiltIn column.typ) :
    (inner.storeTableSchema schema).WellFormed etl where
  history := wf.history
  filled := BTreeMap.NoneEmpty.insertVersion wf.filled _ _ _
  keyed := wf.keyed.insertVersion builtIn

/-- Pruning keeps a subset of a table's versions, and never the empty one. -/
theorem Inner.pruneSnapshots_cases (retention : BTreeMap TableId SnapshotId) (tableId : TableId)
    (snapshots : BTreeMap SnapshotId (TableSchema PgType)) :
    (∀ (snapshotId : SnapshotId) (schema : TableSchema PgType),
      (Inner.pruneSnapshots retention tableId snapshots)[snapshotId]? = some schema →
        snapshots[snapshotId]? = some schema) ∧
      (snapshots ≠ ∅ → Inner.pruneSnapshots retention tableId snapshots ≠ ∅) := by
  unfold Inner.pruneSnapshots
  split
  · exact ⟨fun _ _ found => found, id⟩
  · split
    · exact ⟨fun _ _ found => found, id⟩
    · rename_i boundary _ retained last
      obtain ⟨present, -⟩ := BTreeMap.getElem?_of_lastUpTo last
      constructor
      · intro snapshotId schema found
        rw [ExtTreeMap.getElem?_filter'] at found
        exact (Option.filter_eq_some_iff.mp found).1
      · intro _ empty
        have kept : (snapshots.filter fun snapshotId _ =>
            (compare snapshotId retained.1).isGE)[retained.1]? = some retained.2 := by
          simp [present]
        rw [empty] at kept
        simp at kept

theorem SchemasKeyed.pruneTableSchemas (keyed : SchemasKeyed Holds inner.tableSchemas)
    (retention : BTreeMap TableId SnapshotId) :
    SchemasKeyed Holds (inner.pruneTableSchemas retention).2.tableSchemas := by
  intro tableId snapshotId schema version
  simp only [Inner.pruneTableSchemas, BTreeMap.versions, ExtTreeMap.getElem?_map,
    Option.bind_eq_some_iff, Option.map_eq_some_iff] at version
  obtain ⟨_, ⟨before, found, rfl⟩, kept⟩ := version
  refine keyed tableId snapshotId schema ?_
  simp only [BTreeMap.versions, found, Option.bind_some]
  exact (Inner.pruneSnapshots_cases retention tableId before).1 snapshotId schema kept

theorem Inner.WellFormed.pruneTableSchemas (wf : inner.WellFormed etl)
    (retention : BTreeMap TableId SnapshotId) :
    (inner.pruneTableSchemas retention).2.WellFormed etl where
  history := wf.history
  filled tableId snapshots held := by
    simp only [Inner.pruneTableSchemas, ExtTreeMap.getElem?_map] at held
    obtain ⟨before, found, rfl⟩ := Option.map_eq_some_iff.mp held
    exact (Inner.pruneSnapshots_cases retention tableId before).2 (wf.filled tableId before found)
  keyed := wf.keyed.pruneTableSchemas retention

theorem SchemasKeyed.erase
    {schemas : BTreeMap TableId (BTreeMap SnapshotId (TableSchema PgType))}
    (keyed : SchemasKeyed Holds schemas) (tableId : TableId) :
    SchemasKeyed Holds (schemas.erase tableId) := by
  intro other snapshotId schema version
  refine keyed other snapshotId schema ?_
  simp only [BTreeMap.versions, ExtTreeMap.getElem?_erase] at version ⊢
  split at version
  · cases version
  · exact version

/-- Erasing a table's schemas keeps the others as they were. -/
theorem Inner.WellFormed.eraseTableSchemas (wf : inner.WellFormed etl) (tableId : TableId) :
    ({ inner with tableSchemas := inner.tableSchemas.erase tableId } :
      Inner TableState PgType Mask).WellFormed etl where
  history := wf.history
  filled other snapshots held := by
    rw [ExtTreeMap.getElem?_erase] at held
    split at held
    · cases held
    · exact wf.filled other snapshots held
  keyed := wf.keyed.erase tableId

theorem Inner.WellFormed.applyTableStateOperation (wf : inner.WellFormed etl)
    (operation : TableStateOperation) :
    (etl.applyTableStateOperation inner operation).2.WellFormed etl := by
  cases operation with
  | prepareForCopy tableId =>
      have erased := wf.eraseTableSchemas tableId
      exact ⟨erased.history, erased.filled, erased.keyed⟩
  | resetForResync =>
      have reset (tableIds : List TableId) : ∀ {inner : Inner TableState PgType Mask},
          inner.WellFormed etl → (tableIds.foldl
            (fun inner tableId => inner.updateTableState tableId etl.init) inner).WellFormed etl := by
        induction tableIds with
        | nil => exact id
        | cons tableId tableIds ih => exact fun wf => ih (wf.updateTableState tableId etl.init)
      have states := reset inner.tableStates.keys wf
      exact ⟨states.history, states.filled, states.keyed⟩
  | delete tableId =>
      have erased := wf.eraseTableSchemas tableId
      refine ⟨fun other absent => ?_, erased.filled, erased.keyed⟩
      simp only [Etl.applyTableStateOperation, Inner.history, ExtTreeMap.getElem?_erase,
        Std.compare_eq_iff_eq] at absent ⊢
      split_ifs at absent ⊢
      · rfl
      · exact wf.history other absent

theorem Inner.tableSchemas_rollbackTableState {tableId : TableId} {previous : TableState}
    {updated : Inner TableState PgType Mask}
    (rolled : inner.rollbackTableState tableId = .ok (previous, updated)) :
    updated.tableSchemas = inner.tableSchemas := by
  unfold Inner.rollbackTableState at rolled
  split at rolled
  · cases rolled
  · cases rolled
    rfl

theorem Inner.tableSchemas_foldl_updateTableState {α : Type} (update : α → TableId × TableState)
    (updates : List α) (inner : Inner TableState PgType Mask) :
    (updates.foldl (fun inner entry =>
      inner.updateTableState (update entry).1 (update entry).2) inner).tableSchemas =
      inner.tableSchemas := by
  induction updates generalizing inner with
  | nil => rfl
  | cons entry rest ih => rw [List.foldl_cons, ih, Inner.updateTableState_tableSchemas]

/-- The operations keep every version under its own id and snapshot. -/
theorem Etl.keyed_closure (keyed : SchemasKeyed Holds inner.tableSchemas)
    {mutation : Mutation TableState PgType Mask}
    (stored : ∀ schema, mutation = .storeTableSchema schema → Holds schema)
    {reply : Reply TableState PgType} {updated : Inner TableState PgType Mask}
    (done : etl.closure inner mutation = .ok (reply, updated)) :
    SchemasKeyed Holds updated.tableSchemas := by
  cases mutation with
  | updateTableStates updates =>
      cases done
      exact (Inner.tableSchemas_foldl_updateTableState id updates inner).symm ▸ keyed
  | rollbackTableState tableId =>
      simp only [Etl.closure] at done
      cases rolled : inner.rollbackTableState tableId with
      | error e =>
          rw [rolled] at done
          cases done
      | ok r =>
          rw [rolled] at done
          cases done
          exact (Inner.tableSchemas_rollbackTableState rolled).symm ▸ keyed
  | upsertReplicationCheckpoint worker lsn =>
      cases done
      exact keyed
  | deleteReplicationCheckpoint worker =>
      cases done
      exact keyed
  | storeDestinationTableMetadata tableId metadata =>
      cases done
      exact keyed
  | storeTableSchema schema =>
      cases done
      exact keyed.insertVersion (stored schema rfl)
  | pruneTableSchemas retention =>
      cases done
      exact keyed.pruneTableSchemas retention
  | applyTableStateOperation operation =>
      cases done
      cases operation with
      | prepareForCopy tableId => exact keyed.erase tableId
      | resetForResync =>
          exact (Inner.tableSchemas_foldl_updateTableState (fun tableId => (tableId, etl.init))
            inner.tableStates.keys inner).symm ▸ keyed
      | delete tableId => exact keyed.erase tableId

/-- The columns an operation stores have built-in types. -/
def Mutation.BuiltIn (etl : Etl TableState PgType Mask) : Mutation TableState PgType Mask → Prop
  | .storeTableSchema schema => ∀ column ∈ schema.columnSchemas, etl.BuiltIn column.typ
  | _ => True

instance [DecidableEq PgType] (mutation : Mutation TableState PgType Mask) :
    Decidable (mutation.BuiltIn etl) :=
  match mutation with
  | .storeTableSchema schema => inferInstanceAs
    (Decidable (∀ column ∈ schema.columnSchemas, etl.fromOid (etl.oid column.typ) = some column.typ))
  | .updateTableStates _ | .rollbackTableState _ | .upsertReplicationCheckpoint _ _
  | .deleteReplicationCheckpoint _ | .storeDestinationTableMetadata _ _ | .pruneTableSchemas _
  | .applyTableStateOperation _ => inferInstanceAs (Decidable True)

/-- Every operation keeps a well-formed cache well-formed. -/
theorem Inner.WellFormed.closure (wf : inner.WellFormed etl)
    {mutation : Mutation TableState PgType Mask} (builtIn : mutation.BuiltIn etl)
    {reply : Reply TableState PgType} {updated : Inner TableState PgType Mask}
    (done : etl.closure inner mutation = .ok (reply, updated)) : updated.WellFormed etl := by
  cases mutation with
  | updateTableStates updates =>
      cases done
      exact wf.updateTableStates updates
  | rollbackTableState tableId =>
      simp only [Etl.closure] at done
      cases rolled : inner.rollbackTableState tableId with
      | error e =>
          rw [rolled] at done
          cases done
      | ok r =>
          rw [rolled] at done
          cases done
          exact wf.rollbackTableState rolled
  | upsertReplicationCheckpoint worker lsn =>
      cases done
      exact ⟨wf.history, wf.filled, wf.keyed⟩
  | deleteReplicationCheckpoint worker =>
      cases done
      exact ⟨wf.history, wf.filled, wf.keyed⟩
  | storeDestinationTableMetadata tableId metadata =>
      cases done
      exact ⟨wf.history, wf.filled, wf.keyed⟩
  | storeTableSchema schema =>
      cases done
      exact wf.storeTableSchema builtIn
  | pruneTableSchemas retention =>
      cases done
      exact wf.pruneTableSchemas retention
  | applyTableStateOperation operation =>
      cases done
      exact wf.applyTableStateOperation operation

end Operations

end StreamlingPlugins.PostgresCdc
