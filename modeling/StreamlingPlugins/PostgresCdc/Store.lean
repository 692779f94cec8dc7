import StreamlingPlugins.KeyedMap

/-!
# The replication store

`StreamlingStore` keeps etl's replication metadata in a live cache and persists
it as one aggregate value.  What the store takes from etl is the structure `Etl`:
table states, column types, replication masks and the change of an applied
destination schema.  Ids and log positions are natural numbers; the entries of a
hash map are listed in key order, and no function here depends on that order.
-/

namespace StreamlingPlugins.PostgresCdc

open Std

abbrev TableId := Nat

abbrev PgLsn := Nat

/-! ## Keys -/

/-- A schema version: the commit and the message position it was read at. -/
structure SnapshotId where
  commitLsn : PgLsn
  messageLsn : PgLsn
  deriving DecidableEq

namespace SnapshotId

instance : Ord SnapshotId :=
  ⟨compareLex (compareOn commitLsn) (compareOn messageLsn)⟩

instance : TransOrd SnapshotId :=
  inferInstanceAs (TransCmp (compareLex (compareOn commitLsn) (compareOn messageLsn)))

instance : LawfulEqOrd SnapshotId where
  eq_of_compare {a b} same := by
    obtain ⟨commit, message⟩ := compareLex_eq_eq.mp same
    cases a
    cases b
    simp_all [compareOn]

end SnapshotId

inductive WorkerType
  | apply
  | tableSync (tableId : TableId)
  deriving DecidableEq

namespace WorkerType

/-- `None` = the apply worker; `Some(oid)` = a table-sync worker. -/
def tableOid : WorkerType → Option Nat
  | apply => none
  | tableSync tableId => some tableId

def ofTableOid : Option Nat → WorkerType
  | none => apply
  | some oid => tableSync oid

@[simp] theorem ofTableOid_tableOid (w : WorkerType) : ofTableOid w.tableOid = w := by
  cases w <;> rfl

/-- Workers in the order of their table oids, the apply worker first. -/
def rank : WorkerType → Nat
  | apply => 0
  | tableSync tableId => tableId + 1

instance : Ord WorkerType := ⟨compareOn rank⟩

instance : TransOrd WorkerType := inferInstanceAs (TransCmp (compareOn rank))

instance : LawfulEqOrd WorkerType where
  eq_of_compare {a b} same := by
    have ranks : a.rank = b.rank := LawfulEqOrd.eq_of_compare same
    cases a <;> cases b <;> simp_all [rank]

end WorkerType

/-! ## etl's types -/

inductive ErrorKind
  | ioError
  | stateRollbackError
  | other
  deriving DecidableEq

structure EtlError where
  kind : ErrorKind
  message : String
  deriving DecidableEq

/-- Mirrors etl's `DestinationTableSchema`. -/
inductive DestinationTableSchema (Mask : Type)
  | creating (snapshotId : SnapshotId) (replicationMask : Mask)
  | applying (snapshotId : SnapshotId) (replicationMask : Mask)
      (previousSnapshotId : SnapshotId) (previousReplicationMask : Mask)
  | applied (snapshotId : SnapshotId) (replicationMask : Mask)
  deriving DecidableEq

structure DestinationTableMetadata (Mask : Type) where
  tableId : String
  tableSchema : DestinationTableSchema Mask
  deriving DecidableEq

namespace DestinationTableMetadata

variable {Mask : Type}

def newCreating (tableId : String) (snapshotId : SnapshotId) (mask : Mask) :
    DestinationTableMetadata Mask :=
  ⟨tableId, .creating snapshotId mask⟩

def newApplied (tableId : String) (snapshotId : SnapshotId) (mask : Mask) :
    DestinationTableMetadata Mask :=
  ⟨tableId, .applied snapshotId mask⟩

end DestinationTableMetadata

structure ColumnSchema (PgType : Type) where
  name : String
  typ : PgType
  modifier : Int
  ordinalPosition : Int
  primaryKeyOrdinalPosition : Option Int
  nullable : Bool
  defaultExpression : Option String
  deriving DecidableEq

structure TableSchema (PgType : Type) where
  id : TableId
  name : String × String
  snapshotId : SnapshotId
  columnSchemas : List (ColumnSchema PgType)
  deriving DecidableEq

/-- What the store takes from etl. -/
structure Etl (TableState PgType Mask : Type) where
  /-- `TableState::Init` -/
  init : TableState
  /-- `state.as_type().should_store()`: false for the in-memory-only states -/
  shouldStore : TableState → Bool
  oid : PgType → Nat
  fromOid : Nat → Option PgType
  /-- `Type::TEXT` -/
  text : PgType
  toBytes : Mask → List UInt8
  fromBytes : List UInt8 → Mask
  withSchemaChange : DestinationTableMetadata Mask → SnapshotId → Mask →
    Except EtlError (DestinationTableMetadata Mask)

/-! ## The persisted value -/

structure PersistedTableStateEntry (TableState : Type) where
  tableId : Nat
  current : TableState
  history : List TableState
  deriving DecidableEq

structure PersistedColumn where
  name : String
  typeOid : Nat
  modifier : Int
  ordinalPosition : Int
  primaryKeyOrdinalPosition : Option Int
  nullable : Bool
  defaultExpression : Option String
  deriving DecidableEq

/-- `SnapshotId` as `(commit_lsn, message_lsn)`. -/
abbrev PersistedSnapshotId := Nat × Nat

structure PersistedTableSchema where
  tableId : Nat
  schema : String
  name : String
  snapshotId : PersistedSnapshotId
  columns : List PersistedColumn
  deriving DecidableEq

inductive PersistedDestinationSchema
  | creating (snapshotId : PersistedSnapshotId) (replicationMask : List UInt8)
  | applying (snapshotId : PersistedSnapshotId) (replicationMask : List UInt8)
      (previousSnapshotId : PersistedSnapshotId) (previousReplicationMask : List UInt8)
  | applied (snapshotId : PersistedSnapshotId) (replicationMask : List UInt8)
  deriving DecidableEq

structure PersistedDestinationMetadata where
  tableId : Nat
  destinationTableId : String
  schema : PersistedDestinationSchema
  deriving DecidableEq

/-- Everything etl needs to resume a pipeline, stored under one key. -/
structure PersistedEtlState (TableState : Type) where
  tableStates : List (PersistedTableStateEntry TableState)
  tableSchemas : List PersistedTableSchema
  destinationTablesMetadata : List PersistedDestinationMetadata
  replicationCheckpoints : List (Option Nat × Nat)
  deriving DecidableEq

/-- `PersistedEtlState::default()`, what a missing value reads as. -/
def PersistedEtlState.empty {TableState : Type} : PersistedEtlState TableState := ⟨[], [], [], []⟩

def persistSnapshotId (snapshotId : SnapshotId) : PersistedSnapshotId :=
  (snapshotId.commitLsn, snapshotId.messageLsn)

def restoreSnapshotId (snapshotId : PersistedSnapshotId) : SnapshotId :=
  ⟨snapshotId.1, snapshotId.2⟩

@[simp] theorem restoreSnapshotId_persistSnapshotId (snapshotId : SnapshotId) :
    restoreSnapshotId (persistSnapshotId snapshotId) = snapshotId := rfl

/-! ## The live cache -/

/-- The live cache; schema versions are keyed by table and then by snapshot. -/
structure Inner (TableState PgType Mask : Type) where
  tableStates : BTreeMap TableId TableState
  tableStateHistory : BTreeMap TableId (List TableState)
  tableSchemas : BTreeMap TableId (BTreeMap SnapshotId (TableSchema PgType))
  destinationTablesMetadata : BTreeMap TableId (DestinationTableMetadata Mask)
  replicationCheckpoints : BTreeMap WorkerType PgLsn
  deriving DecidableEq

variable {TableState PgType Mask : Type}

namespace Inner

def empty : Inner TableState PgType Mask := ⟨∅, ∅, ∅, ∅, ∅⟩

/-- `table_state_history.get(table_id)`, empty when absent. -/
def history (inner : Inner TableState PgType Mask) (tableId : TableId) : List TableState :=
  inner.tableStateHistory[tableId]?.getD []

end Inner

namespace Etl

variable (etl : Etl TableState PgType Mask)

/-! ## Persisting and restoring -/

/-- One table's entry: `history ++ [current]` without the in-memory-only states,
the last survivor as the persisted current. -/
def persistTableState (inner : Inner TableState PgType Mask) (tableId : TableId)
    (current : TableState) : Option (PersistedTableStateEntry TableState) :=
  let storable := (inner.history tableId ++ [current]).filter etl.shouldStore
  storable.getLast?.map fun current => ⟨tableId, current, storable.dropLast⟩

def persistColumn (column : ColumnSchema PgType) : PersistedColumn where
  name := column.name
  typeOid := etl.oid column.typ
  modifier := column.modifier
  ordinalPosition := column.ordinalPosition
  primaryKeyOrdinalPosition := column.primaryKeyOrdinalPosition
  nullable := column.nullable
  defaultExpression := column.defaultExpression

def persistTableSchema (schema : TableSchema PgType) : PersistedTableSchema where
  tableId := schema.id
  schema := schema.name.1
  name := schema.name.2
  snapshotId := persistSnapshotId schema.snapshotId
  columns := schema.columnSchemas.map etl.persistColumn

def persistDestinationSchema : DestinationTableSchema Mask → PersistedDestinationSchema
  | .creating snapshotId mask => .creating (persistSnapshotId snapshotId) (etl.toBytes mask)
  | .applying snapshotId mask previousSnapshotId previousMask =>
    .applying (persistSnapshotId snapshotId) (etl.toBytes mask)
      (persistSnapshotId previousSnapshotId) (etl.toBytes previousMask)
  | .applied snapshotId mask => .applied (persistSnapshotId snapshotId) (etl.toBytes mask)

def persistDestinationMetadata (tableId : TableId) (metadata : DestinationTableMetadata Mask) :
    PersistedDestinationMetadata where
  tableId := tableId
  destinationTableId := metadata.tableId
  schema := etl.persistDestinationSchema metadata.tableSchema

def toPersisted (inner : Inner TableState PgType Mask) : PersistedEtlState TableState where
  tableStates := inner.tableStates.toList.filterMap fun entry =>
    etl.persistTableState inner entry.1 entry.2
  tableSchemas := inner.tableSchemas.flatValues.map etl.persistTableSchema
  destinationTablesMetadata := inner.destinationTablesMetadata.toList.map fun entry =>
    etl.persistDestinationMetadata entry.1 entry.2
  replicationCheckpoints := inner.replicationCheckpoints.toList.map fun entry =>
    (entry.1.tableOid, entry.2)

def restoreTableState (inner : Inner TableState PgType Mask)
    (entry : PersistedTableStateEntry TableState) : Inner TableState PgType Mask :=
  { inner with
    tableStates := inner.tableStates.insert entry.tableId entry.current
    tableStateHistory := if entry.history = [] then inner.tableStateHistory
      else inner.tableStateHistory.insert entry.tableId entry.history }

/-- An unknown type oid reads as `TEXT`. -/
def restoreColumn (column : PersistedColumn) : ColumnSchema PgType where
  name := column.name
  typ := (etl.fromOid column.typeOid).getD etl.text
  modifier := column.modifier
  ordinalPosition := column.ordinalPosition
  primaryKeyOrdinalPosition := column.primaryKeyOrdinalPosition
  nullable := column.nullable
  defaultExpression := column.defaultExpression

def restoreTableSchema (schema : PersistedTableSchema) : TableSchema PgType where
  id := schema.tableId
  name := (schema.schema, schema.name)
  snapshotId := restoreSnapshotId schema.snapshotId
  columnSchemas := schema.columns.map etl.restoreColumn

def restoreDestinationMetadata (metadata : PersistedDestinationMetadata) :
    Except EtlError (DestinationTableMetadata Mask) :=
  match metadata.schema with
  | .creating snapshotId mask =>
    .ok (.newCreating metadata.destinationTableId (restoreSnapshotId snapshotId)
      (etl.fromBytes mask))
  | .applying snapshotId mask previousSnapshotId previousMask =>
    etl.withSchemaChange (.newApplied metadata.destinationTableId
      (restoreSnapshotId previousSnapshotId) (etl.fromBytes previousMask))
      (restoreSnapshotId snapshotId) (etl.fromBytes mask)
  | .applied snapshotId mask =>
    .ok (.newApplied metadata.destinationTableId (restoreSnapshotId snapshotId)
      (etl.fromBytes mask))

/-- The loop of `from_persisted` over the destination metadata. -/
def restoreDestinationTables (tables : BTreeMap TableId (DestinationTableMetadata Mask))
    (entries : List PersistedDestinationMetadata) :
    Except EtlError (BTreeMap TableId (DestinationTableMetadata Mask)) :=
  entries.foldlM (fun tables metadata => do
    let restored ← etl.restoreDestinationMetadata metadata
    pure (tables.insert metadata.tableId restored)) tables

def fromPersisted (persisted : PersistedEtlState TableState) :
    Except EtlError (Inner TableState PgType Mask) := do
  let inner := persisted.tableStates.foldl restoreTableState
    (Inner.empty : Inner TableState PgType Mask)
  let tableSchemas := persisted.tableSchemas.foldl (fun schemas schema =>
    let restored := etl.restoreTableSchema schema
    schemas.insertVersion restored.id restored.snapshotId restored) inner.tableSchemas
  let destinationTablesMetadata ← etl.restoreDestinationTables inner.destinationTablesMetadata
    persisted.destinationTablesMetadata
  let replicationCheckpoints := persisted.replicationCheckpoints.foldl
    (fun checkpoints entry => checkpoints.insert (WorkerType.ofTableOid entry.1) entry.2)
    inner.replicationCheckpoints
  pure { inner with tableSchemas, destinationTablesMetadata, replicationCheckpoints }

end Etl

/-! ## The operations -/

inductive TableStateOperation
  | prepareForCopy (tableId : TableId)
  | resetForResync
  | delete (tableId : TableId)
  deriving DecidableEq

/-- What a successful operation returns. -/
inductive Reply (TableState PgType : Type)
  | unit
  | tableState (state : TableState)
  | lsn (lsn : PgLsn)
  | tableSchema (schema : TableSchema PgType)
  | count (count : Nat)
  deriving DecidableEq

namespace Inner

/-- Sets a table's state and pushes the one it replaces onto its history. -/
def updateTableState (inner : Inner TableState PgType Mask) (tableId : TableId)
    (state : TableState) : Inner TableState PgType Mask :=
  match inner.tableStates[tableId]? with
  | some current =>
    { inner with
      tableStateHistory :=
        inner.tableStateHistory.insert tableId (inner.history tableId ++ [current])
      tableStates := inner.tableStates.insert tableId state }
  | none => { inner with tableStates := inner.tableStates.insert tableId state }

def updateTableStates (inner : Inner TableState PgType Mask)
    (updates : List (TableId × TableState)) : Inner TableState PgType Mask :=
  updates.foldl (fun inner update => inner.updateTableState update.1 update.2) inner

def rollbackTableState (inner : Inner TableState PgType Mask) (tableId : TableId) :
    Except EtlError (TableState × Inner TableState PgType Mask) :=
  match (inner.history tableId).getLast? with
  | none => .error ⟨.stateRollbackError, "No previous state available to roll back to"⟩
  | some previous => .ok (previous,
    { inner with
      tableStateHistory :=
        inner.tableStateHistory.insert tableId (inner.history tableId).dropLast
      tableStates := inner.tableStates.insert tableId previous })

def upsertReplicationCheckpoint (inner : Inner TableState PgType Mask) (worker : WorkerType)
    (checkpointLsn : PgLsn) : PgLsn × Inner TableState PgType Mask :=
  let stored := match inner.replicationCheckpoints[worker]? with
    | some stored => if stored < checkpointLsn then checkpointLsn else stored
    | none => checkpointLsn
  (stored,
    { inner with replicationCheckpoints := inner.replicationCheckpoints.insert worker stored })

def deleteReplicationCheckpoint (inner : Inner TableState PgType Mask) (worker : WorkerType) :
    Inner TableState PgType Mask :=
  { inner with replicationCheckpoints := inner.replicationCheckpoints.erase worker }

def storeDestinationTableMetadata (inner : Inner TableState PgType Mask) (tableId : TableId)
    (metadata : DestinationTableMetadata Mask) : Inner TableState PgType Mask :=
  { inner with
    destinationTablesMetadata := inner.destinationTablesMetadata.insert tableId metadata }

def storeTableSchema (inner : Inner TableState PgType Mask) (schema : TableSchema PgType) :
    Inner TableState PgType Mask :=
  { inner with
    tableSchemas := inner.tableSchemas.insertVersion schema.id schema.snapshotId schema }

/-- Newest schema version at or before the requested snapshot. -/
def getTableSchema (inner : Inner TableState PgType Mask) (tableId : TableId)
    (snapshotId : SnapshotId) : Option (TableSchema PgType) :=
  inner.tableSchemas[tableId]?.bind fun snapshots =>
    (snapshots.lastUpTo snapshotId).map Prod.snd

/-- The schema versions of one table after pruning: the newest one at or before
the retention boundary and everything newer, or all if there is none. -/
def pruneSnapshots (retention : BTreeMap TableId SnapshotId) (tableId : TableId)
    (snapshots : BTreeMap SnapshotId (TableSchema PgType)) :
    BTreeMap SnapshotId (TableSchema PgType) :=
  match retention[tableId]? with
  | none => snapshots
  | some boundary =>
    match snapshots.lastUpTo boundary with
    | none => snapshots
    | some retained => snapshots.filter fun snapshotId _ => (compare snapshotId retained.1).isGE

def pruneTableSchemas (inner : Inner TableState PgType Mask)
    (retention : BTreeMap TableId SnapshotId) : Nat × Inner TableState PgType Mask :=
  let pruned := inner.tableSchemas.map fun tableId snapshots =>
    pruneSnapshots retention tableId snapshots
  ((inner.tableSchemas.toList.map fun entry =>
      entry.2.size - (pruneSnapshots retention entry.1 entry.2).size).sum,
    { inner with tableSchemas := pruned })

end Inner

/-- The mutating operations of the store. -/
inductive Mutation (TableState PgType Mask : Type)
  | updateTableStates (updates : List (TableId × TableState))
  | rollbackTableState (tableId : TableId)
  | upsertReplicationCheckpoint (worker : WorkerType) (checkpointLsn : PgLsn)
  | deleteReplicationCheckpoint (worker : WorkerType)
  | storeDestinationTableMetadata (tableId : TableId) (metadata : DestinationTableMetadata Mask)
  | storeTableSchema (schema : TableSchema PgType)
  | pruneTableSchemas (retention : BTreeMap TableId SnapshotId)
  | applyTableStateOperation (operation : TableStateOperation)

namespace Etl

variable (etl : Etl TableState PgType Mask)

def applyTableStateOperation (inner : Inner TableState PgType Mask) :
    TableStateOperation → Nat × Inner TableState PgType Mask
  | .prepareForCopy tableId => (0,
    { inner with
      tableSchemas := inner.tableSchemas.erase tableId
      destinationTablesMetadata := inner.destinationTablesMetadata.erase tableId
      replicationCheckpoints := inner.replicationCheckpoints.erase (.tableSync tableId) })
  | .resetForResync =>
    let tableIds := inner.tableStates.keys
    let reset := tableIds.foldl (fun inner tableId => inner.updateTableState tableId etl.init) inner
    (tableIds.length,
      { reset with replicationCheckpoints := reset.replicationCheckpoints.erase .apply })
  | .delete tableId => (if tableId ∈ inner.tableStates then 1 else 0,
    { tableStates := inner.tableStates.erase tableId
      tableStateHistory := inner.tableStateHistory.erase tableId
      tableSchemas := inner.tableSchemas.erase tableId
      destinationTablesMetadata := inner.destinationTablesMetadata.erase tableId
      replicationCheckpoints := inner.replicationCheckpoints.erase (.tableSync tableId) })

/-- The closure an operation hands to `mutate`. -/
def closure (inner : Inner TableState PgType Mask) : Mutation TableState PgType Mask →
    Except EtlError (Reply TableState PgType × Inner TableState PgType Mask)
  | .updateTableStates updates => .ok (.unit, inner.updateTableStates updates)
  | .rollbackTableState tableId =>
    (inner.rollbackTableState tableId).map fun r => (.tableState r.1, r.2)
  | .upsertReplicationCheckpoint worker lsn =>
    let r := inner.upsertReplicationCheckpoint worker lsn
    .ok (.lsn r.1, r.2)
  | .deleteReplicationCheckpoint worker => .ok (.unit, inner.deleteReplicationCheckpoint worker)
  | .storeDestinationTableMetadata tableId metadata =>
    .ok (.unit, inner.storeDestinationTableMetadata tableId metadata)
  | .storeTableSchema schema => .ok (.tableSchema schema, inner.storeTableSchema schema)
  | .pruneTableSchemas retention =>
    let r := inner.pruneTableSchemas retention
    .ok (.count r.1, r.2)
  | .applyTableStateOperation operation =>
    let r := etl.applyTableStateOperation inner operation
    .ok (.count r.1, r.2)

end Etl

end StreamlingPlugins.PostgresCdc
