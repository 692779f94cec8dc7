import StreamlingPlugins.PostgresCdc.StoreRestart

/-!
# The store over whole runs

One store and its backend as a machine: mutations, loads and restarts one after
another, each of which may fail.  `restart_refines` is the refinement: once an
operation or a load has succeeded, a fresh store hydrates the storable projection
of the live cache, whatever failed since.
-/

namespace StreamlingPlugins.PostgresCdc

variable {TableState PgType Mask : Type} {etl : Etl TableState PgType Mask}

/-! ## The machine -/

/-- The live cache of a process and the value its backend holds. -/
structure StoreState (TableState PgType Mask : Type) where
  inner : Inner TableState PgType Mask
  backend : Option (PersistedEtlState TableState)

inductive StoreEvent (TableState PgType Mask : Type)
  | mutate (mutation : Mutation TableState PgType Mask) (putOk : Bool)
  | load (getOk : Bool)
  | restart

inductive StoreObs (TableState PgType Mask : Type)
  | ok (mutation : Mutation TableState PgType Mask) (reply : Reply TableState PgType)
  | failed (error : EtlError)
  | loaded
  | loadFailed (error : EtlError)
  | restarted

/-- The error of a failed backend operation. -/
def backendError : EtlError := ⟨.ioError, "streamling state backend operation failed"⟩

namespace Etl

/-- Applies the closure to a clone of the cache, persists the result, then commits
the clone. -/
def mutate (etl : Etl TableState PgType Mask) (store : StoreState TableState PgType Mask)
    (mutation : Mutation TableState PgType Mask) (putOk : Bool) :
    Except EtlError (Reply TableState PgType × StoreState TableState PgType Mask) :=
  match etl.closure store.inner mutation with
  | .error e => .error e
  | .ok (reply, updated) =>
    if putOk then .ok (reply, ⟨updated, some (etl.toPersisted updated)⟩)
    else .error backendError

/-- What the backend's value reads as; a missing value is the empty state. -/
def hydrate (etl : Etl TableState PgType Mask) (backend : Option (PersistedEtlState TableState)) :
    Except EtlError (Inner TableState PgType Mask) :=
  etl.fromPersisted (backend.getD .empty)

def storeStep (etl : Etl TableState PgType Mask) (store : StoreState TableState PgType Mask) :
    StoreEvent TableState PgType Mask →
      Option (StoreState TableState PgType Mask × List (StoreObs TableState PgType Mask))
  | .mutate mutation putOk =>
    match etl.mutate store mutation putOk with
    | .ok (reply, store') => some (store', [.ok mutation reply])
    | .error e => some (store, [.failed e])
  | .load getOk =>
    if getOk then
      match etl.hydrate store.backend with
      | .ok inner => some ({ store with inner := inner }, [.loaded])
      | .error e => some (store, [.loadFailed e])
    else some (store, [.loadFailed backendError])
  | .restart => some ({ store with inner := .empty }, [.restarted])

def storeMachine (etl : Etl TableState PgType Mask) :
    Machine (StoreState TableState PgType Mask) (StoreEvent TableState PgType Mask)
      (StoreObs TableState PgType Mask) where
  step := etl.storeStep

end Etl

/-- A new store over an empty backend. -/
def StoreState.new : StoreState TableState PgType Mask := ⟨.empty, none⟩

/-- The columns a run stores have built-in types. -/
def BuiltInColumns (etl : Etl TableState PgType Mask) (_ : StoreState TableState PgType Mask) :
    StoreEvent TableState PgType Mask → Prop
  | .mutate mutation _ => mutation.BuiltIn etl
  | _ => True

/-- Whether an operation or a load has succeeded since the last restart. -/
def settledAfter (settled : Bool) : StoreObs TableState PgType Mask → Bool
  | .ok _ _ | .loaded => true
  | .restarted => false
  | .failed _ | .loadFailed _ => settled

instance [DecidableEq PgType] (store : StoreState TableState PgType Mask)
    (event : StoreEvent TableState PgType Mask) : Decidable (BuiltInColumns etl store event) :=
  match event with
  | .mutate mutation _ => inferInstanceAs (Decidable (mutation.BuiltIn etl))
  | .load _ | .restart => inferInstanceAs (Decidable True)

/-- Since the last restart an operation or a load has succeeded. -/
def Settled (log : List (StoreObs TableState PgType Mask)) : Prop :=
  log.foldl settledAfter false = true

instance (log : List (StoreObs TableState PgType Mask)) : Decidable (Settled log) :=
  inferInstanceAs (Decidable (_ = true))

/-! ## The refinement -/

/-- The cache is well-formed, the backend holds what a well-formed cache
persisted, and in a settled run that is the live cache's storable projection. -/
structure StoreInv (etl : Etl TableState PgType Mask)
    (store : StoreState TableState PgType Mask) (log : List (StoreObs TableState PgType Mask)) :
    Prop where
  wellFormed : store.inner.WellFormed etl
  persisted : ∃ inner, inner.WellFormed etl ∧
    store.backend.getD .empty = etl.toPersisted inner
  synced : Settled log → ∃ restored, etl.hydrate store.backend = .ok restored ∧
    StorableProjection etl store.inner restored

section Run

variable {store store' : StoreState TableState PgType Mask}
  {log out : List (StoreObs TableState PgType Mask)}

theorem Inner.WellFormed.empty :
    (Inner.empty : Inner TableState PgType Mask).WellFormed etl where
  history _ _ := by simp [Inner.history, Inner.empty]
  filled tableId snapshots held := by simp [Inner.empty] at held
  keyed tableId snapshotId schema version := by simp [Inner.empty, BTreeMap.versions] at version

@[simp] theorem settled_concat (obs : StoreObs TableState PgType Mask) :
    Settled (log ++ [obs]) ↔ settledAfter (log.foldl settledAfter false) obs = true := by
  simp [Settled, List.foldl_append]

theorem StoreInv.initial : StoreInv etl .new [] where
  wellFormed := .empty
  persisted := ⟨.empty, .empty, rfl⟩
  synced settled := by cases settled

/-- A failed step settles nothing and keeps the invariant. -/
theorem StoreInv.failed (inv : StoreInv etl store log) {obs : StoreObs TableState PgType Mask}
    (unsettling : ∀ settled, settledAfter settled obs = settled) :
    StoreInv etl store (log ++ [obs]) :=
  ⟨inv.wellFormed, inv.persisted, fun settled => inv.synced (by
    rwa [settled_concat, unsettling] at settled)⟩

theorem StoreInv.step (lawful : etl.Lawful) (inv : StoreInv etl store log)
    {event : StoreEvent TableState PgType Mask} (builtIn : BuiltInColumns etl store event)
    (taken : etl.storeStep store event = some (store', out)) : StoreInv etl store' (log ++ out) := by
  cases event with
  | mutate mutation putOk =>
      simp only [Etl.storeStep, Etl.mutate] at taken
      cases done : etl.closure store.inner mutation with
      | error e =>
          rw [done] at taken
          cases taken
          exact inv.failed fun _ => rfl
      | ok r =>
          obtain ⟨reply, updated⟩ := r
          cases putOk with
          | false =>
              rw [done] at taken
              cases taken
              exact inv.failed fun _ => rfl
          | true =>
              rw [done] at taken
              cases taken
              have wf := inv.wellFormed.closure builtIn done
              exact ⟨wf, ⟨updated, wf, rfl⟩, fun _ => lawful.fromPersisted_toPersisted wf⟩
  | load getOk =>
      obtain ⟨inner, wf, persisted⟩ := inv.persisted
      obtain ⟨restored, hydrated, projection⟩ := lawful.fromPersisted_toPersisted wf
      have read : etl.hydrate store.backend = .ok restored := by
        rw [Etl.hydrate, persisted, hydrated]
      cases getOk with
      | false =>
          cases taken
          exact inv.failed fun _ => rfl
      | true =>
          simp only [Etl.storeStep, read] at taken
          cases taken
          exact ⟨projection.wellFormed wf, ⟨inner, wf, persisted⟩,
            fun _ => ⟨restored, read, projection.idempotent⟩⟩
  | restart =>
      cases taken
      exact ⟨.empty, inv.persisted, fun settled => by simp [settledAfter] at settled⟩

theorem StoreInv.of_reaches (lawful : etl.Lawful)
    (reached : etl.storeMachine.ReachesWhere (BuiltInColumns etl) .new store log) :
    StoreInv etl store log :=
  reached.invariant .initial fun inv builtIn taken => inv.step lawful builtIn taken

/-- **Crash-restart refinement.** Once an operation or a load has succeeded since
the last restart, a fresh store hydrates the storable projection of the live
cache, and an operation that fails moves neither the cache nor the backend. -/
theorem Etl.restart_refines (lawful : etl.Lawful)
    (reached : etl.storeMachine.ReachesWhere (BuiltInColumns etl) .new store log) :
    (Settled log → ∃ restored, etl.hydrate store.backend = .ok restored ∧
      StorableProjection etl store.inner restored) ∧
      ∀ mutation putOk store' e, etl.storeStep store (.mutate mutation putOk) =
        some (store', [.failed e]) → store' = store := by
  refine ⟨(StoreInv.of_reaches lawful reached).synced, fun mutation putOk store' e failed => ?_⟩
  simp only [Etl.storeStep] at failed
  split at failed
  · cases failed
  · cases failed
    rfl

end Run

/-! ## A concrete etl -/

inductive DemoTableState
  | init
  | dataSync
  | syncWait
  | ready
  deriving DecidableEq

inductive DemoType
  | int8
  | text
  deriving DecidableEq

/-- etl with four table states, two column types and byte masks. -/
def demoEtl : Etl DemoTableState DemoType (List UInt8) where
  init := .init
  shouldStore state := state ≠ .syncWait
  oid
    | .int8 => 20
    | .text => 25
  fromOid oid := if oid = 20 then some .int8 else if oid = 25 then some .text else none
  text := .text
  toBytes := id
  fromBytes := id
  withSchemaChange metadata snapshotId mask :=
    match metadata.tableSchema with
    | .applied previous previousMask =>
      .ok ⟨metadata.tableId, .applying snapshotId mask previous previousMask⟩
    | _ => .error ⟨.other, "schema change on an unapplied table"⟩

theorem demoEtl_lawful : demoEtl.Lawful where
  fromBytes_toBytes _ := rfl
  withSchemaChange_applied _ _ _ _ _ := rfl

/-- A table goes through an in-memory-only state, its destination schema changes,
a checkpoint's put fails. -/
def demoRun : List (StoreEvent DemoTableState DemoType (List UInt8)) :=
  [.load true, .mutate (.updateTableStates [(7, .init), (7, .dataSync), (7, .syncWait)]) true,
    .mutate (.storeTableSchema ⟨7, ("public", "users"), ⟨3, 2⟩,
      [⟨"id", .int8, -1, 1, some 1, false, none⟩]⟩) true,
    .mutate (.storeDestinationTableMetadata 7 ⟨"dest.users", .applying ⟨3, 2⟩ [1, 0] ⟨1, 1⟩ [1]⟩)
      true,
    .mutate (.upsertReplicationCheckpoint (.tableSync 7) 50) true,
    .mutate (.upsertReplicationCheckpoint .apply 100) false, .mutate (.rollbackTableState 8) true]

theorem demoRun_isSome :
    (demoEtl.storeMachine.runWhere (BuiltInColumns demoEtl) .new demoRun).isSome := by
  decide +kernel

/-- The store and the log `demoRun` ends in. -/
def demoStore : StoreState DemoTableState DemoType (List UInt8) ×
    List (StoreObs DemoTableState DemoType (List UInt8)) :=
  (demoEtl.storeMachine.runWhere (BuiltInColumns demoEtl) .new demoRun).get demoRun_isSome

/-- After `demoRun` a restart finds `data_sync` as the state of the table that
waits for its sync. -/
theorem Etl.restart_refines_demo :
    ∃ restored, demoEtl.hydrate demoStore.1.backend = .ok restored ∧
      restored.tableStates[7]? = some .dataSync ∧
      demoStore.1.inner.tableStates[7]? = some .syncWait := by
  have reached : demoEtl.storeMachine.ReachesWhere (BuiltInColumns demoEtl) .new demoStore.1
      demoStore.2 := .of_runWhere demoRun (Option.some_get demoRun_isSome).symm
  obtain ⟨restored, hydrated, projection⟩ :=
    (Etl.restart_refines demoEtl_lawful reached).1 (by decide +kernel)
  refine ⟨restored, hydrated, ?_, by decide +kernel⟩
  rw [projection.tableStates]
  decide +kernel

end StreamlingPlugins.PostgresCdc
