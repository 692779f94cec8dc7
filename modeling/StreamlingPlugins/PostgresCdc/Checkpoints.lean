import StreamlingPlugins.Fallible
import StreamlingPlugins.PostgresCdc.StoreRefinement

/-!
# Replication checkpoints over whole runs

A worker's checkpoint is the maximum of the positions stored for it since it was last
removed, through failed puts, reloads and restarts.
-/

namespace StreamlingPlugins.PostgresCdc

open Std

variable {TableState PgType Mask : Type}

def Inner.getReplicationCheckpoint (inner : Inner TableState PgType Mask) (worker : WorkerType) :
    Option PgLsn :=
  inner.replicationCheckpoints[worker]?

/-! ## What a log says of a worker's checkpoint -/

/-- The worker whose checkpoint an operation on tables removes. -/
def TableStateOperation.clearedWorker : TableStateOperation → WorkerType
  | .prepareForCopy tableId | .delete tableId => .tableSync tableId
  | .resetForResync => .apply

/-- The worker whose checkpoint an operation changes. -/
def Mutation.checkpointWorker : Mutation TableState PgType Mask → Option WorkerType
  | .upsertReplicationCheckpoint worker _ => some worker
  | .deleteReplicationCheckpoint worker => some worker
  | .applyTableStateOperation operation => some operation.clearedWorker
  | _ => none

/-- What is stored for a worker after an operation that succeeds, given what was stored
for it before. -/
def Mutation.storedAfter (worker : WorkerType) (lsns : List PgLsn)
    (mutation : Mutation TableState PgType Mask) : List PgLsn :=
  if mutation.checkpointWorker = some worker then
    match mutation with
    | .upsertReplicationCheckpoint _ checkpointLsn => lsns ++ [checkpointLsn]
    | _ => []
  else lsns

/-- The operation an observation reports as done. -/
def StoreObs.completed :
    StoreObs TableState PgType Mask → Option (Mutation TableState PgType Mask)
  | .ok mutation _ => some mutation
  | _ => none

def storedAfter (worker : WorkerType) (lsns : List PgLsn) :
    StoreObs TableState PgType Mask → List PgLsn
  | .ok mutation _ => mutation.storedAfter worker lsns
  | _ => lsns

/-- The positions stored for a worker since the last operation that removed its
checkpoint. -/
def storedSinceRemoval (worker : WorkerType) (log : List (StoreObs TableState PgType Mask)) :
    List PgLsn :=
  log.foldl (storedAfter worker) []

/-- Whether the process has loaded what its backend holds; the first one finds nothing
to load. -/
def loadedAfter (loaded : Bool) : StoreObs TableState PgType Mask → Bool
  | .loaded => true
  | .restarted => false
  | _ => loaded

/-- The process of the last restart has loaded. -/
def Loaded (log : List (StoreObs TableState PgType Mask)) : Prop :=
  log.foldl loadedAfter true = true

instance (log : List (StoreObs TableState PgType Mask)) : Decidable (Loaded log) :=
  inferInstanceAs (Decidable (_ = true))

/-- A process loads before its first operation, as etl's `Pipeline::start()` does before
its workers spawn. -/
def loadsFirst (loaded : Bool) : List (StoreObs TableState PgType Mask) → Bool
  | [] => true
  | obs :: rest =>
    (obs.completed.isNone || loaded) && loadsFirst (loadedAfter loaded obs) rest

section

variable {log : List (StoreObs TableState PgType Mask)} {obs : StoreObs TableState PgType Mask}

@[simp] theorem storedSinceRemoval_concat (worker : WorkerType) :
    storedSinceRemoval worker (log ++ [obs]) =
      storedAfter worker (storedSinceRemoval worker log) obs := by
  simp [storedSinceRemoval, List.foldl_append]

theorem loadsFirst_append {loaded : Bool} (out : List (StoreObs TableState PgType Mask)) :
    loadsFirst loaded (log ++ out) =
      (loadsFirst loaded log && loadsFirst (log.foldl loadedAfter loaded) out) := by
  induction log generalizing loaded with
  | nil => rfl
  | cons first rest ih => simp only [List.cons_append, loadsFirst, ih, List.foldl_cons,
      Bool.and_assoc]

theorem max?_concat (lsns : List PgLsn) (lsn : PgLsn) :
    (lsns ++ [lsn]).max? = some (lsns.max?.elim lsn fun stored => max stored lsn) := by
  cases lsns with
  | nil => rfl
  | cons first rest =>
      rw [List.cons_append, List.max?_cons', List.max?_cons', List.foldl_append]
      rfl

end

/-! ## One operation -/

section

variable {etl : Etl TableState PgType Mask} {inner updated : Inner TableState PgType Mask}
  {mutation : Mutation TableState PgType Mask} {reply : Reply TableState PgType}
  {worker : WorkerType} {lsns : List PgLsn}

@[simp] theorem Inner.updateTableState_replicationCheckpoints (tableId : TableId)
    (state : TableState) :
    (inner.updateTableState tableId state).replicationCheckpoints =
      inner.replicationCheckpoints := by
  unfold Inner.updateTableState
  split <;> rfl

theorem Inner.foldl_updateTableState_replicationCheckpoints {α : Type}
    (inner : Inner TableState PgType Mask)
    (update : α → TableId × TableState) (updates : List α) :
    (updates.foldl (fun inner entry =>
      inner.updateTableState (update entry).1 (update entry).2) inner).replicationCheckpoints =
      inner.replicationCheckpoints := by
  induction updates generalizing inner with
  | nil => rfl
  | cons entry rest ih => rw [List.foldl_cons, ih, Inner.updateTableState_replicationCheckpoints]

theorem Inner.replicationCheckpoints_rollbackTableState {tableId : TableId} {state : TableState}
    (done : inner.rollbackTableState tableId = .ok (state, updated)) :
    updated.replicationCheckpoints = inner.replicationCheckpoints := by
  unfold Inner.rollbackTableState at done
  split at done
  · cases done
  · cases done
    rfl

/-- What an operation on tables leaves of the checkpoints. -/
theorem Etl.replicationCheckpoints_applyTableStateOperation (operation : TableStateOperation) :
    (etl.applyTableStateOperation inner operation).2.replicationCheckpoints =
      inner.replicationCheckpoints.erase operation.clearedWorker := by
  cases operation with
  | prepareForCopy tableId => rfl
  | resetForResync =>
      have same := Inner.foldl_updateTableState_replicationCheckpoints inner
        (fun tableId => (tableId, etl.init)) inner.tableStates.keys
      simp only [Etl.applyTableStateOperation, TableStateOperation.clearedWorker, same]
  | delete tableId => rfl

/-- An upsert returns the maximum of what is stored with it. -/
theorem Inner.upsertReplicationCheckpoint_max {checkpointLsn : PgLsn}
    (stored : inner.replicationCheckpoints[worker]? = lsns.max?) :
    (lsns ++ [checkpointLsn]).max? =
      some (inner.upsertReplicationCheckpoint worker checkpointLsn).1 := by
  rw [max?_concat, ← stored]
  unfold Inner.upsertReplicationCheckpoint
  cases inner.replicationCheckpoints[worker]? with
  | none => rfl
  | some before =>
      simp only [Option.elim_some]
      grind

/-- An operation that succeeds stores or removes the checkpoint of its own worker. -/
theorem Etl.replicationCheckpoints_closure
    (done : etl.closure inner mutation = .ok (reply, updated))
    (stored : inner.replicationCheckpoints[worker]? = lsns.max?) :
    updated.replicationCheckpoints[worker]? = (mutation.storedAfter worker lsns).max? := by
  cases mutation with
  | updateTableStates updates =>
      cases done
      have same := Inner.foldl_updateTableState_replicationCheckpoints inner id updates
      exact (congrArg (·[worker]?) same).trans stored
  | rollbackTableState tableId =>
      simp only [Etl.closure] at done
      cases rolled : inner.rollbackTableState tableId with
      | error e =>
          rw [rolled] at done
          cases done
      | ok r =>
          rw [rolled] at done
          cases done
          rw [Inner.replicationCheckpoints_rollbackTableState rolled]
          exact stored
  | upsertReplicationCheckpoint other checkpointLsn =>
      cases done
      simp only [Inner.upsertReplicationCheckpoint, Mutation.storedAfter,
        Mutation.checkpointWorker, ExtTreeMap.getElem?_insert, Std.compare_eq_iff_eq,
        Option.some.injEq]
      split
      · rename_i same
        subst same
        exact (Inner.upsertReplicationCheckpoint_max stored).symm
      · exact stored
  | deleteReplicationCheckpoint other =>
      cases done
      simp only [Inner.deleteReplicationCheckpoint, Mutation.storedAfter,
        Mutation.checkpointWorker, ExtTreeMap.getElem?_erase, Std.compare_eq_iff_eq,
        Option.some.injEq]
      split
      · rfl
      · exact stored
  | storeDestinationTableMetadata tableId metadata =>
      cases done
      exact stored
  | storeTableSchema schema =>
      cases done
      exact stored
  | pruneTableSchemas retention =>
      cases done
      exact stored
  | applyTableStateOperation operation =>
      cases done
      simp only [Etl.replicationCheckpoints_applyTableStateOperation, Mutation.storedAfter,
        Mutation.checkpointWorker, ExtTreeMap.getElem?_erase, Std.compare_eq_iff_eq,
        Option.some.injEq]
      split
      · rfl
      · exact stored

/-- Restoring what was persisted restores the checkpoints. -/
theorem Etl.replicationCheckpoints_fromPersisted
    (restored : etl.fromPersisted (etl.toPersisted inner) = .ok updated) :
    updated.replicationCheckpoints = inner.replicationCheckpoints := by
  simp only [Etl.fromPersisted, Etl.foldl_restoreTableState] at restored
  obtain ⟨tables, _, done⟩ := bind_eq_ok restored
  cases done
  exact Etl.restore_replicationCheckpoints

/-- An operation on other workers or tables keeps a worker's checkpoint. -/
theorem Etl.getReplicationCheckpoint_closure_of_ne
    (done : etl.closure inner mutation = .ok (reply, updated))
    (other : mutation.checkpointWorker ≠ some worker) :
    updated.getReplicationCheckpoint worker = inner.getReplicationCheckpoint worker := by
  have stored : inner.replicationCheckpoints[worker]? =
      (inner.replicationCheckpoints[worker]?.toList).max? := by
    cases inner.replicationCheckpoints[worker]? <;> rfl
  have after := Etl.replicationCheckpoints_closure done stored
  unfold Mutation.storedAfter at after
  rw [if_neg other, ← stored] at after
  exact after

end

/-! ## Whole runs -/

/-- The backend holds the checkpoints the log says, and a loaded cache does. -/
structure CheckpointInv (etl : Etl TableState PgType Mask)
    (store : StoreState TableState PgType Mask) (log : List (StoreObs TableState PgType Mask)) :
    Prop where
  persisted : ∃ inner, store.backend.getD .empty = etl.toPersisted inner ∧
    ∀ worker, inner.getReplicationCheckpoint worker = (storedSinceRemoval worker log).max?
  live : Loaded log → ∀ worker,
    store.inner.getReplicationCheckpoint worker = (storedSinceRemoval worker log).max?
  upserts : ∀ before worker checkpointLsn reply after,
    log = before ++ .ok (.upsertReplicationCheckpoint worker checkpointLsn) reply :: after →
      ∃ stored, reply = .lsn stored ∧
        (storedSinceRemoval worker before ++ [checkpointLsn]).max? = some stored

section

variable {etl : Etl TableState PgType Mask} {store store' : StoreState TableState PgType Mask}
  {log out : List (StoreObs TableState PgType Mask)}

theorem CheckpointInv.initial : CheckpointInv etl .new [] where
  persisted := ⟨.empty, rfl, fun _ => ExtTreeMap.getElem?_empty⟩
  live _ _ := ExtTreeMap.getElem?_empty
  upserts before worker checkpointLsn reply after split := by simp at split

/-- The replies of the upserts before a step. -/
theorem CheckpointInv.upserts_concat (inv : CheckpointInv etl store log)
    {obs : StoreObs TableState PgType Mask}
    (last : ∀ worker checkpointLsn reply,
      obs = .ok (.upsertReplicationCheckpoint worker checkpointLsn) reply →
        ∃ stored, reply = .lsn stored ∧
          (storedSinceRemoval worker log ++ [checkpointLsn]).max? = some stored) :
    ∀ before worker checkpointLsn reply after,
      log ++ [obs] = before ++ .ok (.upsertReplicationCheckpoint worker checkpointLsn) reply ::
        after → ∃ stored, reply = .lsn stored ∧
          (storedSinceRemoval worker before ++ [checkpointLsn]).max? = some stored := by
  intro before worker checkpointLsn reply after split
  rcases List.eq_nil_or_concat after with rfl | ⟨rest, final, rfl⟩
  · obtain ⟨rfl, same⟩ := List.append_inj' split rfl
    exact last worker checkpointLsn reply (List.singleton_inj.mp same)
  · rw [List.concat_eq_append, ← List.cons_append, ← List.append_assoc] at split
    obtain ⟨same, -⟩ := List.append_inj' split rfl
    exact inv.upserts before worker checkpointLsn reply rest same

/-- What a step keeps that stores and removes nothing. -/
theorem CheckpointInv.silent (inv : CheckpointInv etl store log)
    {obs : StoreObs TableState PgType Mask} (silent : obs.completed = none)
    {inner : Inner TableState PgType Mask}
    (live : Loaded (log ++ [obs]) → ∀ worker,
      inner.getReplicationCheckpoint worker = (storedSinceRemoval worker log).max?) :
    CheckpointInv etl ⟨inner, store.backend⟩ (log ++ [obs]) := by
  have same : ∀ worker,
      storedSinceRemoval worker (log ++ [obs]) = storedSinceRemoval worker log := by
    intro worker
    rw [storedSinceRemoval_concat]
    cases obs with
    | ok mutation reply => cases silent
    | _ => rfl
  simp only [← same] at live
  obtain ⟨persisted, held, stored⟩ := inv.persisted
  refine ⟨⟨persisted, held, fun worker => (stored worker).trans ?_⟩, live, inv.upserts_concat ?_⟩
  · rw [same]
  · rintro worker checkpointLsn reply rfl
    cases silent

theorem CheckpointInv.step (inv : CheckpointInv etl store log)
    {event : StoreEvent TableState PgType Mask}
    (taken : etl.storeStep store event = some (store', out))
    (started : loadsFirst true (log ++ out) = true) : CheckpointInv etl store' (log ++ out) := by
  cases event with
  | mutate mutation putOk =>
      simp only [Etl.storeStep, Etl.mutate] at taken
      cases done : etl.closure store.inner mutation with
      | error e =>
          rw [done] at taken
          cases taken
          exact inv.silent rfl (by simpa [Loaded, loadedAfter] using inv.live)
      | ok r =>
          obtain ⟨reply, updated⟩ := r
          cases putOk with
          | false =>
              rw [done] at taken
              cases taken
              exact inv.silent rfl (by simpa [Loaded, loadedAfter] using inv.live)
          | true =>
              rw [done] at taken
              cases taken
              rw [loadsFirst_append, Bool.and_eq_true] at started
              have loaded : Loaded log := by
                unfold Loaded
                simpa [loadsFirst, StoreObs.completed] using started.2
              have live := inv.live loaded
              have stored : ∀ worker, updated.getReplicationCheckpoint worker =
                  (storedSinceRemoval worker (log ++ [.ok mutation reply])).max? := by
                intro worker
                rw [storedSinceRemoval_concat]
                exact Etl.replicationCheckpoints_closure done (live worker)
              refine ⟨⟨updated, rfl, stored⟩, fun _ => stored, inv.upserts_concat ?_⟩
              rintro worker checkpointLsn _ ⟨⟩
              cases done
              exact ⟨_, rfl, Inner.upsertReplicationCheckpoint_max (live worker)⟩
  | load getOk =>
      simp only [Etl.storeStep] at taken
      cases getOk with
      | false =>
          cases taken
          exact inv.silent rfl (by simpa [Loaded, loadedAfter] using inv.live)
      | true =>
          cases read : etl.hydrate store.backend with
          | error e =>
              rw [if_pos rfl, read] at taken
              cases taken
              exact inv.silent rfl (by simpa [Loaded, loadedAfter] using inv.live)
          | ok inner =>
              rw [if_pos rfl, read] at taken
              cases taken
              obtain ⟨persisted, held, stored⟩ := inv.persisted
              refine inv.silent rfl fun _ worker => (stored worker).symm.trans ?_ |>.symm
              rw [Etl.hydrate, held] at read
              exact congrArg (·[worker]?) (Etl.replicationCheckpoints_fromPersisted read).symm
  | restart =>
      cases taken
      exact inv.silent rfl fun loaded => by simp [Loaded, loadedAfter] at loaded

theorem CheckpointInv.of_reaches (reached : etl.storeMachine.Reaches .new store log)
    (started : loadsFirst true log = true) : CheckpointInv etl store log := by
  refine reached.invariant (P := fun store log =>
    loadsFirst true log = true → CheckpointInv etl store log) (fun _ => .initial) ?_ started
  intro store store' log out event inv _ taken started
  refine (inv ?_).step taken started
  rw [loadsFirst_append, Bool.and_eq_true] at started
  exact started.1

/-- **Checkpoints are monotone over whole runs.** A worker's checkpoint is the maximum of
the positions stored for it since its last removal, every upsert returns that maximum, and
operations on other workers or tables do not change it. -/
theorem Etl.checkpoint_is_maximum (reached : etl.storeMachine.Reaches .new store log)
    (started : loadsFirst true log = true) :
    (Loaded log → ∀ worker,
      store.inner.getReplicationCheckpoint worker = (storedSinceRemoval worker log).max?) ∧
    (∀ before worker checkpointLsn reply after,
      log = before ++ .ok (.upsertReplicationCheckpoint worker checkpointLsn) reply :: after →
        ∃ stored, reply = .lsn stored ∧
          (storedSinceRemoval worker before ++ [checkpointLsn]).max? = some stored) ∧
    ∀ mutation putOk store' out worker,
      etl.storeStep store (.mutate mutation putOk) = some (store', out) →
      mutation.checkpointWorker ≠ some worker →
        store'.inner.getReplicationCheckpoint worker =
          store.inner.getReplicationCheckpoint worker := by
  have inv := CheckpointInv.of_reaches reached started
  refine ⟨inv.live, inv.upserts, fun mutation putOk store' out worker taken other => ?_⟩
  simp only [Etl.storeStep, Etl.mutate] at taken
  cases done : etl.closure store.inner mutation with
  | error e =>
      rw [done] at taken
      cases taken
      rfl
  | ok r =>
      obtain ⟨reply, updated⟩ := r
      rw [done] at taken
      cases putOk with
      | false =>
          cases taken
          rfl
      | true =>
          cases taken
          exact Etl.getReplicationCheckpoint_closure_of_ne done other

end

/-- A table's checkpoint is stored twice with a failed put and a restart between, the apply
worker's is removed by a resync. -/
def demoCheckpointRun : List (StoreEvent DemoTableState DemoType (List UInt8)) :=
  [.load true, .mutate (.upsertReplicationCheckpoint (.tableSync 7) 50) true,
    .mutate (.upsertReplicationCheckpoint .apply 90) true,
    .mutate (.upsertReplicationCheckpoint (.tableSync 7) 80) false, .restart, .load true,
    .mutate (.upsertReplicationCheckpoint (.tableSync 7) 40) true,
    .mutate (.applyTableStateOperation .resetForResync) true]

theorem demoCheckpointRun_isSome :
    (demoEtl.storeMachine.run .new demoCheckpointRun).isSome := by
  decide +kernel

/-- After `demoCheckpointRun` the table's checkpoint is the larger of those stored. -/
theorem Etl.checkpoint_is_maximum_demo :
    ∃ store log, demoEtl.storeMachine.Reaches .new store log ∧
      store.inner.getReplicationCheckpoint (.tableSync 7) = some 50 ∧
      store.inner.getReplicationCheckpoint .apply = none := by
  have computed := Option.some_get demoCheckpointRun_isSome
  have reached := Machine.Reaches.of_run demoCheckpointRun computed.symm
  have exact_at := (Etl.checkpoint_is_maximum reached (by decide +kernel)).1 (by decide +kernel)
  refine ⟨_, _, reached, (exact_at _).trans ?_, (exact_at _).trans ?_⟩
  · decide +kernel
  · decide +kernel

end StreamlingPlugins.PostgresCdc
