import StreamlingPlugins.PostgresCdc.StoreRefinement

/-!
# Pruning schema versions

The version that pruning keeps for a table is the one its retention point looks up, so
that lookups from that point on find what they found before.
-/

namespace StreamlingPlugins.PostgresCdc

open Std

variable {TableState PgType Mask : Type}

/-! ## One table -/

section

variable {retention : BTreeMap TableId SnapshotId} {tableId : TableId}
  {snapshots : BTreeMap SnapshotId (TableSchema PgType)} {boundary snapshotId : SnapshotId}

/-- Either nothing is pruned, or what comes before the version that the retention point
looks up. -/
theorem Inner.pruneSnapshots_eq (retention : BTreeMap TableId SnapshotId) (tableId : TableId)
    (snapshots : BTreeMap SnapshotId (TableSchema PgType)) :
    (Inner.pruneSnapshots retention tableId snapshots = snapshots ∧
        ∀ boundary, retention[tableId]? = some boundary → snapshots.lastUpTo boundary = none) ∨
      ∃ boundary retained, retention[tableId]? = some boundary ∧
        snapshots.lastUpTo boundary = some retained ∧
        Inner.pruneSnapshots retention tableId snapshots =
          snapshots.filter fun snapshotId _ => (compare snapshotId retained.1).isGE := by
  unfold Inner.pruneSnapshots
  cases retention[tableId]? with
  | none => exact .inl ⟨rfl, nofun⟩
  | some boundary =>
      dsimp only
      cases last : snapshots.lastUpTo boundary with
      | none =>
          refine .inl ⟨rfl, ?_⟩
          rintro _ ⟨⟩
          exact last
      | some retained => exact .inr ⟨boundary, retained, rfl, last, rfl⟩

/-- Lookups from the retention point on find what they found before, and all lookups do
where there is no such point or no version up to it. -/
theorem Inner.lastUpTo_pruneSnapshots
    (needed : ∀ boundary, retention[tableId]? = some boundary →
      (compare boundary snapshotId).isLE ∨
        ∀ earlier schema, snapshots[earlier]? = some schema → ¬ (compare earlier boundary).isLE) :
    (Inner.pruneSnapshots retention tableId snapshots).lastUpTo snapshotId =
      snapshots.lastUpTo snapshotId := by
  rcases Inner.pruneSnapshots_eq retention tableId snapshots with
    ⟨all, _⟩ | ⟨boundary, retained, at_table, last, pruned⟩
  · rw [all]
  · obtain ⟨present, within⟩ := BTreeMap.getElem?_of_lastUpTo last
    rw [pruned]
    refine BTreeMap.lastUpTo_filter fun entry found => ?_
    rcases needed boundary at_table with from_boundary | none_before
    · rw [OrientedCmp.isGE_iff_isLE]
      exact BTreeMap.le_of_lastUpTo found present (TransCmp.isLE_trans within from_boundary)
    · exact absurd within (none_before _ _ present)

/-- Of the versions up to the retention point one is left at most. -/
theorem Inner.pruneSnapshots_unique {a b : SnapshotId}
    (at_table : retention[tableId]? = some boundary)
    (left : a ∈ Inner.pruneSnapshots retention tableId snapshots)
    (left' : b ∈ Inner.pruneSnapshots retention tableId snapshots)
    (within : (compare a boundary).isLE) (within' : (compare b boundary).isLE) : a = b := by
  rcases Inner.pruneSnapshots_eq retention tableId snapshots with
    ⟨all, none_before⟩ | ⟨point, retained, point_at, last, pruned⟩
  · rw [all] at left
    exact absurd within (BTreeMap.lastUpTo_eq_none_iff.mp (none_before _ at_table) a _
      (ExtTreeMap.getElem?_eq_some_getElem left))
  · obtain rfl := Option.some.inj (at_table.symm.trans point_at)
    -- what is left up to the point lies between the retained version and itself
    have is_retained : ∀ version, version ∈ Inner.pruneSnapshots retention tableId snapshots →
        (compare version boundary).isLE → version = retained.1 := by
      intro version member up_to
      rw [pruned] at member
      obtain ⟨present, from_retained⟩ := ExtTreeMap.mem_filter.mp member
      rw [ExtTreeMap.getKey_eq, OrientedCmp.isGE_iff_isLE] at from_retained
      have up_to_retained := BTreeMap.le_of_lastUpTo last
        (ExtTreeMap.getElem?_eq_some_getElem present) up_to
      exact LawfulEqOrd.eq_of_compare (OrientedCmp.isLE_antisymm up_to_retained from_retained)
    rw [is_retained a left within, is_retained b left' within']

/-- Pruned versions are not pruned further. -/
theorem Inner.pruneSnapshots_idem :
    Inner.pruneSnapshots retention tableId (Inner.pruneSnapshots retention tableId snapshots) =
      Inner.pruneSnapshots retention tableId snapshots := by
  rcases Inner.pruneSnapshots_eq retention tableId snapshots with
    ⟨all, _⟩ | ⟨boundary, retained, at_table, last, pruned⟩
  · rw [all, all]
  · have last_after : (Inner.pruneSnapshots retention tableId snapshots).lastUpTo boundary =
        some retained := by
      rw [Inner.lastUpTo_pruneSnapshots, last]
      rintro point at_point
      obtain rfl := Option.some.inj (at_table.symm.trans at_point)
      exact .inl (by simp)
    rcases Inner.pruneSnapshots_eq retention tableId
        (Inner.pruneSnapshots retention tableId snapshots) with
      ⟨all, _⟩ | ⟨point, retained', point_at, last', pruned'⟩
    · exact all
    · obtain rfl := Option.some.inj (at_table.symm.trans point_at)
      obtain rfl := Option.some.inj (last_after.symm.trans last')
      rw [pruned', pruned]
      refine ExtTreeMap.ext_getElem? fun version => ?_
      rw [ExtTreeMap.getElem?_filter', ExtTreeMap.getElem?_filter', Option.filter_filter]
      simp

theorem Inner.size_pruneSnapshots_le :
    (Inner.pruneSnapshots retention tableId snapshots).size ≤ snapshots.size := by
  rcases Inner.pruneSnapshots_eq retention tableId snapshots with
    ⟨all, _⟩ | ⟨boundary, retained, at_table, last, pruned⟩
  · rw [all]
  · rw [pruned]
    exact ExtTreeMap.size_filter_le_size

end

/-! ## All tables -/

/-- A lookup of a table without a retention point, or from that point on, or of a table
with no version up to it. -/
def Inner.NeededLookup (inner : Inner TableState PgType Mask)
    (retention : BTreeMap TableId SnapshotId) (tableId : TableId) (snapshotId : SnapshotId) :
    Prop :=
  ∀ boundary, retention[tableId]? = some boundary →
    (compare boundary snapshotId).isLE ∨
      ∀ earlier schema, inner.tableSchemas.versions (tableId, earlier) = some schema →
        ¬ (compare earlier boundary).isLE

/-- What pruning leaves of the schema versions. -/
structure Inner.PrunedTo (inner : Inner TableState PgType Mask)
    (retention : BTreeMap TableId SnapshotId) (removed : Nat)
    (pruned : Inner TableState PgType Mask) : Prop where
  lookups : ∀ tableId snapshotId, inner.NeededLookup retention tableId snapshotId →
    pruned.getTableSchema tableId snapshotId = inner.getTableSchema tableId snapshotId
  /-- Of the versions up to a retention point one is left at most. -/
  unique : ∀ tableId boundary, retention[tableId]? = some boundary → ∀ a b,
    (pruned.tableSchemas.versions (tableId, a)).isSome → (compare a boundary).isLE →
    (pruned.tableSchemas.versions (tableId, b)).isSome → (compare b boundary).isLE → a = b
  subset : ∀ version schema, pruned.tableSchemas.versions version = some schema →
    inner.tableSchemas.versions version = some schema
  count : pruned.tableSchemas.flatValues.length + removed = inner.tableSchemas.flatValues.length

section

variable {inner : Inner TableState PgType Mask} {retention : BTreeMap TableId SnapshotId}

theorem Inner.tableSchemas_pruneTableSchemas (tableId : TableId) :
    (inner.pruneTableSchemas retention).2.tableSchemas[tableId]? =
      inner.tableSchemas[tableId]?.map (Inner.pruneSnapshots retention tableId) :=
  ExtTreeMap.getElem?_map

theorem Inner.versions_pruneTableSchemas (tableId : TableId) (snapshotId : SnapshotId) :
    (inner.pruneTableSchemas retention).2.tableSchemas.versions (tableId, snapshotId) =
      inner.tableSchemas[tableId]?.bind fun snapshots =>
        (Inner.pruneSnapshots retention tableId snapshots)[snapshotId]? := by
  simp only [BTreeMap.versions, Inner.tableSchemas_pruneTableSchemas, Option.bind_map]
  rfl

theorem Inner.prunedTo_pruneTableSchemas :
    inner.PrunedTo retention (inner.pruneTableSchemas retention).1
      (inner.pruneTableSchemas retention).2 where
  lookups tableId snapshotId needed := by
    unfold Inner.getTableSchema
    rw [Inner.tableSchemas_pruneTableSchemas]
    cases at_table : inner.tableSchemas[tableId]? with
    | none => rfl
    | some snapshots =>
        simp only [Option.map_some, Option.bind_some]
        rw [Inner.lastUpTo_pruneSnapshots]
        intro boundary retained
        refine (needed boundary retained).imp_right fun none_before earlier schema found => ?_
        exact none_before earlier schema (by simp [BTreeMap.versions, at_table, found])
  unique tableId boundary retained a b left within left' within' := by
    rw [Inner.versions_pruneTableSchemas] at left left'
    cases at_table : inner.tableSchemas[tableId]? with
    | none => simp [at_table] at left
    | some snapshots =>
        rw [at_table] at left left'
        exact Inner.pruneSnapshots_unique retained
          (ExtTreeMap.mem_iff_isSome_getElem?.mpr left)
          (ExtTreeMap.mem_iff_isSome_getElem?.mpr left') within within'
  subset version schema left := by
    rw [← Prod.eta version, Inner.versions_pruneTableSchemas] at left
    obtain ⟨snapshots, at_table, left⟩ := Option.bind_eq_some_iff.mp left
    simp only [BTreeMap.versions, at_table, Option.bind_some]
    exact (Inner.pruneSnapshots_cases retention version.1 snapshots).1 _ schema left
  count := by
    rw [BTreeMap.length_flatValues, BTreeMap.length_flatValues]
    simp only [Inner.pruneTableSchemas, ExtTreeMap.toList_map, List.map_map, Function.comp_def,
      ExtTreeMap.length_toList]
    rw [← List.sum_map_add]
    refine congrArg List.sum (List.map_congr_left fun entry _ => ?_)
    exact Nat.add_sub_cancel' Inner.size_pruneSnapshots_le

theorem Inner.pruneTableSchemas_again :
    (inner.pruneTableSchemas retention).2.pruneTableSchemas retention =
      (0, (inner.pruneTableSchemas retention).2) := by
  have same : (inner.pruneTableSchemas retention).2.tableSchemas.map
      (fun tableId snapshots => Inner.pruneSnapshots retention tableId snapshots) =
        (inner.pruneTableSchemas retention).2.tableSchemas := by
    refine ExtTreeMap.ext_getElem? fun tableId => ?_
    rw [ExtTreeMap.getElem?_map, Inner.tableSchemas_pruneTableSchemas, Option.map_map]
    refine congrArg (inner.tableSchemas[tableId]?.map ·) (funext fun snapshots => ?_)
    exact Inner.pruneSnapshots_idem
  have unchanged : ((inner.pruneTableSchemas retention).2.pruneTableSchemas retention).2 =
      (inner.pruneTableSchemas retention).2 := by
    rw [Inner.pruneTableSchemas, same]
  have counted : (inner.pruneTableSchemas retention).2.PrunedTo retention _ _ :=
    Inner.prunedTo_pruneTableSchemas
  have count := counted.count
  rw [unchanged] at count
  exact Prod.ext (Nat.add_eq_left.mp count) unchanged

end

/-- **Pruning keeps every needed lookup.** A prune whose put succeeds counts the versions
it removes, leaves at most one up to each retention point, changes no lookup that needs
one of them, and done again removes nothing. -/
theorem Etl.prune_keeps_lookups (etl : Etl TableState PgType Mask)
    (store : StoreState TableState PgType Mask) (retention : BTreeMap TableId SnapshotId) :
    ∃ removed pruned,
      etl.mutate store (.pruneTableSchemas retention) true =
          .ok (.count removed, ⟨pruned, some (etl.toPersisted pruned)⟩) ∧
        store.inner.PrunedTo retention removed pruned ∧
        ∀ backend, etl.mutate ⟨pruned, backend⟩ (.pruneTableSchemas retention) true =
          .ok (.count 0, ⟨pruned, some (etl.toPersisted pruned)⟩) := by
  refine ⟨_, _, rfl, Inner.prunedTo_pruneTableSchemas, fun backend => ?_⟩
  simp [Etl.mutate, Etl.closure, Inner.pruneTableSchemas_again]

end StreamlingPlugins.PostgresCdc
