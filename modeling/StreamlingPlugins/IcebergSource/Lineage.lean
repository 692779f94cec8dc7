import StreamlingPlugins.IcebergSource.Ancestry
import StreamlingPlugins.IcebergSource.Reader

/-!
# Positions along a table's history

A `History` is what a table's snapshots hold, whichever of them a catalog still
lists.  `Travelled` relates two positions by the rows between them: the rest of a
unit, then the snapshots of the lineage one by one.
-/

namespace StreamlingPlugins.IcebergSource

/-- The snapshots of a table with their ancestry, and the files each unit reads. -/
structure History (Row : Type) where
  snapshot : Int → Snapshot
  snapshotId_snapshot : ∀ id, (snapshot id).snapshotId = id
  age : Int → Nat
  age_parent : ∀ id parent, (snapshot id).parentSnapshotId = some parent → age parent < age id
  files : Int → Phase → List (DataFile Row)
  distinct : ∀ id phase, ((files id phase).map DataFile.path).Nodup

variable {Row : Type}

namespace History

variable (h : History Row)

/-- The files of a unit in path order. -/
def sortedFiles (id : Int) (phase : Phase) : List (DataFile Row) :=
  (h.files id phase).mergeSort fun a b => a.path ≤ b.path

/-- All rows of a unit in path order. -/
def unitRows (id : Int) (phase : Phase) : List Row :=
  (h.sortedFiles id phase).flatMap DataFile.rows

/-- The rows of a position's unit that it does not cover. -/
def rest (position : Position) : List Row :=
  if position.complete then []
  else
    match (h.sortedFiles position.snapshotId position.phase).drop position.filesDone with
    | [] => []
    | file :: files => file.rows.drop position.rowsDoneInFile ++ files.flatMap DataFile.rows

/-- The rows a cursor's unit still has to give. -/
def restAt (cursor : Option Position) : List Row :=
  cursor.elim [] h.rest

/-- The rows of the snapshots that are read, in order. -/
def laterRows (policy : OnNonAppendSnapshot) (snapshots : List Snapshot) : List Row :=
  snapshots.flatMap fun snapshot =>
    match classify snapshot policy with
    | .ok .read => h.unitRows snapshot.snapshotId .incremental
    | _ => []

/-- The position is inside its unit. -/
def Fits (position : Position) : Prop :=
  position.complete = true ∨
    (position.filesDone ≤ (h.sortedFiles position.snapshotId position.phase).length ∧
      ∀ file, (h.sortedFiles position.snapshotId position.phase)[position.filesDone]? = some file →
        position.rowsDoneInFile ≤ file.rows.length)

@[simp] theorem rest_completed (id : Int) (phase : Phase) : h.rest (.completed id phase) = [] :=
  rfl

theorem rest_of_complete {position : Position} (complete : position.complete = true) :
    h.rest position = [] := by
  simp [rest, complete]

theorem restAt_of_complete {cursor : Option Position} (complete : ∀ p ∈ cursor, p.complete = true) :
    h.restAt cursor = [] := by
  cases cursor with
  | none => rfl
  | some p => exact h.rest_of_complete (complete p rfl)

theorem fits_start (id : Int) (phase : Phase) : h.Fits (.start id phase) :=
  .inr ⟨Nat.zero_le _, fun _ _ => Nat.zero_le _⟩

theorem fits_completed (id : Int) (phase : Phase) : h.Fits (.completed id phase) :=
  .inl rfl

theorem rest_start (id : Int) (phase : Phase) :
    h.rest (.start id phase) = h.unitRows id phase := by
  unfold rest unitRows
  simp only [Position.start, Bool.false_eq_true, ↓reduceIte, List.drop_zero]
  cases h.sortedFiles id phase with
  | nil => rfl
  | cons file files => simp

/-- Planning a unit again finds its files in the same order. -/
theorem mergeSort_eq_sortedFiles {id : Int} {phase : Phase} {files : List (DataFile Row)}
    (planned : files.Perm (h.files id phase)) :
    (files.mergeSort fun a b => a.path ≤ b.path) = h.sortedFiles id phase := by
  have sorted : ∀ l : List (DataFile Row), (l.mergeSort fun a b => a.path ≤ b.path).Pairwise
      fun a b => a.path ≤ b.path := by
    intro l
    have pairs := @List.pairwise_mergeSort _ (fun a b : DataFile Row => decide (a.path ≤ b.path))
      (fun a b c ab bc => by
        simp only [decide_eq_true_eq] at ab bc ⊢
        exact le_trans ab bc)
      (fun a b => by
        simp only [Bool.or_eq_true, decide_eq_true_eq]
        exact le_total a.path b.path) l
    simpa using pairs
  have perm : (files.mergeSort fun a b => a.path ≤ b.path).Perm (h.sortedFiles id phase) :=
    (List.mergeSort_perm _ _).trans (planned.trans (List.mergeSort_perm _ _).symm)
  refine perm.eq_of_pairwise (fun a b inFiles inSorted ab ba => ?_) (sorted files) (sorted _)
  have apart := (List.nodup_map_iff_inj_on (List.Nodup.of_map _ (h.distinct id phase))).mp
    (h.distinct id phase)
  refine apart a ?_ b ?_ (le_antisymm ab ba)
  · exact planned.mem_iff.mp (List.mem_mergeSort.mp inFiles)
  · exact List.mem_mergeSort.mp inSorted

end History

/-- The metadata lists snapshots of the history. -/
def TableMetadata.Of (metadata : TableMetadata) (h : History Row) : Prop :=
  ∀ snapshot ∈ metadata.snapshots, snapshot = h.snapshot snapshot.snapshotId

theorem TableMetadata.Of.snapshotById {metadata : TableMetadata} {h : History Row}
    (of : metadata.Of h) {id : Int} {snapshot : Snapshot}
    (found : metadata.snapshotById id = some snapshot) : snapshot = h.snapshot id := by
  obtain ⟨mem, same⟩ := TableMetadata.snapshotById_eq_some found
  rw [of snapshot mem, same]

/-! ## Moving forward -/

/-- No row of the position's file comes after one of the other's. -/
def Position.Before (p q : Position) : Prop :=
  q.complete ∨ p.filesDone < q.filesDone ∨
    (p.filesDone = q.filesDone ∧ p.rowsDoneInFile ≤ q.rowsDoneInFile)

/-- The next position, past `rows`: further in a unit, or at the next snapshot. -/
inductive Advances (h : History Row) (policy : OnNonAppendSnapshot) :
    Option Position → List Row → Option Position → Prop
  | read {p q : Position} {rows : List Row} :
    q.snapshotId = p.snapshotId → q.phase = p.phase → p.complete = false → p.Before q →
    h.rest p = rows ++ h.rest q → Advances h policy (some p) rows (some q)
  | enter {last : Option Position} {id : Int} :
    (∀ p ∈ last, p.complete = true) →
    (h.snapshot id).parentSnapshotId = last.map Position.snapshotId →
    classify (h.snapshot id) policy = .ok .read →
    Advances h policy last [] (some (.start id .incremental))
  | pass {last : Option Position} {id : Int} :
    (∀ p ∈ last, p.complete = true) →
    (h.snapshot id).parentSnapshotId = last.map Position.snapshotId →
    classify (h.snapshot id) policy = .ok .skip →
    Advances h policy last [] (some (.completed id .incremental))

/-- From one position to another along the lineage, past `rows`. -/
inductive Travelled (h : History Row) (policy : OnNonAppendSnapshot) :
    Option Position → List Row → Option Position → Prop
  | refl (cursor : Option Position) : Travelled h policy cursor [] cursor
  | tail {a b c : Option Position} {rows more : List Row} :
    Travelled h policy a rows b → Advances h policy b more c → Travelled h policy a (rows ++ more) c

variable {h : History Row} {policy : OnNonAppendSnapshot}

theorem Travelled.one {a b : Option Position} {rows : List Row} (step : Advances h policy a rows b) :
    Travelled h policy a rows b := by
  simpa using (Travelled.refl a).tail step

theorem Travelled.trans {a b c : Option Position} {rows more : List Row}
    (first : Travelled h policy a rows b) (second : Travelled h policy b more c) :
    Travelled h policy a (rows ++ more) c := by
  induction second with
  | refl => simpa using first
  | tail _ step ih =>
      rw [← List.append_assoc]
      exact ih.tail step

/-- A move past no rows. -/
theorem Travelled.then {a b c : Option Position} {rows : List Row}
    (first : Travelled h policy a rows b) (second : Travelled h policy b [] c) :
    Travelled h policy a rows c := by
  simpa using first.trans second

/-! ## Snapshots in order -/

/-- Snapshots of the history, each the parent of the next one. -/
inductive Chain (h : History Row) : Option Int → List Snapshot → Option Int → Prop
  | nil (last : Option Int) : Chain h last [] last
  | cons {last final : Option Int} {snapshot : Snapshot} {snapshots : List Snapshot} :
    snapshot = h.snapshot snapshot.snapshotId → snapshot.parentSnapshotId = last →
    Chain h (some snapshot.snapshotId) snapshots final → Chain h last (snapshot :: snapshots) final

theorem Chain.eq_of_nil {last final : Option Int} (chain : Chain h last [] final) :
    last = final := by
  cases chain
  rfl

theorem chain_of_walk {metadata : TableMetadata} (of : metadata.Of h) {last : Option Int}
    {current : Int} {fuel : Nat} {snapshot : Snapshot} {chain found : List Snapshot}
    (walked : walk metadata last current fuel snapshot chain = some (.ok found))
    (known : snapshot = h.snapshot snapshot.snapshotId)
    (so : Chain h (some snapshot.snapshotId) chain (some current)) :
    Chain h last found (some current) := by
  induction fuel generalizing snapshot chain with
  | zero => cases walked
  | succ fuel ih =>
      unfold walk at walked
      split at walked
      · rename_i reached
        cases walked
        rwa [← reached]
      · split at walked
        · rename_i parent parent_eq
          split at walked
          · rename_i reached
            cases walked
            exact .cons known (parent_eq.trans reached) so
          · split at walked
            · rename_i next found_next
              have next_eq := of.snapshotById found_next
              have next_id : next.snapshotId = parent := by
                rw [next_eq, h.snapshotId_snapshot]
              refine ih walked ?_ (.cons known ?_ so)
              · rw [next_id, next_eq]
              · rw [next_id, parent_eq]
            · cases walked
        · rename_i root
          split at walked
          · cases walked
            exact .cons known root so
          · cases walked

theorem chain_of_snapshotsSince {metadata : TableMetadata} (of : metadata.Of h)
    {last : Option Int} {found : List Snapshot}
    (since : snapshotsSince metadata last = some (.ok found)) :
    Chain h last found (metadata.currentSnapshot.map Snapshot.snapshotId) := by
  unfold snapshotsSince at since
  split at since
  · rename_i current current_eq
    have known : current = h.snapshot current.snapshotId := by
      obtain ⟨id, _, found_id⟩ := Option.bind_eq_some_iff.mp current_eq
      have same := of.snapshotById found_id
      rw [same, h.snapshotId_snapshot]
    rw [current_eq]
    exact chain_of_walk of since known (.nil _)
  · rename_i empty
    rw [empty]
    split at since
    · cases since
      exact .nil none
    · cases since

/-- The parent links of a history are acyclic: each snapshot is younger than its parent. -/
theorem TableMetadata.Of.acyclic {metadata : TableMetadata} (of : metadata.Of h) :
    metadata.Acyclic := by
  refine acyclic_of_age (fun snapshot => h.age snapshot.snapshotId) ?_
  rintro child listed parent ⟨id, parent_eq, found⟩
  rw [(snapshotById_eq_some found).2]
  refine h.age_parent _ _ ?_
  rw [← of child listed, parent_eq]

theorem snapshotsSince_isSome {metadata : TableMetadata} (of : metadata.Of h)
    (last : Option Int) : (snapshotsSince metadata last).isSome :=
  snapshotsSince_ends of.acyclic last

theorem Chain.snoc {last mid : Option Int} {snapshots : List Snapshot} {id : Int}
    (chain : Chain h last snapshots mid) (parent : (h.snapshot id).parentSnapshotId = mid) :
    Chain h last (snapshots ++ [h.snapshot id]) (some id) := by
  induction chain with
  | nil =>
      have known : h.snapshot id = h.snapshot (h.snapshot id).snapshotId := by
        rw [h.snapshotId_snapshot]
      refine .cons known parent ?_
      rw [h.snapshotId_snapshot]
      exact .nil _
  | cons known at' _ ih => exact .cons known at' (ih parent)

/-- Ages grow along a chain. -/
theorem Chain.age_lt {first final : Int} {snapshots : List Snapshot}
    (chain : Chain h (some first) snapshots (some final)) :
    snapshots = [] ∧ first = final ∨ h.age first < h.age final := by
  induction snapshots generalizing first with
  | nil =>
      cases chain
      exact .inl ⟨rfl, rfl⟩
  | cons snapshot snapshots ih =>
      cases chain with
      | cons known parent rest =>
          right
          have older : h.age first < h.age snapshot.snapshotId :=
            h.age_parent _ _ (by rw [← known, parent])
          rcases ih rest with ⟨_, same⟩ | younger
          · rwa [← same]
          · omega

/-- No snapshot is its own ancestor. -/
theorem Chain.eq_nil {id : Int} {snapshots : List Snapshot}
    (chain : Chain h (some id) snapshots (some id)) : snapshots = [] := by
  rcases chain.age_lt with ⟨none, _⟩ | less
  · exact none
  · omega

/-- The rows between two positions: what the unit still has to give, then the
snapshots after it. -/
theorem Travelled.exists_chain {a c : Option Position} {rows : List Row}
    (travelled : Travelled h policy a rows c) :
    ∃ snapshots, Chain h (a.map Position.snapshotId) snapshots (c.map Position.snapshotId) ∧
      h.restAt a ++ h.laterRows policy snapshots = rows ++ h.restAt c := by
  induction travelled with
  | refl => exact ⟨[], .nil _, by simp [History.laterRows]⟩
  | tail _ step ih =>
      obtain ⟨snapshots, chain, same⟩ := ih
      cases step with
      | read sameId _ _ _ rest_eq =>
          refine ⟨snapshots, ?_, ?_⟩
          · simpa [sameId] using chain
          · rw [same, List.append_assoc]
            simp [History.restAt, rest_eq]
      | @enter _ id complete parent action =>
          refine ⟨snapshots ++ [h.snapshot id], chain.snoc parent, ?_⟩
          have last_eq : h.restAt (some (.start id .incremental)) = h.unitRows id .incremental :=
            h.rest_start id .incremental
          rw [h.restAt_of_complete complete, List.append_nil] at same
          rw [last_eq]
          simp [History.laterRows, action, h.snapshotId_snapshot, ← same]
      | @pass _ id complete parent action =>
          refine ⟨snapshots ++ [h.snapshot id], chain.snoc parent, ?_⟩
          have last_eq : h.restAt (some (.completed id .incremental)) = [] := rfl
          rw [h.restAt_of_complete complete, List.append_nil] at same
          rw [last_eq]
          simp [History.laterRows, action, ← same]

/-! ## A chain is walked again from any of its snapshots -/

theorem Chain.split {first last : List Snapshot} {a c : Option Int}
    (chain : Chain h a (first ++ last) c) : ∃ b, Chain h a first b ∧ Chain h b last c := by
  induction first generalizing a with
  | nil => exact ⟨a, .nil a, chain⟩
  | cons snapshot first ih =>
      cases chain with
      | cons known parent rest =>
          obtain ⟨b, left, right⟩ := ih rest
          exact ⟨b, .cons known parent left, right⟩

theorem Chain.singleton {snapshot : Snapshot} {a c : Option Int}
    (chain : Chain h a [snapshot] c) :
    snapshot.parentSnapshotId = a ∧ c = some snapshot.snapshotId := by
  cases chain with
  | cons _ parent rest => exact ⟨parent, rest.eq_of_nil.symm⟩

/-- The snapshots that were found are listed. -/
theorem listed_of_walk {metadata : TableMetadata} {last : Option Int} {current : Int} {fuel : Nat}
    {snapshot : Snapshot} {chain found : List Snapshot}
    (walked : walk metadata last current fuel snapshot chain = some (.ok found))
    (listed : ∀ s ∈ snapshot :: chain, metadata.snapshotById s.snapshotId = some s) :
    ∀ s ∈ found, metadata.snapshotById s.snapshotId = some s := by
  induction fuel generalizing snapshot chain with
  | zero => cases walked
  | succ fuel ih =>
      unfold walk at walked
      split at walked
      · cases walked
        exact fun s member => listed s (List.mem_cons_of_mem _ member)
      · split at walked
        · split at walked
          · cases walked
            exact listed
          · split at walked
            · rename_i parent _ _ _ next found_next
              refine ih walked ?_
              intro s member
              rcases List.mem_cons.mp member with rfl | old
              · rw [(TableMetadata.snapshotById_eq_some found_next).2, found_next]
              · exact listed s old
            · cases walked
        · split at walked
          · cases walked
            exact listed
          · cases walked

theorem listed_of_snapshotsSince {metadata : TableMetadata} {last : Option Int}
    {found : List Snapshot} (since : snapshotsSince metadata last = some (.ok found)) :
    ∀ s ∈ found, metadata.snapshotById s.snapshotId = some s := by
  unfold snapshotsSince at since
  split at since
  · rename_i current current_eq
    obtain ⟨id, _, found_id⟩ := Option.bind_eq_some_iff.mp current_eq
    refine listed_of_walk since ?_
    intro s member
    rw [List.mem_singleton.mp member, (TableMetadata.snapshotById_eq_some found_id).2, found_id]
  · split at since
    · cases since
      simp
    · cases since

/-- The walk goes back along a listed chain. -/
theorem walk_eq_chain {metadata : TableMetadata} {last current : Int} {fuel : Nat}
    {snapshot : Snapshot} {older newer : List Snapshot} {result : Except PluginError (List Snapshot)}
    (walked : walk metadata (some last) current fuel snapshot newer = some result)
    (chain : Chain h (some last) (older ++ [snapshot]) (some snapshot.snapshotId))
    (listed : ∀ s ∈ older, metadata.snapshotById s.snapshotId = some s) :
    result = .ok (older ++ snapshot :: newer) := by
  induction fuel generalizing snapshot older newer with
  | zero => cases walked
  | succ fuel ih =>
      have apart {first : List Snapshot} {id : Int} (filled : first ≠ [])
          (chain : Chain h (some last) first (some id)) : id ≠ last := by
        rintro rfl
        exact filled chain.eq_nil
      have not_last : ¬ some snapshot.snapshotId = some last := by
        simpa using apart (by simp) chain
      obtain ⟨b, before, one⟩ := chain.split
      obtain ⟨parent, _⟩ := one.singleton
      unfold walk at walked
      rw [if_neg not_last, parent] at walked
      rcases List.eq_nil_or_concat' older with rfl | ⟨older', s, rfl⟩
      · cases before.eq_of_nil
        simp only [↓reduceIte] at walked
        cases walked
        rfl
      · obtain ⟨_, _, at'⟩ := before.split
        obtain ⟨_, rfl⟩ := at'.singleton
        have not_parent : ¬ some s.snapshotId = some last := by
          simpa using apart (by simp) before
        simp only [if_neg not_parent, listed s (by simp)] at walked
        rw [ih walked before fun s' member => listed s' (List.mem_append_left _ member)]
        simp

/-- From a snapshot that was found, those after it are found. -/
theorem snapshotsSince_of_mem {metadata : TableMetadata} (of : metadata.Of h) {last : Option Int}
    {older newer : List Snapshot} {snapshot : Snapshot}
    (since : snapshotsSince metadata last = some (.ok (older ++ snapshot :: newer))) :
    snapshotsSince metadata (some snapshot.snapshotId) = some (.ok newer) := by
  have listed := listed_of_snapshotsSince since
  obtain ⟨_, _, after⟩ := (chain_of_snapshotsSince of since).split
  cases after with
  | cons known parent chain =>
      obtain ⟨result, since'⟩ := Option.isSome_iff_exists.mp
        (snapshotsSince_isSome of (some snapshot.snapshotId))
      rw [since']
      unfold snapshotsSince at since'
      cases current_eq : metadata.currentSnapshot with
      | none =>
          unfold snapshotsSince at since
          rw [current_eq] at since
          cases last with
          | none => simp at since
          | some last => cases since
      | some current =>
          rw [current_eq] at chain since'
          rcases List.eq_nil_or_concat' newer with rfl | ⟨newer', final, rfl⟩
          · cases fuel : metadata.snapshots.length with
            | zero =>
                rw [fuel] at since'
                cases since'
            | succ fuel' =>
                have reached := chain.eq_of_nil
                rw [fuel, reached] at since'
                simp only [Option.map_some, walk, ↓reduceIte] at since'
                rw [Option.some_inj.mp since']
          · obtain ⟨_, _, one⟩ := chain.split
            obtain ⟨_, final_eq⟩ := one.singleton
            have same : final = current := by
              have final_listed := listed final (by simp)
              have current_listed : metadata.snapshotById current.snapshotId = some current := by
                obtain ⟨id, _, found⟩ := Option.bind_eq_some_iff.mp current_eq
                rw [(TableMetadata.snapshotById_eq_some found).2, found]
              rw [← Option.some_inj.mp final_eq] at final_listed
              exact Option.some_inj.mp (final_listed.symm.trans current_listed)
            subst same
            rw [walk_eq_chain since' chain fun s member => listed s (by simp [member])]

end StreamlingPlugins.IcebergSource
