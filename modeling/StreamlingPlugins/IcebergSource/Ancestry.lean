import StreamlingPlugins.IcebergSource.Snapshots

/-!
# The snapshots since a position

`Walked` is the way the walk takes from a snapshot back to the last one processed.
With acyclic parent links the walk always ends, and what it finds are exactly the
current snapshot and its ancestors after the last one.
-/

namespace StreamlingPlugins.IcebergSource

open Relation (ReflTransGen TransGen)

namespace TableMetadata

variable (metadata : TableMetadata)

/-- The second snapshot is the parent of the first and survives. -/
def Parent (child parent : Snapshot) : Prop :=
  ∃ id, child.parentSnapshotId = some id ∧ metadata.snapshotById id = some parent

/-- No snapshot is its own ancestor. -/
def Acyclic : Prop :=
  ∀ snapshot ∈ metadata.snapshots, ¬ TransGen metadata.Parent snapshot snapshot

/-- The current snapshot or an ancestor of it, reached through surviving snapshots. -/
def InLineage (snapshot : Snapshot) : Prop :=
  ∃ current, metadata.currentSnapshot = some current ∧ ReflTransGen metadata.Parent current snapshot

/-- The snapshot comes after the last one processed, which may be gone itself. -/
def After (last : Option Int) (snapshot : Snapshot) : Prop :=
  ∀ id ∈ last, ∃ child, ReflTransGen metadata.Parent snapshot child ∧
    child.parentSnapshotId = some id

/-- The last one processed is the current snapshot or a strict ancestor whose child
survives; without one the whole lineage does. -/
def Resumable (last : Option Int) : Prop :=
  match metadata.currentSnapshot with
  | none => last = none
  | some current =>
    last = some current.snapshotId ∨ ∃ child, metadata.InLineage child ∧ child.parentSnapshotId = last

variable {metadata}

theorem snapshotById_eq_some {id : Int} {snapshot : Snapshot}
    (found : metadata.snapshotById id = some snapshot) :
    snapshot ∈ metadata.snapshots ∧ snapshot.snapshotId = id :=
  ⟨List.mem_of_find?_eq_some found, by simpa using List.find?_some found⟩

/-- A snapshot found by an id is the one with that id. -/
theorem snapshotById_snapshotId {id : Int} {snapshot : Snapshot}
    (found : metadata.snapshotById id = some snapshot) :
    metadata.snapshotById snapshot.snapshotId = some snapshot := by
  rw [(snapshotById_eq_some found).2, found]

theorem snapshotById_currentSnapshot {current : Snapshot}
    (found : metadata.currentSnapshot = some current) :
    metadata.snapshotById current.snapshotId = some current := by
  obtain ⟨id, _, found_id⟩ := Option.bind_eq_some_iff.mp found
  exact snapshotById_snapshotId found_id

theorem Parent.unique {child a b : Snapshot} (left : metadata.Parent child a)
    (right : metadata.Parent child b) : a = b := by
  obtain ⟨id, parent, found⟩ := left
  obtain ⟨id', parent', found'⟩ := right
  cases parent.symm.trans parent'
  exact Option.some_inj.mp (found.symm.trans found')

theorem Parent.found {child parent : Snapshot} (link : metadata.Parent child parent) :
    metadata.snapshotById parent.snapshotId = some parent := by
  obtain ⟨id, _, found⟩ := link
  exact snapshotById_snapshotId found

/-- Parent links along which a measure falls are acyclic. -/
theorem acyclic_of_age (age : Snapshot → Nat) (older : ∀ child ∈ metadata.snapshots, ∀ parent,
    metadata.Parent child parent → age parent < age child) : metadata.Acyclic := by
  intro snapshot listed cycle
  have falls : ∀ {ancestor}, TransGen metadata.Parent snapshot ancestor →
      ancestor ∈ metadata.snapshots ∧ age ancestor < age snapshot := by
    intro ancestor steps
    induction steps with
    | single link => exact ⟨(snapshotById_eq_some link.found).1, older _ listed _ link⟩
    | tail _ link ih =>
        exact ⟨(snapshotById_eq_some link.found).1, (older _ ih.1 _ link).trans ih.2⟩
  exact lt_irrefl _ (falls cycle).2

end TableMetadata

/-! ## The way back -/

/-- The snapshots from one back to the last processed, the newest first. -/
inductive Walked (metadata : TableMetadata) (last : Option Int) : Snapshot → List Snapshot → Prop
  | reached {snapshot : Snapshot} : some snapshot.snapshotId = last → Walked metadata last snapshot []
  | parent {snapshot : Snapshot} :
    some snapshot.snapshotId ≠ last → snapshot.parentSnapshotId = last →
    Walked metadata last snapshot [snapshot]
  | further {snapshot next : Snapshot} {back : List Snapshot} :
    some snapshot.snapshotId ≠ last → snapshot.parentSnapshotId ≠ last →
    metadata.Parent snapshot next → Walked metadata last next back →
    Walked metadata last snapshot (snapshot :: back)

variable {metadata : TableMetadata} {last : Option Int}

theorem walked_of_walk {current : Int} {fuel : Nat} {snapshot : Snapshot}
    {chain found : List Snapshot}
    (walked : walk metadata last current fuel snapshot chain = some (.ok found)) :
    ∃ back, Walked metadata last snapshot back ∧ found = back.reverse ++ chain := by
  induction fuel generalizing snapshot chain with
  | zero => cases walked
  | succ fuel ih =>
      unfold walk at walked
      split at walked
      · rename_i reached
        cases walked
        exact ⟨[], .reached reached, rfl⟩
      · rename_i before
        split at walked
        · rename_i parent parent_eq
          split at walked
          · rename_i reached
            cases walked
            exact ⟨[snapshot], .parent before (parent_eq.trans reached), rfl⟩
          · rename_i not_last
            split at walked
            · rename_i next found_next
              obtain ⟨back, walked_back, found_eq⟩ := ih walked
              refine ⟨snapshot :: back, .further before ?_ ⟨parent, parent_eq, found_next⟩
                walked_back, ?_⟩
              · rwa [parent_eq]
              · rw [found_eq, List.reverse_cons, List.append_assoc, List.singleton_append]
            · cases walked
        · rename_i root
          split at walked
          · cases walked
            exact ⟨[snapshot], .parent before root, rfl⟩
          · cases walked

theorem walk_of_walked {current : Int} {fuel : Nat} {snapshot : Snapshot}
    {chain back : List Snapshot} (walked : Walked metadata last snapshot back)
    (ends : (walk metadata last current fuel snapshot chain).isSome) :
    walk metadata last current fuel snapshot chain = some (.ok (back.reverse ++ chain)) := by
  induction walked generalizing fuel chain with
  | reached here =>
      cases fuel with
      | zero => cases ends
      | succ fuel =>
          unfold walk
          rw [if_pos here]
          rfl
  | parent before parent_eq =>
      cases fuel with
      | zero => cases ends
      | succ fuel =>
          unfold walk
          rw [if_neg before]
          cases last with
          | none => simp only [parent_eq]; rfl
          | some id => simp only [parent_eq, if_pos]; rfl
  | @further snapshot next back before not_last link _ ih =>
      cases fuel with
      | zero => cases ends
      | succ fuel =>
          obtain ⟨id, parent_eq, found⟩ := link
          rw [parent_eq] at not_last
          have step : walk metadata last current (fuel + 1) snapshot chain =
              walk metadata last current fuel next (snapshot :: chain) := by
            conv_lhs => unfold walk
            simp only [if_neg before, parent_eq, if_neg not_last, found]
          rw [step] at ends ⊢
          rw [ih ends, List.reverse_cons, List.append_assoc, List.singleton_append]

/-- Acyclic links end the walk: it meets no snapshot twice. -/
theorem walk_ends (acyclic : metadata.Acyclic) {current : Int} {fuel : Nat} {snapshot : Snapshot}
    {chain : List Snapshot} (listed : metadata.snapshotById snapshot.snapshotId = some snapshot)
    (met : ∀ s ∈ chain, s ∈ metadata.snapshots ∧ TransGen metadata.Parent s snapshot)
    (once : chain.Nodup) (enough : metadata.snapshots.length ≤ chain.length + fuel) :
    (walk metadata last current fuel snapshot chain).isSome := by
  have mem := (TableMetadata.snapshotById_eq_some listed).1
  have new : snapshot ∉ chain := fun again => acyclic snapshot mem (met snapshot again).2
  have once' : (snapshot :: chain).Nodup := List.nodup_cons.mpr ⟨new, once⟩
  induction fuel generalizing snapshot chain with
  | zero =>
      have all_listed : (snapshot :: chain) ⊆ metadata.snapshots := by
        rintro s (_ | ⟨_, in_chain⟩)
        · exact mem
        · exact (met s in_chain).1
      have fits := (List.subperm_of_subset once' all_listed).length_le
      rw [List.length_cons] at fits
      omega
  | succ fuel ih =>
      unfold walk
      split
      · rfl
      · split
        · rename_i parent parent_eq
          split
          · rfl
          · split
            · rename_i next found
              have link : metadata.Parent snapshot next := ⟨parent, parent_eq, found⟩
              have met' : ∀ s ∈ snapshot :: chain, s ∈ metadata.snapshots ∧
                  TransGen metadata.Parent s next := by
                rintro s (_ | ⟨_, in_chain⟩)
                · exact ⟨mem, .single link⟩
                · exact ⟨(met s in_chain).1, (met s in_chain).2.tail link⟩
              have next_mem := (TableMetadata.snapshotById_eq_some found).1
              have next_new : next ∉ snapshot :: chain :=
                fun again => acyclic next next_mem (met' next again).2
              exact ih link.found met' once' (by rw [List.length_cons]; omega) next_mem next_new
                (List.nodup_cons.mpr ⟨next_new, once'⟩)
            · rfl
        · split <;> rfl

/-! ## What the way back holds -/

theorem Walked.reaches {snapshot : Snapshot} {back : List Snapshot}
    (walked : Walked metadata last snapshot back) :
    ∀ s ∈ back, ReflTransGen metadata.Parent snapshot s := by
  induction walked with
  | reached => simp
  | parent => simp [ReflTransGen.refl]
  | further _ _ link _ ih =>
      rintro s (_ | ⟨_, older⟩)
      · exact .refl
      · exact (ih s older).head link

/-- Every snapshot on the way is an ancestor of those before it. -/
theorem Walked.pairwise {snapshot : Snapshot} {back : List Snapshot}
    (walked : Walked metadata last snapshot back) : back.Pairwise (TransGen metadata.Parent) := by
  induction walked with
  | reached => exact .nil
  | parent => exact List.pairwise_singleton _ _
  | further _ _ link walked ih =>
      exact .cons (fun s older => .head' link (walked.reaches s older)) ih

theorem Walked.after {snapshot : Snapshot} {back : List Snapshot}
    (walked : Walked metadata last snapshot back) : ∀ s ∈ back, metadata.After last s := by
  induction walked with
  | reached => simp
  | @parent snapshot before parent_eq =>
      rintro s (_ | ⟨_, none⟩)
      · exact fun id is_last => ⟨snapshot, .refl, parent_eq.trans is_last⟩
      · cases none
  | @further snapshot next back before not_last link walked ih =>
      rintro s (_ | ⟨_, older⟩)
      · have next_after : metadata.After last next := by
          cases walked with
          | reached here =>
              obtain ⟨id, parent_eq, found⟩ := link
              rw [(TableMetadata.snapshotById_eq_some found).2] at here
              exact absurd (parent_eq.trans here) not_last
          | parent before parent_eq => exact ih _ List.mem_cons_self
          | further before not_last link walked => exact ih _ List.mem_cons_self
        intro id is_last
        obtain ⟨child, steps, parent_eq⟩ := next_after id is_last
        exact ⟨child, steps.head link, parent_eq⟩
      · exact ih s older

/-- Nothing from the last snapshot on back comes after it. -/
theorem not_after (acyclic : metadata.Acyclic) {snapshot s : Snapshot}
    (known : metadata.snapshotById snapshot.snapshotId = some snapshot)
    (steps : ReflTransGen metadata.Parent snapshot s) :
    ¬ metadata.After (some snapshot.snapshotId) s := by
  intro after
  obtain ⟨child, more, parent_eq⟩ := after _ rfl
  exact acyclic snapshot (TableMetadata.snapshotById_eq_some known).1
    (.tail' (steps.trans more) ⟨_, parent_eq, known⟩)

/-- The way back holds exactly the ancestors after the last snapshot. -/
theorem Walked.mem_iff (acyclic : metadata.Acyclic) {snapshot : Snapshot} {back : List Snapshot}
    (walked : Walked metadata last snapshot back)
    (known : metadata.snapshotById snapshot.snapshotId = some snapshot) (s : Snapshot) :
    s ∈ back ↔ ReflTransGen metadata.Parent snapshot s ∧ metadata.After last s := by
  constructor
  · exact fun mem => ⟨walked.reaches s mem, walked.after s mem⟩
  · rintro ⟨steps, after⟩
    induction walked with
    | reached here =>
        rw [← here] at after
        exact absurd after (not_after acyclic known steps)
    | @parent snapshot before parent_eq =>
        rcases steps.cases_head with rfl | ⟨next, link, more⟩
        · exact List.mem_cons_self
        · obtain ⟨id, next_id, found⟩ := link
          have here : last = some next.snapshotId := by
            rw [← parent_eq, next_id, (TableMetadata.snapshotById_eq_some found).2]
          rw [here] at after
          exact absurd after
            (not_after acyclic (TableMetadata.snapshotById_snapshotId found) more)
    | @further snapshot next back before not_last link walked ih =>
        rcases steps.cases_head with rfl | ⟨next', link', more⟩
        · exact List.mem_cons_self
        · rw [link'.unique link] at more
          exact List.mem_cons_of_mem _ (ih link.found more)

/-- The way back to a snapshot on it. -/
theorem Walked.to_mem (acyclic : metadata.Acyclic) {snapshot : Snapshot} {back : List Snapshot}
    (walked : Walked metadata last snapshot back)
    (known : metadata.snapshotById snapshot.snapshotId = some snapshot) {b : Snapshot}
    (mem : b ∈ back) : ∃ newer older, Walked metadata (some b.snapshotId) snapshot newer ∧
      back = newer ++ b :: older := by
  induction walked with
  | reached => cases mem
  | parent =>
      cases List.mem_singleton.mp mem
      exact ⟨[], [], .reached rfl, rfl⟩
  | @further snapshot next back before not_last link walked ih =>
      rcases List.mem_cons.mp mem with rfl | older
      · exact ⟨[], back, .reached rfl, rfl⟩
      · obtain ⟨newer, older', walked', back_eq⟩ := ih link.found older
        have apart : some snapshot.snapshotId ≠ some b.snapshotId := by
          intro same
          have steps : TransGen metadata.Parent snapshot b :=
            .head' link (walked.reaches b older)
          obtain ⟨_, _, last_link⟩ := TransGen.tail'_iff.mp steps
          have b_known := last_link.found
          rw [← Option.some_inj.mp same] at b_known
          cases known.symm.trans b_known
          exact acyclic _ (TableMetadata.snapshotById_eq_some known).1 steps
        refine ⟨snapshot :: newer, older', ?_, by rw [back_eq]; rfl⟩
        by_cases at_child : snapshot.parentSnapshotId = some b.snapshotId
        · obtain ⟨id, parent_eq, found⟩ := link
          have here : some next.snapshotId = some b.snapshotId := by
            rw [(TableMetadata.snapshotById_eq_some found).2, ← parent_eq, at_child]
          cases walked' with
          | reached => exact .parent apart at_child
          | parent elsewhere => exact absurd here elsewhere
          | further elsewhere => exact absurd here elsewhere
        · exact .further apart at_child link walked'

/-- There is a way back from every snapshot whose lineage meets the last one. -/
theorem exists_walked {snapshot child : Snapshot}
    (steps : ReflTransGen metadata.Parent snapshot child) (parent_eq : child.parentSnapshotId = last) :
    ∃ back, Walked metadata last snapshot back := by
  induction steps using ReflTransGen.head_induction_on with
  | refl =>
      by_cases here : some child.snapshotId = last
      · exact ⟨[], .reached here⟩
      · exact ⟨[child], .parent here parent_eq⟩
  | @head snapshot next link _ ih =>
      obtain ⟨back, walked⟩ := ih
      by_cases here : some snapshot.snapshotId = last
      · exact ⟨[], .reached here⟩
      · by_cases at_child : snapshot.parentSnapshotId = last
        · exact ⟨[snapshot], .parent here at_child⟩
        · exact ⟨snapshot :: back, .further here at_child link walked⟩

theorem Walked.resumable {snapshot : Snapshot} {back : List Snapshot}
    (walked : Walked metadata last snapshot back) : last = some snapshot.snapshotId ∨
      ∃ child, ReflTransGen metadata.Parent snapshot child ∧ child.parentSnapshotId = last := by
  induction walked with
  | reached here => exact .inl here.symm
  | @parent snapshot before parent_eq => exact .inr ⟨snapshot, .refl, parent_eq⟩
  | @further snapshot next back before not_last link walked ih =>
      rcases ih with here | ⟨child, steps, parent_eq⟩
      · obtain ⟨id, parent_eq, found⟩ := link
        rw [parent_eq, here, (TableMetadata.snapshotById_eq_some found).2] at not_last
        exact absurd rfl not_last
      · exact .inr ⟨child, steps.head link, parent_eq⟩

/-! ## The snapshots found -/

/-- The walk from the current snapshot ends within as many steps as there are snapshots. -/
theorem snapshotsSince_ends (acyclic : metadata.Acyclic) (last : Option Int) :
    (snapshotsSince metadata last).isSome := by
  unfold snapshotsSince
  split
  · rename_i current current_eq
    exact walk_ends acyclic (TableMetadata.snapshotById_currentSnapshot current_eq) (by simp)
      List.nodup_nil (by simp)
  · split <;> rfl

theorem snapshotsSince_of_current {current : Snapshot}
    (current_eq : metadata.currentSnapshot = some current) (last : Option Int) :
    snapshotsSince metadata last =
      walk metadata last current.snapshotId metadata.snapshots.length current [] := by
  unfold snapshotsSince
  rw [current_eq]

theorem snapshotsSince_of_walked (acyclic : metadata.Acyclic) {current : Snapshot}
    (current_eq : metadata.currentSnapshot = some current) {back : List Snapshot}
    (walked : Walked metadata last current back) :
    snapshotsSince metadata last = some (.ok back.reverse) := by
  have ends := snapshotsSince_ends acyclic last
  rw [snapshotsSince_of_current current_eq] at ends ⊢
  rw [walk_of_walked walked ends, List.append_nil]

theorem walked_of_snapshotsSince {current : Snapshot}
    (current_eq : metadata.currentSnapshot = some current) {found : List Snapshot}
    (since : snapshotsSince metadata last = some (.ok found)) :
    ∃ back, Walked metadata last current back ∧ found = back.reverse := by
  rw [snapshotsSince_of_current current_eq] at since
  obtain ⟨back, walked, found_eq⟩ := walked_of_walk since
  exact ⟨back, walked, found_eq.trans (List.append_nil _)⟩

/-- Without a current snapshot nothing is found, and a last one is an error. -/
theorem snapshotsSince_of_empty (empty : metadata.currentSnapshot = none)
    {found : List Snapshot} :
    snapshotsSince metadata last = some (.ok found) ↔ last = none ∧ found = [] := by
  unfold snapshotsSince
  rw [empty]
  cases last with
  | none => simp [eq_comm]
  | some id => simp

/-- Processing resumes exactly when the last snapshot is on the surviving lineage. -/
theorem snapshotsSince_ok_iff (acyclic : metadata.Acyclic) (last : Option Int) :
    (∃ found, snapshotsSince metadata last = some (.ok found)) ↔ metadata.Resumable last := by
  unfold TableMetadata.Resumable TableMetadata.InLineage
  cases current_eq : metadata.currentSnapshot with
  | none => simp [snapshotsSince_of_empty current_eq]
  | some current =>
      constructor
      · rintro ⟨found, since⟩
        obtain ⟨back, walked, _⟩ := walked_of_snapshotsSince current_eq since
        rcases walked.resumable with here | ⟨child, steps, parent_eq⟩
        · exact .inl here
        · exact .inr ⟨child, ⟨current, rfl, steps⟩, parent_eq⟩
      · rintro (here | ⟨child, ⟨_, same, steps⟩, parent_eq⟩)
        · exact ⟨_, snapshotsSince_of_walked acyclic current_eq (.reached here.symm)⟩
        · cases same
          obtain ⟨back, walked⟩ := exists_walked steps parent_eq
          exact ⟨_, snapshotsSince_of_walked acyclic current_eq walked⟩

/-- What is found is the lineage after the last snapshot, the oldest first. -/
structure Exactly (metadata : TableMetadata) (last : Option Int) (found : List Snapshot) :
    Prop where
  mem_iff : ∀ snapshot, snapshot ∈ found ↔ metadata.InLineage snapshot ∧ metadata.After last snapshot
  nodup : found.Nodup
  oldestFirst : found.Pairwise fun older newer => TransGen metadata.Parent newer older

theorem exactly_of_snapshotsSince (acyclic : metadata.Acyclic) {found : List Snapshot}
    (since : snapshotsSince metadata last = some (.ok found)) : Exactly metadata last found := by
  cases current_eq : metadata.currentSnapshot with
  | none =>
      obtain ⟨_, rfl⟩ := (snapshotsSince_of_empty current_eq).mp since
      exact ⟨by simp [TableMetadata.InLineage, current_eq], List.nodup_nil, .nil⟩
  | some current =>
      obtain ⟨back, walked, rfl⟩ := walked_of_snapshotsSince current_eq since
      have known := TableMetadata.snapshotById_currentSnapshot current_eq
      have ordered := walked.pairwise
      refine ⟨?_, ?_, List.pairwise_reverse.mpr ordered⟩
      · intro snapshot
        rw [List.mem_reverse, walked.mem_iff acyclic known]
        simp [TableMetadata.InLineage, current_eq]
      · rw [List.nodup_reverse]
        refine ordered.imp_of_mem ?_
        rintro s _ mem _ cycle rfl
        obtain ⟨_, _, link⟩ := TransGen.tail'_iff.mp cycle
        exact acyclic s (TableMetadata.snapshotById_eq_some link.found).1 cycle

/-- The snapshots since one that was found are those found after it. -/
theorem snapshotsSince_found (acyclic : metadata.Acyclic) {found : List Snapshot} {b : Snapshot}
    (since : snapshotsSince metadata last = some (.ok found)) (mem : b ∈ found) :
    ∃ upTo since, found = upTo ++ b :: since ∧
      snapshotsSince metadata (some b.snapshotId) = some (.ok since) := by
  cases current_eq : metadata.currentSnapshot with
  | none =>
      obtain ⟨_, rfl⟩ := (snapshotsSince_of_empty current_eq).mp since
      cases mem
  | some current =>
      obtain ⟨back, walked, rfl⟩ := walked_of_snapshotsSince current_eq since
      have known := TableMetadata.snapshotById_currentSnapshot current_eq
      obtain ⟨newer, older, walked', rfl⟩ :=
        walked.to_mem acyclic known (List.mem_reverse.mp mem)
      refine ⟨older.reverse, newer.reverse, by simp, ?_⟩
      exact snapshotsSince_of_walked acyclic current_eq walked'

/-- The walk ends; it succeeds exactly on a surviving lineage, and then finds exactly
the snapshots after the last one, in one round or in several. -/
theorem snapshotsSince_exact (acyclic : metadata.Acyclic) (last : Option Int) :
    ∃ result, snapshotsSince metadata last = some result ∧
      ((∃ found, result = .ok found) ↔ metadata.Resumable last) ∧
      ∀ found, result = .ok found → Exactly metadata last found ∧
        ∀ b ∈ found, ∃ upTo since, found = upTo ++ b :: since ∧
          snapshotsSince metadata (some b.snapshotId) = some (.ok since) := by
  obtain ⟨result, result_eq⟩ := Option.isSome_iff_exists.mp (snapshotsSince_ends acyclic last)
  refine ⟨result, result_eq, ?_, ?_⟩
  · rw [← snapshotsSince_ok_iff acyclic, result_eq]
    simp
  · rintro found rfl
    exact ⟨exactly_of_snapshotsSince acyclic result_eq,
      fun b mem => snapshotsSince_found acyclic result_eq mem⟩

/-- Snapshot 1 has expired and 4 is on another branch. -/
def branchedMetadata : TableMetadata where
  snapshots := [⟨2, some 1, 0, .append⟩, ⟨3, some 2, 0, .append⟩, ⟨4, some 2, 0, .append⟩]
  currentSnapshotId := some 3

theorem acyclic_branchedMetadata : branchedMetadata.Acyclic := by
  refine TableMetadata.acyclic_of_age (fun snapshot => snapshot.snapshotId.toNat) ?_
  rintro child listed parent ⟨id, parent_eq, found⟩
  rw [(TableMetadata.snapshotById_eq_some found).2]
  simp only [branchedMetadata, List.mem_cons, List.not_mem_nil, or_false] at listed
  rcases listed with rfl | rfl | rfl <;> cases parent_eq <;> decide

theorem snapshotsSince_exact_branched :
    branchedMetadata.Acyclic ∧ ∃ result, snapshotsSince branchedMetadata (some 1) = some result ∧
      ((∃ found, result = .ok found) ↔ branchedMetadata.Resumable (some 1)) ∧
      ∀ found, result = .ok found → Exactly branchedMetadata (some 1) found ∧
        ∀ b ∈ found, ∃ upTo since, found = upTo ++ b :: since ∧
          snapshotsSince branchedMetadata (some b.snapshotId) = some (.ok since) :=
  ⟨acyclic_branchedMetadata, snapshotsSince_exact acyclic_branchedMetadata (some 1)⟩

end StreamlingPlugins.IcebergSource
