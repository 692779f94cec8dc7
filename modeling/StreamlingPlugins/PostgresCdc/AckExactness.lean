import StreamlingPlugins.PostgresCdc.AckProgress

/-!
# The etl ack of a write

The two directions joined over the whole group: an etl ack leaves at most once,
only when every contributor is covered for its rows of the write, and, when
markers come with increasing epochs, as soon as they all are.
-/

namespace StreamlingPlugins.PostgresCdc

variable {Value : Type}

/-! ## Observations of one source -/

/-- The source whose calls an observation reports. -/
def GroupObs.source? : GroupObs Value → Option SourceId
  | .batchOk source _ | .batchErr source | .marker source _ | .finalizer source _ => some source
  | .write _ _ | .ackSent _ => none

section Local

variable {log out : List (GroupObs Value)} {id other : SourceId}

theorem rowsOf_local (own : ∀ o ∈ out, o.source? = some id) (w : WriteId) (i : SourceId) :
    rowsOf out w i = [] := by
  refine List.flatMap_eq_nil_iff.mpr fun o member => ?_
  have := own o member
  cases o <;> simp_all [GroupObs.source?]

theorem acksSent_local (own : ∀ o ∈ out, o.source? = some id) : acksSent out = [] := by
  refine List.filterMap_eq_nil_iff.mpr fun o member => ?_
  have := own o member
  cases o <;> simp_all [GroupObs.source?]

/-- Nothing one source does delivers a row of another. -/
theorem deliveredRows_local (own : ∀ o ∈ out, o.source? = some id) (ne : other ≠ id) :
    deliveredRows other out = [] := by
  refine List.flatMap_eq_nil_iff.mpr fun o member => ?_
  have := own o member
  cases o <;> simp_all [GroupObs.source?, ne.symm]

theorem markerEpochs_append :
    markerEpochs id (log ++ out) = markerEpochs id log ++ markerEpochs id out :=
  List.filterMap_append ..

/-- Increasing epochs stay increasing in a shorter log. -/
theorem increasing_of_append
    (increasing : (markerEpochs id (log ++ out)).Pairwise (· < ·)) :
    (markerEpochs id log).Pairwise (· < ·) := by
  rw [markerEpochs_append] at increasing
  exact (List.pairwise_append.mp increasing).1

end Local

/-! ## The invariant -/

/-- The slice of `id` is not held by the shared ack of write `w`. -/
def Released (acks : WriteId → Option (SharedAck WriteId)) (id : SourceId) (w : WriteId) : Prop :=
  ∀ shared, acks w = some shared → id ∉ shared.pending

structure GroupInv (sys : GroupState Value) (log : List (GroupObs Value)) : Prop where
  origins : Origins log sys.writes
  written : ∀ w rows, .write w rows ∈ log → w < sys.writes
  source : ∀ id, SourceInv log sys.writes id (sys.source id)
  progress : ∀ id, SourceProgress log sys.writes id (Released sys.acks id) (sys.source id)
  boundaries : ∀ id, (markerEpochs id log).Pairwise (· < ·) →
    Boundaries log id (sys.source id).ledger
  sending : ∀ w, ∀ entry ∈ sys.sending w, w < sys.writes ∧ entry.2.ack = (w, entry.1) ∧
    entry.2.rows = rowsOf log w entry.1 ∧ entry.2.rows ≠ []
  acks : AckInv log sys.acks
  started : ∀ w, w < sys.writes ↔ ∃ shared, sys.acks w = some shared
  contributors : ∀ w shared, sys.acks w = some shared → ∀ id ∈ shared.pending,
    rowsOf log w id ≠ []

section Invariant

variable {sys : GroupState Value} {log out : List (GroupObs Value)} {id : SourceId}
  {σ σ' : SourceState (OriginRow Value)} {epoch : Nat}

theorem GroupInv.initial : GroupInv (.initial : GroupState Value) [] where
  origins := ⟨by simp, by simp, by simp⟩
  written := by simp
  source id := ⟨rfl, by simp [GroupState.initial, SourceState.new, AckLedger.new],
    by simp [GroupState.initial, SourceState.new, AckLedger.new],
    by simp [GroupState.initial, SourceState.new], by simp [GroupState.initial, SourceState.new],
    by simp [GroupState.initial, SourceState.new]⟩
  progress id := ⟨by simp [GroupState.initial, SourceState.new],
    by simp [GroupState.initial, SourceState.new], by simp [GroupState.initial, SourceState.new],
    by simp [GroupState.initial, SourceState.new], by simp⟩
  boundaries id _ := ⟨by simp [GroupState.initial, SourceState.new, AckLedger.new],
    by simp [GroupState.initial, SourceState.new, AckLedger.new],
    by simp [GroupState.initial, SourceState.new, AckLedger.new], by simp⟩
  sending := by simp [GroupState.initial]
  acks := ⟨by simp [GroupState.initial], by simp [GroupState.initial], by simp,
    by simp [GroupState.initial]⟩
  started := by simp [GroupState.initial]
  contributors := by simp [GroupState.initial]

/-- A step of one source keeps the invariant when it keeps that source's, and the
shared acks lose slices only. -/
theorem GroupInv.setSource (inv : GroupInv sys log) (ws : List WriteId)
    (own : ∀ o ∈ out, o.source? = some id) {acks : WriteId → Option (SharedAck WriteId)}
    (released : ∀ w, ∃ kept : Finset SourceId → Finset SourceId, (∀ p, kept p ⊆ p) ∧
      (acks w).map SharedAck.pending = (sys.acks w).map fun shared => kept shared.pending)
    (acksInv : AckInv (log ++ out ++ ws.map .ackSent) acks)
    (source : SourceInv (log ++ out) sys.writes id σ')
    (progress : SourceProgress (log ++ out) sys.writes id
      (Released acks id) σ')
    (boundaries : (markerEpochs id (log ++ out)).Pairwise (· < ·) →
      Boundaries (log ++ out) id σ'.ledger) :
    GroupInv { sys.setSource id σ' with acks := acks } (log ++ out ++ ws.map .ackSent) := by
  have rows (w : WriteId) (i : SourceId) :
      rowsOf (log ++ out ++ ws.map .ackSent) w i = rowsOf log w i := by
    rw [rowsOf_append, rowsOf_append, rowsOf_map_ackSent, rowsOf_local own, List.append_nil,
      List.append_nil]
  have fewer (w : WriteId) (shared : SharedAck WriteId) (held : acks w = some shared) :
      ∃ earlier, sys.acks w = some earlier ∧ shared.pending ⊆ earlier.pending := by
    obtain ⟨kept, subset, same⟩ := released w
    rw [held, Option.map_some] at same
    obtain ⟨earlier, found, pending⟩ := Option.map_eq_some_iff.mp same.symm
    exact ⟨earlier, found, pending ▸ subset _⟩
  have more (i : SourceId) (w : WriteId) (before : Released sys.acks i w) : Released acks i w := fun shared held member => by
    obtain ⟨earlier, found, subset⟩ := fewer w shared held
    exact before earlier found (subset member)
  have quiet (i : SourceId) : deliveredRows i (ws.map GroupObs.ackSent : List (GroupObs Value)) = [] :=
    deliveredRows_map_ackSent ws
  refine ⟨⟨fun w i => by rw [rows]; exact inv.origins.own w i,
    fun w i => by rw [rows]; exact inv.origins.nodup w i,
    fun w i le => by rw [rows]; exact inv.origins.fresh w i le⟩, ?_, fun i => ?_, fun i => ?_,
    fun i increasing => ?_, fun w entry => by rw [rows]; exact inv.sending w entry, acksInv,
    fun w => ?_, fun w shared held i member => ?_⟩
  · intro w entries member
    rcases List.mem_append.mp member with earlier | new
    · rcases List.mem_append.mp earlier with earlier | new
      · exact inv.written w entries earlier
      · cases own _ new
    · simp at new
  · refine SourceInv.append (n := sys.writes) ?_ le_rfl (fun _ _ => rowsOf_map_ackSent ws)
      (quiet i)
    by_cases same : i = id
    · subst same
      simpa using source
    · simpa [same] using (inv.source i).append le_rfl (fun w _ => rowsOf_local own w i)
        (deliveredRows_local own same)
  · refine SourceProgress.append (n := sys.writes) ?_ le_rfl (fun _ _ => rowsOf_map_ackSent ws)
      (quiet i) fun _ _ before => before
    by_cases same : i = id
    · subst same
      simpa using progress
    · simpa [same] using (inv.progress i).append le_rfl (fun w _ => rowsOf_local own w i)
        (deliveredRows_local own same) fun w _ => more i w
  · have earlier := increasing_of_append increasing
    refine Boundaries.append ?_ (quiet i) (by simp) (by simp)
    by_cases same : i = id
    · subst same
      simpa using boundaries earlier
    · have framed := (inv.boundaries i (increasing_of_append earlier)).append
        (deliveredRows_local own same)
        (fun e member => same (Option.some.inj (own _ member)))
        (fun e member => same (Option.some.inj (own _ member)))
      simpa [same] using framed
  · obtain ⟨kept, -, same⟩ := released w
    refine (inv.started w).trans ?_
    rw [← Option.isSome_iff_exists, ← Option.isSome_iff_exists, ← Option.isSome_map, ← same,
      Option.isSome_map]
  · obtain ⟨earlier, found, subset⟩ := fewer w shared held
    rw [rows]
    exact inv.contributors w earlier found i (subset member)

/-- A step of one source that leaves the shared acks alone. -/
theorem GroupInv.setSource_acks (inv : GroupInv sys log)
    (own : ∀ o ∈ out, o.source? = some id)
    (source : SourceInv (log ++ out) sys.writes id σ')
    (progress : SourceProgress (log ++ out) sys.writes id (Released sys.acks id) σ')
    (boundaries : (markerEpochs id (log ++ out)).Pairwise (· < ·) →
      Boundaries (log ++ out) id σ'.ledger) :
    GroupInv (sys.setSource id σ') (log ++ out) := by
  have silent := inv.acks.append (acksSent_local own) fun w _ i => rowsOf_local own w i
  rw [← List.append_nil (log ++ out)] at silent ⊢
  exact inv.setSource [] own (fun w => ⟨fun p => p, fun _ => Finset.Subset.refl _, rfl⟩) silent
    source progress boundaries

/-- A step of one source that shows nothing and keeps its ledger. -/
theorem GroupInv.setSource_silent (inv : GroupInv sys log)
    (source : SourceInv log sys.writes id σ')
    (progress : SourceProgress log sys.writes id (Released sys.acks id) σ')
    (ledger : σ'.ledger = (sys.source id).ledger) :
    GroupInv (sys.setSource id σ') (log ++ []) := by
  refine inv.setSource_acks (by simp) (by simpa using source) (by simpa using progress) ?_
  rw [List.append_nil, ledger]
  exact inv.boundaries id

/-- A call that returns. -/
theorem GroupInv.finishBatch (inv : GroupInv sys log) {built : Bool}
    {result : Option (List (OriginRow Value))}
    (finished : (sys.source id).finishBatch built = some (σ', result)) :
    GroupInv (sys.setSource id σ') (log ++ [result.elim (.batchErr id) (.batchOk id)]) := by
  have own : ∀ o ∈ [result.elim (.batchErr id) (GroupObs.batchOk id)],
      o.source? = some id := by
    cases result <;> simp [GroupObs.source?]
  refine inv.setSource_acks own ((inv.source id).finishBatch finished)
    ((inv.progress id).finishBatch (inv.source id).emitted finished) fun increasing => ?_
  have before := inv.boundaries id (increasing_of_append increasing)
  obtain ⟨b, running, ⟨empty, rfl, rfl⟩ | ⟨-, rfl, rfl⟩ | ⟨-, rfl, rfl⟩⟩ :=
    SourceState.finishBatch_cases finished
  · have delivered := before.deliver (inv.source id).emitted ((inv.progress id).nonempty b running)
    simpa [empty, AckLedger.rowsDelivered] using delivered
  · exact before.deliver (inv.source id).emitted ((inv.progress id).nonempty b running)
  · exact before.append (by simp [deliveredRows]) (by simp) (by simp)

/-- A checkpoint marker. -/
theorem GroupInv.marker (inv : GroupInv sys log) :
    GroupInv (sys.setSource id { sys.source id with
      ledger := (sys.source id).ledger.marker epoch }) (log ++ [.marker id epoch]) := by
  refine inv.setSource_acks (by simp [GroupObs.source?]) ((inv.source id).marker epoch)
    ((inv.progress id).marker epoch) fun increasing => ?_
  refine (inv.boundaries id (increasing_of_append increasing)).marker (inv.source id).emitted ?_ ?_
  · intro e b held
    obtain ⟨before, after, split, length⟩ := (inv.source id).markers e b held
    exact ⟨mem_markerEpochs_of_split split, length ▸ deliveredRows_length_le ⟨_, split.symm⟩⟩
  · rw [markerEpochs_append, List.pairwise_append] at increasing
    exact fun e member => increasing.2.2 e member epoch (by simp [markerEpochs])

/-- A checkpoint finalizer releases covered slices. -/
theorem GroupInv.finalizer (inv : GroupInv sys log) :
    let finalized := (sys.source id).ledger.finalize epoch
    let released := (sys.setSource id { sys.source id with
      ledger := finalized.2 }).releaseSlices finalized.1
    GroupInv released.1 (log ++ .finalizer id epoch :: released.2) := by
  intro finalized released
  obtain ⟨source, covered⟩ := (inv.source id).finalizer epoch
  obtain ⟨frame, ws, acks⟩ := GroupState.releaseSlices_frame (sys.setSource id { sys.source id with
    ledger := finalized.2 }) finalized.1
  have pending := GroupState.releaseSlices_pending (sys.setSource id { sys.source id with
    ledger := finalized.2 }) finalized.1
  have silent : AckInv (log ++ [.finalizer id epoch]) sys.acks :=
    inv.acks.append rfl fun _ _ _ => rfl
  have released_acks : AckInv (log ++ [.finalizer id epoch] ++ released.2) released.1.acks := by
    refine AckInv.releaseSlices silent fun handle member => ?_
    obtain ⟨-, own, cover⟩ := covered handle member
    rw [rowsOf_append, own]
    simpa [rowsOf] using cover
  have own : ∀ o ∈ [(GroupObs.finalizer id epoch : GroupObs Value)], o.source? = some id := by
    simp [GroupObs.source?]
  have joined := inv.setSource ws own
    (fun w => ⟨fun p => p.filter fun i => (w, i) ∉ finalized.1, fun p => Finset.filter_subset _ p,
      pending w⟩)
    (by rw [← acks]; exact released_acks) source
    ((inv.progress id).finalizer epoch ?_ ?_)
    fun increasing => (inv.boundaries id (increasing_of_append increasing)).finalizer epoch
  · rw [← acks, List.append_assoc] at joined
    show GroupInv released.1 _
    rw [show released.1 = _ from frame]
    exact joined
  · intro w before shared held member
    have same := pending w
    rw [held, Option.map_some] at same
    obtain ⟨earlier, found, kept⟩ := Option.map_eq_some_iff.mp same.symm
    rw [← kept] at member
    exact before earlier found (Finset.mem_filter.mp member).1
  · intro w handed shared held member
    have same := pending w
    rw [held, Option.map_some] at same
    obtain ⟨earlier, found, kept⟩ := Option.map_eq_some_iff.mp same.symm
    rw [← kept] at member
    exact (Finset.mem_filter.mp member).2 handed

/-- A send hands a whole unit to its source. -/
theorem GroupInv.send (inv : GroupInv sys log) {w : WriteId} {unit : WriteUnit (OriginRow Value)}
    {rest : List (SourceId × WriteUnit (OriginRow Value))}
    (pending : sys.sending w = (id, unit) :: rest) :
    GroupInv { sys.setSource id ((sys.source id).send unit) with
      sending := Function.update sys.sending w rest } (log ++ []) := by
  obtain ⟨bound, ack, rows, some_rows⟩ := inv.sending w (id, unit) (by simp [pending])
  simp only at bound ack rows some_rows
  have sent : GroupInv (sys.setSource id ((sys.source id).send unit)) (log ++ []) := by
    refine inv.setSource_silent ((inv.source id).send ?_) ((inv.progress id).send ?_) ?_
    · rw [ack]
      exact ⟨bound, rfl, fun r member => rows ▸ member⟩
    · exact ⟨by rwa [ack], by rw [ack], some_rows, by rw [ack, rows]⟩
    · unfold SourceState.send
      split_ifs <;> rfl
  refine { sent with sending := fun w' entry member => ?_ }
  replace member : entry ∈ Function.update sys.sending w rest w' := member
  by_cases same : w' = w
  · subst same
    rw [Function.update_self] at member
    exact sent.sending w' entry (by simp [GroupState.setSource, pending, member])
  · rw [Function.update_of_ne same] at member
    exact sent.sending w' entry member

end Invariant

/-! ## A new write -/

section Write

variable {sys : GroupState Value} {log : List (GroupObs Value)}

theorem lookup_map_pair {α β : Type} [DecidableEq α] (keys : List α) (f : α → β) (k : α) :
    (keys.map fun i => (i, f i)).lookup k = if k ∈ keys then some (f k) else none := by
  induction keys with
  | nil => rfl
  | cons i keys ih =>
      rw [List.map_cons, List.lookup_cons, ih]
      by_cases same : k = i
      · simp [same]
      · have other : (k == i) = false := by simpa using same
        simp [same, other]

theorem withOrigin_write {w : WriteId} {values : List Value} {r : OriginRow Value}
    (member : r ∈ withOrigin w values) : r.write = w := by
  obtain ⟨i, bound, rfl⟩ := List.mem_mapIdx.mp member
  rfl

theorem withOrigin_nodup (w : WriteId) (values : List Value) : (withOrigin w values).Nodup := by
  refine List.Nodup.of_map OriginRow.index ?_
  have indices : (withOrigin w values).map OriginRow.index = List.range values.length := by
    apply List.ext_getElem <;> simp [withOrigin]
  rw [indices]
  exact List.nodup_range

/-- The rows a write observation has for each source. -/
theorem rowsOf_write (subscribers : List SourceId)
    (f : SourceId → List (OriginRow Value)) (n w : WriteId) (id : SourceId) :
    rowsOf [.write n (subscribers.map fun i => (i, f i))] w id =
      if n = w ∧ id ∈ subscribers then f id else [] := by
  by_cases same : n = w <;> by_cases member : id ∈ subscribers <;>
    simp [rowsOf, lookup_map_pair, same, member]

theorem mem_perSub {subscribers : List SourceId} {f : SourceId → List (OriginRow Value)}
    {sub : SourceId × List (OriginRow Value)} :
    sub ∈ perSub subscribers f ↔ sub.1 ∈ subscribers ∧ sub.2 = f sub.1 ∧ sub.2 ≠ [] := by
  obtain ⟨id, rows⟩ := sub
  simp only [perSub, List.mem_filter, List.mem_map, Prod.mk.injEq, Bool.not_eq_true',
    List.isEmpty_eq_false_iff]
  constructor
  · rintro ⟨⟨i, member, rfl, rfl⟩, some_rows⟩
    exact ⟨member, rfl, some_rows⟩
  · rintro ⟨member, rfl, some_rows⟩
    exact ⟨⟨id, member, rfl, rfl⟩, some_rows⟩

/-- Fan-out of a new write. -/
theorem GroupInv.write (inv : GroupInv sys log) (group : Group) (rows : SourceId → List Value) :
    let tagged := fun id => withOrigin sys.writes (rows id)
    let out := fanOut sys.writes (perSub group.subscribers tagged)
    GroupInv { sys with
        writes := sys.writes + 1
        acks := Function.update sys.acks sys.writes (some out.1.1)
        sending := Function.update sys.sending sys.writes out.2 }
      (log ++ .write sys.writes (group.subscribers.map fun id => (id, tagged id)) ::
        (out.1.2.map .ackSent).toList) := by
  intro tagged out
  set n := sys.writes with writes
  set obs : GroupObs Value := .write n (group.subscribers.map fun id => (id, tagged id)) with hobs
  have unstarted : sys.acks n = none := by
    by_contra started
    exact absurd ((inv.started n).mpr (Option.ne_none_iff_exists'.mp started)) (lt_irrefl _)
  have known : ∀ w < n, ∀ id, rowsOf [obs] w id = [] := fun w bound id => by
    rw [hobs, rowsOf_write, if_neg fun both => bound.ne both.1.symm]
  have rowsNew (id : SourceId) : rowsOf (log ++ [obs]) n id =
      if id ∈ group.subscribers then tagged id else [] := by
    rw [rowsOf_append, inv.origins.fresh n id le_rfl, hobs, rowsOf_write]
    simp
  have rowsOld (w : WriteId) (id : SourceId) (ne : w ≠ n) :
      rowsOf (log ++ [obs]) w id = rowsOf log w id := by
    rw [rowsOf_append, hobs, rowsOf_write, if_neg fun both => ne both.1.symm, List.append_nil]
  have contributor (id : SourceId) :
      id ∈ ((perSub group.subscribers tagged).map Prod.fst).toFinset ↔
        rowsOf (log ++ [obs]) n id ≠ [] := by
    rw [rowsNew, List.mem_toFinset, List.mem_map]
    constructor
    · rintro ⟨sub, member, rfl⟩
      obtain ⟨subscribed, same, some_rows⟩ := mem_perSub.mp member
      rw [if_pos subscribed, ← same]
      exact some_rows
    · intro some_rows
      split_ifs at some_rows with subscribed
      · exact ⟨(id, tagged id), mem_perSub.mpr ⟨subscribed, rfl, some_rows⟩, rfl⟩
      · exact absurd rfl some_rows
  have pendingNew : out.1.1.pending = ((perSub group.subscribers tagged).map Prod.fst).toFinset :=
    SharedAck.fireIfDone_pending _
  obtain ⟨ws, acksOut⟩ : ∃ ws : List WriteId,
      (out.1.2.map GroupObs.ackSent : Option (GroupObs Value)).toList = ws.map .ackSent :=
    ⟨out.1.2.toList, Option.toList_map ..⟩
  have silent : AckInv (log ++ [obs]) sys.acks :=
    inv.acks.append rfl fun w started id => known w ((inv.started w).mpr
      (Option.ne_none_iff_exists'.mp started)) id
  have unsent : n ∉ acksSent (log ++ [obs]) := fun sent => by
    obtain ⟨shared, held, -⟩ := (silent.sent n).mp sent
    cases unstarted.symm.trans held
  have acks : AckInv (log ++ [obs] ++ (out.1.2.map .ackSent).toList)
      (Function.update sys.acks n (some out.1.1)) :=
    silent.install (by rw [if_neg unsent]) (fun sent => absurd sent unsent)
      fun id contributes released => absurd ((contributor id).mpr contributes) released
  rw [show log ++ obs :: (out.1.2.map GroupObs.ackSent).toList =
    log ++ [obs] ++ (out.1.2.map GroupObs.ackSent).toList by simp]
  rw [acksOut] at acks ⊢
  have rows' (w : WriteId) (id : SourceId) : rowsOf (log ++ [obs] ++ ws.map .ackSent) w id =
      rowsOf (log ++ [obs]) w id := by
    rw [rowsOf_append, rowsOf_map_ackSent, List.append_nil]
  have knownAll : ∀ w < n, ∀ id, rowsOf ([obs] ++ ws.map .ackSent) w id = [] :=
    fun w bound id => by rw [rowsOf_append, known w bound id, rowsOf_map_ackSent, List.append_nil]
  have quiet (id : SourceId) : deliveredRows id ([obs] ++ ws.map .ackSent) = [] := by
    rw [deliveredRows_append, deliveredRows_map_ackSent]
    rfl
  have more (id : SourceId) (w : WriteId) (bound : w < n) (before : Released sys.acks id w) :
      Released (Function.update sys.acks n (some out.1.1)) id w := by
    unfold Released
    rwa [Function.update_of_ne bound.ne]
  refine ⟨⟨?_, ?_, ?_⟩, ?_, fun id => ?_, fun id => ?_, fun id increasing => ?_, ?_, acks, ?_, ?_⟩
  · intro w id r member
    rw [rows'] at member
    by_cases same : w = n
    · rw [same, rowsNew] at member
      split_ifs at member
      · rw [same]
        exact withOrigin_write member
      · cases member
    · rw [rowsOld w id same] at member
      exact inv.origins.own w id r member
  · intro w id
    rw [rows']
    by_cases same : w = n
    · rw [same, rowsNew]
      split_ifs
      · exact withOrigin_nodup n (rows id)
      · exact List.nodup_nil
    · rw [rowsOld w id same]
      exact inv.origins.nodup w id
  · intro w id le
    replace le : n < w := le
    rw [rows', rowsOld w id le.ne']
    exact inv.origins.fresh w id le.le
  · intro w entries member
    simp only [List.append_assoc, List.mem_append, List.mem_singleton, List.mem_map, reduceCtorEq,
      and_false, exists_false, or_false] at member
    rcases member with earlier | new
    · exact (inv.written w entries earlier).trans (Nat.lt_succ_self _)
    · obtain ⟨rfl, -⟩ := GroupObs.write.inj new
      exact Nat.lt_succ_self _
  · rw [List.append_assoc]
    exact (inv.source id).append (Nat.le_succ _) (fun w bound => knownAll w bound id) (quiet id)
  · rw [List.append_assoc]
    exact (inv.progress id).append (Nat.le_succ _) (fun w bound => knownAll w bound id) (quiet id)
      (more id)
  · rw [List.append_assoc] at increasing ⊢
    exact (inv.boundaries id (increasing_of_append increasing)).append (quiet id)
      (by simp [hobs]) (by simp [hobs])
  · intro w entry member
    replace member : entry ∈ Function.update sys.sending n out.2 w := member
    rw [rows']
    by_cases same : w = n
    · subst same
      rw [Function.update_self] at member
      obtain ⟨sub, selected, rfl⟩ := List.mem_map.mp member
      obtain ⟨subscribed, rowsEq, some_rows⟩ := mem_perSub.mp selected
      refine ⟨Nat.lt_succ_self _, rfl, ?_, some_rows⟩
      rw [rowsNew, if_pos subscribed, ← rowsEq]
    · rw [Function.update_of_ne same] at member
      rw [rowsOld _ _ same]
      obtain ⟨bound, rest⟩ := inv.sending w entry member
      exact ⟨bound.trans (Nat.lt_succ_self _), rest⟩
  · intro w
    show w < n + 1 ↔ ∃ shared, Function.update sys.acks n (some out.1.1) w = some shared
    by_cases same : w = n
    · subst same
      simp
    · rw [Function.update_of_ne same, ← inv.started w]
      omega
  · intro w shared held id member
    replace held : Function.update sys.acks n (some out.1.1) w = some shared := held
    rw [rows']
    by_cases same : w = n
    · subst same
      rw [Function.update_self] at held
      obtain rfl := Option.some.inj held
      rw [pendingNew] at member
      exact (contributor id).mp member
    · rw [Function.update_of_ne same] at held
      rw [rowsOld _ _ same]
      exact inv.contributors w shared held id member

end Write

/-! ## Every run -/

section Run

variable {group : Group} {sys sys' : GroupState Value} {log out : List (GroupObs Value)}

/-- Every step of the group keeps the invariant. -/
theorem GroupInv.step (inv : GroupInv sys log) {event : GroupEvent Value}
    (taken : group.step sys event = some (sys', out)) : GroupInv sys' (log ++ out) := by
  cases event with
  | write rows =>
      cases taken
      exact inv.write group rows
  | send w =>
      simp only [Group.step] at taken
      cases pending : sys.sending w with
      | nil =>
          rw [pending] at taken
          cases taken
      | cons entry rest =>
          rw [pending] at taken
          cases taken
          exact inv.send pending
  | close id =>
      obtain ⟨σ, closed, same⟩ := Option.map_eq_some_iff.mp taken
      cases same
      exact inv.setSource_silent ((inv.source id).close closed) ((inv.progress id).close closed)
        (by rw [SourceState.close_cases closed])
  | startBatch id =>
      obtain ⟨σ, started, same⟩ := Option.map_eq_some_iff.mp taken
      cases same
      refine inv.setSource_silent ((inv.source id).startBatch started)
        ((inv.progress id).startBatch inv.origins started) ?_
      rcases SourceState.startBatch_cases started with ⟨-, ⟨-, rfl⟩ | ⟨unit, -, rfl⟩⟩ <;> rfl
  | recvUnit id =>
      obtain ⟨σ, received, same⟩ := Option.map_eq_some_iff.mp taken
      cases same
      refine inv.setSource_silent ((inv.source id).recvUnit received)
        ((inv.progress id).recvUnit inv.origins received) ?_
      obtain ⟨b, unit, rx, -, -, -, rfl⟩ := SourceState.recvUnit_cases received
      rfl
  | endDrain id =>
      obtain ⟨σ, ended, same⟩ := Option.map_eq_some_iff.mp taken
      cases same
      refine inv.setSource_silent ((inv.source id).endDrain ended)
        ((inv.progress id).endDrain ended) ?_
      obtain ⟨b, -, rfl⟩ := SourceState.endDrain_cases ended
      rfl
  | finishBatch id built =>
      obtain ⟨⟨σ, result⟩, finished, same⟩ := Option.map_eq_some_iff.mp taken
      cases same
      exact inv.finishBatch finished
  | marker id epoch =>
      cases taken
      exact inv.marker
  | finalizer id epoch =>
      cases taken
      exact inv.finalizer

/-- Every reachable state and log satisfies the invariant. -/
theorem GroupInv.of_reaches (reached : (group.machine Value).Reaches .initial sys log) :
    GroupInv sys log :=
  reached.invariant .initial fun inv _ taken => inv.step taken

/-- A released slice was covered, and under increasing epochs a covered slice is
released. -/
theorem GroupInv.released_of_covered (inv : GroupInv sys log) {id : SourceId} {w : WriteId}
    (increasing : (markerEpochs id log).Pairwise (· < ·))
    (covered : Covered log id (rowsOf log w id)) (contributes : rowsOf log w id ≠ []) :
    Released sys.acks id w := by
  obtain ⟨epoch, before, between, after, split, all⟩ := covered
  obtain ⟨r, last⟩ := Option.ne_none_iff_exists'.mp
    (mt List.getLast?_eq_none_iff.mp contributes)
  have own := inv.origins.own w id r (List.mem_of_getLast? last)
  have present := all r (List.mem_of_getLast? last)
  subst own
  obtain ⟨-, progress⟩ := (inv.progress id).delivered r (by rw [split]; simp [present])
  rcases progress last with released | ⟨position, armed, by_now⟩
  · exact released
  · rcases (inv.boundaries id increasing).kept before epoch _ split with ⟨-, unfinalized⟩ | beyond
    · simp at unfinalized
    · have le := by_now before ⟨_, split.symm⟩ present
      have lt := beyond _ armed
      exact absurd lt (by simpa using le)

/-- An etl ack is sent at most once and only when every subscriber with rows in
the write is covered for them; when markers come with increasing epochs, the ack
of a write has been sent as soon as all of them are. -/
theorem Group.etl_ack_iff_covered (reached : (group.machine Value).Reaches .initial sys log) :
    (acksSent log).Nodup ∧
      (∀ w ∈ acksSent log, ∀ id, rowsOf log w id ≠ [] → Covered log id (rowsOf log w id)) ∧
      ((∀ id, (markerEpochs id log).Pairwise (· < ·)) → ∀ w rows, .write w rows ∈ log →
        (∀ id, rowsOf log w id ≠ [] → Covered log id (rowsOf log w id)) → w ∈ acksSent log) := by
  have inv := GroupInv.of_reaches reached
  refine ⟨inv.acks.once, fun w sent id contributes => ?_, fun increasing w rows member all => ?_⟩
  · obtain ⟨shared, held, done⟩ := (inv.acks.sent w).mp sent
    exact inv.acks.covered w shared held id contributes (by simp [done])
  · obtain ⟨shared, held⟩ := (inv.started w).mp (inv.written w rows member)
    refine (inv.acks.sent w).mpr ⟨shared, held, Finset.eq_empty_of_forall_notMem fun id slice => ?_⟩
    have contributes := inv.contributors w shared held id slice
    exact inv.released_of_covered (increasing id) (all id contributes) contributes shared held slice

/-- Two subscribers with batches of one row. -/
def pairGroup : Group := ⟨[0, 1], by decide, fun _ => 1⟩

/-- A write with two rows for one subscriber and one row for the other, delivered
and finalized on both; the finalizer of epoch 1 comes too early for the second row. -/
def pairRun : List (GroupEvent Nat) :=
  [.write fun id => if id = 0 then [7, 8] else if id = 1 then [9] else [],
    .send 0, .startBatch 0, .recvUnit 0, .send 0, .endDrain 0, .finishBatch 0 true, .marker 0 1,
    .startBatch 0, .endDrain 0, .finalizer 0 1, .finishBatch 0 true, .marker 0 2, .startBatch 1,
    .recvUnit 1, .endDrain 1, .finishBatch 1 true, .marker 1 1, .finalizer 1 1, .finalizer 0 2]

/-- What `pairRun` shows: the ack leaves with the last finalizer. -/
def pairLog : List (GroupObs Nat) :=
  [.write 0 [(0, [⟨0, 0, 7⟩, ⟨0, 1, 8⟩]), (1, [⟨0, 0, 9⟩])], .batchOk 0 [⟨0, 0, 7⟩], .marker 0 1,
    .finalizer 0 1, .batchOk 0 [⟨0, 1, 8⟩], .marker 0 2, .batchOk 1 [⟨0, 0, 9⟩], .marker 1 1,
    .finalizer 1 1, .finalizer 0 2, .ackSent 0]

theorem pairGroup_reaches :
    ∃ sys, (pairGroup.machine Nat).Reaches .initial sys pairLog :=
  Machine.Reaches.exists_of_run pairRun (by decide +kernel)

/-- In `pairRun` both subscribers are covered when the ack leaves. -/
theorem Group.etl_ack_iff_covered_pair :
    acksSent pairLog = [0] ∧ ∀ id, rowsOf pairLog 0 id ≠ [] →
      Covered pairLog id (rowsOf pairLog 0 id) := by
  obtain ⟨sys, reached⟩ := pairGroup_reaches
  exact ⟨rfl, (Group.etl_ack_iff_covered reached).2.1 0 (by decide)⟩

end Run

end StreamlingPlugins.PostgresCdc
