import StreamlingPlugins.PostgresCdc.AckSafety

/-!
# Delivered and finalized units are released

The converse direction, for one source.  `SourceProgress` follows the last row of
a unit: once it is drained the unit's ack is completed, and once it is delivered
the ack is armed no later than the batch that carried the row, or released.
`Boundaries` says what finalizers have done to the armed acks, under markers with
increasing epochs.
-/

namespace StreamlingPlugins.PostgresCdc

variable {Value : Type}

/-- The epochs of a source's markers, in order. -/
def markerEpochs (id : SourceId) (log : List (GroupObs Value)) : List Nat :=
  log.filterMap fun
    | .marker source epoch => if source = id then some epoch else none
    | _ => none

section Splits

variable {log out before after : List (GroupObs Value)} {id : SourceId} {epoch : Nat}

/-- An observation that is not in the appended part splits the earlier log. -/
theorem split_append {x : GroupObs Value} (split : log ++ out = before ++ x :: after)
    (absent : x ∉ out) : ∃ rest, log = before ++ x :: rest ∧ after = rest ++ out := by
  rcases List.append_eq_append_iff.mp split with ⟨extra, rfl, rest⟩ | ⟨extra, rfl, rest⟩
  · rw [rest] at absent
    simp at absent
  · cases extra with
    | nil =>
        rw [List.nil_append] at rest
        rw [← rest] at absent
        simp at absent
    | cons y extra =>
        obtain ⟨rfl, rfl⟩ := List.cons.inj rest
        exact ⟨extra, rfl, rfl⟩

/-- A marker in the log has its epoch among the source's epochs. -/
theorem mem_markerEpochs_of_split (split : log = before ++ .marker id epoch :: after) :
    epoch ∈ markerEpochs id log :=
  List.mem_filterMap.mpr ⟨.marker id epoch, by simp [split], by simp⟩

/-- A shorter log has delivered no more rows. -/
theorem deliveredRows_length_le (shorter : before <+: log) :
    (deliveredRows id before).length ≤ (deliveredRows id log).length := by
  obtain ⟨rest, rfl⟩ := shorter
  simp

end Splits

/-! ## Armed positions and finalizers -/

/-- The armed acks in order of their positions, and what became of each marker:
either it still holds its boundary and its epoch was not finalized since, or no
armed ack is at or before that boundary any more. -/
structure Boundaries (log : List (GroupObs Value)) (id : SourceId)
    (ledger : AckLedger SourceAckHandle) : Prop where
  sorted : ledger.pending.Pairwise fun a b => a.1 ≤ b.1
  bounded : ∀ armed ∈ ledger.pending, armed.1 ≤ (deliveredRows id log).length
  ordered : ∀ e e' b b' : Nat, e ≤ e' → ledger.markers[e]? = some b → ledger.markers[e']? = some b' →
    b ≤ b'
  kept : ∀ before e after, log = before ++ .marker id e :: after →
    (ledger.markers[e]? = some (deliveredRows id before).length ∧ .finalizer id e ∉ after) ∨
      ∀ armed ∈ ledger.pending, (deliveredRows id before).length < armed.1

section Ledger

variable {log out : List (GroupObs Value)} {n : Nat} {id : SourceId}
  {ledger : AckLedger SourceAckHandle} {σ : SourceState (OriginRow Value)}

/-- Observations that are no batch, marker or finalizer of the source. -/
theorem Boundaries.append (inv : Boundaries log id ledger) (quiet : deliveredRows id out = [])
    (unmarked : ∀ e, .marker id e ∉ out) (unfinalized : ∀ e, .finalizer id e ∉ out) :
    Boundaries (log ++ out) id ledger where
  sorted := inv.sorted
  bounded := by simpa [quiet] using inv.bounded
  ordered := inv.ordered
  kept before e after split := by
    obtain ⟨rest, earlier, rfl⟩ := split_append split (unmarked e)
    refine (inv.kept before e rest earlier).imp_left fun kept => ⟨kept.1, ?_⟩
    obtain ⟨holds, open_⟩ := kept
    simp [open_, unfinalized e]

/-- A batch arms its completed units beyond every earlier boundary. -/
theorem Boundaries.deliver (inv : Boundaries log id ledger)
    (emitted : ledger.emitted = (deliveredRows id log).length)
    {rows : List (OriginRow Value)} {completed : List SourceAckHandle}
    (some_rows : completed ≠ [] → rows ≠ []) :
    Boundaries (log ++ [.batchOk id rows]) id
      ((ledger.rowsDelivered rows.length).unitsCompleted completed) := by
  have delivered : deliveredRows id (log ++ [GroupObs.batchOk id rows]) =
      deliveredRows id log ++ rows := by
    simp [deliveredRows]
  have armed : ((ledger.rowsDelivered rows.length).unitsCompleted completed).pending =
      ledger.pending ++ completed.map ((deliveredRows id log).length + rows.length, ·) := by
    simp [AckLedger.rowsDelivered, emitted]
  constructor
  · rw [armed, List.pairwise_append]
    refine ⟨inv.sorted, ?_, fun old before new after => ?_⟩
    · exact List.pairwise_map.mpr (List.pairwise_of_forall fun _ _ => le_rfl)
    · obtain ⟨ack, -, rfl⟩ := List.mem_map.mp after
      exact (inv.bounded old before).trans (Nat.le_add_right ..)
  · intro old member
    rw [armed] at member
    rw [delivered, List.length_append]
    rcases List.mem_append.mp member with before | new
    · exact (inv.bounded old before).trans (Nat.le_add_right ..)
    · obtain ⟨ack, -, rfl⟩ := List.mem_map.mp new
      exact le_rfl
  · simpa [AckLedger.rowsDelivered] using inv.ordered
  · intro before e after split
    obtain ⟨rest, earlier, rfl⟩ := split_append split (by simp)
    rcases inv.kept before e rest earlier with ⟨holds, open_⟩ | beyond
    · exact .inl ⟨by simpa [AckLedger.rowsDelivered] using holds, by simpa using open_⟩
    · refine .inr fun ack member => ?_
      rw [armed] at member
      rcases List.mem_append.mp member with old | new
      · exact beyond ack old
      · have shorter : (deliveredRows id before).length ≤ (deliveredRows id log).length :=
          deliveredRows_length_le ⟨_, earlier.symm⟩
        obtain ⟨handle, arms, rfl⟩ := List.mem_map.mp new
        have nonempty := List.length_pos_iff.mpr (some_rows (List.ne_nil_of_mem arms))
        show _ < _ + _
        omega

/-- A marker with a fresh, larger epoch holds its boundary. -/
theorem Boundaries.marker (inv : Boundaries log id ledger)
    (emitted : ledger.emitted = (deliveredRows id log).length)
    (markers : ∀ e b, ledger.markers[e]? = some b → e ∈ markerEpochs id log ∧
      b ≤ (deliveredRows id log).length) {epoch : Nat}
    (increasing : ∀ e ∈ markerEpochs id log, e < epoch) :
    Boundaries (log ++ [.marker id epoch]) id (ledger.marker epoch) := by
  have lookup (e : Nat) : (ledger.marker epoch).markers[e]? =
      if epoch = e then some (deliveredRows id log).length else ledger.markers[e]? := by
    simp [AckLedger.marker, Std.ExtTreeMap.getElem?_insert, emitted]
  have delivered : deliveredRows id (log ++ [GroupObs.marker id epoch]) =
      deliveredRows id log := by
    simp [deliveredRows]
  refine ⟨inv.sorted, by rw [delivered]; exact inv.bounded, ?_, ?_⟩
  · intro e e' b b' le found found'
    rw [lookup] at found found'
    split_ifs at found found' with new new' new'
    · simp_all
    · have := increasing e' (markers e' b' found').1
      omega
    · cases found'
      exact (markers e b found).2
    · exact inv.ordered e e' b b' le found found'
  · intro before e after split
    by_cases last : after = []
    · subst last
      obtain ⟨rfl, same⟩ := List.append_inj' split rfl
      obtain rfl : epoch = e := by simpa using same
      exact .inl ⟨by rw [lookup, if_pos rfl], by simp⟩
    · obtain ⟨rest, x, rfl⟩ := List.eq_nil_or_concat after |>.resolve_left last
      rw [List.concat_eq_append, ← List.cons_append, ← List.append_assoc] at split
      obtain ⟨rfl, same⟩ := List.append_inj' split rfl
      obtain rfl : GroupObs.marker id epoch = x := by simpa using same
      have smaller := increasing e (mem_markerEpochs_of_split rfl)
      rcases inv.kept before e rest rfl with ⟨holds, open_⟩ | beyond
      · refine .inl ⟨?_, by simp [open_]⟩
        rw [lookup, if_neg (by omega)]
        exact holds
      · exact .inr beyond

/-- A finalizer leaves only acks armed beyond its boundary. -/
theorem Boundaries.finalizer (inv : Boundaries log id ledger) (epoch : Nat) :
    Boundaries (log ++ [.finalizer id epoch]) id (ledger.finalize epoch).2 := by
  have delivered (e : Nat) : deliveredRows id (log ++ [GroupObs.finalizer id e]) =
      deliveredRows id log := by
    simp [deliveredRows]
  rcases ledger.finalize_cases epoch with ⟨unknown, nothing⟩ | ⟨boundary, found, -, kept, -,
    markers⟩
  · rw [nothing]
    refine ⟨inv.sorted, by rw [delivered]; exact inv.bounded, inv.ordered, ?_⟩
    intro before e after split
    obtain ⟨rest, earlier, rfl⟩ := split_append split (by simp)
    refine (inv.kept before e rest earlier).imp_left fun kept => ⟨kept.1, ?_⟩
    obtain ⟨holds, open_⟩ := kept
    have other : e ≠ epoch := by
      rintro rfl
      cases holds.symm.trans unknown
    simp [open_, other]
  · have subset : ∀ armed ∈ (ledger.finalize epoch).2.pending, armed ∈ ledger.pending := by
      rw [kept]
      exact fun _ member => (List.dropWhile_suffix _).subset member
    have beyondBoundary : ∀ armed ∈ (ledger.finalize epoch).2.pending, boundary < armed.1 := by
      rw [kept]
      have sorted := inv.sorted
      generalize ledger.pending = pending at sorted
      induction pending with
      | nil => simp
      | cons first pending ih =>
          rw [List.pairwise_cons] at sorted
          rw [List.dropWhile_cons]
          split_ifs with within
          · exact ih sorted.2
          · have beyond : boundary < first.1 := by simpa using within
            intro armed member
            rcases List.mem_cons.mp member with rfl | later
            · exact beyond
            · exact beyond.trans_le (sorted.1 armed later)
    constructor
    · rw [kept]
      exact inv.sorted.sublist (List.dropWhile_sublist _)
    · rw [delivered]
      exact fun armed member => inv.bounded armed (subset armed member)
    · intro e e' b b' le held held'
      exact inv.ordered e e' b b' le ((markers e b).mp held).2 ((markers e' b').mp held').2
    · intro before e after split
      obtain ⟨rest, earlier, rfl⟩ := split_append split (by simp)
      rcases inv.kept before e rest earlier with ⟨holds, open_⟩ | beyond
      · by_cases later : epoch < e
        · refine .inl ⟨(markers e _).mpr ⟨later, holds⟩, ?_⟩
          simp [open_, later.ne']
        · have le := inv.ordered e epoch _ _ (Nat.le_of_not_lt later) holds found
          exact .inr fun armed member => le.trans_lt (beyondBoundary armed member)
      · exact .inr fun armed member => beyond armed (subset armed member)

end Ledger

/-! ## The last row of a unit -/

/-- The rows of the first `n` writes carry their write's id, without repetition,
and later writes have none. -/
structure Origins (log : List (GroupObs Value)) (n : Nat) : Prop where
  own : ∀ w id, ∀ r ∈ rowsOf log w id, r.write = w
  nodup : ∀ w id, (rowsOf log w id).Nodup
  fresh : ∀ w id, n ≤ w → rowsOf log w id = []

/-- A nonempty unit on its way through source `id`: what is left of a write's rows. -/
def Queued (log : List (GroupObs Value)) (n : Nat) (id : SourceId)
    (unit : WriteUnit (OriginRow Value)) : Prop :=
  unit.ack.1 < n ∧ unit.ack.2 = id ∧ unit.rows ≠ [] ∧ unit.rows <:+ rowsOf log unit.ack.1 id

/-- Every log prefix that delivered `r` had delivered at least `position` rows. -/
def ArmedBy (log : List (GroupObs Value)) (id : SourceId) (r : OriginRow Value)
    (position : Nat) : Prop :=
  ∀ before, before <+: log → r ∈ deliveredRows id before →
    position ≤ (deliveredRows id before).length

/-- How far the unit of each write has come: its ack is completed when its last
row is drained, and armed or released when its last row is delivered. -/
structure SourceProgress (log : List (GroupObs Value)) (n : Nat) (id : SourceId)
    (released : WriteId → Prop) (σ : SourceState (OriginRow Value)) : Prop where
  rx : ∀ unit ∈ σ.rx, Queued log n id unit
  carry : ∀ unit, σ.carry = some unit → Queued log n id unit
  nonempty : ∀ b, σ.batch = some b → b.completed ≠ [] → b.rows ≠ []
  drained : ∀ b, σ.batch = some b → ∀ r ∈ b.rows, r.write < n ∧
    ((rowsOf log r.write id).getLast? = some r → (r.write, id) ∈ b.completed)
  delivered : ∀ r ∈ deliveredRows id log, r.write < n ∧
    ((rowsOf log r.write id).getLast? = some r → released r.write ∨
      ∃ position, (position, (r.write, id)) ∈ σ.ledger.pending ∧ ArmedBy log id r position)

section Progress

variable {log out : List (GroupObs Value)} {n n' : Nat} {id : SourceId}
  {released released' : WriteId → Prop} {σ σ' : SourceState (OriginRow Value)}

/-- A position armed by now stays so in a longer log. -/
theorem ArmedBy.append {r : OriginRow Value} {position : Nat}
    (armed : ArmedBy log id r position) (delivered : r ∈ deliveredRows id log) :
    ArmedBy (log ++ out) id r position := by
  intro before shorter present
  rcases List.prefix_or_prefix_of_prefix shorter (List.prefix_append log out) with within | beyond
  · exact armed before within present
  · exact (armed log (List.prefix_refl log) delivered).trans (deliveredRows_length_le beyond)

theorem Queued.append {unit : WriteUnit (OriginRow Value)} (queued : Queued log n id unit)
    (le : n ≤ n') (known : ∀ w < n, rowsOf out w id = []) : Queued (log ++ out) n' id unit := by
  obtain ⟨bound, own, some_rows, suffix⟩ := queued
  refine ⟨bound.trans_le le, own, some_rows, ?_⟩
  rwa [rowsOf_append, known _ bound, List.append_nil]

/-- Observations that concern no batch of the source and no rows of known writes. -/
theorem SourceProgress.append (inv : SourceProgress log n id released σ) (le : n ≤ n')
    (known : ∀ w < n, rowsOf out w id = []) (quiet : deliveredRows id out = [])
    (more : ∀ w < n, released w → released' w) :
    SourceProgress (log ++ out) n' id released' σ where
  rx unit member := (inv.rx unit member).append le known
  carry unit carried := (inv.carry unit carried).append le known
  nonempty := inv.nonempty
  drained b running r member := by
    obtain ⟨bound, last⟩ := inv.drained b running r member
    rw [rowsOf_append, known _ bound, List.append_nil]
    exact ⟨bound.trans_le le, last⟩
  delivered r member := by
    rw [deliveredRows_append, quiet, List.append_nil] at member
    obtain ⟨bound, last⟩ := inv.delivered r member
    rw [rowsOf_append, known _ bound, List.append_nil]
    refine ⟨bound.trans_le le, fun final => ?_⟩
    rcases last final with before | ⟨position, armed, by_now⟩
    · exact .inl (more _ bound before)
    · exact .inr ⟨position, armed, by_now.append member⟩

/-- Taking from a queued unit completes its ack exactly with its last row. -/
theorem SourceProgress.takeFrom (inv : SourceProgress log n id released σ)
    (origins : Origins log n) (batchSize : Nat) {b : Batch (OriginRow Value)}
    {unit : WriteUnit (OriginRow Value)} {rx : List (WriteUnit (OriginRow Value))}
    (nonempty : b.completed ≠ [] → b.rows ≠ [])
    (drained : ∀ r ∈ b.rows, r.write < n ∧
      ((rowsOf log r.write id).getLast? = some r → (r.write, id) ∈ b.completed))
    (queued : Queued log n id unit) (fewer : ∀ unit ∈ rx, unit ∈ σ.rx) :
    SourceProgress log n id released { σ with
      batch := some (SourceState.takeFrom batchSize b unit).1
      carry := (SourceState.takeFrom batchSize b unit).2
      rx := rx } := by
  obtain ⟨bound, own, some_rows, suffix⟩ := queued
  have tagged : ∀ r ∈ unit.rows, r.write = unit.ack.1 := fun r member =>
    origins.own _ _ r (suffix.subset member)
  have ackEq : unit.ack = (unit.ack.1, id) := Prod.ext rfl own
  refine ⟨fun u member => inv.rx u (fewer u member), ?_, ?_, ?_, inv.delivered⟩
  · intro u carried
    rcases SourceState.takeFrom_cases batchSize b unit with taken | ⟨front, rest, split, left, taken⟩
    · rw [taken] at carried
      cases carried
    · rw [taken] at carried
      obtain rfl := Option.some.inj carried
      exact ⟨bound, own, left, (split ▸ List.suffix_append front rest).trans suffix⟩
  · rintro b' running complete
    obtain rfl := Option.some.inj running
    rcases SourceState.takeFrom_cases batchSize b unit with taken | ⟨front, rest, -, -, taken⟩
    · rw [taken]
      simp [some_rows]
    · rw [taken] at complete ⊢
      simp [nonempty complete]
  · rintro b' running r member
    obtain rfl := Option.some.inj running
    rcases SourceState.takeFrom_cases batchSize b unit with taken | ⟨front, rest, split, left, taken⟩
    · rw [taken] at member ⊢
      rcases List.mem_append.mp member with earlier | fresh
      · exact (drained r earlier).imp_right fun last final => List.mem_append_left _ (last final)
      · rw [tagged r fresh]
        exact ⟨bound, fun _ => by simp [← ackEq]⟩
    · rw [taken] at member ⊢
      rcases List.mem_append.mp member with earlier | fresh
      · exact drained r earlier
      · have present : r ∈ unit.rows := split ▸ List.mem_append_left _ fresh
        rw [tagged r present]
        refine ⟨bound, fun final => ?_⟩
        -- The last row of the write is in the rest that is carried, not in the front.
        have inRest : r ∈ rest := by
          obtain ⟨earlier, whole⟩ := suffix
          rw [← whole, split, List.getLast?_append_of_ne_nil _ (by simp [left]),
            List.getLast?_append_of_ne_nil _ left] at final
          exact List.mem_of_getLast? final
        have nodup := (origins.nodup unit.ack.1 id).sublist suffix.sublist
        rw [split, List.nodup_append] at nodup
        exact absurd rfl (nodup.2.2 r fresh r inRest)

theorem SourceProgress.startBatch (inv : SourceProgress log n id released σ)
    (origins : Origins log n) {batchSize : Nat} (started : σ.startBatch batchSize = some σ') :
    SourceProgress log n id released σ' := by
  obtain ⟨idle, ⟨bare, rfl⟩ | ⟨unit, carried, rfl⟩⟩ := SourceState.startBatch_cases started
  · refine ⟨inv.rx, inv.carry, ?_, ?_, inv.delivered⟩
    · rintro b ⟨⟩ complete
      exact absurd rfl complete
    · rintro b ⟨⟩ r member
      cases member
  · exact inv.takeFrom origins batchSize (fun complete => absurd rfl complete)
      (fun r member => by cases member) (inv.carry unit carried) fun _ member => member

theorem SourceProgress.recvUnit (inv : SourceProgress log n id released σ)
    (origins : Origins log n) {batchSize : Nat} (received : σ.recvUnit batchSize = some σ') :
    SourceProgress log n id released σ' := by
  obtain ⟨b, unit, rx, running, -, queued, rfl⟩ := SourceState.recvUnit_cases received
  refine inv.takeFrom origins batchSize (inv.nonempty b running) (inv.drained b running)
    (inv.rx unit ?_) fun u member => ?_
  · simp [queued]
  · simp [queued, member]

theorem SourceProgress.endDrain (inv : SourceProgress log n id released σ) {batchSize : Nat}
    (ended : σ.endDrain batchSize = some σ') : SourceProgress log n id released σ' := by
  obtain ⟨b, running, rfl⟩ := SourceState.endDrain_cases ended
  refine ⟨inv.rx, inv.carry, ?_, ?_, inv.delivered⟩
  · rintro b' ⟨⟩
    exact inv.nonempty b running
  · rintro b' ⟨⟩
    exact inv.drained b running

theorem SourceProgress.close (inv : SourceProgress log n id released σ)
    (closed : σ.close = some σ') : SourceProgress log n id released σ' := by
  obtain rfl := SourceState.close_cases closed
  exact ⟨inv.rx, inv.carry, inv.nonempty, inv.drained, inv.delivered⟩

theorem SourceProgress.send (inv : SourceProgress log n id released σ)
    {unit : WriteUnit (OriginRow Value)} (queued : Queued log n id unit) :
    SourceProgress log n id released (σ.send unit) := by
  unfold SourceState.send
  split_ifs with closed
  · exact inv
  · refine ⟨fun u member => ?_, inv.carry, inv.nonempty, inv.drained, inv.delivered⟩
    rcases List.mem_append.mp member with queued' | sent
    · exact inv.rx u queued'
    · obtain rfl : u = unit := by simpa using sent
      exact queued

/-- Delivering a batch arms every unit whose last row it carried. -/
theorem SourceProgress.finishBatch (inv : SourceProgress log n id released σ)
    (emitted : σ.ledger.emitted = (deliveredRows id log).length) {built : Bool}
    {result : Option (List (OriginRow Value))}
    (finished : σ.finishBatch built = some (σ', result)) :
    SourceProgress (log ++ [result.elim (.batchErr id) (.batchOk id)]) n id released σ' := by
  obtain ⟨b, running, ⟨empty, rfl, rfl⟩ | ⟨some_rows, rfl, rfl⟩ | ⟨-, rfl, rfl⟩⟩ :=
    SourceState.finishBatch_cases finished
  · have none_completed : b.completed = [] := by
      by_contra complete
      exact inv.nonempty b running complete empty
    have returned : SourceProgress log n id released { σ with
        batch := none, ledger := σ.ledger.unitsCompleted b.completed } :=
      ⟨inv.rx, inv.carry, by simp, by simp, by simpa [none_completed] using inv.delivered⟩
    exact returned.append le_rfl (fun _ _ => rfl) (by simp [deliveredRows]) fun _ _ before => before
  · have delivered : deliveredRows id (log ++ [GroupObs.batchOk id b.rows]) =
        deliveredRows id log ++ b.rows := by
      simp [deliveredRows]
    have rows (w : WriteId) : rowsOf (log ++ [GroupObs.batchOk id b.rows]) w id =
        rowsOf log w id := by
      simp [rowsOf]
    refine ⟨fun u member => (inv.rx u member).append le_rfl fun _ _ => rfl,
      fun u carried => (inv.carry u carried).append le_rfl fun _ _ => rfl, by simp, by simp,
      fun r member => ?_⟩
    rw [Option.elim_some, rows]
    by_cases before : r ∈ deliveredRows id log
    · obtain ⟨bound, last⟩ := inv.delivered r before
      refine ⟨bound, fun final => (last final).imp_right ?_⟩
      rintro ⟨position, armed, by_now⟩
      refine ⟨position, ?_, by_now.append before⟩
      simp [AckLedger.rowsDelivered, armed]
    · rw [Option.elim_some, delivered] at member
      have now := (List.mem_append.mp member).resolve_left before
      obtain ⟨bound, last⟩ := inv.drained b running r now
      refine ⟨bound, fun final => .inr ⟨σ.ledger.emitted + b.rows.length, ?_, ?_⟩⟩
      · simp [AckLedger.rowsDelivered, last final]
      · -- Only the whole log contains the batch.
        intro shorter within present
        rcases List.prefix_concat_iff.mp within with whole | within
        · rw [whole, delivered, List.length_append, emitted]
        · obtain ⟨rest, rfl⟩ := within
          exact absurd (by simp [present]) before
  · have dropped : SourceProgress log n id released { σ with batch := none, carry := none } :=
      ⟨inv.rx, by simp, by simp, by simp, inv.delivered⟩
    exact dropped.append le_rfl (fun _ _ => rfl) (by simp [deliveredRows]) fun _ _ before => before

theorem SourceProgress.marker (inv : SourceProgress log n id released σ) (epoch : Nat) :
    SourceProgress (log ++ [.marker id epoch]) n id released
      { σ with ledger := σ.ledger.marker epoch } := by
  have framed : SourceProgress (log ++ [.marker id epoch]) n id released σ :=
    inv.append le_rfl (fun _ _ => rfl) rfl fun _ _ before => before
  exact ⟨framed.rx, framed.carry, framed.nonempty, framed.drained, framed.delivered⟩

/-- A finalizer moves no unit but those it hands over to be released. -/
theorem SourceProgress.finalizer (inv : SourceProgress log n id released σ) (epoch : Nat)
    (more : ∀ w, released w → released' w)
    (handed : ∀ w, (w, id) ∈ (σ.ledger.finalize epoch).1 → released' w) :
    SourceProgress (log ++ [.finalizer id epoch]) n id released'
      { σ with ledger := (σ.ledger.finalize epoch).2 } := by
  have framed : SourceProgress (log ++ [.finalizer id epoch]) n id released' σ :=
    inv.append le_rfl (fun _ _ => rfl) rfl fun w _ => more w
  refine ⟨framed.rx, framed.carry, framed.nonempty, framed.drained, fun r member => ?_⟩
  obtain ⟨bound, last⟩ := framed.delivered r member
  refine ⟨bound, fun final => ?_⟩
  rcases last final with before | ⟨position, armed, by_now⟩
  · exact .inl before
  · rcases σ.ledger.finalize_cases epoch with ⟨-, nothing⟩ | ⟨boundary, -, -, kept, taken, -⟩
    · exact .inr ⟨position, by rwa [nothing], by_now⟩
    · rw [← List.takeWhile_append_dropWhile (p := fun a => decide (a.1 ≤ boundary))
        (l := σ.ledger.pending)] at armed
      rcases List.mem_append.mp armed with within | beyond
      · exact .inl (handed _ (taken ▸ List.mem_map_of_mem within))
      · exact .inr ⟨position, by rwa [kept], by_now⟩

end Progress

end StreamlingPlugins.PostgresCdc
