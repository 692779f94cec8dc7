import StreamlingPlugins.PostgresCdc.Delivery

/-!
# The etl ack waits for durable delivery

`Covered log id rows` reads off the log that every row of `rows` was in a batch
that source `id` returned before a marker whose epoch was finalized afterwards.
The invariant of this module follows a unit from the channel to the shared ack
(`SourceInv`) and the shared ack itself (`AckInv`); `etl_ack_covered` concludes
that the etl ack of a write leaves at most once, and only when every subscriber
is covered for its rows of the write.
-/

namespace StreamlingPlugins.PostgresCdc

variable {Value : Type}

/-! ## Reading the log -/

/-- The rows source `id` returned in batches, in order. -/
def deliveredRows (id : SourceId) (log : List (GroupObs Value)) : List (OriginRow Value) :=
  log.flatMap fun
    | .batchOk source rows => if source = id then rows else []
    | _ => []

/-- The rows write `w` has for source `id`. -/
def rowsOf (log : List (GroupObs Value)) (w : WriteId) (id : SourceId) :
    List (OriginRow Value) :=
  log.flatMap fun
    | .write write rows => if write = w then (rows.lookup id).getD [] else []
    | _ => []

/-- The writes whose etl ack was sent. -/
def acksSent (log : List (GroupObs Value)) : List WriteId :=
  log.filterMap fun
    | .ackSent w => some w
    | _ => none

/-- Every row was in a batch returned before a marker whose epoch was finalized
afterwards. -/
def Covered (log : List (GroupObs Value)) (id : SourceId) (rows : List (OriginRow Value)) :
    Prop :=
  ∃ epoch before between after,
    log = before ++ .marker id epoch :: (between ++ .finalizer id epoch :: after) ∧
      ∀ r ∈ rows, r ∈ deliveredRows id before

section Projections

variable {id : SourceId} {w : WriteId} {log out : List (GroupObs Value)}

@[simp] theorem deliveredRows_append :
    deliveredRows id (log ++ out) = deliveredRows id log ++ deliveredRows id out :=
  List.flatMap_append

@[simp] theorem rowsOf_append : rowsOf (log ++ out) w id = rowsOf log w id ++ rowsOf out w id :=
  List.flatMap_append

@[simp] theorem acksSent_append : acksSent (log ++ out) = acksSent log ++ acksSent out :=
  List.filterMap_append ..

@[simp] theorem deliveredRows_nil : deliveredRows id ([] : List (GroupObs Value)) = [] := rfl

@[simp] theorem rowsOf_nil : rowsOf ([] : List (GroupObs Value)) w id = [] := rfl

@[simp] theorem acksSent_nil : acksSent ([] : List (GroupObs Value)) = [] := rfl

/-- A list of etl acks shows no rows. -/
theorem deliveredRows_map_ackSent (ws : List WriteId) :
    deliveredRows id (ws.map .ackSent : List (GroupObs Value)) = [] := by
  simp [deliveredRows]

theorem rowsOf_map_ackSent (ws : List WriteId) :
    rowsOf (ws.map .ackSent : List (GroupObs Value)) w id = [] := by
  simp [rowsOf]

/-- Coverage survives a longer log. -/
theorem Covered.append {rows : List (OriginRow Value)} (covered : Covered log id rows) :
    Covered (log ++ out) id rows := by
  obtain ⟨epoch, before, between, after, rfl, all⟩ := covered
  exact ⟨epoch, before, between, after ++ out, by simp, all⟩

end Projections

/-! ## From the channel to the ledger -/

/-- The source holds the handle of a unit of its own, all of whose rows are among
`rows`. -/
def Held (log : List (GroupObs Value)) (n : Nat) (id : SourceId) (handle : SourceAckHandle)
    (rows : List (OriginRow Value)) : Prop :=
  handle.1 < n ∧ handle.2 = id ∧ ∀ r ∈ rowsOf log handle.1 id, r ∈ rows

/-- The rows a running `generate_batch` has drained. -/
def SourceState.batchRows (σ : SourceState (OriginRow Value)) : List (OriginRow Value) :=
  (σ.batch.map Batch.rows).getD []

/-- What the log says about a source after `n` writes: its position counts the
delivered rows, a marker snapshots the position of its moment, and the rows of a
unit are, by the place of its handle, delivered within its armed position,
delivered or drained, carried in addition, or still in the channel. -/
structure SourceInv (log : List (GroupObs Value)) (n : Nat) (id : SourceId)
    (σ : SourceState (OriginRow Value)) : Prop where
  emitted : σ.ledger.emitted = (deliveredRows id log).length
  markers : ∀ epoch boundary, σ.ledger.markers[epoch]? = some boundary →
    ∃ before after, log = before ++ .marker id epoch :: after ∧
      (deliveredRows id before).length = boundary
  pending : ∀ position handle, (position, handle) ∈ σ.ledger.pending →
    Held log n id handle ((deliveredRows id log).take position)
  completed : ∀ b, σ.batch = some b → ∀ handle ∈ b.completed,
    Held log n id handle (deliveredRows id log ++ b.rows)
  carry : ∀ unit, σ.carry = some unit →
    Held log n id unit.ack (deliveredRows id log ++ σ.batchRows ++ unit.rows)
  rx : ∀ unit ∈ σ.rx, Held log n id unit.ack unit.rows

section Source

variable {log out : List (GroupObs Value)} {n n' : Nat} {id : SourceId}
  {σ σ' : SourceState (OriginRow Value)} {handle : SourceAckHandle}
  {rows rows' : List (OriginRow Value)}

theorem Held.mono (held : Held log n id handle rows) (subset : ∀ r ∈ rows, r ∈ rows') :
    Held log n id handle rows' :=
  ⟨held.1, held.2.1, fun r member => subset r (held.2.2 r member)⟩

/-- A longer log that adds no rows to known writes keeps a held unit held. -/
theorem Held.append (held : Held log n id handle rows) (le : n ≤ n')
    (known : ∀ w < n, rowsOf out w id = []) : Held (log ++ out) n' id handle rows := by
  refine ⟨held.1.trans_le le, held.2.1, fun r member => ?_⟩
  rw [rowsOf_append, known _ held.1, List.append_nil] at member
  exact held.2.2 r member

/-- Observations that concern no batch of the source and no rows of known writes
leave its invariant alone. -/
theorem SourceInv.append (inv : SourceInv log n id σ) (le : n ≤ n')
    (known : ∀ w < n, rowsOf out w id = []) (quiet : deliveredRows id out = []) :
    SourceInv (log ++ out) n' id σ where
  emitted := by simpa [quiet] using inv.emitted
  markers epoch boundary found := by
    obtain ⟨before, after, rfl, length⟩ := inv.markers epoch boundary found
    exact ⟨before, after ++ out, by simp, length⟩
  pending position handle member := by
    simpa [quiet] using (inv.pending position handle member).append le known
  completed b running handle member := by
    simpa [quiet] using (inv.completed b running handle member).append le known
  carry unit carried := by
    simpa [quiet] using (inv.carry unit carried).append le known
  rx unit member := (inv.rx unit member).append le known

/-- Taking from a unit either exhausts it and completes its ack, or splits it and
carries the rest. -/
theorem SourceState.takeFrom_cases {Row : Type} (batchSize : Nat) (b : Batch Row)
    (unit : WriteUnit Row) :
    takeFrom batchSize b unit =
        (⟨b.rows ++ unit.rows, b.completed ++ [unit.ack], b.drained⟩, none) ∨
      ∃ front rest, unit.rows = front ++ rest ∧ rest ≠ [] ∧
        takeFrom batchSize b unit =
          (⟨b.rows ++ front, b.completed, b.drained⟩, some ⟨rest, unit.ack⟩) := by
  unfold takeFrom
  dsimp only
  set k := min (batchSize - b.rows.length) unit.rows.length
  have whole : unit.rows.take k ++ unit.rows.drop k = unit.rows := List.take_append_drop ..
  split_ifs with exhausted
  · rw [exhausted, List.append_nil] at whole
    exact .inl (by rw [whole])
  · exact .inr ⟨_, _, whole.symm, exhausted, rfl⟩

/-- Taking from a held unit keeps every handle where its rows are. -/
theorem SourceInv.takeFrom (inv : SourceInv log n id σ) (batchSize : Nat)
    {b : Batch (OriginRow Value)} {unit : WriteUnit (OriginRow Value)}
    {rx : List (WriteUnit (OriginRow Value))}
    (completed : ∀ handle ∈ b.completed, Held log n id handle (deliveredRows id log ++ b.rows))
    (held : Held log n id unit.ack (deliveredRows id log ++ b.rows ++ unit.rows))
    (fewer : ∀ unit ∈ rx, unit ∈ σ.rx) :
    SourceInv log n id { σ with
      batch := some (SourceState.takeFrom batchSize b unit).1
      carry := (SourceState.takeFrom batchSize b unit).2
      rx := rx } := by
  refine ⟨inv.emitted, inv.markers, inv.pending, ?_, ?_, fun u member => inv.rx u (fewer u member)⟩
  · rintro b' running handle member
    obtain rfl := Option.some.inj running
    rcases SourceState.takeFrom_cases batchSize b unit with taken | ⟨front, rest, split, -, taken⟩
    · rw [taken] at member ⊢
      rcases List.mem_append.mp member with earlier | own
      · exact (completed handle earlier).mono (by simp; tauto)
      · obtain rfl : handle = unit.ack := by simpa using own
        exact held.mono (by simp)
    · rw [taken] at member ⊢
      exact (completed handle member).mono (by simp; tauto)
  · rintro u carried
    rcases SourceState.takeFrom_cases batchSize b unit with taken | ⟨front, rest, split, -, taken⟩
    · rw [taken] at carried
      cases carried
    · rw [taken] at carried
      obtain rfl := Option.some.inj carried
      refine held.mono fun r member => ?_
      simpa [SourceState.batchRows, taken, split] using member

/-- What `startBatch` does. -/
theorem SourceState.startBatch_cases {Row : Type} {batchSize : Nat} {σ σ' : SourceState Row}
    (started : σ.startBatch batchSize = some σ') :
    σ.batch = none ∧
      ((σ.carry = none ∧ σ' = { σ with batch := some ⟨[], [], false⟩ }) ∨
        ∃ unit, σ.carry = some unit ∧
          σ' = { σ with
            batch := some (takeFrom batchSize ⟨[], [], false⟩ unit).1
            carry := (takeFrom batchSize ⟨[], [], false⟩ unit).2 }) := by
  unfold startBatch at started
  split at started
  · cases started
  · rename_i idle bare
    exact ⟨idle, .inl ⟨bare, (Option.some.inj started).symm⟩⟩
  · rename_i idle carried
    exact ⟨idle, .inr ⟨_, carried, (Option.some.inj started).symm⟩⟩

/-- What `recvUnit` does. -/
theorem SourceState.recvUnit_cases {Row : Type} {batchSize : Nat} {σ σ' : SourceState Row}
    (received : σ.recvUnit batchSize = some σ') :
    ∃ b unit rx, σ.batch = some b ∧ σ.carry = none ∧ σ.rx = unit :: rx ∧
      σ' = { σ with
        batch := some (takeFrom batchSize b unit).1
        carry := (takeFrom batchSize b unit).2
        rx := rx } := by
  unfold recvUnit at received
  split at received
  · rename_i b unit rx running bare queued
    split at received
    · exact ⟨b, unit, rx, running, bare, queued, (Option.some.inj received).symm⟩
    · cases received
  · cases received

/-- What `endDrain` does. -/
theorem SourceState.endDrain_cases {Row : Type} {batchSize : Nat} {σ σ' : SourceState Row}
    (ended : σ.endDrain batchSize = some σ') :
    ∃ b, σ.batch = some b ∧ σ' = { σ with batch := some { b with drained := true } } := by
  unfold endDrain at ended
  split at ended
  · cases ended
  · rename_i b running
    split at ended
    · exact ⟨b, running, (Option.some.inj ended).symm⟩
    · cases ended

/-- What `finishBatch` does: an empty batch arms the completed units, a built one
also advances the position, a failed one drops what it drained and the carry. -/
theorem SourceState.finishBatch_cases {Row : Type} {built : Bool} {σ σ' : SourceState Row}
    {result : Option (List Row)} (finished : σ.finishBatch built = some (σ', result)) :
    ∃ b, σ.batch = some b ∧
      ((b.rows = [] ∧ result = some [] ∧
          σ' = { σ with batch := none, ledger := σ.ledger.unitsCompleted b.completed }) ∨
        (b.rows ≠ [] ∧ result = some b.rows ∧
          σ' = { σ with
            batch := none
            ledger := (σ.ledger.rowsDelivered b.rows.length).unitsCompleted b.completed }) ∨
        (b.rows ≠ [] ∧ result = none ∧ σ' = { σ with batch := none, carry := none })) := by
  unfold finishBatch at finished
  split at finished
  · cases finished
  · rename_i b running
    refine ⟨b, running, ?_⟩
    split_ifs at finished with drained empty ok
    · cases finished
      exact .inl ⟨empty, rfl, rfl⟩
    · cases finished
      exact .inr (.inl ⟨empty, rfl, rfl⟩)
    · cases finished
      exact .inr (.inr ⟨empty, rfl, rfl⟩)

theorem SourceState.close_cases {Row : Type} {σ σ' : SourceState Row}
    (closed : σ.close = some σ') : σ' = { σ with closed := true } := by
  unfold close at closed
  split at closed
  · cases closed
  · exact (Option.some.inj closed).symm

theorem SourceInv.startBatch (inv : SourceInv log n id σ) {batchSize : Nat}
    (started : σ.startBatch batchSize = some σ') : SourceInv log n id σ' := by
  obtain ⟨idle, ⟨bare, rfl⟩ | ⟨unit, carried, rfl⟩⟩ := SourceState.startBatch_cases started
  · refine ⟨inv.emitted, inv.markers, inv.pending, ?_, ?_, inv.rx⟩
    · rintro b running handle member
      obtain rfl := Option.some.inj running
      cases member
    · rintro unit carried
      cases bare.symm.trans carried
  · have held := inv.carry unit carried
    simp only [SourceState.batchRows, idle, Option.map_none, Option.getD_none] at held
    exact inv.takeFrom batchSize (fun _ member => by cases member) held fun _ member => member

theorem SourceInv.recvUnit (inv : SourceInv log n id σ) {batchSize : Nat}
    (received : σ.recvUnit batchSize = some σ') : SourceInv log n id σ' := by
  obtain ⟨b, unit, rx, running, -, queued, rfl⟩ := SourceState.recvUnit_cases received
  refine inv.takeFrom batchSize (inv.completed b running) ?_ fun u member => ?_
  · exact (inv.rx unit (by simp [queued])).mono (by simp; tauto)
  · simp [queued, member]

theorem SourceInv.endDrain (inv : SourceInv log n id σ) {batchSize : Nat}
    (ended : σ.endDrain batchSize = some σ') : SourceInv log n id σ' := by
  obtain ⟨b, running, rfl⟩ := SourceState.endDrain_cases ended
  refine ⟨inv.emitted, inv.markers, inv.pending, ?_, ?_, inv.rx⟩
  · rintro b' running' handle member
    obtain rfl := Option.some.inj running'
    exact inv.completed b running handle member
  · rintro unit carried
    simpa [SourceState.batchRows, running] using inv.carry unit carried

theorem SourceInv.close (inv : SourceInv log n id σ) (closed : σ.close = some σ') :
    SourceInv log n id σ' := by
  obtain rfl := SourceState.close_cases closed
  exact ⟨inv.emitted, inv.markers, inv.pending, inv.completed, inv.carry, inv.rx⟩

theorem SourceInv.send (inv : SourceInv log n id σ) {unit : WriteUnit (OriginRow Value)}
    (held : Held log n id unit.ack unit.rows) : SourceInv log n id (σ.send unit) := by
  unfold SourceState.send
  split_ifs with closed
  · exact inv
  · refine ⟨inv.emitted, inv.markers, inv.pending, inv.completed, inv.carry, fun u member => ?_⟩
    rcases List.mem_append.mp member with queued | sent
    · exact inv.rx u queued
    · obtain rfl : u = unit := by simpa using sent
      exact held

/-- Whatever a call returns, afterwards every armed unit is delivered within its
armed position; a failed build arms nothing and forgets what it drained. -/
theorem SourceInv.finishBatch (inv : SourceInv log n id σ) {built : Bool}
    {result : Option (List (OriginRow Value))}
    (finished : σ.finishBatch built = some (σ', result)) :
    SourceInv (log ++ [result.elim (.batchErr id) (.batchOk id)]) n id σ' := by
  obtain ⟨b, running, ⟨empty, rfl, rfl⟩ | ⟨-, rfl, rfl⟩ | ⟨-, rfl, rfl⟩⟩ :=
    SourceState.finishBatch_cases finished
  · have quiet : deliveredRows id [GroupObs.batchOk id ([] : List (OriginRow Value))] = [] := by
      simp [deliveredRows]
    refine SourceInv.append (n := n) ⟨by simpa using inv.emitted, by simpa using inv.markers,
      ?_, by simp, ?_, inv.rx⟩ le_rfl (fun _ _ => rfl) quiet
    · intro position handle member
      rw [AckLedger.unitsCompleted_pending] at member
      rcases List.mem_append.mp member with earlier | armed
      · exact inv.pending position handle earlier
      · obtain ⟨ack, completed, same⟩ := List.mem_map.mp armed
        obtain ⟨rfl, rfl⟩ := Prod.mk.inj same
        have held := inv.completed b running ack completed
        rw [inv.emitted, List.take_length]
        simpa [empty] using held
    · intro unit carried
      simpa [SourceState.batchRows, running, empty] using inv.carry unit carried
  · have delivered : deliveredRows id (log ++ [GroupObs.batchOk id b.rows]) =
        deliveredRows id log ++ b.rows := by
      simp [deliveredRows]
    have known (w : WriteId) : rowsOf [GroupObs.batchOk id b.rows] w id = [] := rfl
    constructor
    · simp [delivered, AckLedger.rowsDelivered, inv.emitted]
    · intro epoch boundary found
      simp only [AckLedger.unitsCompleted_markers, AckLedger.rowsDelivered] at found
      obtain ⟨before, after, rfl, length⟩ := inv.markers epoch boundary found
      exact ⟨before, after ++ [.batchOk id b.rows], by simp, length⟩
    · intro position handle member
      rw [Option.elim_some, delivered]
      simp only [AckLedger.unitsCompleted_pending, AckLedger.rowsDelivered] at member
      rcases List.mem_append.mp member with earlier | armed
      · refine ((inv.pending position handle earlier).append le_rfl fun w _ => known w).mono ?_
        intro r within
        rw [List.take_append]
        exact List.mem_append_left _ within
      · obtain ⟨ack, completed, same⟩ := List.mem_map.mp armed
        obtain ⟨rfl, rfl⟩ := Prod.mk.inj same
        refine ((inv.completed b running ack completed).append le_rfl fun w _ => known w).mono ?_
        intro r within
        rw [inv.emitted, ← List.length_append, List.take_length]
        exact within
    · rintro b' ⟨⟩
    · intro unit carried
      rw [Option.elim_some, delivered]
      have held := (inv.carry unit carried).append le_rfl fun w _ => known w
      simpa [SourceState.batchRows, running] using held
    · exact fun unit member => (inv.rx unit member).append le_rfl fun w _ => known w
  · refine SourceInv.append (n := n) ⟨inv.emitted, inv.markers, inv.pending, by simp, by simp,
      inv.rx⟩ le_rfl (fun _ _ => rfl) (by simp [deliveredRows])

theorem SourceInv.marker (inv : SourceInv log n id σ) (epoch : Nat) :
    SourceInv (log ++ [.marker id epoch]) n id
      { σ with ledger := σ.ledger.marker epoch } := by
  have framed : SourceInv (log ++ [.marker id epoch]) n id σ :=
    inv.append le_rfl (fun _ _ => rfl) rfl
  refine ⟨framed.emitted, fun e boundary found => ?_, framed.pending, framed.completed,
    framed.carry, framed.rx⟩
  simp only [AckLedger.marker, Std.ExtTreeMap.getElem?_insert] at found
  split at found
  · rename_i same
    obtain rfl : epoch = e := by simpa using same
    obtain rfl := Option.some.inj found
    exact ⟨log, [], rfl, inv.emitted.symm⟩
  · exact framed.markers e boundary found

/-- A finalizer keeps the invariant of its source, and every unit it releases is
covered. -/
theorem SourceInv.finalizer (inv : SourceInv log n id σ) (epoch : Nat) :
    SourceInv (log ++ [.finalizer id epoch]) n id
        { σ with ledger := (σ.ledger.finalize epoch).2 } ∧
      ∀ handle ∈ (σ.ledger.finalize epoch).1, handle.1 < n ∧ handle.2 = id ∧
        Covered (log ++ [.finalizer id epoch]) id (rowsOf log handle.1 id) := by
  have framed : SourceInv (log ++ [.finalizer id epoch]) n id σ :=
    inv.append le_rfl (fun _ _ => rfl) rfl
  rcases σ.ledger.finalize_cases epoch with ⟨-, unknown⟩ | ⟨boundary, found, emitted, kept,
    released, markers⟩
  · rw [unknown]
    exact ⟨framed, by simp⟩
  · refine ⟨⟨emitted.trans framed.emitted, fun e b stays => framed.markers e b
      ((markers e b).mp stays).2, fun position handle member => ?_, framed.completed,
      framed.carry, framed.rx⟩, fun handle member => ?_⟩
    · exact framed.pending position handle
        ((List.dropWhile_suffix _).subset (by rwa [kept] at member))
    · rw [released] at member
      obtain ⟨⟨position, handle⟩, taken, rfl⟩ := List.mem_map.mp member
      have within : position ≤ boundary := by
        simpa using List.mem_takeWhile_imp taken
      obtain ⟨bound, own, rows⟩ := inv.pending position handle
        ((List.takeWhile_prefix _).subset taken)
      obtain ⟨before, after, split, length⟩ := inv.markers epoch boundary found
      refine ⟨bound, own, epoch, before, after, [], by simp [split], fun r member => ?_⟩
      have early := rows r member
      rw [split, deliveredRows_append, List.take_append_of_le_length (by omega)] at early
      exact List.mem_of_mem_take early

end Source

/-! ## The shared acks -/

/-- What the log says about the shared acks: an unfired ack still holds the etl
ack, a fired one has sent it, and a contributor that released its slice is
covered for its rows of the write. -/
structure AckInv (log : List (GroupObs Value)) (acks : WriteId → Option (SharedAck WriteId)) :
    Prop where
  etlAck : ∀ w shared, acks w = some shared →
    shared.etlAck = if shared.pending = ∅ then none else some w
  sent : ∀ w, w ∈ acksSent log ↔ ∃ shared, acks w = some shared ∧ shared.pending = ∅
  once : (acksSent log).Nodup
  covered : ∀ w shared, acks w = some shared → ∀ id, rowsOf log w id ≠ [] →
    id ∉ shared.pending → Covered log id (rowsOf log w id)

section Acks

variable {log out : List (GroupObs Value)} {acks : WriteId → Option (SharedAck WriteId)}

/-- Observations without acks and without rows of started writes leave the
shared acks alone. -/
theorem AckInv.append (inv : AckInv log acks) (silent : acksSent out = [])
    (known : ∀ w, acks w ≠ none → ∀ id, rowsOf out w id = []) : AckInv (log ++ out) acks where
  etlAck := inv.etlAck
  sent w := by simpa [silent] using inv.sent w
  once := by simpa [silent] using inv.once
  covered w shared held id contributes released := by
    rw [rowsOf_append, known w (by simp [held]) id, List.append_nil] at contributes ⊢
    exact (inv.covered w shared held id contributes released).append

/-- A shared ack fires when it holds no subscriber any more. -/
theorem SharedAck.fireIfDone_cases (shared : SharedAck WriteId) :
    (shared.pending = ∅ ∧ shared.fireIfDone = (⟨none, ∅⟩, shared.etlAck)) ∨
      (shared.pending ≠ ∅ ∧ shared.fireIfDone = (shared, none)) := by
  unfold SharedAck.fireIfDone
  split_ifs with done
  · exact .inl ⟨done, by rw [done]⟩
  · exact .inr ⟨done, rfl⟩

/-- Installing a shared ack that fires at once when it holds no subscriber keeps
the invariant, provided every contributor it no longer holds is covered. -/
theorem AckInv.install (inv : AckInv log acks) {w : WriteId} {shared : SharedAck WriteId}
    (unsent : shared.etlAck = if w ∈ acksSent log then none else some w)
    (fired : w ∈ acksSent log → shared.pending = ∅)
    (covered : ∀ id, rowsOf log w id ≠ [] → id ∉ shared.pending →
      Covered log id (rowsOf log w id)) :
    AckInv (log ++ (shared.fireIfDone.2.map GroupObs.ackSent).toList)
      (Function.update acks w (some shared.fireIfDone.1)) := by
  rcases shared.fireIfDone_cases with ⟨done, fires⟩ | ⟨waiting, waits⟩
  · rw [fires, unsent]
    have rows (w' : WriteId) (id : SourceId) : rowsOf (log ++ ((if w ∈ acksSent log then none
        else some w).map GroupObs.ackSent).toList) w' id = rowsOf log w' id := by
      split_ifs <;> simp [rowsOf]
    have sentNow : acksSent (log ++ ((if w ∈ acksSent log then none
        else some w).map GroupObs.ackSent : Option (GroupObs Value)).toList) =
          acksSent log ++ if w ∈ acksSent log then [] else [w] := by
      split_ifs <;> simp [acksSent]
    refine ⟨fun w' a held => ?_, fun w' => ?_, ?_, fun w' a held id contributes released => ?_⟩
    · by_cases same : w' = w
      · subst same
        rw [Function.update_self] at held
        obtain rfl := Option.some.inj held
        rfl
      · rw [Function.update_of_ne same] at held
        exact inv.etlAck w' a held
    · rw [sentNow]
      by_cases same : w' = w
      · subst same
        split_ifs with before <;> simp [before]
      · rw [Function.update_of_ne same, ← inv.sent w']
        split_ifs <;> simp [same]
    · rw [sentNow]
      split_ifs with before
      · simpa using inv.once
      · simpa [List.nodup_append, before] using ⟨inv.once, fun a member => by
          rintro rfl
          exact before member⟩
    · rw [rows] at contributes ⊢
      by_cases same : w' = w
      · subst same
        exact (covered id contributes (by simp [done])).append
      · rw [Function.update_of_ne same] at held
        exact (inv.covered w' a held id contributes released).append
  · have fresh : w ∉ acksSent log := fun sent => waiting (fired sent)
    rw [waits]
    simp only [Option.map_none, Option.toList_none, List.append_nil]
    refine ⟨fun w' a held => ?_, fun w' => ?_, inv.once, fun w' a held id contributes released => ?_⟩
    · by_cases same : w' = w
      · subst same
        rw [Function.update_self] at held
        obtain rfl := Option.some.inj held
        rw [unsent, if_neg fresh, if_neg waiting]
      · rw [Function.update_of_ne same] at held
        exact inv.etlAck w' a held
    · by_cases same : w' = w
      · subst same
        simp [fresh, waiting]
      · rw [Function.update_of_ne same]
        exact inv.sent w'
    · by_cases same : w' = w
      · subst same
        rw [Function.update_self] at held
        obtain rfl := Option.some.inj held
        exact covered id contributes released
      · rw [Function.update_of_ne same] at held
        exact inv.covered w' a held id contributes released

/-- Releasing the slice of a covered contributor keeps the invariant. -/
theorem AckInv.releaseSlice {sys : GroupState Value} (inv : AckInv log sys.acks)
    {handle : SourceAckHandle}
    (covered : Covered log handle.2 (rowsOf log handle.1 handle.2)) :
    AckInv (log ++ (sys.releaseSlice handle).2) (sys.releaseSlice handle).1.acks := by
  unfold GroupState.releaseSlice
  cases held : sys.acks handle.1 with
  | none => simpa using inv
  | some shared =>
      have fired : handle.1 ∈ acksSent log ↔ shared.pending = ∅ := by
        simp [inv.sent, held]
      refine inv.install ?_ (fun before => ?_) fun id contributes released => ?_
      · simp only [inv.etlAck _ _ held, fired]
      · simp [fired.mp before]
      · by_cases own : id = handle.2
        · subst own
          exact covered
        · exact inv.covered _ _ held id contributes fun member =>
            released (Finset.mem_erase.mpr ⟨own, member⟩)

/-- A release moves nothing but the shared acks, and shows nothing but etl acks. -/
theorem GroupState.releaseSlice_frame (sys : GroupState Value) (handle : SourceAckHandle) :
    (sys.releaseSlice handle).1 = { sys with acks := (sys.releaseSlice handle).1.acks } ∧
      ∃ ws : List WriteId, (sys.releaseSlice handle).2 = ws.map .ackSent := by
  unfold GroupState.releaseSlice
  split
  · exact ⟨rfl, [], rfl⟩
  · rename_i shared _
    exact ⟨rfl, (shared.release handle.2).2.toList, Option.toList_map ..⟩

theorem GroupState.releaseSlices_frame (sys : GroupState Value)
    (handles : List SourceAckHandle) :
    (sys.releaseSlices handles).1 = { sys with acks := (sys.releaseSlices handles).1.acks } ∧
      ∃ ws : List WriteId, (sys.releaseSlices handles).2 = ws.map .ackSent := by
  induction handles generalizing sys with
  | nil => exact ⟨rfl, [], rfl⟩
  | cons handle handles ih =>
      obtain ⟨frame, ws, acks⟩ := sys.releaseSlice_frame handle
      obtain ⟨frame', ws', acks'⟩ := ih (sys.releaseSlice handle).1
      refine ⟨?_, ws ++ ws', ?_⟩
      · rw [GroupState.releaseSlices, frame', frame]
      · rw [GroupState.releaseSlices, acks, acks', List.map_append]

/-- Releasing the slices of covered contributors keeps the invariant. -/
theorem AckInv.releaseSlices {sys : GroupState Value} {handles : List SourceAckHandle}
    (inv : AckInv log sys.acks)
    (covered : ∀ handle ∈ handles, Covered log handle.2 (rowsOf log handle.1 handle.2)) :
    AckInv (log ++ (sys.releaseSlices handles).2) (sys.releaseSlices handles).1.acks := by
  induction handles generalizing sys log with
  | nil => simpa [GroupState.releaseSlices] using inv
  | cons handle handles ih =>
      obtain ⟨-, ws, acks⟩ := sys.releaseSlice_frame handle
      have first := inv.releaseSlice (covered handle (List.mem_cons_self ..))
      rw [GroupState.releaseSlices, ← List.append_assoc]
      refine ih first fun h member => ?_
      rw [rowsOf_append, acks, rowsOf_map_ackSent, List.append_nil]
      exact (covered h (List.mem_cons_of_mem _ member)).append

theorem SharedAck.fireIfDone_pending (shared : SharedAck WriteId) :
    shared.fireIfDone.1.pending = shared.pending := by
  rcases shared.fireIfDone_cases with ⟨done, fires⟩ | ⟨-, waits⟩
  · rw [fires, done]
  · rw [waits]

/-- Releases erase exactly the released slices. -/
theorem GroupState.releaseSlices_pending (sys : GroupState Value)
    (handles : List SourceAckHandle) (w : WriteId) :
    ((sys.releaseSlices handles).1.acks w).map SharedAck.pending =
      (sys.acks w).map fun shared => shared.pending.filter fun id => (w, id) ∉ handles := by
  induction handles generalizing sys with
  | nil =>
      show (sys.acks w).map _ = _
      simp
  | cons handle handles ih =>
      refine (ih (sys.releaseSlice handle).1).trans ?_
      unfold GroupState.releaseSlice
      cases known : sys.acks handle.1 with
      | none =>
          by_cases same : w = handle.1
          · simp [same, known]
          · simp [Prod.ext_iff, same]
      | some shared =>
          by_cases same : w = handle.1
          · subst same
            simp only [known, Function.update_self, Option.map_some, Option.some.injEq]
            rw [SharedAck.release, SharedAck.fireIfDone_pending]
            ext id
            simp only [Finset.mem_filter, Finset.mem_erase, List.mem_cons, Prod.ext_iff, true_and,
              not_or]
            tauto
          · simp [Prod.ext_iff, same]

end Acks

end StreamlingPlugins.PostgresCdc
