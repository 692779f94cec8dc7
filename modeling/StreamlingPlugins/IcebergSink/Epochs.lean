import StreamlingPlugins.IcebergSink.Sink

/-!
# Epoch accounting of the Iceberg sink

What a call does to the rows of the open epoch is its `Effect`: a batch adds rows
of its own, a marker commits all of them or drops them, the other calls leave
them.  The ledger of a run follows from the effects alone: a row is committed at
most once, and by the first marker after it when that marker succeeds.
-/

namespace StreamlingPlugins.IcebergSink

/-! ## Logs -/

def Call.epoch (call : Call) : Option Nat :=
  match call.kind with
  | .marker epoch => some epoch
  | _ => none

/-- The summary property that tags a snapshot with its epoch. -/
def Snapshot.epoch (snapshot : Snapshot) : Option String :=
  snapshot.properties.lookup snapshotPropEpoch

/-- The snapshots that the calls of a run committed. -/
def snapshots (log : List Call) : List Snapshot :=
  log.flatMap Call.committed

/-- The row belongs to a batch that was accepted with `Ok`. -/
def Accepted (log : List Call) (row : Row) : Prop :=
  ∃ call numRows, log[row.call]? = some call ∧ call.kind = .processBatch numRows ∧
    call.result = .ok () ∧ row.index < numRows

/-- No marker is called after call `i` and before call `j`. -/
def Unmarked (log : List Call) (i j : Nat) : Prop :=
  ∀ k call, i < k → k < j → log[k]? = some call → call.epoch = none

/-- Call `m` is the first marker after call `i`. -/
structure FirstMarker (log : List Call) (i m : Nat) (marker : Call) (epoch : Nat) : Prop where
  after : i < m
  called : log[m]? = some marker
  marks : marker.epoch = some epoch
  unmarked : Unmarked log i m

theorem getElem?_snoc {log : List Call} {call found : Call} {k : Nat}
    (here : (log ++ [call])[k]? = some found) :
    log[k]? = some found ∨ k = log.length ∧ found = call := by
  rcases Nat.lt_trichotomy k log.length with old | last | beyond
  · rw [List.getElem?_append_left old] at here
    exact .inl here
  · subst last
    rw [List.getElem?_concat_length] at here
    cases here
    exact .inr ⟨rfl, rfl⟩
  · rw [List.getElem?_eq_none (by simpa using beyond)] at here
    cases here

theorem getElem?_snoc_of {log : List Call} {call found : Call} {k : Nat}
    (here : log[k]? = some found) : (log ++ [call])[k]? = some found := by
  obtain ⟨bound, _⟩ := List.getElem?_eq_some_iff.mp here
  rw [List.getElem?_append_left bound]
  exact here

theorem Unmarked.of_snoc {log : List Call} {call : Call} {i j : Nat}
    (unmarked : Unmarked (log ++ [call]) i j) : Unmarked log i j :=
  fun k found low high here => unmarked k found low high (getElem?_snoc_of here)

/-- Up to the last call. -/
theorem Unmarked.snoc_last {log : List Call} {call : Call} {i : Nat}
    (unmarked : Unmarked (log ++ [call]) i (log.length + 1)) :
    Unmarked log i log.length ∧ (i < log.length → call.epoch = none) := by
  refine ⟨fun k found low high here => ?_, fun low => ?_⟩
  · exact unmarked k found low (by omega) (getElem?_snoc_of here)
  · exact unmarked log.length call low (by omega) List.getElem?_concat_length

theorem Unmarked.snoc {log : List Call} {call : Call} {i j : Nat} (bound : j ≤ log.length)
    (unmarked : Unmarked log i j) : Unmarked (log ++ [call]) i j := by
  intro k found low high here
  rcases getElem?_snoc here with old | ⟨last, _⟩
  · exact unmarked k found low high old
  · omega

theorem Accepted.of_snoc {log : List Call} {call : Call} {row : Row}
    (accepted : Accepted (log ++ [call]) row) :
    (row.call < log.length ∧ Accepted log row) ∨
      row.call = log.length ∧ ∃ numRows, call.kind = .processBatch numRows ∧
        call.result = .ok () ∧ row.index < numRows := by
  obtain ⟨found, numRows, here, isBatch, fine, bound⟩ := accepted
  rcases getElem?_snoc here with old | ⟨last, rfl⟩
  · exact .inl ⟨(List.getElem?_eq_some_iff.mp old).1, found, numRows, old, isBatch, fine, bound⟩
  · exact .inr ⟨last, numRows, isBatch, fine, bound⟩

/-- From a marker on, some marker is the first. -/
theorem exists_firstMarker {log : List Call} {i m : Nat} {last : Call} (after : i < m)
    (called : log[m]? = some last) (marks : last.epoch.isSome) :
    ∃ f marker epoch, FirstMarker log i f marker epoch ∧ f ≤ m := by
  induction m using Nat.strong_induction_on generalizing last with
  | _ m ih =>
      by_cases first : Unmarked log i m
      · obtain ⟨epoch, marks⟩ := Option.isSome_iff_exists.mp marks
        exact ⟨m, last, epoch, ⟨after, called, marks, first⟩, le_refl m⟩
      · unfold Unmarked at first
        push Not at first
        obtain ⟨k, call, low, high, here, marked⟩ := first
        obtain ⟨f, marker, epoch, found, bound⟩ :=
          ih k high low here (Option.isSome_iff_ne_none.mpr marked)
        exact ⟨f, marker, epoch, found, by omega⟩

/-- Where a row is at most once in all, only one snapshot has it. -/
theorem filter_eq_singleton {all : List Snapshot} {snapshot : Snapshot} {row : Row}
    (mem : snapshot ∈ all) (has : row ∈ snapshot.rows)
    (once : (all.flatMap Snapshot.rows).count row ≤ 1) :
    all.filter (row ∈ ·.rows) = [snapshot] := by
  induction all with
  | nil => cases mem
  | cons head all ih =>
      rw [List.flatMap_cons, List.count_append] at once
      rcases List.mem_cons.mp mem with rfl | later
      · have here := List.count_pos_iff.mpr has
        have gone : row ∉ all.flatMap Snapshot.rows := List.count_eq_zero.mp (by omega)
        have none : all.filter (row ∈ ·.rows) = [] := by
          refine List.filter_eq_nil_iff.mpr fun other found holds => gone ?_
          exact List.mem_flatMap.mpr ⟨other, found, of_decide_eq_true holds⟩
        rw [List.filter_cons_of_pos (by simpa using has), none]
      · have there := List.count_pos_iff.mpr (List.mem_flatMap.mpr ⟨snapshot, later, has⟩)
        have notHere : row ∉ head.rows := List.count_eq_zero.mp (by omega)
        rw [List.filter_cons_of_neg (by simpa using notHere)]
        exact ih later (by omega)

/-- What a run adds to the table. -/
structure Accounted (before after : Sink) (log : List Call) : Prop where
  catalog : after.catalog = before.catalog ++ snapshots log
  once : ∀ row, Accepted log row → ((snapshots log).flatMap Snapshot.rows).count row ≤ 1
  settled : ∀ m last, log[m]? = some last → last.epoch.isSome →
    (∀ k marker, k ≤ m → log[k]? = some marker → marker.epoch.isSome → marker.result = .ok ()) →
    ∀ row, Accepted log row → row.call < m →
      ∃ f marker epoch snapshot, FirstMarker log row.call f marker epoch ∧ f ≤ m ∧
        (snapshots log).filter (row ∈ ·.rows) = [snapshot] ∧ snapshot.rows.count row = 1 ∧
        snapshot.epoch = some (toString epoch)
  idle : ∀ m marker, log[m]? = some marker → marker.epoch.isSome →
    (∀ k call, k < m → Unmarked log k m → log[k]? = some call → call.wrote = false) →
    marker.committed = []
  terminated : ∀ call ∈ log, call.kind = .terminate → call.committed = []

/-! ## Effects of calls -/

namespace Sink

/-- The rows of the open epoch. -/
def openRows (s : Sink) : List Row :=
  s.placed.map Prod.snd

/-- No writer is open. -/
def Idle (s : Sink) : Prop :=
  ∀ state, s.state = some state → state.writer = none

/-- What a call does to the open epoch and to the table. -/
structure Effect (s after : Sink) (call : Call) : Prop where
  catalog : after.catalog = s.catalog ++ call.committed
  /-- Rows go to the table or stay, and those that come are of this call. -/
  moved : ∀ row, (call.committed.flatMap Snapshot.rows).count row + after.openRows.count row ≤
    s.openRows.count row + if row.call = s.calls then 1 else 0
  unmarked : call.epoch = none →
    call.committed = [] ∧ ∀ row, s.openRows.count row ≤ after.openRows.count row
  accepted : ∀ numRows index, call.kind = .processBatch numRows → call.result = .ok () →
    index < numRows → 1 ≤ after.openRows.count ⟨s.calls, index⟩
  marked : ∀ epoch row, call.epoch = some epoch → call.result = .ok () →
    0 < s.openRows.count row → ∃ snapshot, call.committed = [snapshot] ∧
      snapshot.rows.count row = s.openRows.count row ∧ snapshot.epoch = some (toString epoch)
  idle : call.epoch.isSome → s.Idle → call.committed = []
  closed : call.epoch.isSome → after.Idle
  untouched : call.wrote = false → s.Idle → after.Idle

variable {s after : Sink} {call : Call}

/-- A call that leaves the open epoch and the table. -/
theorem Effect.of_same {kind : CallKind} {result : Except PluginError Unit}
    (noMarker : (Call.mk kind result false []).epoch = none)
    (noRows : ∀ numRows, kind = .processBatch numRows → result = .ok () → numRows = 0)
    (catalog : after.catalog = s.catalog) (placed : after.placed = s.placed)
    (idle : s.Idle → after.Idle) : s.Effect after ⟨kind, result, false, []⟩ where
  catalog := by simpa using catalog
  moved := by
    intro row
    simp only [openRows, placed, List.flatMap_nil, List.count_nil]
    omega
  unmarked := by
    intro _
    refine ⟨rfl, fun row => ?_⟩
    simp only [openRows, placed, le_refl]
  accepted := by
    intro numRows index isBatch ok bound
    have none := noRows numRows isBatch ok
    omega
  marked := by
    intro epoch row isMarker
    rw [noMarker] at isMarker
    cases isMarker
  idle := fun _ _ => rfl
  closed := by
    intro isMarker
    rw [noMarker] at isMarker
    cases isMarker
  untouched := fun _ => idle

/-! ### Writing -/

theorem mem_rowsOf {n numRows : Nat} {row : Row} :
    row ∈ rowsOf n numRows ↔ row.call = n ∧ row.index < numRows := by
  unfold rowsOf
  rw [List.mem_map]
  constructor
  · intro found
    obtain ⟨index, inside, rfl⟩ := found
    exact ⟨rfl, List.mem_range.mp inside⟩
  · intro found
    obtain ⟨same, bound⟩ := found
    exact ⟨row.index, List.mem_range.mpr bound, by rw [← same]⟩

theorem nodup_rowsOf (n numRows : Nat) : (rowsOf n numRows).Nodup := by
  unfold rowsOf
  refine List.Nodup.map (fun a b same => ?_) List.nodup_range
  exact congrArg Row.index same

/-- A writer that held `rows` and was given `batch` holds `rows'`: it took some of the
batch, no row more often than it is there, and all of it if the write went well. -/
def Wrote (batch rows rows' : List Row) (result : Except String Unit) : Prop :=
  ∃ taken, rows' = rows ++ taken ∧ taken.Subperm batch ∧ (result = .ok () → taken.Perm batch)

theorem Wrote.of_answer (batch rows : List Row) (answer : WriteAnswer) :
    Wrote batch rows (rows ++ answer.kept batch) answer.result := by
  cases answer with
  | ok => exact ⟨batch, rfl, List.Subperm.refl batch, fun _ => .refl batch⟩
  | failed error kept =>
      refine ⟨batch.take kept, rfl, (List.take_sublist kept batch).subperm, fun ok => ?_⟩
      cases ok

theorem Wrote.of_error (batch rows : List Row) (error : String) :
    Wrote batch rows rows (.error error) := by
  refine ⟨[], (List.append_nil rows).symm, List.nil_subperm, fun ok => ?_⟩
  cases ok

theorem Wrote.of_perm {batch batch' rows rows' : List Row} {result : Except String Unit}
    (wrote : Wrote batch rows rows' result) (same : batch.Perm batch') :
    Wrote batch' rows rows' result := by
  obtain ⟨taken, split, some, whole⟩ := wrote
  exact ⟨taken, split, some.trans same.subperm, fun ok => (whole ok).trans same⟩

theorem map_snd_pair {key : PartitionKey} (rows : List Row) :
    (rows.map fun row => (key, row)).map Prod.snd = rows := by
  rw [List.map_map]
  exact List.map_id rows

/-- The parts of a batch, written one after the other. -/
theorem Wrote.of_writeParts (parts : List (PartitionKey × List Row))
    (rows : List (PartitionKey × Row)) (answers : Nat → WriteAnswer) :
    Wrote (parts.flatMap Prod.snd) (rows.map Prod.snd)
      ((EpochWriter.writeParts rows parts answers).1.map Prod.snd)
      (EpochWriter.writeParts rows parts answers).2 := by
  induction parts generalizing rows answers with
  | nil => exact ⟨[], (List.append_nil _).symm, List.nil_subperm, fun _ => .nil⟩
  | cons head parts ih =>
      obtain ⟨key, part⟩ := head
      simp only [EpochWriter.writeParts, EpochWriter.writePart, List.flatMap_cons]
      cases first : answers 0 with
      | ok =>
          obtain ⟨taken, split, some, whole⟩ :=
            ih (rows ++ part.map fun row => (key, row)) fun n => answers (n + 1)
          rw [List.map_append, map_snd_pair, List.append_assoc] at split
          refine ⟨part ++ taken, split, ?_, fun ok => ?_⟩
          · exact (List.subperm_append_left part).mpr some
          · exact (whole ok).append_left part
      | failed error kept =>
          refine ⟨part.take kept, ?_, ?_, fun ok => ?_⟩
          · simp only [WriteAnswer.result, WriteAnswer.kept, List.map_append, map_snd_pair]
          · exact ((List.take_sublist kept part).trans (List.sublist_append_left part _)).subperm
          · cases ok

end Sink

/-- Writing a batch leaves an open writer that took rows of the batch. -/
theorem SinkState.wrote (state : SinkState) {batch : List Row} {answers : WriteAnswers}
    (keep : answers.keep batch = true) :
    Sink.Wrote batch (state.placed.map Prod.snd)
      ((state.write batch answers).1.placed.map Prod.snd) (state.write batch answers).2 := by
  have opened : state.placed = state.openWriter.placed := by
    unfold SinkState.placed SinkState.openWriter
    cases state.writer with
    | some writer => simp
    | none => cases state.partitioning <;> rfl
  rw [opened]
  unfold SinkState.write SinkState.placed
  cases state.openWriter with
  | unpartitioned rows =>
      simpa [EpochWriter.placed, EpochWriter.writeRows, Function.comp_def] using
        Sink.Wrote.of_answer batch rows (answers.write 0)
  | partitioned rows =>
      cases state.partitioning with
      | none =>
          simpa [EpochWriter.placed, Function.comp_def] using
            Sink.Wrote.of_error batch (rows.map Prod.snd) _
      | constant key =>
          simpa [EpochWriter.placed, EpochWriter.writePart, Function.comp_def] using
            Sink.Wrote.of_answer batch (rows.map Prod.snd) (answers.write 0)
      | split =>
          cases answered : answers.split with
          | error e =>
              simpa [EpochWriter.placed, Function.comp_def] using
                Sink.Wrote.of_error batch (rows.map Prod.snd) _
          | ok parts =>
              have whole : (parts.flatMap Prod.snd).Perm batch := by
                simpa [WriteAnswers.keep, answered] using keep
              simpa [EpochWriter.placed, Function.comp_def] using
                (Sink.Wrote.of_writeParts parts rows answers.write).of_perm whole

namespace Sink

variable {s : Sink}

theorem count_openRows_of_wrote {batch rows rows' : List Row} {result : Except String Unit}
    (wrote : Wrote batch rows rows' result) (row : Row) :
    rows.count row ≤ rows'.count row ∧ rows'.count row ≤ rows.count row + batch.count row ∧
      (result = .ok () → rows'.count row = rows.count row + batch.count row) := by
  obtain ⟨taken, rfl, some, whole⟩ := wrote
  rw [List.count_append]
  refine ⟨Nat.le_add_right _ _, Nat.add_le_add_left (some.count_le row) _, fun ok => ?_⟩
  rw [(whole ok).count_eq row]

/-- The call number after a call. -/
theorem Effect.calls {after : Sink} {call : Call} (effect : s.Effect after call) (n : Nat) :
    s.Effect { after with calls := n } call :=
  ⟨effect.catalog, effect.moved, effect.unmarked, effect.accepted, effect.marked, effect.idle,
    effect.closed, effect.untouched⟩

/-- A batch that got to the writers. -/
theorem effect_write {batch : Batch} {answers : WriteAnswers} {state : SinkState}
    (held : s.state = some state)
    (keep : answers.keep (rowsOf s.calls batch.numRows) = true)
    (result : Except PluginError Unit)
    (ok : result = .ok () → (state.write (rowsOf s.calls batch.numRows) answers).2 = .ok ()) :
    s.Effect { s with state := some (state.write (rowsOf s.calls batch.numRows) answers).1 }
      ⟨.processBatch batch.numRows, result, true, []⟩ := by
  have wrote := state.wrote keep
  have before : s.openRows = state.placed.map Prod.snd := by
    simp [openRows, placed, held]
  have counts := fun row => count_openRows_of_wrote wrote row
  have own : ∀ row, (rowsOf s.calls batch.numRows).count row ≤
      if row.call = s.calls then 1 else 0 := by
    intro row
    split
    · exact List.nodup_iff_count_le_one.mp (nodup_rowsOf _ _) row
    · rename_i other
      rw [List.count_eq_zero_of_not_mem fun found => other (mem_rowsOf.mp found).1]
  have now : openRows { s with
      state := some (state.write (rowsOf s.calls batch.numRows) answers).1 } =
        (state.write (rowsOf s.calls batch.numRows) answers).1.placed.map Prod.snd := by
    simp [openRows, placed]
  refine ⟨?_, ?_, ?_, ?_, ?_, ?_, ?_, ?_⟩
  · simp
  · intro row
    obtain ⟨_, most, _⟩ := counts row
    have one := own row
    rw [now, before]
    simp only [List.flatMap_nil, List.count_nil]
    omega
  · intro _
    refine ⟨rfl, fun row => ?_⟩
    rw [now, before]
    exact (counts row).1
  · intro numRows index isBatch fine bound
    cases isBatch
    rw [now, (counts _).2.2 (ok fine)]
    have here : 0 < (rowsOf s.calls batch.numRows).count ⟨s.calls, index⟩ :=
      List.count_pos_iff.mpr (mem_rowsOf.mpr ⟨rfl, bound⟩)
    omega
  · intro epoch row isMarker
    cases isMarker
  · exact fun _ _ => rfl
  · intro isMarker
    cases isMarker
  · intro wrote
    cases wrote

theorem effect_processBatch (s : Sink) {batch : Batch} {projected : Except PluginError Unit}
    {answers : WriteAnswers}
    (keep : answers.keep (rowsOf s.calls batch.numRows) = true) :
    s.Effect (s.processBatch batch projected answers).1
      ⟨.processBatch batch.numRows, (s.processBatch batch projected answers).2.2,
        (s.processBatch batch projected answers).2.1, []⟩ := by
  -- what fails before the writers leaves the sink as it is
  have failed : ∀ e, s.Effect s ⟨.processBatch batch.numRows, .error e, false, []⟩ := fun e =>
    .of_same rfl (fun _ _ ok => by cases ok) rfl rfl id
  unfold processBatch
  split
  · exact failed _
  · split
    · rename_i empty
      refine .of_same rfl (fun numRows isBatch _ => ?_) rfl rfl id
      cases isBatch
      exact empty
    · unfold processBatchInner
      split
      · exact failed _
      · split
        · exact failed _
        · rename_i state held
          split
          · exact failed _
          · exact effect_write held keep _ fun fine => mapError_eq_ok.mp fine

/-! ### The other calls -/

theorem effect_start (s : Sink) (loaded : Except PluginError PartitionSpec)
    (splitter : Except String Unit) :
    s.Effect (s.start loaded splitter).1 ⟨.start, (s.start loaded splitter).2, false, []⟩ := by
  have same : ∀ result, s.Effect s ⟨.start, result, false, []⟩ := fun result =>
    .of_same rfl (fun _ isBatch => by cases isBatch) rfl rfl id
  unfold start
  split
  · exact same _
  · rename_i fresh
    split
    · exact same _
    · split
      · exact same _
      · refine .of_same rfl (fun _ isBatch => by cases isBatch) rfl ?_ ?_
        · simp [placed, SinkState.placed, fresh]
        · intro _ state held
          cases held
          rfl

theorem effect_terminate (s : Sink) : s.Effect s.terminate ⟨.terminate, .ok (), false, []⟩ :=
  .of_same rfl (fun _ isBatch => by cases isBatch) rfl rfl id

/-- A marker that drops the open epoch and commits nothing. -/
theorem Effect.of_dropped {after : Sink} {epoch : Nat} {result : Except PluginError Unit}
    (catalog : after.catalog = s.catalog) (idle : after.Idle) (dropped : after.placed = [])
    (lost : result = .ok () → s.placed = []) :
    s.Effect after ⟨.marker epoch, result, false, []⟩ where
  catalog := by simpa using catalog
  moved := by
    intro row
    simp [openRows, dropped]
  unmarked := by
    intro noMarker
    cases noMarker
  accepted := by
    intro numRows index isBatch
    cases isBatch
  marked := by
    intro epoch row _ fine some
    simp [openRows, lost fine] at some
  idle := fun _ _ => rfl
  closed := fun _ => idle
  untouched := fun _ _ => idle

theorem placed_rows (files : List DataFile) :
    (files.flatMap DataFile.placed).map Prod.snd = files.flatMap DataFile.rows := by
  rw [List.map_flatMap]
  congr 1
  funext file
  rw [DataFile.placed, List.map_map]
  exact List.map_id file.rows

theorem epoch_snapshotOf (s : Sink) (epoch : Nat) (files : List DataFile) :
    (s.snapshotOf epoch files).epoch = some (toString epoch) := by
  simp [Snapshot.epoch, snapshotOf]

/-- A marker that commits the files of the open epoch. -/
theorem Effect.of_committed {after : Sink} {epoch : Nat} {files : List DataFile}
    (catalog : after.catalog = s.catalog ++ [s.snapshotOf epoch files]) (idle : after.Idle)
    (dropped : after.placed = []) (busy : ¬ s.Idle)
    (keep : (files.flatMap DataFile.placed).Perm s.placed) :
    s.Effect after ⟨.marker epoch, .ok (), false, [s.snapshotOf epoch files]⟩ := by
  have rows : ∀ row, (s.snapshotOf epoch files).rows.count row = s.openRows.count row := by
    intro row
    have moved := (keep.map Prod.snd).count_eq row
    rwa [placed_rows] at moved
  refine ⟨catalog, ?_, ?_, ?_, ?_, ?_, fun _ => idle, fun _ _ => idle⟩
  · intro row
    simp only [List.flatMap_cons, List.flatMap_nil, List.append_nil, rows row, openRows, dropped,
      List.map_nil, List.count_nil]
    omega
  · intro noMarker
    cases noMarker
  · intro numRows index isBatch
    cases isBatch
  · intro marked row isMarker _ _
    cases isMarker
    exact ⟨_, rfl, rows row, epoch_snapshotOf s epoch files⟩
  · intro _ quiet
    exact absurd quiet busy

theorem effect_commitEpoch (s : Sink) {epoch : Nat} {answers : CommitAnswers}
    (keep : answers.keep s.placed = true) :
    s.Effect (s.commitEpoch epoch answers).1
      ⟨.marker epoch, (s.commitEpoch epoch answers).2, false,
        (s.commitEpoch epoch answers).1.catalog.drop s.catalog.length⟩ := by
  unfold commitEpoch
  split
  · rename_i missing
    simp only [List.drop_length]
    refine .of_dropped rfl (fun state held => ?_) ?_ (fun _ => ?_)
    · rw [missing] at held
      cases held
    · simp [placed, missing]
    · simp [placed, missing]
  · rename_i state held
    split
    · rename_i closed
      have nothing : s.placed = [] := by simp [placed, held, SinkState.placed, closed]
      simp only [List.drop_length]
      refine .of_dropped rfl (fun state' held' => ?_) nothing fun _ => nothing
      rw [held] at held'
      cases held'
      exact closed
    · rename_i writer opened
      have busy : ¬ s.Idle := by
        intro quiet
        have closed := quiet state held
        rw [opened] at closed
        cases closed
      -- whatever comes next, the writer is gone
      have dropped : ∀ e, s.Effect { s with state := some { state with writer := none } }
          ⟨.marker epoch, .error e, false, []⟩ := by
        intro e
        refine .of_dropped rfl (fun state' held' => ?_) ?_ (fun ok => ?_)
        · cases held'
          rfl
        · simp [placed, SinkState.placed]
        · cases ok
      cases close : answers.close with
      | error e => simpa using dropped _
      | ok files =>
          have moved : (files.flatMap DataFile.placed).Perm s.placed := by
            simpa [CommitAnswers.keep, close] using keep
          by_cases empty : files = []
          · subst empty
            have nothing : s.placed = [] := moved.symm.eq_nil
            simp only [↓reduceIte, List.drop_length]
            refine .of_dropped rfl (fun state' held' => ?_) ?_ fun _ => nothing
            · cases held'
              rfl
            · simp [placed, SinkState.placed]
          · simp only [empty, ↓reduceIte]
            cases answers.apply with
            | error e => simpa using dropped _
            | ok =>
                cases answers.commit with
                | error e => simpa using dropped _
                | ok =>
                    simp only [List.drop_left]
                    refine .of_committed rfl (fun state' held' => ?_) ?_ busy moved
                    · cases held'
                      rfl
                    · simp [placed, SinkState.placed]

/-- A call with such an effect returns. -/
theorem Effect.returned {after after' : Sink} {kind : CallKind} {result : Except PluginError Unit}
    {wrote : Bool} {committed : List Snapshot} {out : List Call}
    (effect : s.Effect after ⟨kind, result, wrote, committed⟩)
    (taken : s.returned after kind result wrote = some (after', out)) :
    ∃ call, out = [call] ∧ after'.calls = s.calls + 1 ∧ s.Effect after' call := by
  cases taken
  have new : after.catalog.drop s.catalog.length = committed := by
    rw [effect.catalog, List.drop_left]
  refine ⟨_, rfl, rfl, ?_⟩
  rw [new]
  exact effect.calls _

/-- What every step does. -/
theorem effect_step {after : Sink} {event : Event} {out : List Call}
    (taken : s.step event = some (after, out)) :
    ∃ call, out = [call] ∧ after.calls = s.calls + 1 ∧ s.Effect after call := by
  cases event with
  | start loaded splitter => exact (effect_start s loaded splitter).returned taken
  | processBatch batch projected answers =>
      simp only [step] at taken
      split at taken
      · rename_i keep
        exact (effect_processBatch s keep).returned taken
      · cases taken
  | marker epoch answers =>
      simp only [step] at taken
      split at taken
      · rename_i keep
        exact (effect_commitEpoch s keep).returned taken
      · cases taken
  | terminate => exact (effect_terminate s).returned taken

/-! ## The ledger of a run -/

/-- The invariant of the runs that start at `before`. -/
structure Ledger (before s : Sink) (log : List Call) : Prop where
  calls : s.calls = log.length
  catalog : s.catalog = before.catalog ++ snapshots log
  once : ∀ row, ((snapshots log).flatMap Snapshot.rows).count row + s.openRows.count row ≤
    if row.call < log.length then 1 else 0
  waiting : ∀ row, Accepted log row → Unmarked log row.call log.length →
    1 ≤ s.openRows.count row
  settled : ∀ row m marker epoch, Accepted log row → FirstMarker log row.call m marker epoch →
    marker.result = .ok () → ∃ snapshot, marker.committed = [snapshot] ∧
      snapshot.rows.count row = 1 ∧ snapshot.epoch = some (toString epoch)
  untouched : (∀ k call, Unmarked log k log.length → log[k]? = some call → call.wrote = false) →
    s.Idle
  idle : ∀ m marker, log[m]? = some marker → marker.epoch.isSome →
    (∀ k call, k < m → Unmarked log k m → log[k]? = some call → call.wrote = false) →
    marker.committed = []
  unmarked : ∀ call ∈ log, call.epoch = none → call.committed = []

/-- One call more. -/
theorem Ledger.snoc {before s after : Sink} {log : List Call} {call : Call}
    (ledger : Ledger before s log) (effect : s.Effect after call)
    (calls : after.calls = s.calls + 1) : Ledger before after (log ++ [call]) := by
  have last : s.calls = log.length := ledger.calls
  have committed : snapshots (log ++ [call]) = snapshots log ++ call.committed := by
    simp [snapshots]
  refine ⟨?_, ?_, ?_, ?_, ?_, ?_, ?_, ?_⟩
  · simp [calls, last]
  · rw [effect.catalog, ledger.catalog, committed, List.append_assoc]
  · intro row
    have old := ledger.once row
    have moved := effect.moved row
    rw [last] at moved
    rw [committed, List.flatMap_append, List.count_append, List.length_append,
      List.length_singleton]
    split_ifs at old moved ⊢ <;> omega
  · intro row accepted unmarked
    rw [List.length_append, List.length_singleton] at unmarked
    obtain ⟨sinceThen, notThis⟩ := unmarked.snoc_last
    rcases accepted.of_snoc with ⟨bound, old⟩ | ⟨new, numRows, isBatch, fine, bound⟩
    · have stays := (effect.unmarked (notThis bound)).2 row
      have held := ledger.waiting row old sinceThen
      omega
    · have held := effect.accepted numRows row.index isBatch fine bound
      rwa [last, ← new] at held
  · intro row m marker epoch accepted first fine
    rcases getElem?_snoc first.called with old | ⟨here, rfl⟩
    · have bound := (List.getElem?_eq_some_iff.mp old).1
      have earlier := first.after
      rcases accepted.of_snoc with ⟨_, known⟩ | ⟨new, _⟩
      · exact ledger.settled row m marker epoch known
          ⟨first.after, old, first.marks, first.unmarked.of_snoc⟩ fine
      · omega
    · have earlier := first.after
      rcases accepted.of_snoc with ⟨_, known⟩ | ⟨new, _⟩
      · subst here
        have held := ledger.waiting row known first.unmarked.of_snoc
        have most := ledger.once row
        rw [if_pos earlier] at most
        obtain ⟨snapshot, only, count, tag⟩ := effect.marked epoch row first.marks fine (by omega)
        exact ⟨snapshot, only, by omega, tag⟩
      · omega
  · intro quiet
    rw [List.length_append, List.length_singleton] at quiet
    cases marks : call.epoch with
    | some epoch => exact effect.closed (by simp [marks])
    | none =>
        have here := quiet log.length call
          (fun k found low high _ => by omega) List.getElem?_concat_length
        refine effect.untouched here (ledger.untouched fun k found sinceThen old => ?_)
        refine quiet k found (fun i other low high at_i => ?_) (getElem?_snoc_of old)
        rcases getElem?_snoc at_i with known | ⟨_, rfl⟩
        · exact sinceThen i other low (List.getElem?_eq_some_iff.mp known).1 known
        · exact marks
  · intro m marker called marks quiet
    rcases getElem?_snoc called with old | ⟨here, rfl⟩
    · have bound := (List.getElem?_eq_some_iff.mp old).1
      refine ledger.idle m marker old marks fun k found low sinceThen at_k => ?_
      exact quiet k found low (sinceThen.snoc (by omega)) (getElem?_snoc_of at_k)
    · subst here
      refine effect.idle marks (ledger.untouched fun k found sinceThen at_k => ?_)
      have low := (List.getElem?_eq_some_iff.mp at_k).1
      exact quiet k found low (sinceThen.snoc (le_refl _)) (getElem?_snoc_of at_k)
  · intro found mem noMarker
    rcases List.mem_append.mp mem with old | new
    · exact ledger.unmarked found old noMarker
    · rw [List.mem_singleton.mp new] at noMarker ⊢
      exact (effect.unmarked noMarker).1

theorem Ledger.nil {before : Sink} (fresh : before.calls = 0) (idle : before.Idle) :
    Ledger before before [] where
  calls := fresh
  catalog := by simp [snapshots]
  once := by
    intro row
    have nothing : before.placed = [] := by
      unfold placed
      cases state : before.state with
      | none => rfl
      | some held => simp [SinkState.placed, idle held state]
    simp [snapshots, openRows, nothing]
  waiting := by
    intro row accepted
    obtain ⟨call, numRows, here, _⟩ := accepted
    cases here
  settled := by
    intro row m marker epoch accepted
    obtain ⟨call, numRows, here, _⟩ := accepted
    cases here
  untouched := fun _ => idle
  idle := by
    intro m marker called
    cases called
  unmarked := by
    intro call mem
    cases mem

theorem ledger_of_reaches {before s : Sink} {log : List Call} (fresh : before.calls = 0)
    (idle : before.Idle) (reached : machine.Reaches before s log) : Ledger before s log := by
  refine reached.invariant (.nil fresh idle) fun ledger _ taken => ?_
  obtain ⟨call, rfl, calls, effect⟩ := effect_step taken
  exact ledger.snoc effect calls

/-- For every sequence of calls and every failure in it, rows are committed at most
once, by the first marker after them when the markers go well, and by nothing else. -/
theorem epochs_accounted (includeOpColumn : Bool) (writerId tableName : String)
    (catalog : List Snapshot) {s : Sink} {log : List Call}
    (reached : machine.Reaches (new includeOpColumn writerId tableName catalog) s log) :
    Accounted (new includeOpColumn writerId tableName catalog) s log := by
  have ledger : Ledger _ s log :=
    ledger_of_reaches rfl (fun state held => by cases held) reached
  have once : ∀ row, ((snapshots log).flatMap Snapshot.rows).count row ≤ 1 := by
    intro row
    have most := ledger.once row
    split_ifs at most <;> omega
  refine ⟨ledger.catalog, fun row _ => once row, ?_, ledger.idle, ?_⟩
  · intro m last called marks fine row accepted before
    obtain ⟨f, marker, epoch, first, bound⟩ := exists_firstMarker before called marks
    have went := fine f marker bound first.called (by simp [first.marks])
    obtain ⟨snapshot, only, one, tag⟩ := ledger.settled row f marker epoch accepted first went
    have mem : snapshot ∈ snapshots log := by
      refine List.mem_flatMap.mpr ⟨marker, List.mem_of_getElem? first.called, ?_⟩
      rw [only]
      exact List.mem_singleton_self snapshot
    have has : row ∈ snapshot.rows := List.count_pos_iff.mp (by omega)
    exact ⟨f, marker, epoch, snapshot, first, bound, filter_eq_singleton mem has (once row), one,
      tag⟩
  · intro call mem terminates
    exact ledger.unmarked call mem (by simp [Call.epoch, terminates])

/-- Two partitions; the second write of the second batch fails. -/
def failedPart : List Event :=
  let spec : PartitionSpec := ⟨1, [⟨"day", false⟩]⟩
  let key (day : String) : PartitionKey := ⟨spec, [some day]⟩
  let inserts : Batch := ⟨2, none⟩
  let parts (call : Nat) := [(key "1", [Row.mk call 1]), (key "2", [Row.mk call 0])]
  [.start (.ok spec) (.ok ()),
    .processBatch inserts (.ok ()) ⟨.ok (parts 1), fun _ => .ok⟩,
    .processBatch inserts (.ok ()) ⟨.ok (parts 2), fun n => if n = 1 then .failed "io" 0 else .ok⟩,
    .marker 7 ⟨.ok [⟨some (key "1"), [⟨1, 1⟩, ⟨2, 1⟩]⟩, ⟨some (key "2"), [⟨1, 0⟩]⟩], .ok (), .ok ()⟩,
    .terminate]

theorem epochs_accounted_failedPart :
    ∃ s log, machine.Reaches (new false "w" "lake.events" []) s log ∧
      s.catalog.map Snapshot.epoch = [some "7"] ∧
      Accounted (new false "w" "lake.events" []) s log := by
  refine ⟨_, _, .of_run failedPart (by rfl), by rfl, ?_⟩
  exact epochs_accounted false "w" "lake.events" [] (.of_run failedPart (by rfl))

end Sink

end StreamlingPlugins.IcebergSink
