import StreamlingPlugins.IcebergSource.CheckpointSafety

/-!
# Stored positions go forward

While the host's markers come with growing epochs, and markers and finalizers end in the order
in which they began, each position that reaches the backend lies after the one before it along
the table's lineage.
-/

namespace StreamlingPlugins.IcebergSource

variable {Row : Type} {h : History Row}

def SourceState.InEpochOrder (s : SourceState Row) : SourceEvent Row → Prop
  | .marker epoch => s.checkpoints.LaterEpoch epoch
  | .record i => i = 0
  | .put i _ => i = 0
  | _ => True

/-- One position lies after another along the lineage, or is the same. -/
def Position.Reaches (h : History Row) (policy : OnNonAppendSnapshot) (p : Position)
    (cursor : Option Position) : Prop :=
  ∃ rows, Travelled h policy (some p) rows cursor

/-- Positions up to the delivered one. -/
abbrev Forward (h : History Row) (config : IcebergSourceConfig) (log : List (SourceObs Row))
    (persisted : Option Position) (s : SourceState Row) : Prop :=
  s.checkpoints.Forward (fun p q => p.Reaches h config.onNonAppendSnapshot (some q))
    (fun p => p.Reaches h config.onNonAppendSnapshot s.delivered)
    (persisted.toList ++ log.filterMap SourceObs.persistedPosition)

section

variable {config : IcebergSourceConfig} {persisted start : Option Position}
  {handed : Handed Row} {log out : List (SourceObs Row)} {s s' : SourceState Row}

theorem Position.Reaches.then {policy : OnNonAppendSnapshot} {p : Position}
    {cursor cursor' : Option Position} {rows : List Row} (reaches : p.Reaches h policy cursor)
    (travelled : Travelled h policy cursor rows cursor') : p.Reaches h policy cursor' := by
  obtain ⟨earlier, first⟩ := reaches
  exact ⟨earlier ++ rows, first.trans travelled⟩

theorem Position.Reaches.trans {policy : OnNonAppendSnapshot} {p q : Position}
    {cursor : Option Position} (first : p.Reaches h policy (some q))
    (second : q.Reaches h policy cursor) : p.Reaches h policy cursor := by
  obtain ⟨rows, travelled⟩ := second
  exact first.then travelled

theorem forward_quiet (forward : Forward h config log persisted s)
    (nothing : out.filterMap SourceObs.persistedPosition = []) :
    Forward h config (log ++ out) persisted s := by
  unfold Forward
  rw [List.filterMap_append, nothing, List.append_nil]
  exact forward

theorem forward_step {event : SourceEvent Row} (delivering : Delivering h config start handed s)
    (forward : Forward h config log persisted s) (ordered : s.InEpochOrder event)
    (taken : sourceStep s event = some (s', out)) :
    Forward h config (log ++ out) persisted s' := by
  have advanced : s.checkpoints.Forward
      (fun p q => p.Reaches h config.onNonAppendSnapshot (some q))
      (fun p => p.Reaches h config.onNonAppendSnapshot s.reader.cursor)
      (persisted.toList ++ log.filterMap SourceObs.persistedPosition) :=
    forward.mono fun _ reaches => reaches.then delivering.ahead
  cases event with
  | generateBatch due =>
      simp only [sourceStep] at taken
      split at taken <;> cases taken
      exact forward_quiet advanced rfl
  | refreshed answer =>
      simp only [sourceStep] at taken
      split at taken <;> cases taken <;> exact forward_quiet forward rfl
  | read event =>
      simp only [sourceStep] at taken
      split at taken
      · split at taken
        · obtain ⟨outcome, stepped, same⟩ := Option.map_eq_some_iff.mp taken
          cases same
          refine forward_quiet forward ?_
          rw [List.filterMap_map]
          exact List.filterMap_eq_nil_iff.mpr fun _ _ => rfl
        · cases taken
      · cases taken
  | caughtUp due =>
      simp only [sourceStep] at taken
      split at taken <;> cases taken
      exact forward_quiet advanced rfl
  | cancel =>
      simp only [sourceStep] at taken
      split at taken
      · cases taken
      · obtain ⟨outcome, stepped, same⟩ := Option.map_eq_some_iff.mp taken
        cases same
        exact forward_quiet forward rfl
      · cases taken
        exact forward_quiet forward rfl
  | marker epoch =>
      simp only [sourceStep] at taken
      split at taken <;> cases taken
      · rename_i position visible
        refine forward_quiet (forward.load ⟨[], visible ▸ .refl _⟩ (fun before reaches => ?_)
          ordered) rfl
        rwa [visible] at reaches
      · exact forward_quiet forward rfl
  | record i =>
      obtain ⟨checkpoints, recorded, same⟩ := Option.map_eq_some_iff.mp taken
      cases same
      obtain rfl : i = 0 := ordered
      exact forward_quiet (forward.record recorded) rfl
  | finalizer epoch =>
      cases taken
      exact forward_quiet forward.finalize rfl
  | put i succeeds =>
      obtain ⟨⟨checkpoints, result⟩, put, same⟩ := Option.map_eq_some_iff.mp taken
      cases same
      obtain rfl : i = 0 := ordered
      have stored := forward.store (fun p => ⟨[], .refl _⟩)
        (fun _ _ _ first second => first.trans second) put
      unfold Forward
      rw [List.filterMap_append, ← List.append_assoc]
      cases result <;> exact stored

/-- **Stored positions never go back.** -/
theorem positions_forward {table : TableMetadata} (of : table.Of h)
    (fits : ∀ position ∈ persisted, h.Fits position)
    (reached : (sourceMachine Row).ReachesWhere
      (fun s event => s.Conforms h event ∧ s.InEpochOrder event)
      (.initial config table persisted) s log) :
    (persisted.toList ++ log.filterMap SourceObs.persistedPosition).Pairwise fun p q =>
      ∃ rows, Travelled h config.onNonAppendSnapshot (some p) rows (some q) := by
  have both : Delivering h config (persisted.or (initialPosition table config.startPosition))
      (.of log) s ∧ Forward h config log persisted s := by
    refine reached.invariant (P := fun s log =>
      Delivering h config (persisted.or (initialPosition table config.startPosition)) (.of log) s ∧
        Forward h config log persisted s) ⟨delivering_initial of fits, ?_⟩ ?_
    · unfold Forward
      rw [List.filterMap_nil, List.append_nil]
      refine Checkpointing.forward_restored (fun p => ⟨[], .refl _⟩) ?_
      rintro position rfl
      exact ⟨[], .refl _⟩
    · intro s s' log out event both allowed taken
      refine ⟨?_, forward_step both.1 both.2 allowed.2 taken⟩
      simp only [List.foldl_append]
      exact both.1.step allowed.1 taken
  exact both.2.pairwise

end

/-- An append and a compaction of it. -/
def compacted : History Nat where
  snapshot id := if id = 2 then ⟨2, some 1, 0, .replace⟩ else ⟨id, none, 0, .append⟩
  snapshotId_snapshot id := by
    split
    · rename_i second
      exact second.symm
    · rfl
  age id := if id = 2 then 1 else 0
  age_parent id parent link := by
    split at link
    · rename_i second
      obtain rfl := Option.some.inj link
      simp [second]
    · cases link
  files _ _ := []
  distinct _ _ := .nil

def compactedTable : TableMetadata := ⟨[compacted.snapshot 1, compacted.snapshot 2], some 2⟩

theorem compactedTable_of : compactedTable.Of compacted := by
  intro snapshot listed
  have both : snapshot = compacted.snapshot 1 ∨ snapshot = compacted.snapshot 2 := by
    simpa [compactedTable] using listed
  rcases both with rfl | rfl <;> rfl

/-- The reader passes over the compaction, and a marker reads where it is. -/
def passedOver : SourceState Nat where
  reader :=
    { table := compactedTable
      batchSize := 2
      policy := .error
      cursor := some (.completed 2 .incremental)
      unit := none
      lastProcessedMs := some 0
      call := .idle }
  call := .idle
  delivered := some (.completed 2 .incremental)
  checkpoints := .restored (some (.completed 1 .scan))

/-- The position goes from the append to the compaction. -/
theorem positions_forward_demo :
    [Position.completed 1 .scan, .completed 2 .incremental].Pairwise fun p q =>
      ∃ rows, Travelled compacted .error (some p) rows (some q) := by
  have reads : ∀ e ∈ [SourceEvent.generateBatch false, .read .nextBatch, .caughtUp false],
      ∀ s : SourceState Nat, s.Conforms compacted e ∧ s.InEpochOrder e := by
    simp [SourceState.Conforms, TableReader.Conforms, SourceState.InEpochOrder]
  have passed : (sourceMachine Nat).ReachesWhere
      (fun s event => s.Conforms compacted event ∧ s.InEpochOrder event)
      (.initial demoConfig compactedTable (some (.completed 1 .scan))) passedOver _ :=
    Machine.ReachesWhere.refl.run reads rfl
  have later : passedOver.Conforms compacted (.marker 3) ∧ passedOver.InEpochOrder (.marker 3) :=
    ⟨trivial, by simp [passedOver, Checkpointing.restored],
      fun recorded known => by simp [passedOver, Checkpointing.restored] at known⟩
  have stores : ∀ e ∈ [SourceEvent.record 0, .finalizer 3, .put 0 true],
      ∀ s : SourceState Nat, s.Conforms compacted e ∧ s.InEpochOrder e := by
    simp [SourceState.Conforms, SourceState.InEpochOrder]
  have reached := (passed.step later rfl).run stores rfl
  refine positions_forward compactedTable_of ?_ reached
  rintro position ⟨⟩
  exact compacted.fits_completed 1 .scan

end StreamlingPlugins.IcebergSource
