import StreamlingPlugins.IcebergSource.Resume
import StreamlingPlugins.IcebergSource.Source

/-!
# Checkpoints of the Iceberg source

A marker reads a position that covers exactly the rows that were delivered before it.  So after
any number of runs, each crashed at any point, the rows that persisted positions cover and those
that the current run returned are the rows of the table in order, none lost and none repeated.
-/

namespace StreamlingPlugins.IcebergSource

variable {Row : Type} {h : History Row}

/-! ## One run -/

/-- The reader is answered by the history, and so is a refresh. -/
def SourceState.Conforms (h : History Row) (s : SourceState Row) : SourceEvent Row → Prop
  | .read event => s.reader.Conforms h event
  | .refreshed (some table) => table.Of h
  | _ => True

/-- Where the reader and the delivered position stand, by the rows that the host has. -/
structure Delivering (h : History Row) (config : IcebergSourceConfig) (start : Option Position)
    (handed : Handed Row) (s : SourceState Row) : Prop where
  sound : s.reader.Sound h
  policy : s.reader.policy = config.onNonAppendSnapshot
  batchSize : s.reader.batchSize = config.batchSize
  reads : (∀ refreshed, s.call ≠ .reading refreshed) → s.reader.call = .idle
  /-- A call has not returned anything before it ends. -/
  busy : s.call ≠ .idle → handed.last = []
  delivered : Travelled h config.onNonAppendSnapshot start handed.settled s.delivered
  fits : ∀ position ∈ s.delivered, h.Fits position
  ahead : Travelled h config.onNonAppendSnapshot s.delivered handed.last s.reader.cursor

section

variable {config : IcebergSourceConfig} {start : Option Position} {handed : Handed Row}
  {s s' : SourceState Row} {out : List (SourceObs Row)}

theorem delivering_initial {table : TableMetadata} {persisted : Option Position} (of : table.Of h)
    (fits : ∀ position ∈ persisted, h.Fits position) :
    Delivering h config (persisted.or (initialPosition table config.startPosition)) ⟨[], []⟩
      (.initial config table persisted) := by
  have all_fit : ∀ position ∈ persisted.or (initialPosition table config.startPosition),
      h.Fits position := by
    intro position member
    rcases Option.or_eq_some_iff.mp member with stored | ⟨-, initial⟩
    · exact fits position stored
    · obtain ⟨current, -, rfl⟩ := Option.map_eq_some_iff.mp initial
      cases config.startPosition with
      | earliest => exact h.fits_start current .scan
      | latest => exact h.fits_completed current .incremental
  exact ⟨TableReader.sound_new of all_fit, rfl, rfl, fun _ => rfl, fun busy => absurd rfl busy,
    .refl _, all_fit, .refl _⟩

theorem Handed.observe_batches (settled : List Row) (result : Option (Returned Row)) :
    ((batches result).map SourceObs.returned).foldl observe ⟨settled, []⟩ =
      ⟨settled, (batches result).flatten⟩ := by
  rcases result with _ | (e | (_ | batch)) <;> simp [batches, observe]

/-- A call that goes on after an event has returned nothing. -/
theorem SourceCall.afterRead_batches {refreshed : Bool} {result : Option (Returned Row)}
    (busy : afterRead refreshed result ≠ .idle) : (batches result).flatten = [] := by
  rcases result with _ | (e | (_ | batch))
  · rfl
  · rfl
  · rfl
  · exact absurd rfl busy

theorem TableReader.step_cancel {reader : TableReader Row} {outcome : Outcome Row}
    (stepped : reader.step .cancel = some outcome) :
    outcome = ({ reader with call := .idle }, none) := by
  simp only [TableReader.step] at stepped
  split at stepped
  · cases stepped
    rfl
  · split at stepped
    · cases stepped
      rfl
    · cases stepped
  · cases stepped

/-- An event of the reader, and what it returned. -/
theorem Delivering.read {event : ReaderEvent Row} {refreshed : Bool} {outcome : Outcome Row}
    (delivering : Delivering h config start handed s) (reading : s.call = .reading refreshed)
    (conforms : s.reader.Conforms h event) (stepped : s.reader.step event = some outcome) :
    Delivering h config start
      (((batches outcome.2).map SourceObs.returned).foldl Handed.observe handed)
      { s with reader := outcome.1, call := .afterRead refreshed outcome.2 } := by
  have effect := delivering.sound.step conforms stepped
  have nothing := delivering.busy (by simp [reading])
  have travelled := effect.travelled
  rw [delivering.policy] at travelled
  have moved := delivering.ahead.trans travelled
  rw [nothing, List.nil_append] at moved
  have base : handed = ⟨handed.settled, []⟩ := by rw [← nothing]
  rw [base, Handed.observe_batches]
  refine ⟨effect.sound, effect.policy.trans delivering.policy,
    effect.batchSize.trans delivering.batchSize, fun others => ?_,
    SourceCall.afterRead_batches, delivering.delivered, delivering.fits, moved⟩
  cases result : outcome.2 with
  | none =>
      rw [result] at others
      exact absurd rfl (others refreshed)
  | some _ => exact effect.idle (by simp [result])

theorem Delivering.step {event : SourceEvent Row} (delivering : Delivering h config start handed s)
    (conforms : s.Conforms h event) (taken : sourceStep s event = some (s', out)) :
    Delivering h config start (out.foldl Handed.observe handed) s' := by
  obtain ⟨sound, policy, batchSize, reads, busy, delivered, fits, ahead⟩ := delivering
  have cursor_fits : ∀ position ∈ s.reader.cursor, h.Fits position := sound.cursor
  have covered : Travelled h config.onNonAppendSnapshot start (handed.settled ++ handed.last)
      s.reader.cursor := delivered.trans ahead
  cases event with
  | generateBatch due =>
      simp only [sourceStep] at taken
      split at taken
      · rename_i idle
        cases taken
        refine ⟨sound, policy, batchSize, fun _ => reads (by simp [idle]), fun _ => rfl, covered,
          cursor_fits, .refl _⟩
      · cases taken
  | refreshed answer =>
      simp only [sourceStep] at taken
      split at taken
      · rename_i caughtUp table refreshing
        cases taken
        have idle := reads (by simp [refreshing])
        have set : s.reader.step (.setTable table) = some (s.reader.setTable table, none) := by
          simp [TableReader.step, idle]
        have effect := sound.step (by exact conforms) set
        exact ⟨effect.sound, policy, batchSize, fun others => absurd rfl (others true),
          fun _ => busy (by simp [refreshing]), delivered, fits, ahead⟩
      · rename_i refreshing
        cases taken
        exact ⟨sound, policy, batchSize, fun others => absurd rfl (others true),
          fun _ => busy (by simp [refreshing]), delivered, fits, ahead⟩
      · rename_i refreshing
        cases taken
        exact ⟨sound, policy, batchSize, fun _ => reads (by simp [refreshing]),
          fun busy' => absurd rfl busy', delivered, fits, ahead⟩
      · cases taken
  | read event =>
      simp only [sourceStep] at taken
      split at taken
      · rename_i refreshed reading
        split at taken
        · obtain ⟨outcome, stepped, same⟩ := Option.map_eq_some_iff.mp taken
          cases same
          have whole : Delivering h config start handed s :=
            ⟨sound, policy, batchSize, reads, busy, delivered, fits, ahead⟩
          exact whole.read reading conforms stepped
        · cases taken
      · cases taken
  | caughtUp due =>
      simp only [sourceStep] at taken
      split at taken
      · rename_i refreshed caughtUp
        cases taken
        have nothing := busy (by simp [caughtUp])
        rw [nothing, List.append_nil] at covered
        refine ⟨sound, policy, batchSize, fun _ => reads (by simp [caughtUp]), fun _ => nothing,
          covered, cursor_fits, ?_⟩
        show Travelled _ _ _ handed.last _
        rw [nothing]
        exact .refl _
      · cases taken
  | cancel =>
      simp only [sourceStep] at taken
      split at taken
      · cases taken
      · rename_i refreshed reading
        obtain ⟨outcome, stepped, same⟩ := Option.map_eq_some_iff.mp taken
        cases same
        have effect := sound.step (by trivial) stepped
        rw [TableReader.step_cancel stepped] at effect ⊢
        exact ⟨effect.sound, policy, batchSize, fun _ => rfl, fun busy' => absurd rfl busy',
          delivered, fits, ahead⟩
      · rename_i others
        cases taken
        refine ⟨sound, policy, batchSize, fun _ => reads others, fun busy' => absurd rfl busy',
          delivered, fits, ahead⟩
  | marker epoch =>
      simp only [sourceStep] at taken
      split at taken <;> cases taken <;>
        exact ⟨sound, policy, batchSize, reads, busy, delivered, fits, ahead⟩
  | record i =>
      obtain ⟨checkpoints, recorded, same⟩ := Option.map_eq_some_iff.mp taken
      cases same
      exact ⟨sound, policy, batchSize, reads, busy, delivered, fits, ahead⟩
  | finalizer epoch =>
      cases taken
      exact ⟨sound, policy, batchSize, reads, busy, delivered, fits, ahead⟩
  | put i succeeds =>
      obtain ⟨⟨checkpoints, stored⟩, put, same⟩ := Option.map_eq_some_iff.mp taken
      cases same
      cases stored <;> exact ⟨sound, policy, batchSize, reads, busy, delivered, fits, ahead⟩

end

/-! ## Positions on their way to the backend -/

/-- The positions on their way were read by markers, each with the rows delivered then behind
it. -/
structure Restartable (h : History Row) (config : IcebergSourceConfig)
    (persisted start : Option Position) (log : List (SourceObs Row)) (s : SourceState Row) :
    Prop where
  delivering : Delivering h config start (.of log) s
  covered : ∀ before epoch position after, log = before ++ .snapshot epoch position :: after →
    h.Fits position ∧
      Travelled h config.onNonAppendSnapshot start (Handed.of before).settled (some position)
  read : s.checkpoints.All fun epoch position => .snapshot epoch position ∈ log
  stored : ∀ position, s.checkpoints.stored = some position →
    persisted = some position ∨ ∃ epoch, .snapshot epoch position ∈ log

section

variable {config : IcebergSourceConfig} {persisted start : Option Position}
  {s s' : SourceState Row} {log out : List (SourceObs Row)}

/-- Only a marker reads the delivered position, and does nothing else. -/
theorem sourceStep_snapshot {event : SourceEvent Row} {epoch : Nat} {position : Position}
    (taken : sourceStep s event = some (s', out)) (read : .snapshot epoch position ∈ out) :
    out = [.snapshot epoch position] ∧ s.delivered = some position := by
  cases event with
  | generateBatch due =>
      simp only [sourceStep] at taken
      split at taken <;> cases taken
      simp at read
  | refreshed answer =>
      simp only [sourceStep] at taken
      split at taken <;> cases taken <;> cases read
  | read event =>
      simp only [sourceStep] at taken
      split at taken
      · split at taken
        · obtain ⟨outcome, stepped, same⟩ := Option.map_eq_some_iff.mp taken
          cases same
          simp at read
        · cases taken
      · cases taken
  | caughtUp due =>
      simp only [sourceStep] at taken
      split at taken <;> cases taken
      cases read
  | cancel =>
      simp only [sourceStep] at taken
      split at taken
      · cases taken
      · obtain ⟨outcome, stepped, same⟩ := Option.map_eq_some_iff.mp taken
        cases same
        cases read
      · cases taken
        cases read
  | marker epoch =>
      simp only [sourceStep] at taken
      split at taken <;> cases taken
      · rename_i delivered
        cases List.mem_singleton.mp read
        exact ⟨rfl, delivered⟩
      · cases read
  | record i =>
      obtain ⟨checkpoints, recorded, same⟩ := Option.map_eq_some_iff.mp taken
      cases same
      cases read
  | finalizer epoch =>
      cases taken
      cases read
  | put i succeeds =>
      obtain ⟨⟨checkpoints, result⟩, put, same⟩ := Option.map_eq_some_iff.mp taken
      cases same
      cases result <;> simp at read

theorem Restartable.covered_step {event : SourceEvent Row}
    (restartable : Restartable h config persisted start log s)
    (taken : sourceStep s event = some (s', out)) {before after : List (SourceObs Row)}
    {epoch : Nat} {position : Position}
    (split : log ++ out = before ++ .snapshot epoch position :: after) :
    h.Fits position ∧
      Travelled h config.onNonAppendSnapshot start (Handed.of before).settled (some position) := by
  rcases Machine.split_of_alone (fun read => (sourceStep_snapshot taken read).1) split with
    ⟨rest, earlier⟩ | ⟨rfl, read⟩
  · exact restartable.covered before epoch position rest earlier
  · obtain ⟨-, visible⟩ := sourceStep_snapshot taken read
    have travelled := restartable.delivering.delivered
    rw [visible] at travelled
    exact ⟨restartable.delivering.fits position visible, travelled⟩

theorem Restartable.step {event : SourceEvent Row}
    (restartable : Restartable h config persisted start log s) (conforms : s.Conforms h event)
    (taken : sourceStep s event = some (s', out)) :
    Restartable h config persisted start (log ++ out) s' := by
  have delivering := restartable.delivering.step conforms taken
  rw [← List.foldl_append] at delivering
  have covered (before : List (SourceObs Row)) (epoch : Nat) (position : Position)
      (after : List (SourceObs Row))
      (split : log ++ out = before ++ .snapshot epoch position :: after) :=
    restartable.covered_step taken split
  have read := restartable.read.mono fun epoch position member =>
    List.mem_append_left out member
  have stored (position : Position) (held : s.checkpoints.stored = some position) :
      persisted = some position ∨ ∃ epoch, .snapshot epoch position ∈ log ++ out := by
    refine (restartable.stored position held).imp_right fun member => ?_
    obtain ⟨epoch, member⟩ := member
    exact ⟨epoch, List.mem_append_left out member⟩
  cases event with
  | generateBatch due =>
      simp only [sourceStep] at taken
      split at taken <;> cases taken
      exact ⟨delivering, covered, read, stored⟩
  | refreshed answer =>
      simp only [sourceStep] at taken
      split at taken <;> cases taken <;> exact ⟨delivering, covered, read, stored⟩
  | read event =>
      simp only [sourceStep] at taken
      split at taken
      · split at taken
        · obtain ⟨outcome, stepped, same⟩ := Option.map_eq_some_iff.mp taken
          cases same
          exact ⟨delivering, covered, read, stored⟩
        · cases taken
      · cases taken
  | caughtUp due =>
      simp only [sourceStep] at taken
      split at taken <;> cases taken
      exact ⟨delivering, covered, read, stored⟩
  | cancel =>
      simp only [sourceStep] at taken
      split at taken
      · cases taken
      · obtain ⟨outcome, stepped, same⟩ := Option.map_eq_some_iff.mp taken
        cases same
        exact ⟨delivering, covered, read, stored⟩
      · cases taken
        exact ⟨delivering, covered, read, stored⟩
  | marker epoch =>
      simp only [sourceStep] at taken
      split at taken <;> cases taken
      · exact ⟨delivering, covered, read.load (by simp), stored⟩
      · exact ⟨delivering, covered, read, stored⟩
  | record i =>
      obtain ⟨checkpoints, recorded, same⟩ := Option.map_eq_some_iff.mp taken
      cases same
      refine ⟨delivering, covered, read.record recorded, ?_⟩
      obtain ⟨entry, -, rfl⟩ := Option.map_eq_some_iff.mp recorded
      exact stored
  | finalizer epoch =>
      cases taken
      exact ⟨delivering, covered, read.finalize, stored⟩
  | put i succeeds =>
      obtain ⟨⟨checkpoints, result⟩, put, same⟩ := Option.map_eq_some_iff.mp taken
      cases same
      obtain ⟨read, origin, now_stored⟩ := read.store put
      refine ⟨delivering, covered, read, fun position held => ?_⟩
      rw [show checkpoints.stored = some position from held] at now_stored
      cases result with
      | none => exact stored position now_stored.symm
      | some value =>
          obtain rfl : position = value := Option.some.inj now_stored
          exact .inr (origin position rfl)

/-- The runs of a source that starts with what the backend holds. -/
abbrev RunsFrom (h : History Row) (config : IcebergSourceConfig) (table : TableMetadata)
    (persisted : Option Position) : SourceState Row → List (SourceObs Row) → Prop :=
  (sourceMachine Row).ReachesWhere (SourceState.Conforms h) (.initial config table persisted)

theorem restartable_of_runsFrom {table : TableMetadata} (of : table.Of h)
    (fits : ∀ position ∈ persisted, h.Fits position)
    (reached : RunsFrom h config table persisted s log) :
    Restartable h config persisted (persisted.or (initialPosition table config.startPosition)) log
      s := by
  refine reached.invariant (P := fun s log => Restartable h config persisted
    (persisted.or (initialPosition table config.startPosition)) log s) ?_ ?_
  · exact ⟨delivering_initial of fits, by simp, Checkpointing.all_restored _,
      fun position held => .inl held⟩
  · exact fun restartable conforms taken => restartable.step conforms taken

end

/-! ## Run after run -/

/-- What the backend holds after runs that were crashed at any point, the first of which started
at `first`, and the rows that each had delivered when a marker read the position that it left. -/
inductive Crashed (h : History Row) (config : IcebergSourceConfig) (first : Option Position) :
    List Row → Option Position → Prop
  | none : Crashed h config first [] none
  | run {rows : List Row} {persisted : Option Position} {position : Position}
    {table : TableMetadata} {s : SourceState Row} {before after : List (SourceObs Row)}
    {epoch : Nat} :
    Crashed h config first rows persisted → table.Of h →
    (persisted = .none → first = initialPosition table config.startPosition) →
    RunsFrom h config table persisted s (before ++ .snapshot epoch position :: after) →
    s.checkpoints.stored = some position →
    Crashed h config first (rows ++ (Handed.of before).settled) (some position)

section

variable {config : IcebergSourceConfig} {persisted first : Option Position} {rows : List Row}
  {s : SourceState Row} {log : List (SourceObs Row)} {table : TableMetadata}

theorem start_eq (begins : persisted = none → first = initialPosition table config.startPosition) :
    persisted.or (initialPosition table config.startPosition) = persisted.or first := by
  cases persisted with
  | none => rw [begins rfl]
  | some position => rfl

theorem Crashed.travelled (crashed : Crashed h config first rows persisted) :
    Travelled h config.onNonAppendSnapshot first rows (persisted.or first) ∧
      ∀ position ∈ persisted, h.Fits position := by
  induction crashed with
  | none => exact ⟨.refl _, nofun⟩
  | run _ of begins reached stored ih =>
      obtain ⟨travelled, fits⟩ := ih
      have restartable := restartable_of_runsFrom of fits reached
      obtain ⟨position_fits, more⟩ := restartable.covered _ _ _ _ rfl
      rw [start_eq begins] at more
      refine ⟨travelled.trans more, ?_⟩
      rintro position ⟨⟩
      exact position_fits

/-- **Rows are delivered exactly once.**  After any number of crashed runs, the rows that the
stored position covers, those that the current run returned and those that its cursor has left
are the rows of the table from the first position on, in order; and a position that the current
run stores covers what was delivered when a marker read it. -/
theorem delivered_exactly_once (crashed : Crashed h config first rows persisted)
    (of : table.Of h)
    (begins : persisted = none → first = initialPosition table config.startPosition)
    (reached : RunsFrom h config table persisted s log) :
    (∃ snapshots, Chain h (first.map Position.snapshotId) snapshots
        (s.reader.cursor.map Position.snapshotId) ∧
      h.restAt first ++ h.laterRows config.onNonAppendSnapshot snapshots =
        rows ++ ((Handed.of log).settled ++ (Handed.of log).last) ++ h.restAt s.reader.cursor) ∧
    ∀ position, s.checkpoints.stored = some position → persisted = some position ∨
      ∃ before epoch after snapshots, log = before ++ .snapshot epoch position :: after ∧
        Chain h (first.map Position.snapshotId) snapshots (some position.snapshotId) ∧
        h.restAt first ++ h.laterRows config.onNonAppendSnapshot snapshots =
          rows ++ (Handed.of before).settled ++ h.rest position := by
  obtain ⟨travelled, fits⟩ := crashed.travelled
  have restartable := restartable_of_runsFrom of fits reached
  have covered := restartable.covered
  have delivering := restartable.delivering
  rw [start_eq begins] at covered delivering
  constructor
  · exact (travelled.trans (delivering.delivered.trans delivering.ahead)).exists_chain
  · intro position stored
    refine (restartable.stored position stored).imp_right fun read => ?_
    obtain ⟨epoch, member⟩ := read
    obtain ⟨before, after, split⟩ := List.append_of_mem member
    obtain ⟨snapshots, chain, same⟩ :=
      (travelled.trans (covered before epoch position after split).2).exists_chain
    exact ⟨before, epoch, after, snapshots, split, chain, same⟩

end

def demoConfig : IcebergSourceConfig := ⟨.earliest, 2, .error, by decide⟩

def demoTable : TableMetadata := ⟨[oneFile.snapshot 1], some 1⟩

theorem demoTable_of : demoTable.Of oneFile := by
  intro snapshot listed
  rw [List.mem_singleton.mp listed]
  rfl

/-- Two rows are returned, and a marker comes during the next call. -/
def demoEvents : List (SourceEvent Nat) :=
  [.read (.polled (.ok ())), .read (.polled (.ok ())), .read (.converted (.ok ())),
    .generateBatch false, .marker 7, .record 0, .finalizer 7, .put 0 true]

/-- Two of three rows are delivered when a marker reads the position that is stored. -/
theorem demo_crashed : Crashed oneFile demoConfig (some (.start 1 .scan)) [1, 2]
    (some ⟨1, .scan, 0, 2, false⟩) := by
  let start : SourceState Nat := .initial demoConfig demoTable none
  let unit (stream : Option (List (List Nat))) : FileUnit Nat :=
    ⟨1, 0, .scan, oneFile.files 1 .scan, 0, 0, 0, stream, none⟩
  let reading (stream : Option (List (List Nat))) : SourceState Nat :=
    { start with
      call := .reading false
      reader := { start.reader with call := .reading (unit stream) [] } }
  have opening : RunsFrom oneFile demoConfig demoTable none
      { start with
        call := .reading false
        reader := { start.reader with call := .opening (.start 1 .scan) 0 } } [.called] := by
    refine Machine.ReachesWhere.refl.run ?_ (show (sourceMachine Nat).run _
      [.generateBatch false, .read .nextBatch] = _ from rfl)
    simp [SourceState.Conforms, TableReader.Conforms]
  have planned : RunsFrom oneFile demoConfig demoTable none (reading none) [.called] := by
    refine opening.step (e := .read (.planned (.ok (oneFile.files 1 .scan)))) ?_ ?_
    · intro position timestampMs at'
      cases at'
      exact .refl _
    · simp only [sourceMachine, sourceStep, TableReader.step, TableReader.openFiles]
      rw [oneFile.mergeSort_eq_sortedFiles (.refl _)]
      have sorted : oneFile.sortedFiles 1 .scan = oneFile.files 1 .scan :=
        List.mergeSort_singleton _
      simp only [Position.start, sorted]
      rfl
  have opened : RunsFrom oneFile demoConfig demoTable none (reading (some [[1], [2, 3]]))
      [.called] := by
    refine planned.step (e := .read (.opened (.ok [[1], [2, 3]]))) ?_ rfl
    intro unit out file at' current
    cases at'
    cases current
    rfl
  have conforms : ∀ e ∈ demoEvents, ∀ s, SourceState.Conforms oneFile s e := by
    simp [demoEvents, SourceState.Conforms, TableReader.Conforms]
  have stored : RunsFrom oneFile demoConfig demoTable none _
      ([.called, .returned [1, 2], .called] ++
        .snapshot 7 ⟨1, .scan, 0, 2, false⟩ :: [.persisted ⟨1, .scan, 0, 2, false⟩]) :=
    opened.run conforms rfl
  exact .run .none demoTable_of (fun _ => rfl) stored rfl

/-- The run after the crash has the third row left. -/
theorem delivered_exactly_once_demo : ∃ snapshots, Chain oneFile (some 1) snapshots (some 1) ∧
    oneFile.unitRows 1 .scan ++ oneFile.laterRows .error snapshots = [1, 2] ++ [3] := by
  obtain ⟨⟨snapshots, chain, same⟩, -⟩ :=
    delivered_exactly_once demo_crashed demoTable_of nofun .refl
  have sorted : oneFile.sortedFiles 1 .scan = oneFile.files 1 .scan := List.mergeSort_singleton _
  have left : oneFile.restAt (some ⟨1, .scan, 0, 2, false⟩) = [3] := by
    simp only [History.restAt, Option.elim, History.rest, sorted]
    rfl
  refine ⟨snapshots, chain, ?_⟩
  rw [← oneFile.rest_start, ← left]
  exact same

end StreamlingPlugins.IcebergSource
