import StreamlingPlugins.IcebergSource.ReaderRuns

/-!
# Exact resume

What a reader returned and what its cursor has left are the rows after the position it
started from, and a new reader from that cursor goes on with exactly the rest.
-/

namespace StreamlingPlugins.IcebergSource

variable {Row : Type} {h : History Row}

/-! ## Resuming -/

/-- `rows` and what the cursor has left are the rows of a unit and of the snapshots
after it up to the cursor's. -/
def ReadFrom (h : History Row) (policy : OnNonAppendSnapshot) (id : Int) (phase : Phase)
    (rows : List Row) (cursor : Position) : Prop :=
  ∃ snapshots, Chain h (some id) snapshots (some cursor.snapshotId) ∧
    (cursor.snapshotId = id → snapshots = []) ∧
    rows ++ h.rest cursor = h.unitRows id phase ++ h.laterRows policy snapshots

theorem Travelled.some_right {policy : OnNonAppendSnapshot} {start : Position} {rows : List Row}
    {cursor : Option Position} (travelled : Travelled h policy (some start) rows cursor) :
    ∃ position, cursor = some position := by
  generalize at' : some start = first at travelled
  induction travelled with
  | refl => exact ⟨start, at'.symm⟩
  | tail _ step _ => cases step <;> exact ⟨_, rfl⟩

theorem Travelled.readFrom {policy : OnNonAppendSnapshot} {id : Int} {phase : Phase}
    {rows : List Row} {cursor : Position}
    (travelled : Travelled h policy (some (.start id phase)) rows (some cursor)) :
    ReadFrom h policy id phase rows cursor := by
  obtain ⟨snapshots, chain, rows_eq⟩ := travelled.exists_chain
  refine ⟨snapshots, chain, ?_, ?_⟩
  · intro same
    have chain' : Chain h (some id) snapshots (some cursor.snapshotId) := chain
    rw [same] at chain'
    exact chain'.eq_nil
  · rw [← h.rest_start id phase]
    exact rows_eq.symm

/-- Of any run of a reader over a unit and on, whatever interrupts it: its batches have
between one and `batchSize` rows, and from its cursor a new reader, interrupted or not,
returns the rows after those returned already.  Left alone it returns the rest of the
cursor's unit, so that in the unit itself both together are all of its rows. -/
theorem exact_resume {policy : OnNonAppendSnapshot} {id : Int} {phase : Phase}
    {table : TableMetadata} {batchSize : Nat} {reader : TableReader Row} {log : List (List Row)}
    (of : table.Of h)
    (reached : (readerMachine Row).ReachesWhere (TableReader.Conforms h)
      (.new table batchSize policy (some (.start id phase))) reader log) :
    (∀ batch ∈ log, 1 ≤ batch.length ∧ batch.length ≤ batchSize) ∧
      ∃ cursor, reader.cursor = some cursor ∧ ReadFrom h policy id phase log.flatten cursor ∧
        ∀ (table' : TableMetadata) (batchSize' : Nat), table'.Of h → 1 ≤ batchSize' →
          (∀ reader' log', (readerMachine Row).ReachesWhere (TableReader.Conforms h)
              (.new table' batchSize' policy (some cursor)) reader' log' →
            (∀ batch ∈ log', 1 ≤ batch.length ∧ batch.length ≤ batchSize') ∧
              ∃ cursor', reader'.cursor = some cursor' ∧
                ReadFrom h policy id phase (log ++ log').flatten cursor') ∧
          ((table'.snapshotById cursor.snapshotId).isSome →
            (readerMachine Row).Inevitable (TableReader.Uninterrupted h)
              (fun _ log' => (log ++ log').flatten = log.flatten ++ h.rest cursor)
              (.new table' batchSize' policy (some cursor)) []) := by
  have fits : ∀ position ∈ some (Position.start id phase), h.Fits position := by
    intro position isStart
    obtain rfl := Option.some_inj.mp isStart
    exact h.fits_start id phase
  have first := ran of fits reached
  obtain ⟨cursor, cursor_eq⟩ := first.travelled.some_right
  have travelled := first.travelled
  rw [cursor_eq] at travelled
  have fits' : ∀ position ∈ some cursor, h.Fits position := by
    rw [← cursor_eq]
    exact first.sound.cursor
  refine ⟨first.size, cursor, cursor_eq, travelled.readFrom, ?_⟩
  intro table' batchSize' of' positive
  constructor
  · intro reader' log' reached'
    have second := ran of' fits' reached'
    obtain ⟨cursor', cursor_eq'⟩ := second.travelled.some_right
    have travelled' := second.travelled
    rw [cursor_eq'] at travelled'
    refine ⟨second.size, cursor', cursor_eq', ?_⟩
    rw [List.flatten_append]
    exact (travelled.trans travelled').readFrom
  · intro listed
    cases complete : cursor.complete with
    | true =>
        refine .reached ?_
        rw [h.rest_of_complete complete]
        simp
    | false =>
        have inside : (TableReader.new table' batchSize' policy (some cursor) :
            TableReader Row).Inside h cursor.snapshotId cursor :=
          ⟨TableReader.sound_new of' fits', positive, listed, rfl, complete, fits' cursor rfl, rfl⟩
        have rest_eq : ([] : List (List Row)).flatten ++ h.rest cursor = h.rest cursor := rfl
        refine (inside.inevitable rest_eq).mono ?_
        intro _ log' returned
        rw [List.flatten_append, returned]

/-- A history of snapshots with one data file each. -/
def oneFile : History Nat where
  snapshot id := ⟨id, none, 0, .append⟩
  snapshotId_snapshot _ := rfl
  age _ := 0
  age_parent _ _ root := by cases root
  files _ _ := [⟨"a.parquet", [1, 2, 3]⟩]
  distinct _ _ := by simp

/-- Two of three rows were returned, from record batches of one row and of two. -/
theorem exact_resume_leftover :
    ReadFrom oneFile .error 1 .incremental [1, 2] ⟨1, .incremental, 0, 2, false⟩ := by
  let table : TableMetadata := ⟨[oneFile.snapshot 1], some 1⟩
  have of : table.Of oneFile := by
    intro snapshot listed
    rw [List.mem_singleton.mp listed]
    rfl
  let start : TableReader Nat := .new table 2 .error (some (.start 1 .incremental))
  let unit (rowsInFile : Nat) (stream leftover) : FileUnit Nat :=
    ⟨1, 0, .incremental, oneFile.files 1 .incremental, 0, rowsInFile, 0, stream, leftover⟩
  have opening : (readerMachine Nat).ReachesWhere (TableReader.Conforms oneFile) start
      { start with call := .opening (.start 1 .incremental) 0 } [] := by
    refine .step (e := .nextBatch) .refl ?_ rfl
    trivial
  have planned : (readerMachine Nat).ReachesWhere (TableReader.Conforms oneFile) start
      { start with call := .reading (unit 0 none none) [] } [] := by
    refine .step (e := .planned (.ok (oneFile.files 1 .incremental))) opening ?_ ?_
    · intro position timestampMs at'
      cases at'
      exact .refl _
    · simp only [readerMachine, TableReader.step, TableReader.openFiles]
      rw [oneFile.mergeSort_eq_sortedFiles (.refl _)]
      have sorted : oneFile.sortedFiles 1 .incremental = oneFile.files 1 .incremental :=
        List.mergeSort_singleton _
      simp only [Position.start, sorted]
      rfl
  have opened : (readerMachine Nat).ReachesWhere (TableReader.Conforms oneFile) start
      { start with call := .reading (unit 0 (some [[1], [2, 3]]) none) [] } [] := by
    refine .step (e := .opened (.ok [[1], [2, 3]])) planned ?_ rfl
    intro unit out file at' current
    cases at'
    cases current
    rfl
  have polled : (readerMachine Nat).ReachesWhere (TableReader.Conforms oneFile) start
      { start with call := .reading (unit 1 (some [[2, 3]]) none) [[1]] } [] := by
    refine .step (e := .polled (.ok ())) opened ?_ rfl
    trivial
  have full : (readerMachine Nat).ReachesWhere (TableReader.Conforms oneFile) start
      { start with call := .converting (unit 2 (some []) (some [3])) [[1], [2]] } [] := by
    refine .step (e := .polled (.ok ())) polled ?_ rfl
    trivial
  have returned : (readerMachine Nat).ReachesWhere (TableReader.Conforms oneFile) start
      { start with
        cursor := some ⟨1, .incremental, 0, 2, false⟩
        unit := some (unit 2 (some []) (some [3])) } [[1, 2]] := by
    refine .step (e := .converted (.ok ())) full ?_ rfl
    trivial
  obtain ⟨_, cursor, cursor_eq, read, _⟩ := exact_resume of returned
  rw [← Option.some_inj.mp cursor_eq] at read
  exact read

end StreamlingPlugins.IcebergSource
