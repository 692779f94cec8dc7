import StreamlingPlugins.IcebergSource.Lineage

/-!
# Sound readers

A reader whose answers are those of one history keeps `TableReader.Sound`: its unit
still has the rows after its cursor, and the rows of a batch are the rows the cursor
moves past.
-/

namespace StreamlingPlugins.IcebergSource

open IcebergSink (icebergError)

variable {Row : Type} {h : History Row}

/-! ## Sound units -/

/-- The rows of the current file that a unit has yet to give. -/
def FileUnit.pending (unit : FileUnit Row) (file : DataFile Row) : List Row :=
  unit.leftover.getD [] ++ (unit.stream.elim file.rows List.flatten).drop unit.skip

/-- A unit over the files of the history, with the rows after its position ahead. -/
structure FileUnit.Sound (h : History Row) (unit : FileUnit Row) : Prop where
  files : unit.files = h.sortedFiles unit.snapshotId unit.phase
  pending : ∀ file, unit.files[unit.file]? = some file →
    unit.pending file = file.rows.drop unit.rowsInFile
  fits : ∀ file, unit.files[unit.file]? = some file → unit.rowsInFile ≤ file.rows.length
  skip : ∀ file, unit.files[unit.file]? = some file →
    unit.skip ≤ (unit.stream.elim file.rows List.flatten).length
  leftover : unit.leftover ≠ some []

theorem FileUnit.position_of_not_isDone {unit : FileUnit Row} (left : unit.isDone = false) :
    unit.position = ⟨unit.snapshotId, unit.phase, unit.file, unit.rowsInFile, false⟩ := by
  simp [FileUnit.position, left]

theorem FileUnit.position_of_isDone {unit : FileUnit Row} (done : unit.isDone = true) :
    unit.position = .completed unit.snapshotId unit.phase := by
  simp [FileUnit.position, done]

@[simp] theorem FileUnit.position_snapshotId (unit : FileUnit Row) :
    unit.position.snapshotId = unit.snapshotId := by
  unfold FileUnit.position
  split <;> rfl

@[simp] theorem FileUnit.position_phase (unit : FileUnit Row) :
    unit.position.phase = unit.phase := by
  unfold FileUnit.position
  split <;> rfl

@[simp] theorem FileUnit.position_complete (unit : FileUnit Row) :
    unit.position.complete = unit.isDone := by
  unfold FileUnit.position
  split
  · rename_i done
    rw [done]
    rfl
  · rename_i left
    simpa using left

theorem FileUnit.exists_file {unit : FileUnit Row} (left : unit.isDone = false) :
    ∃ file, unit.files[unit.file]? = some file := by
  have inside : unit.file < unit.files.length := by simpa [FileUnit.isDone] using left
  exact ⟨unit.files[unit.file], List.getElem?_eq_getElem inside⟩

theorem FileUnit.isDone_of_file {unit : FileUnit Row} {file : DataFile Row}
    (current : unit.files[unit.file]? = some file) : unit.isDone = false := by
  have inside : unit.file < unit.files.length := (List.getElem?_eq_some_iff.mp current).1
  simpa [FileUnit.isDone] using inside

theorem drop_eq_cons_of_getElem? {α : Type} {l : List α} {i : Nat} {a : α}
    (found : l[i]? = some a) : l.drop i = a :: l.drop (i + 1) := by
  obtain ⟨inside, rfl⟩ := List.getElem?_eq_some_iff.mp found
  exact List.drop_eq_getElem_cons inside

/-- The rows after a position inside a file. -/
theorem History.rest_of_file {position : Position} {file : DataFile Row}
    (incomplete : position.complete = false)
    (current : (h.sortedFiles position.snapshotId position.phase)[position.filesDone]? = some file) :
    h.rest position = file.rows.drop position.rowsDoneInFile ++
      ((h.sortedFiles position.snapshotId position.phase).drop (position.filesDone + 1)).flatMap
        DataFile.rows := by
  unfold History.rest
  rw [drop_eq_cons_of_getElem? current]
  simp [incomplete]

namespace FileUnit.Sound

variable {unit : FileUnit Row} (sound : unit.Sound h)

include sound

theorem fits_position : h.Fits unit.position := by
  cases left : unit.isDone with
  | true =>
      rw [FileUnit.position_of_isDone left]
      exact h.fits_completed _ _
  | false =>
      rw [FileUnit.position_of_not_isDone left]
      refine .inr ⟨?_, ?_⟩
      · have inside : unit.file < unit.files.length := by simpa [FileUnit.isDone] using left
        rw [← sound.files]
        exact inside.le
      · rw [← sound.files]
        exact sound.fits

/-- The rest of a unit: of its file, then of the files after it. -/
theorem rest_position {file : DataFile Row} (current : unit.files[unit.file]? = some file) :
    h.rest unit.position = unit.pending file ++
      (unit.files.drop (unit.file + 1)).flatMap DataFile.rows := by
  rw [FileUnit.position_of_not_isDone (FileUnit.isDone_of_file current),
    h.rest_of_file rfl (by rw [← sound.files]; exact current), sound.pending file current,
    ← sound.files]

/-- The file ends with nothing left to give. -/
theorem nextFile {file : DataFile Row} (current : unit.files[unit.file]? = some file)
    (ended : unit.pending file = []) (read : unit.skip = 0) (used : unit.leftover = none) :
    unit.nextFile.Sound h ∧ h.rest unit.position = h.rest unit.nextFile.position ∧
      unit.position.Before unit.nextFile.position := by
  have next : unit.nextFile.Sound h := by
    refine ⟨sound.files, ?_, ?_, ?_, ?_⟩
    · intro file' _
      simp [FileUnit.nextFile, FileUnit.pending, used, read]
    · intro file' _
      exact Nat.zero_le _
    · intro file' _
      simp [FileUnit.nextFile, read]
    · simp [FileUnit.nextFile, used]
  refine ⟨next, ?_, ?_⟩
  · rw [sound.rest_position current, ended, List.nil_append]
    cases left : unit.nextFile.isDone with
    | true =>
        rw [FileUnit.position_of_isDone left, h.rest_completed]
        have past : unit.files.length ≤ unit.file + 1 := of_decide_eq_true left
        simp [List.drop_eq_nil_of_le past]
    | false =>
        obtain ⟨file', current'⟩ := FileUnit.exists_file left
        rw [next.rest_position current', next.pending file' current']
        have split : unit.files.drop (unit.file + 1) = file' :: unit.files.drop (unit.file + 2) :=
          drop_eq_cons_of_getElem? current'
        rw [split]
        simp [FileUnit.nextFile]
  · rw [FileUnit.position_of_not_isDone (FileUnit.isDone_of_file current)]
    cases left : unit.nextFile.isDone with
    | true =>
        rw [FileUnit.position_of_isDone left]
        exact .inl rfl
    | false =>
        rw [FileUnit.position_of_not_isDone left]
        exact .inr (.inl (Nat.lt_succ_self _))

end FileUnit.Sound

/-! ## Slices -/

/-- The slices that a call has read past its cursor, and the unit after them. -/
structure Slices (h : History Row) (policy : OnNonAppendSnapshot) (cursor : Option Position)
    (max : Nat) (unit : FileUnit Row) (out : List (List Row)) : Prop where
  sound : unit.Sound h
  travelled : Travelled h policy cursor out.flatten (some unit.position)
  filled : ∀ slice ∈ out, slice ≠ []
  bound : out.flatten.length ≤ max

section Slices

variable {policy : OnNonAppendSnapshot} {cursor : Option Position} {max : Nat}
  {unit : FileUnit Row} {out : List (List Row)}

theorem Slices.length_pos (slices : Slices h policy cursor max unit out) (some' : out ≠ []) :
    1 ≤ out.flatten.length := by
  cases out with
  | nil => exact absurd rfl some'
  | cons slice out =>
      have filled := List.length_pos_of_ne_nil (slices.filled slice List.mem_cons_self)
      simp only [List.flatten_cons, List.length_append]
      omega

/-- Taking a slice stays in the unit's file. -/
theorem FileUnit.take_frame (unit : FileUnit Row) (max : Nat) (out : List (List Row))
    (batch : List Row) :
    (unit.take max out batch).1.snapshotId = unit.snapshotId ∧
      (unit.take max out batch).1.files = unit.files ∧
      (unit.take max out batch).1.file = unit.file ∧
      (unit.take max out batch).1.stream = unit.stream := by
  simp only [FileUnit.take]
  split <;> simp

/-- A batch that the unit holds goes to the slices, up to `max` rows. -/
theorem Slices.take {batch : List Row}
    (slices : Slices h policy cursor max { unit with leftover := some batch } out)
    (left : unit.isDone = false) (room : out.flatten.length < max) :
    Slices h policy cursor max (unit.take max out batch).1 (unit.take max out batch).2 ∧
      (unit.take max out batch).2 ≠ [] ∧
      ((unit.take max out batch).2.flatten.length < max →
        (unit.take max out batch).1.leftover = none) := by
  obtain ⟨file, current⟩ := FileUnit.exists_file left
  have filled : batch ≠ [] := fun none => slices.sound.leftover (by rw [none])
  have length_pos : 0 < batch.length := List.length_pos_of_ne_nil filled
  have pending := slices.sound.pending file current
  have fits := slices.sound.fits file current
  have skip := slices.sound.skip file current
  simp only [FileUnit.pending, Option.getD_some] at pending fits skip
  have held : batch.length ≤ file.rows.length - unit.rowsInFile := by
    have lengths := congrArg List.length pending
    simp only [List.length_append, List.length_drop] at lengths
    omega
  set count := min batch.length (max - out.flatten.length) with count_eq
  have count_pos : 0 < count := by omega
  have count_le : count ≤ batch.length := by omega
  -- the unit after the slice
  let after : FileUnit Row := { unit with
    leftover := if count < batch.length then some (batch.drop count) else none
    rowsInFile := unit.rowsInFile + count }
  have taken : unit.take max out batch = (after, out ++ [batch.take count]) := by
    simp only [FileUnit.take, ← count_eq, count_pos, ↓reduceIte, after]
  have after_sound : after.Sound h := by
    refine ⟨slices.sound.files, ?_, ?_, ?_, ?_⟩
    · intro file' current'
      have same : file' = file := Option.some_inj.mp (current'.symm.trans current)
      subst same
      have leftover_eq : after.leftover.getD [] = batch.drop count := by
        by_cases short : count < batch.length
        · simp [after, short]
        · simp [after, short, List.drop_eq_nil_of_le (Nat.le_of_not_lt short)]
      rw [FileUnit.pending, leftover_eq, ← List.drop_drop, ← pending,
        List.drop_append_of_le_length count_le]
    · intro file' current'
      have same : file' = file := Option.some_inj.mp (current'.symm.trans current)
      subst same
      change unit.rowsInFile + count ≤ _
      omega
    · intro file' current'
      have same : file' = file := Option.some_inj.mp (current'.symm.trans current)
      subst same
      exact skip
    · by_cases short : count < batch.length
      · have some_left : batch.drop count ≠ [] := by
          intro none
          have := List.drop_eq_nil_iff.mp none
          omega
        simp [after, short, some_left]
      · simp [after, short]
  have moved : Advances h policy (some unit.position) (batch.take count) (some after.position) := by
    have left' : after.isDone = false := left
    rw [FileUnit.position_of_not_isDone left, FileUnit.position_of_not_isDone left']
    refine .read rfl rfl rfl (.inr (.inr ⟨rfl, Nat.le_add_right _ _⟩)) ?_
    have current' : (h.sortedFiles unit.snapshotId unit.phase)[unit.file]? = some file := by
      rw [← slices.sound.files]
      exact current
    rw [h.rest_of_file rfl current', h.rest_of_file rfl current', ← List.append_assoc]
    congr 1
    change file.rows.drop unit.rowsInFile = _ ++ file.rows.drop (unit.rowsInFile + count)
    rw [← List.drop_drop, ← pending, List.drop_append_of_le_length count_le, ← List.append_assoc,
      List.take_append_drop]
  rw [taken]
  refine ⟨⟨after_sound, ?_, ?_, ?_⟩, by simp, ?_⟩
  · have travelled := slices.travelled.tail moved
    simpa using travelled
  · intro slice member
    rcases List.mem_append.mp member with old | new
    · exact slices.filled slice old
    · rw [List.mem_singleton.mp new]
      intro none
      have := List.take_eq_nil_iff.mp none
      rcases this with zero | empty
      · omega
      · exact filled empty
  · simp only [List.flatten_append, List.length_append, List.flatten_singleton, List.length_take]
    omega
  · intro short
    simp only [List.flatten_append, List.length_append, List.flatten_singleton,
      List.length_take] at short
    have all : ¬ count < batch.length := by omega
    simp [after, all]

/-- The rows of a record batch after those that the resume skip drops. -/
theorem flatten_drop_skip {batch : List Row} {chunks : List (List Row)} {skip : Nat} :
    (batch :: chunks).flatten.drop skip = batch.drop (min batch.length skip) ++
      chunks.flatten.drop (skip - min batch.length skip) := by
  rw [List.flatten_cons, List.drop_append]
  rcases Nat.le_total batch.length skip with whole | part
  · rw [Nat.min_eq_left whole, List.drop_eq_nil_of_le whole, List.drop_length]
  · rw [Nat.min_eq_right part, Nat.sub_eq_zero_of_le part, Nat.sub_self]

/-- The unit holds what the resume skip leaves of a record batch. -/
theorem Slices.skip {chunks : List (List Row)} {batch : List Row}
    (slices : Slices h policy cursor max { unit with stream := some (batch :: chunks) } out)
    (used : unit.leftover = none) (leftover : Option (List Row))
    (held : leftover.getD [] = batch.drop (min batch.length unit.skip))
    (filled : leftover ≠ some []) :
    Slices h policy cursor max
      { unit with
        stream := some chunks
        skip := unit.skip - min batch.length unit.skip
        leftover := leftover } out := by
  refine ⟨⟨slices.sound.files, ?_, slices.sound.fits, ?_, filled⟩, slices.travelled,
    slices.filled, slices.bound⟩
  · intro file current
    have pending := slices.sound.pending file current
    simp only [FileUnit.pending, used, Option.getD_none, List.nil_append, Option.elim_some,
      flatten_drop_skip] at pending
    simpa only [FileUnit.pending, held, Option.elim_some] using pending
  · intro file current
    have skip := slices.sound.skip file current
    simp only [Option.elim_some, List.flatten_cons, List.length_append] at skip
    change unit.skip - min batch.length unit.skip ≤ chunks.flatten.length
    omega

/-- The current file was opened, with its rows in record batches. -/
theorem Slices.opened {file : DataFile Row} {chunks : List (List Row)}
    (slices : Slices h policy cursor max unit out) (current : unit.files[unit.file]? = some file)
    (closed : unit.stream = none) (rows : chunks.flatten = file.rows) :
    Slices h policy cursor max { unit with stream := some chunks } out := by
  have same : ∀ file', unit.files[unit.file]? = some file' → chunks.flatten = file'.rows :=
    fun file' current' => by rwa [← Option.some_inj.mp (current.symm.trans current')]
  refine ⟨⟨slices.sound.files, ?_, slices.sound.fits, ?_, slices.sound.leftover⟩,
    slices.travelled, slices.filled, slices.bound⟩
  · intro file' current'
    have pending := slices.sound.pending file' current'
    simp only [FileUnit.pending, closed, Option.elim_none] at pending
    simpa only [FileUnit.pending, Option.elim_some, same file' current'] using pending
  · intro file' current'
    have skip := slices.sound.skip file' current'
    simp only [closed, Option.elim_none] at skip
    simpa only [Option.elim_some, same file' current'] using skip

/-- At the end of a file the skip is used up. -/
theorem Slices.nextFile {file : DataFile Row} (slices : Slices h policy cursor max unit out)
    (current : unit.files[unit.file]? = some file) (stream : unit.stream = some [])
    (used : unit.leftover = none) :
    unit.skip = 0 ∧ Slices h policy cursor max unit.nextFile out := by
  have skip := slices.sound.skip file current
  simp only [stream, Option.elim_some, List.flatten_nil, List.length_nil, Nat.le_zero] at skip
  have ended : unit.pending file = [] := by
    simp [FileUnit.pending, used, stream]
  obtain ⟨next, rest_eq, before⟩ := slices.sound.nextFile current ended skip used
  have moved : Advances h policy (some unit.position) [] (some unit.nextFile.position) := by
    refine .read ?_ ?_ ?_ before rest_eq
    · simp [FileUnit.nextFile]
    · simp [FileUnit.nextFile]
    · simp [FileUnit.isDone_of_file current]
  refine ⟨skip, next, ?_, slices.filled, slices.bound⟩
  simpa using slices.travelled.tail moved

end Slices

/-! ## Sound readers -/

/-- What holds of a reader whose call is suspended there. -/
def Suspended.Sound (h : History Row) (reader : TableReader Row) : Suspended Row → Prop
  | .idle => ∀ unit ∈ reader.unit,
      unit.Sound h ∧ unit.isDone = false ∧ reader.cursor = some unit.position
  | .opening position _ => reader.unit = none ∧ h.Fits position ∧ position.complete = false ∧
      Travelled h reader.policy reader.cursor [] (some position)
  | .reading unit out => reader.unit = none ∧ unit.isDone = false ∧ unit.leftover = none ∧
      out.flatten.length < reader.batchSize ∧
      Slices h reader.policy reader.cursor reader.batchSize unit out
  | .converting unit out => reader.unit = none ∧ out ≠ [] ∧
      Slices h reader.policy reader.cursor reader.batchSize unit out

structure TableReader.Sound (h : History Row) (reader : TableReader Row) : Prop where
  table : reader.table.Of h
  cursor : ∀ position ∈ reader.cursor, h.Fits position
  call : reader.call.Sound h reader

/-- A sound reader whose call has taken its unit out. -/
structure TableReader.Free (h : History Row) (reader : TableReader Row) : Prop where
  table : reader.table.Of h
  cursor : ∀ position ∈ reader.cursor, h.Fits position
  unit : reader.unit = none

/-- The batch a call returned. -/
def batches : Option (Returned Row) → List (List Row)
  | some (.ok (some batch)) => [batch]
  | _ => []

/-- No incomplete unit and no snapshot is left to read. -/
def TableReader.CaughtUp (reader : TableReader Row) : Prop :=
  (∀ position ∈ reader.cursor, position.complete = true) ∧
    reader.cursor.map Position.snapshotId =
      reader.table.currentSnapshot.map Snapshot.snapshotId

/-- What an event leaves: a sound reader, whose cursor moved past the rows of the
batch it returned. -/
structure Outcome.Sound (h : History Row) (reader : TableReader Row) (outcome : Outcome Row) :
    Prop where
  sound : outcome.1.Sound h
  policy : outcome.1.policy = reader.policy
  batchSize : outcome.1.batchSize = reader.batchSize
  travelled : Travelled h reader.policy reader.cursor (batches outcome.2).flatten outcome.1.cursor
  size : ∀ batch ∈ batches outcome.2, 1 ≤ batch.length ∧ batch.length ≤ reader.batchSize
  idle : outcome.2.isSome → outcome.1.call = .idle
  caughtUp : outcome.2 = some (.ok none) → outcome.1.CaughtUp

namespace TableReader

variable {reader : TableReader Row}

/-- A call that fails keeps the cursor. -/
theorem Free.ret_error (free : reader.Free h) (e : PluginError) :
    Outcome.Sound h reader (reader.ret (.error e)) where
  sound := ⟨free.table, free.cursor, fun unit isUnit => by cases free.unit ▸ isUnit⟩
  policy := rfl
  batchSize := rfl
  travelled := .refl _
  size := fun _ none => by cases none
  idle := fun _ => rfl
  caughtUp := fun other => by cases other

theorem Free.openUnit (free : reader.Free h) {position : Position} (fits : h.Fits position)
    (incomplete : position.complete = false)
    (travelled : Travelled h reader.policy reader.cursor [] (some position)) :
    Outcome.Sound h reader (reader.openUnit position) := by
  unfold TableReader.openUnit
  cases reader.table.snapshotById position.snapshotId with
  | none => exact free.ret_error _
  | some snapshot =>
      exact {
        sound := ⟨free.table, free.cursor, free.unit, fits, incomplete, travelled⟩
        policy := rfl
        batchSize := rfl
        travelled := .refl _
        size := fun _ none => by cases none
        idle := fun returned => by cases returned
        caughtUp := fun other => by cases other }

end TableReader

/-- An outcome after the cursor moved past no rows. -/
theorem Outcome.Sound.of_moved {reader reader' : TableReader Row} {outcome : Outcome Row}
    (sound : Outcome.Sound h reader' outcome) (policy : reader'.policy = reader.policy)
    (batchSize : reader'.batchSize = reader.batchSize)
    (moved : Travelled h reader.policy reader.cursor [] reader'.cursor) :
    Outcome.Sound h reader outcome where
  sound := sound.sound
  policy := sound.policy.trans policy
  batchSize := sound.batchSize.trans batchSize
  travelled := by
    have travelled := sound.travelled
    rw [policy] at travelled
    simpa using moved.trans travelled
  size := by
    have size := sound.size
    rwa [batchSize] at size
  idle := sound.idle
  caughtUp := sound.caughtUp

namespace TableReader

variable {reader : TableReader Row}

/-- The reader takes up the snapshots of a chain from its completed cursor. -/
theorem Free.openFirst {snapshots : List Snapshot} {reader : TableReader Row}
    (free : reader.Free h) (complete : ∀ position ∈ reader.cursor, position.complete = true)
    (chain : Chain h (reader.cursor.map Position.snapshotId) snapshots
      (reader.table.currentSnapshot.map Snapshot.snapshotId)) :
    Outcome.Sound h reader (reader.openFirst snapshots) := by
  induction snapshots generalizing reader with
  | nil =>
      exact {
        sound := ⟨free.table, free.cursor, fun unit isUnit => by cases free.unit ▸ isUnit⟩
        policy := rfl
        batchSize := rfl
        travelled := .refl _
        size := fun _ none => by cases none
        idle := fun _ => rfl
        caughtUp := fun _ => ⟨complete, chain.eq_of_nil⟩ }
  | cons snapshot snapshots ih =>
      cases chain with
      | cons known parent rest =>
          unfold TableReader.openFirst
          have parent' : (h.snapshot snapshot.snapshotId).parentSnapshotId =
              reader.cursor.map Position.snapshotId := by
            rw [← known, parent]
          cases action : classify snapshot reader.policy with
          | error e => exact free.ret_error e
          | ok action' =>
              rw [known] at action
              cases action' with
              | read =>
                  exact free.openUnit (h.fits_start _ _) rfl
                    (.one (.enter complete parent' action))
              | skip =>
                  let skipped := { reader with
                    cursor := some (.completed snapshot.snapshotId .incremental) }
                  have free' : (skipped.finishSnapshot snapshot.timestampMs).Free h := by
                    refine ⟨free.table, ?_, free.unit⟩
                    intro position isCursor
                    obtain rfl := Option.some_inj.mp isCursor
                    exact h.fits_completed _ _
                  refine (ih free' ?_ rest).of_moved rfl rfl (.one (.pass complete parent' action))
                  intro position isCursor
                  obtain rfl := Option.some_inj.mp isCursor
                  rfl

theorem Free.openNextUnit {outcome : Outcome Row} (free : reader.Free h)
    (opened : reader.openNextUnit = some outcome) : Outcome.Sound h reader outcome := by
  unfold TableReader.openNextUnit at opened
  split at opened
  · rename_i position unfinished
    obtain ⟨cursor, incomplete⟩ := Option.filter_eq_some_iff.mp unfinished
    cases opened
    refine free.openUnit (free.cursor position cursor) (by simpa using incomplete) ?_
    rw [cursor]
    exact .refl _
  · rename_i finished
    have complete : ∀ position ∈ reader.cursor, position.complete = true := by
      simpa [Option.filter_eq_none_iff] using finished
    split at opened
    · cases opened
    · cases opened
      exact free.ret_error _
    · rename_i snapshots since
      cases opened
      exact free.openFirst complete (chain_of_snapshotsSince free.table since)

theorem Free.finishRead {unit : FileUnit Row} {out : List (List Row)} {outcome : Outcome Row}
    (free : reader.Free h)
    (slices : Slices h reader.policy reader.cursor reader.batchSize unit out)
    (finished : reader.finishRead unit out = some outcome) : Outcome.Sound h reader outcome := by
  unfold TableReader.finishRead at finished
  split at finished
  · split at finished
    · rename_i done
      have finish : reader.finishUnit unit =
          ({ reader with cursor := some unit.position } : TableReader Row).finishSnapshot
            unit.timestampMs := by
        simp [finishUnit, done]
      have free' : (reader.finishUnit unit).Free h := by
        rw [finish]
        refine ⟨free.table, ?_, free.unit⟩
        intro position isCursor
        obtain rfl := Option.some_inj.mp isCursor
        exact slices.sound.fits_position
      refine (free'.openNextUnit finished).of_moved ?_ ?_ ?_
      · rw [finish]; rfl
      · rw [finish]; rfl
      · rw [finish]
        exact slices.travelled
    · cases finished
  · rename_i nonempty
    cases finished
    exact {
      sound := ⟨free.table, free.cursor, free.unit, nonempty, slices⟩
      policy := rfl
      batchSize := rfl
      travelled := .refl _
      size := fun _ none => by cases none
      idle := fun returned => by cases returned
      caughtUp := fun other => by cases other }

theorem Free.suspend_reading {unit : FileUnit Row} {out : List (List Row)} (free : reader.Free h)
    (slices : Slices h reader.policy reader.cursor reader.batchSize unit out)
    (left : unit.isDone = false) (used : unit.leftover = none)
    (room : out.flatten.length < reader.batchSize) :
    Outcome.Sound h reader (reader.suspend (.reading unit out)) where
  sound := ⟨free.table, free.cursor, free.unit, left, used, room, slices⟩
  policy := rfl
  batchSize := rfl
  travelled := .refl _
  size := fun _ none => by cases none
  idle := fun returned => by cases returned
  caughtUp := fun other => by cases other

theorem Free.readUpTo {unit : FileUnit Row} {out : List (List Row)} {outcome : Outcome Row}
    (free : reader.Free h)
    (slices : Slices h reader.policy reader.cursor reader.batchSize unit out)
    (read : reader.readUpTo unit out = some outcome) : Outcome.Sound h reader outcome := by
  unfold TableReader.readUpTo at read
  dsimp only at read
  split at read
  · rename_i more
    have room : out.flatten.length < reader.batchSize ∧ unit.isDone = false := by
      simpa using more
    split at read
    · rename_i used
      cases read
      exact free.suspend_reading slices room.2 used room.1
    · rename_i batch held
      have same : ({ unit with leftover := some batch } : FileUnit Row) = unit := by rw [← held]
      obtain ⟨taken, _, used⟩ := Slices.take (by rw [same]; exact slices) room.2 room.1
      split at read
      · rename_i more'
        have room' : (unit.take reader.batchSize out batch).2.flatten.length < reader.batchSize ∧
            (unit.take reader.batchSize out batch).1.isDone = false := by
          simpa using more'
        cases read
        exact free.suspend_reading taken room'.2 (used room'.1) room'.1
      · exact free.finishRead taken read
  · exact free.finishRead slices read

theorem Free.readBatch {unit : FileUnit Row} {out chunks : List (List Row)} {batch : List Row}
    {outcome : Outcome Row} (free : reader.Free h)
    (slices : Slices h reader.policy reader.cursor reader.batchSize
      { unit with stream := some (batch :: chunks) } out)
    (left : unit.isDone = false) (used : unit.leftover = none)
    (room : out.flatten.length < reader.batchSize)
    (read : reader.readBatch { unit with stream := some chunks } out batch = some outcome) :
    Outcome.Sound h reader outcome := by
  unfold TableReader.readBatch at read
  dsimp only at read
  split at read
  · rename_i empty
    cases read
    have slices' := slices.skip used none (by rw [empty]; rfl) (by simp)
    rw [← used] at slices'
    exact free.suspend_reading slices' left used room
  · rename_i filled
    let after : FileUnit Row := { unit with
      stream := some chunks
      skip := unit.skip - min batch.length unit.skip }
    have slices' : Slices h reader.policy reader.cursor reader.batchSize
        { after with leftover := some (batch.drop (min batch.length unit.skip)) } out :=
      slices.skip used (some _) rfl (by simpa using filled)
    have left' : after.isDone = false := left
    exact free.readUpTo (Slices.take slices' left' room).1 read

theorem Free.poll {unit : FileUnit Row} {file : DataFile Row} {out chunks : List (List Row)}
    {outcome : Outcome Row} (free : reader.Free h)
    (slices : Slices h reader.policy reader.cursor reader.batchSize unit out)
    (current : unit.files[unit.file]? = some file) (stream : unit.stream = some chunks)
    (used : unit.leftover = none) (room : out.flatten.length < reader.batchSize)
    (polled : reader.poll file unit out chunks = some outcome) :
    Outcome.Sound h reader outcome := by
  have left := FileUnit.isDone_of_file current
  cases chunks with
  | cons batch chunks =>
      have same : ({ unit with stream := some (batch :: chunks) } : FileUnit Row) = unit := by
        rw [← stream]
      exact free.readBatch (by rw [same]; exact slices) left used room polled
  | nil =>
      obtain ⟨read, slices'⟩ := slices.nextFile current stream used
      simp only [TableReader.poll, read, Nat.lt_irrefl, ↓reduceIte] at polled
      exact free.readUpTo slices' polled

/-- A call returns its slices as a batch. -/
theorem Free.finishUnit {unit : FileUnit Row} {out : List (List Row)} (free : reader.Free h)
    (nonempty : out ≠ []) (slices : Slices h reader.policy reader.cursor reader.batchSize unit out) :
    Outcome.Sound h reader ((reader.finishUnit unit).ret (.ok (some out.flatten))) := by
  have size : ∀ batch ∈ [out.flatten], 1 ≤ batch.length ∧ batch.length ≤ reader.batchSize := by
    intro batch member
    rw [List.mem_singleton.mp member]
    exact ⟨slices.length_pos nonempty, slices.bound⟩
  have fits : ∀ position ∈ some unit.position, h.Fits position := by
    intro position isCursor
    obtain rfl := Option.some_inj.mp isCursor
    exact slices.sound.fits_position
  have travelled : Travelled h reader.policy reader.cursor [out.flatten].flatten
      (some unit.position) := by
    simpa using slices.travelled
  cases done : unit.isDone with
  | true =>
      have finish : reader.finishUnit unit =
          ({ reader with cursor := some unit.position } : TableReader Row).finishSnapshot
            unit.timestampMs := by
        simp [TableReader.finishUnit, done]
      rw [finish]
      exact {
        sound := ⟨free.table, fits, fun unit isUnit => by cases free.unit ▸ isUnit⟩
        policy := rfl
        batchSize := rfl
        travelled := travelled
        size := size
        idle := fun _ => rfl
        caughtUp := fun other => by cases other }
  | false =>
      have finish : reader.finishUnit unit =
          { reader with cursor := some unit.position, unit := some unit } := by
        simp [TableReader.finishUnit, done]
      rw [finish]
      have kept : ∀ unit' ∈ some unit,
          unit'.Sound h ∧ unit'.isDone = false ∧ some unit.position = some unit'.position := by
        intro unit' isUnit
        obtain rfl := Option.some_inj.mp isUnit
        exact ⟨slices.sound, done, rfl⟩
      exact {
        sound := ⟨free.table, fits, kept⟩
        policy := rfl
        batchSize := rfl
        travelled := travelled
        size := size
        idle := fun _ => rfl
        caughtUp := fun other => by cases other }

/-- Planning a unit again goes on from its position. -/
theorem openFiles_eq {cursor : Option Position} {position : Position} {timestampMs : Int}
    {files : List (DataFile Row)} (fits : h.Fits position) (incomplete : position.complete = false)
    (travelled : Travelled h reader.policy cursor [] (some position))
    (planned : files.Perm (h.files position.snapshotId position.phase)) :
    ∃ unit, unit.snapshotId = position.snapshotId ∧
      reader.openFiles position timestampMs files = reader.readUpTo unit [] ∧
      Slices h reader.policy cursor reader.batchSize unit [] := by
  rcases fits with complete | ⟨inside, fits⟩
  · rw [incomplete] at complete
    cases complete
  · unfold TableReader.openFiles
    dsimp only
    rw [h.mergeSort_eq_sortedFiles planned, if_neg (Nat.not_lt.mpr inside)]
    refine ⟨_, rfl, rfl, ⟨rfl, ?_, fits, fits, by simp⟩, ?_, ?_, Nat.zero_le _⟩
    · intro file current
      simp [FileUnit.pending]
    · unfold FileUnit.position
      split
      · rename_i done
        have ended : (h.sortedFiles position.snapshotId position.phase).length ≤
            position.filesDone := of_decide_eq_true done
        refine travelled.then (.one (.read rfl rfl incomplete (.inl rfl) ?_))
        unfold History.rest
        simp [incomplete, List.drop_eq_nil_of_le ended, Position.completed]
      · have same : (⟨position.snapshotId, position.phase, position.filesDone,
            position.rowsDoneInFile, false⟩ : Position) = position := by
          rw [← incomplete]
        rw [same]
        exact travelled
    · intro slice none
      cases none

end TableReader

/-! ## Steps -/

/-- The answer is that of the history: planning finds the unit's files, a file gives its
rows, and refreshed metadata lists snapshots of the history. -/
def TableReader.Conforms (h : History Row) (reader : TableReader Row) : ReaderEvent Row → Prop
  | .planned (.ok files) => ∀ position timestampMs, reader.call = .opening position timestampMs →
      files.Perm (h.files position.snapshotId position.phase)
  | .opened (.ok chunks) => ∀ unit out file, reader.call = .reading unit out →
      unit.files[unit.file]? = some file → chunks.flatten = file.rows
  | .setTable table => table.Of h
  | _ => True

theorem TableReader.Sound.step {reader : TableReader Row} {event : ReaderEvent Row}
    {outcome : Outcome Row} (sound : reader.Sound h) (conforms : reader.Conforms h event)
    (stepped : reader.step event = some outcome) : Outcome.Sound h reader outcome := by
  obtain ⟨table, cursor, call⟩ := sound
  cases event with
  | nextBatch =>
      simp only [TableReader.step] at stepped
      split at stepped
      · rename_i idle none
        exact Free.openNextUnit ⟨table, cursor, none⟩ stepped
      · rename_i unit idle isUnit
        rw [idle] at call
        obtain ⟨unit_sound, _, at'⟩ := call unit isUnit
        have free : ({ reader with unit := none } : TableReader Row).Free h :=
          ⟨table, cursor, rfl⟩
        refine (free.readUpTo ⟨unit_sound, ?_, by simp, Nat.zero_le _⟩ stepped).of_moved rfl rfl
          (.refl _)
        rw [← at']
        exact .refl _
      · cases stepped
  | planned answer =>
      simp only [TableReader.step] at stepped
      split at stepped
      · rename_i opening
        rw [opening] at call
        cases stepped
        exact Free.ret_error ⟨table, cursor, call.1⟩ _
      · rename_i position timestampMs files opening
        rw [opening] at call
        obtain ⟨unit, fits, incomplete, travelled⟩ := call
        obtain ⟨unit', _, opened, slices⟩ := TableReader.openFiles_eq fits incomplete travelled
          (conforms position timestampMs opening)
        rw [opened] at stepped
        exact Free.readUpTo ⟨table, cursor, unit⟩ slices stepped
      · cases stepped
  | opened answer =>
      simp only [TableReader.step] at stepped
      split at stepped
      · rename_i unit out reading
        rw [reading] at call
        obtain ⟨none, left, used, room, slices⟩ := call
        split at stepped
        · cases stepped
          exact Free.ret_error ⟨table, cursor, none⟩ _
        · rename_i file chunks current closed
          cases stepped
          exact Free.suspend_reading ⟨table, cursor, none⟩
            (slices.opened current closed (conforms unit out file reading current)) left used room
        · cases stepped
      · cases stepped
  | polled answer =>
      simp only [TableReader.step] at stepped
      split at stepped
      · rename_i unit out reading
        rw [reading] at call
        obtain ⟨none, left, used, room, slices⟩ := call
        split at stepped
        · cases stepped
          exact Free.ret_error ⟨table, cursor, none⟩ _
        · rename_i current stream
          exact Free.poll ⟨table, cursor, none⟩ slices current stream used room stepped
        · cases stepped
      · cases stepped
  | converted answer =>
      simp only [TableReader.step] at stepped
      split at stepped
      · rename_i converting
        rw [converting] at call
        cases stepped
        exact Free.ret_error ⟨table, cursor, call.1⟩ _
      · rename_i unit out _ converting
        rw [converting] at call
        obtain ⟨none, nonempty, slices⟩ := call
        cases stepped
        exact Free.finishUnit ⟨table, cursor, none⟩ nonempty slices
      · cases stepped
  | cancel =>
      have free : reader.unit = none → Outcome.Sound h reader (reader.suspend .idle) := by
        intro none
        exact {
          sound := ⟨table, cursor, fun unit isUnit => by cases none ▸ isUnit⟩
          policy := rfl
          batchSize := rfl
          travelled := .refl _
          size := fun _ none => by cases none
          idle := fun _ => rfl
          caughtUp := fun other => by cases other }
      simp only [TableReader.step] at stepped
      split at stepped
      · rename_i opening
        rw [opening] at call
        cases stepped
        exact free call.1
      · rename_i reading
        rw [reading] at call
        split at stepped
        · cases stepped
          exact free call.1
        · cases stepped
      · cases stepped
  | setTable table' =>
      simp only [TableReader.step] at stepped
      split at stepped
      · rename_i idle
        cases stepped
        rw [idle] at call
        exact {
          sound := ⟨conforms, cursor, by
            change Suspended.Sound h _ reader.call
            rw [idle]
            exact call⟩
          policy := rfl
          batchSize := rfl
          travelled := .refl _
          size := fun _ none => by cases none
          idle := fun returned => by cases returned
          caughtUp := fun other => by cases other }
      · cases stepped

end StreamlingPlugins.IcebergSource
