import StreamlingPlugins.IcebergSource.SoundReader

/-!
# Runs of a reader

What a run of a reader keeps, and its progress: left alone it returns the rest of the
unit that its cursor is in, and then the snapshots after it.
-/

namespace StreamlingPlugins.IcebergSource

open IcebergSink (icebergError)

variable {Row : Type} {h : History Row}

/-- A reader as a machine; it logs the batches it returns. -/
def readerMachine (Row : Type) : Machine (TableReader Row) (ReaderEvent Row) (List Row) where
  step reader event := (reader.step event).map fun outcome => (outcome.1, batches outcome.2)

theorem readerMachine_step {reader reader' : TableReader Row} {event : ReaderEvent Row}
    {log : List (List Row)} (taken : (readerMachine Row).step reader event = some (reader', log)) :
    ∃ result, reader.step event = some (reader', result) ∧ log = batches result := by
  obtain ⟨⟨_, result⟩, stepped, joined⟩ := Option.map_eq_some_iff.mp taken
  cases joined
  exact ⟨result, stepped, rfl⟩

theorem TableReader.sound_new {table : TableMetadata} {batchSize : Nat}
    {policy : OnNonAppendSnapshot} {cursor : Option Position} (of : table.Of h)
    (fits : ∀ position ∈ cursor, h.Fits position) :
    (TableReader.new table batchSize policy cursor : TableReader Row).Sound h :=
  ⟨of, fits, fun _ none => by cases none⟩

/-- What a run of a reader keeps. -/
structure Ran (h : History Row) (policy : OnNonAppendSnapshot) (batchSize : Nat)
    (start : Option Position) (reader : TableReader Row) (log : List (List Row)) : Prop where
  sound : reader.Sound h
  samePolicy : reader.policy = policy
  sameBatchSize : reader.batchSize = batchSize
  travelled : Travelled h policy start log.flatten reader.cursor
  size : ∀ batch ∈ log, 1 ≤ batch.length ∧ batch.length ≤ batchSize

theorem ran {table : TableMetadata} {batchSize : Nat} {policy : OnNonAppendSnapshot}
    {start : Option Position} (of : table.Of h) (fits : ∀ position ∈ start, h.Fits position)
    {reader : TableReader Row} {log : List (List Row)}
    (reached : (readerMachine Row).ReachesWhere (TableReader.Conforms h)
      (.new table batchSize policy start) reader log) :
    Ran h policy batchSize start reader log := by
  refine reached.invariant ?_ ?_
  · exact ⟨TableReader.sound_new of fits, rfl, rfl, .refl _, by simp⟩
  · intro s s' log out e kept conforms taken
    obtain ⟨result, stepped, rfl⟩ := readerMachine_step taken
    have effect := kept.sound.step conforms stepped
    refine ⟨effect.sound, effect.policy.trans kept.samePolicy,
      effect.batchSize.trans kept.sameBatchSize, ?_, ?_⟩
    · have travelled := effect.travelled
      rw [kept.samePolicy] at travelled
      rw [List.flatten_append]
      exact kept.travelled.trans travelled
    · intro batch member
      rcases List.mem_append.mp member with old | new
      · exact kept.size batch old
      · rw [← kept.sameBatchSize]
        exact effect.size batch new

/-! ## Reading to the end of a unit -/

/-- A call is made, and answered without an error. -/
def ReaderEvent.Answered : ReaderEvent Row → Prop
  | .nextBatch | .planned (.ok _) | .opened (.ok _) | .polled (.ok _) | .converted (.ok _) => True
  | _ => False

/-- A call is answered by the history. -/
def TableReader.Uninterrupted (h : History Row) (reader : TableReader Row)
    (event : ReaderEvent Row) : Prop :=
  reader.Conforms h event ∧ event.Answered

/-- Where a call reads from `position`, of a unit of this snapshot. -/
def Suspended.At (h : History Row) (reader : TableReader Row) (id : Int) (position : Position) :
    Suspended Row → Prop
  | .idle => reader.cursor = some position
  | .opening next _ => next = position
  | .reading unit out | .converting unit out => unit.snapshotId = id ∧
      Slices h reader.policy (some position) reader.batchSize unit out

/-- A sound reader that reads from `position`, of a unit of a listed snapshot. -/
structure TableReader.Inside (h : History Row) (id : Int) (position : Position)
    (reader : TableReader Row) : Prop where
  sound : reader.Sound h
  batchSize : 1 ≤ reader.batchSize
  listed : (reader.table.snapshotById id).isSome
  snapshotId : position.snapshotId = id
  incomplete : position.complete = false
  fits : h.Fits position
  call : reader.call.At h reader id position

/-- The files after the open one, and the record batches before its end. -/
def FileUnit.rank (unit : FileUnit Row) : ℕ ×ₗ ℕ ×ₗ ℕ :=
  toLex (unit.files.length - unit.file,
    match unit.stream with
    | none => toLex (1, 0)
    | some chunks => toLex (0, chunks.length))

/-- How far a call is from its batch. -/
def Suspended.rank : Suspended Row → ℕ ×ₗ ℕ ×ₗ ℕ ×ₗ ℕ
  | .idle => toLex (4, toLex (0, toLex (0, 0)))
  | .opening _ _ => toLex (3, toLex (0, toLex (0, 0)))
  | .reading unit _ => toLex (2, unit.rank)
  | .converting _ _ => toLex (1, toLex (0, toLex (0, 0)))

/-- Inside a unit, slices are the rows between the cursor and the unit's position. -/
theorem Slices.rest_eq {policy : OnNonAppendSnapshot} {position : Position} {max : Nat}
    {unit : FileUnit Row} {out : List (List Row)}
    (slices : Slices h policy (some position) max unit out)
    (same : unit.snapshotId = position.snapshotId) :
    h.rest position = out.flatten ++ h.rest unit.position := by
  obtain ⟨snapshots, chain, rows⟩ := slices.travelled.exists_chain
  simp only [Option.map_some, FileUnit.position_snapshotId, same] at chain
  rw [chain.eq_nil] at rows
  simpa [History.restAt, History.laterRows] using rows

/-- How `read_up_to` comes to its next await, or to the end of the unit. -/
inductive ReadsOn (h : History Row) (reader : TableReader Row) (position : Position)
    (unit : FileUnit Row) (outcome : Outcome Row) : Prop
  | reading (unit' : FileUnit Row) (out : List (List Row)) :
    unit'.snapshotId = unit.snapshotId → unit'.files = unit.files → unit'.file = unit.file →
    unit'.stream = unit.stream →
    Slices h reader.policy (some position) reader.batchSize unit' out →
    outcome = reader.suspend (.reading unit' out) → ReadsOn h reader position unit outcome
  | converting (unit' : FileUnit Row) (out : List (List Row)) :
    unit'.snapshotId = unit.snapshotId →
    Slices h reader.policy (some position) reader.batchSize unit' out →
    outcome = reader.suspend (.converting unit' out) → ReadsOn h reader position unit outcome
  | ended (unit' : FileUnit Row) :
    unit'.snapshotId = unit.snapshotId → unit'.isDone = true → h.rest position = [] →
    (reader.finishUnit unit').openNextUnit = some outcome →
    ReadsOn h reader position unit outcome

theorem ReadsOn.of_frame {reader : TableReader Row} {position : Position}
    {unit unit' : FileUnit Row} {outcome : Outcome Row}
    (readsOn : ReadsOn h reader position unit' outcome) (id : unit'.snapshotId = unit.snapshotId)
    (files : unit'.files = unit.files) (file : unit'.file = unit.file)
    (stream : unit'.stream = unit.stream) : ReadsOn h reader position unit outcome := by
  cases readsOn with
  | reading unit₂ out id₂ files₂ file₂ stream₂ slices suspended =>
      exact .reading unit₂ out (id₂.trans id) (files₂.trans files) (file₂.trans file)
        (stream₂.trans stream) slices suspended
  | converting unit₂ out id₂ slices suspended =>
      exact .converting unit₂ out (id₂.trans id) slices suspended
  | ended unit₂ id₂ done rest_eq opened => exact .ended unit₂ (id₂.trans id) done rest_eq opened

/-- The reader at the end of a unit. -/
theorem TableReader.finishUnit_of_isDone {reader : TableReader Row} {unit : FileUnit Row}
    (done : unit.isDone = true) :
    reader.finishUnit unit =
      { reader with
        cursor := some (.completed unit.snapshotId unit.phase)
        lastProcessedMs := some unit.timestampMs } := by
  simp [TableReader.finishUnit, done, TableReader.finishSnapshot, FileUnit.position_of_isDone done]

/-- A reader with nothing left in its unit takes up the snapshots found. -/
theorem TableReader.openNextUnit_eq {reader : TableReader Row}
    (complete : ∀ position ∈ reader.cursor, position.complete = true) :
    reader.openNextUnit =
      (snapshotsSince reader.table (reader.cursor.map Position.snapshotId)).map fun
        | .error e => reader.ret (.error e)
        | .ok snapshots => reader.openFirst snapshots := by
  have none_left : reader.cursor.filter (fun position => !position.complete) = none := by
    simpa [Option.filter_eq_none_iff] using complete
  unfold TableReader.openNextUnit
  rw [none_left]
  cases snapshotsSince reader.table (reader.cursor.map Position.snapshotId) with
  | none => rfl
  | some answer => cases answer <;> rfl

namespace TableReader.Free

variable {reader : TableReader Row} {position : Position} {unit : FileUnit Row}
  {out : List (List Row)}

theorem finishRead_readsOn (free : reader.Free h)
    (same : unit.snapshotId = position.snapshotId)
    (slices : Slices h reader.policy (some position) reader.batchSize unit out)
    (ready : out ≠ [] ∨ unit.isDone = true) :
    ∃ outcome, reader.finishRead unit out = some outcome ∧
      ReadsOn h reader position unit outcome := by
  cases out with
  | cons slice out => exact ⟨_, rfl, .converting unit _ rfl slices rfl⟩
  | nil =>
      have done : unit.isDone = true := by simpa using ready
      have rest_eq := slices.rest_eq same
      rw [FileUnit.position_of_isDone done] at rest_eq
      have complete : ∀ next ∈ (reader.finishUnit unit).cursor, next.complete = true := by
        rw [TableReader.finishUnit_of_isDone done]
        intro next isCursor
        obtain rfl := Option.some_inj.mp isCursor
        rfl
      have table : (reader.finishUnit unit).table = reader.table := by
        rw [TableReader.finishUnit_of_isDone done]
      obtain ⟨answer, since⟩ := Option.isSome_iff_exists.mp
        (snapshotsSince_isSome free.table ((reader.finishUnit unit).cursor.map Position.snapshotId))
      rw [← table] at since
      have opened : reader.finishRead unit [] = (reader.finishUnit unit).openNextUnit := by
        simp [TableReader.finishRead, done]
      have outcome_eq := TableReader.openNextUnit_eq complete
      rw [since] at outcome_eq
      exact ⟨_, opened.trans outcome_eq, .ended unit rfl done (by simpa using rest_eq) outcome_eq⟩

theorem readUpTo_readsOn (free : reader.Free h)
    (same : unit.snapshotId = position.snapshotId)
    (slices : Slices h reader.policy (some position) reader.batchSize unit out)
    (ready : out ≠ [] ∨ out.flatten.length < reader.batchSize) :
    ∃ outcome, reader.readUpTo unit out = some outcome ∧
      ReadsOn h reader position unit outcome := by
  unfold TableReader.readUpTo
  dsimp only
  split
  · rename_i more
    have room : out.flatten.length < reader.batchSize ∧ unit.isDone = false := by
      simpa using more
    split
    · exact ⟨_, rfl, .reading unit out rfl rfl rfl rfl slices rfl⟩
    · rename_i batch held
      have equal : ({ unit with leftover := some batch } : FileUnit Row) = unit := by rw [← held]
      obtain ⟨taken, nonempty, _⟩ := Slices.take (by rw [equal]; exact slices) room.2 room.1
      obtain ⟨id, files, file, stream⟩ := unit.take_frame reader.batchSize out batch
      split
      · exact ⟨_, rfl, .reading _ _ id files file stream taken rfl⟩
      · obtain ⟨outcome, finished, readsOn⟩ :=
          free.finishRead_readsOn (id.trans same) taken (.inl nonempty)
        exact ⟨outcome, finished, readsOn.of_frame id files file stream⟩
  · rename_i enough
    have done : out ≠ [] ∨ unit.isDone = true := by
      rcases ready with nonempty | room
      · exact .inl nonempty
      · right
        simpa only [decide_eq_true room, Bool.true_and, Bool.not_eq_true', Bool.not_eq_false]
          using enough
    exact free.finishRead_readsOn same slices done

end TableReader.Free

/-- The rows after the position, then how far the call is. -/
def Suspended.rankAt (h : History Row) (position : Position) (call : Suspended Row) :
    ℕ ×ₗ ℕ ×ₗ ℕ ×ₗ ℕ ×ₗ ℕ :=
  toLex ((h.rest position).length, call.rank)

/-- An answered step of a reader that reads from a position: it stays in the unit and
lowers the rank, or is at the unit's end. -/
inductive Progress (h : History Row) (id : Int) (position : Position) (reader : TableReader Row)
    (outcome : Outcome Row) : Prop
  | inside (next : Position) :
    outcome.1.Inside h id next → outcome.1.table = reader.table →
    h.rest position = (batches outcome.2).flatten ++ h.rest next →
    outcome.1.call.rankAt h next < reader.call.rankAt h position →
    Progress h id position reader outcome
  | finished (phase : Phase) :
    outcome.1.call = .idle → outcome.1.unit = none →
    outcome.1.cursor = some (.completed id phase) → outcome.1.table = reader.table →
    h.rest position = (batches outcome.2).flatten → Progress h id position reader outcome
  | opened (base : TableReader Row) (phase : Phase) :
    base.Free h → base.batchSize = reader.batchSize → base.policy = reader.policy →
    base.table = reader.table → base.cursor = some (.completed id phase) →
    h.rest position = [] → base.openNextUnit = some outcome →
    Progress h id position reader outcome

section Progress

variable {reader : TableReader Row} {id : Int} {position : Position} {outcome : Outcome Row}

/-- A call that goes on from its position and lowers its rank. -/
theorem TableReader.Inside.suspend {call : Suspended Row} {base : TableReader Row}
    (inside : reader.Inside h id position) (base_eq : { reader with unit := none } = base)
    (sound : (base.suspend call).1.Sound h) (here : call.At h (base.suspend call).1 id position)
    (lower : call.rank < reader.call.rank) :
    Progress h id position reader (base.suspend call) := by
  subst base_eq
  refine .inside position ⟨sound, inside.batchSize, inside.listed, inside.snapshotId,
    inside.incomplete, inside.fits, here⟩ rfl rfl ?_
  exact Prod.Lex.toLex_lt_toLex.mpr (.inr ⟨rfl, lower⟩)

theorem ReadsOn.progress {base : TableReader Row} {unit : FileUnit Row}
    (inside : reader.Inside h id position) (base_eq : { reader with unit := none } = base)
    (readsOn : ReadsOn h base position unit outcome) (same : unit.snapshotId = id)
    (sound : outcome.1.Sound h) (lower : toLex (2, unit.rank) < reader.call.rank) :
    Progress h id position reader outcome := by
  cases readsOn with
  | reading unit' out id' files file stream slices suspended =>
      subst suspended
      refine inside.suspend base_eq sound ⟨id'.trans same, slices⟩ ?_
      have rank_eq : unit'.rank = unit.rank := by
        unfold FileUnit.rank
        rw [files, file, stream]
      change toLex (2, unit'.rank) < _
      rwa [rank_eq]
  | converting unit' out id' slices suspended =>
      subst suspended
      refine inside.suspend base_eq sound ⟨id'.trans same, slices⟩ ?_
      refine lt_trans ?_ lower
      exact Prod.Lex.toLex_lt_toLex.mpr (.inl Nat.one_lt_two)
  | ended unit' id' done rest_eq opened =>
      subst base_eq
      rw [TableReader.finishUnit_of_isDone done, id', same] at opened
      let base : TableReader Row := { reader with
        unit := none
        cursor := some (.completed id unit'.phase)
        lastProcessedMs := some unit'.timestampMs }
      refine .opened base unit'.phase ⟨inside.sound.table, ?_, rfl⟩ rfl rfl rfl rfl rest_eq opened
      intro next isCursor
      obtain rfl := Option.some_inj.mp isCursor
      exact h.fits_completed _ _

/-! ### The call of a reader inside a unit -/

theorem TableReader.Inside.openNextUnit_eq (inside : reader.Inside h id position)
    (idle : reader.call = .idle) :
    ∃ timestampMs, reader.openNextUnit = some (reader.suspend (.opening position timestampMs)) := by
  have cursor := inside.call
  rw [idle] at cursor
  have unfinished : reader.cursor.filter (fun position => !position.complete) =
      some position := by
    rw [show reader.cursor = some position from cursor]
    simp [inside.incomplete]
  obtain ⟨snapshot, found⟩ := Option.isSome_iff_exists.mp inside.listed
  refine ⟨snapshot.timestampMs, ?_⟩
  unfold TableReader.openNextUnit
  rw [unfinished]
  simp only [TableReader.openUnit, inside.snapshotId, found]

/-- A call goes on with the unit that the last one kept. -/
theorem TableReader.Inside.resume {unit : FileUnit Row} (inside : reader.Inside h id position)
    (idle : reader.call = .idle) (isUnit : reader.unit = some unit) :
    unit.snapshotId = id ∧ ∃ outcome,
      ({ reader with unit := none } : TableReader Row).readUpTo unit [] = some outcome ∧
        ReadsOn h { reader with unit := none } position unit outcome := by
  have call := inside.sound.call
  have here := inside.call
  rw [idle] at call here
  obtain ⟨unit_sound, left, cursor⟩ := call unit isUnit
  have at' : unit.position = position := Option.some_inj.mp (cursor.symm.trans here)
  have same : unit.snapshotId = position.snapshotId := by
    rw [← unit.position_snapshotId, at']
  have free : ({ reader with unit := none } : TableReader Row).Free h :=
    ⟨inside.sound.table, inside.sound.cursor, rfl⟩
  have slices : Slices h reader.policy (some position) reader.batchSize unit [] :=
    ⟨unit_sound, by rw [← at']; exact .refl _, by simp, Nat.zero_le _⟩
  exact ⟨same.trans inside.snapshotId,
    free.readUpTo_readsOn same slices (.inr inside.batchSize)⟩

/-- Planned files are read from the position on. -/
theorem TableReader.Inside.planned {next : Position} {timestampMs : Int}
    {files : List (DataFile Row)} (inside : reader.Inside h id position)
    (opening : reader.call = .opening next timestampMs)
    (planned : files.Perm (h.files next.snapshotId next.phase)) :
    reader.unit = none ∧ ∃ unit outcome, unit.snapshotId = id ∧
      reader.openFiles next timestampMs files = some outcome ∧
        ReadsOn h reader position unit outcome := by
  have call := inside.sound.call
  have here := inside.call
  rw [opening] at call here
  obtain ⟨none, _⟩ := call
  have same : next = position := here
  rw [same] at planned ⊢
  obtain ⟨unit, id_eq, opened, slices⟩ :=
    openFiles_eq inside.fits inside.incomplete (.refl _) planned
  obtain ⟨outcome, read, readsOn⟩ :=
    Free.readUpTo_readsOn ⟨inside.sound.table, inside.sound.cursor, none⟩ id_eq slices
      (.inr inside.batchSize)
  exact ⟨none, unit, outcome, id_eq.trans inside.snapshotId, opened.trans read, readsOn⟩

/-- The open file is read on, or the one after it. -/
theorem TableReader.Inside.polled {unit : FileUnit Row} {out chunks : List (List Row)}
    {file : DataFile Row} (inside : reader.Inside h id position)
    (reading : reader.call = .reading unit out) (current : unit.files[unit.file]? = some file)
    (stream : unit.stream = some chunks) :
    ∃ unit' outcome, unit'.snapshotId = id ∧ unit'.rank < unit.rank ∧
      reader.poll file unit out chunks = some outcome ∧
        ReadsOn h reader position unit' outcome := by
  have call := inside.sound.call
  have at' := inside.call
  rw [reading] at call at'
  obtain ⟨none, left, used, room, _⟩ := call
  obtain ⟨here, slices⟩ := at'
  have free : reader.Free h := ⟨inside.sound.table, inside.sound.cursor, none⟩
  have id_eq : unit.snapshotId = position.snapshotId := here.trans inside.snapshotId.symm
  cases chunks with
  | cons batch chunks =>
      have shorter {unit' : FileUnit Row} (files : unit'.files = unit.files)
          (file : unit'.file = unit.file) (rest : unit'.stream = some chunks) :
          unit'.rank < unit.rank := by
        unfold FileUnit.rank
        rw [files, file, rest, stream]
        refine Prod.Lex.toLex_lt_toLex.mpr (.inr ⟨rfl, ?_⟩)
        exact Prod.Lex.toLex_lt_toLex.mpr (.inr ⟨rfl, Nat.lt_succ_self _⟩)
      have same : ({ unit with stream := some (batch :: chunks) } : FileUnit Row) = unit := by
        rw [← stream]
      rw [← same] at slices
      let after : FileUnit Row := { unit with
        stream := some chunks
        skip := unit.skip - min batch.length unit.skip }
      simp only [TableReader.poll, TableReader.readBatch]
      split
      · rename_i empty
        have slices' := slices.skip used .none (by rw [empty]; rfl) (by simp)
        rw [← used] at slices'
        exact ⟨after, _, here, shorter rfl rfl rfl, rfl,
          .reading after out rfl rfl rfl rfl slices' rfl⟩
      · rename_i filled
        have held : Slices h reader.policy (some position) reader.batchSize
            { after with leftover := some (batch.drop (min batch.length unit.skip)) } out :=
          slices.skip used (some _) rfl (by simpa using filled)
        have left' : after.isDone = false := left
        obtain ⟨taken, nonempty, _⟩ := Slices.take held left' room
        obtain ⟨id', files, file_eq, rest⟩ := after.take_frame reader.batchSize out
          (batch.drop (min batch.length unit.skip))
        obtain ⟨outcome, read, readsOn⟩ :=
          free.readUpTo_readsOn (id'.trans id_eq) taken (.inl nonempty)
        exact ⟨_, outcome, id'.trans here, shorter files file_eq rest, read, readsOn⟩
  | nil =>
      obtain ⟨read, slices'⟩ := slices.nextFile current stream used
      simp only [TableReader.poll, read, Nat.lt_irrefl, ↓reduceIte]
      have same : unit.nextFile.snapshotId = position.snapshotId := id_eq
      obtain ⟨outcome, read, readsOn⟩ := free.readUpTo_readsOn same slices' (.inr room)
      refine ⟨unit.nextFile, outcome, here, Prod.Lex.toLex_lt_toLex.mpr (.inl ?_), read, readsOn⟩
      have more : unit.file < unit.files.length := by
        simpa [FileUnit.isDone] using left
      change unit.files.length - (unit.file + 1) < unit.files.length - unit.file
      omega

/-- The slices of a call become a batch. -/
theorem TableReader.Inside.converted {unit : FileUnit Row} {out : List (List Row)}
    (inside : reader.Inside h id position) (converting : reader.call = .converting unit out)
    (sound : ((reader.finishUnit unit).ret (.ok (some out.flatten))).1.Sound h) :
    Progress h id position reader ((reader.finishUnit unit).ret (.ok (some out.flatten))) := by
  have call := inside.sound.call
  have at' := inside.call
  rw [converting] at call at'
  obtain ⟨none, nonempty, _⟩ := call
  obtain ⟨here, slices⟩ := at'
  have rows := slices.length_pos nonempty
  have rest_eq := slices.rest_eq (here.trans inside.snapshotId.symm)
  cases done : unit.isDone with
  | true =>
      rw [TableReader.finishUnit_of_isDone done, here]
      refine .finished unit.phase rfl none rfl rfl ?_
      rw [rest_eq, FileUnit.position_of_isDone done]
      simp [batches, TableReader.ret]
  | false =>
      have finish : reader.finishUnit unit =
          { reader with cursor := some unit.position, unit := some unit } := by
        simp [TableReader.finishUnit, done]
      rw [finish] at sound ⊢
      refine .inside unit.position ⟨sound, inside.batchSize, inside.listed, ?_, ?_,
        slices.sound.fits_position, rfl⟩ rfl ?_ ?_
      · exact unit.position_snapshotId.trans here
      · simpa using done
      · rw [rest_eq]
        simp [batches, TableReader.ret]
      · refine Prod.Lex.toLex_lt_toLex.mpr (.inl ?_)
        change (h.rest unit.position).length < (h.rest position).length
        rw [rest_eq, List.length_append]
        omega

/-! ### Progress -/

/-- An answered step inside a unit makes progress. -/
theorem TableReader.Inside.progress {event : ReaderEvent Row} (inside : reader.Inside h id position)
    (uninterrupted : reader.Uninterrupted h event) (stepped : reader.step event = some outcome) :
    Progress h id position reader outcome := by
  obtain ⟨conforms, answered⟩ := uninterrupted
  have effect := (inside.sound.step conforms stepped).sound
  cases event with
  | nextBatch =>
      simp only [TableReader.step] at stepped
      split at stepped
      · rename_i idle none
        obtain ⟨timestampMs, opened⟩ := inside.openNextUnit_eq idle
        obtain rfl := Option.some_inj.mp (opened.symm.trans stepped)
        refine inside.suspend (by rw [← none]) effect rfl ?_
        rw [idle]
        exact Prod.Lex.toLex_lt_toLex.mpr (.inl (Nat.lt_succ_self 3))
      · rename_i unit idle isUnit
        obtain ⟨here, outcome', read, readsOn⟩ := inside.resume idle isUnit
        obtain rfl := Option.some_inj.mp (read.symm.trans stepped)
        refine readsOn.progress inside rfl here effect ?_
        rw [idle]
        exact Prod.Lex.toLex_lt_toLex.mpr (.inl (by omega))
      · cases stepped
  | planned answer =>
      simp only [TableReader.step] at stepped
      split at stepped
      · cases answered
      · rename_i next timestampMs files opening
        obtain ⟨none, unit, outcome', here, opened, readsOn⟩ :=
          inside.planned opening (conforms next timestampMs opening)
        obtain rfl := Option.some_inj.mp (opened.symm.trans stepped)
        refine readsOn.progress inside (by rw [← none]) here effect ?_
        rw [opening]
        exact Prod.Lex.toLex_lt_toLex.mpr (.inl (Nat.lt_succ_self 2))
      · cases stepped
  | opened answer =>
      simp only [TableReader.step] at stepped
      split at stepped
      · rename_i unit out reading
        have call := inside.sound.call
        have at' := inside.call
        rw [reading] at call at'
        obtain ⟨here, slices⟩ := at'
        split at stepped
        · cases answered
        · rename_i file chunks current closed
          cases stepped
          have slices' := slices.opened current closed (conforms unit out file reading current)
          refine inside.suspend (by rw [← call.1]) effect ⟨here, slices'⟩ ?_
          rw [reading]
          refine Prod.Lex.toLex_lt_toLex.mpr (.inr ⟨rfl, ?_⟩)
          refine Prod.Lex.toLex_lt_toLex.mpr (.inr ⟨rfl, ?_⟩)
          rw [closed]
          exact Prod.Lex.toLex_lt_toLex.mpr (.inl Nat.zero_lt_one)
        · cases stepped
      · cases stepped
  | polled answer =>
      simp only [TableReader.step] at stepped
      split at stepped
      · rename_i unit out reading
        have call := inside.sound.call
        rw [reading] at call
        split at stepped
        · cases answered
        · rename_i file chunks _ current stream
          obtain ⟨unit', outcome', here, lower, polled, readsOn⟩ :=
            inside.polled reading current stream
          obtain rfl := Option.some_inj.mp (polled.symm.trans stepped)
          refine readsOn.progress inside (by rw [← call.1]) here effect ?_
          rw [reading]
          exact Prod.Lex.toLex_lt_toLex.mpr (.inr ⟨rfl, lower⟩)
        · cases stepped
      · cases stepped
  | converted answer =>
      simp only [TableReader.step] at stepped
      split at stepped
      · cases answered
      · rename_i unit out _ converting
        obtain rfl := Option.some_inj.mp stepped
        exact inside.converted converting effect
      · cases stepped
  | cancel => cases answered
  | setTable table' => cases answered

/-- Inside a unit there is an answer to go on with. -/
theorem TableReader.Inside.enabled (inside : reader.Inside h id position) :
    ∃ event outcome, reader.Uninterrupted h event ∧ reader.step event = some outcome := by
  cases at' : reader.call with
  | idle =>
      cases isUnit : reader.unit with
      | none =>
          obtain ⟨timestampMs, opened⟩ := inside.openNextUnit_eq at'
          refine ⟨.nextBatch, reader.suspend (.opening position timestampMs),
            ⟨trivial, trivial⟩, ?_⟩
          simp only [TableReader.step, at', isUnit]
          exact opened
      | some unit =>
          obtain ⟨_, outcome, read, _⟩ := inside.resume at' isUnit
          refine ⟨.nextBatch, outcome, ⟨trivial, trivial⟩, ?_⟩
          simp only [TableReader.step]
          split
          · rename_i none
            cases isUnit.symm.trans none
          · rename_i kept
            rw [Option.some_inj.mp (kept.symm.trans isUnit)]
            exact read
          · rename_i other
            exact absurd isUnit (other unit at')
  | opening next timestampMs =>
      have planned : reader.Conforms h (.planned (.ok (h.files next.snapshotId next.phase))) := by
        intro next' timestampMs' opening
        cases at'.symm.trans opening
        exact .refl _
      obtain ⟨_, unit, outcome, _, opened, _⟩ :=
        inside.planned at' (planned next timestampMs at')
      refine ⟨_, outcome, ⟨planned, trivial⟩, ?_⟩
      simp only [TableReader.step, at']
      exact opened
  | reading unit out =>
      have call := inside.sound.call
      rw [at'] at call
      obtain ⟨file, current⟩ := FileUnit.exists_file call.2.1
      cases stream : unit.stream with
      | none =>
          refine ⟨.opened (.ok [file.rows]),
            reader.suspend (.reading { unit with stream := some [file.rows] } out),
            ⟨?_, trivial⟩, ?_⟩
          · intro unit' out' file' reading current'
            cases at'.symm.trans reading
            rw [← Option.some_inj.mp (current.symm.trans current')]
            exact List.flatten_singleton
          · simp only [TableReader.step, at', current, stream]
      | some chunks =>
          obtain ⟨_, outcome, _, _, polled, _⟩ := inside.polled at' current stream
          refine ⟨.polled (.ok ()), outcome, ⟨trivial, trivial⟩, ?_⟩
          simp only [TableReader.step, at', current, stream]
          exact polled
  | converting unit out =>
      refine ⟨.converted (.ok ()), (reader.finishUnit unit).ret (.ok (some out.flatten)),
        ⟨trivial, trivial⟩, ?_⟩
      simp only [TableReader.step, at']

end Progress

/-- Taking up the next snapshots returns no batch. -/
theorem TableReader.openFirst_batches {snapshots : List Snapshot} (reader : TableReader Row) :
    batches (reader.openFirst snapshots).2 = [] := by
  induction snapshots generalizing reader with
  | nil => rfl
  | cons snapshot snapshots ih =>
      unfold TableReader.openFirst
      split
      · rfl
      · unfold TableReader.openUnit
        split <;> rfl
      · exact ih _

theorem TableReader.openNextUnit_batches {reader : TableReader Row} {outcome : Outcome Row}
    (complete : ∀ position ∈ reader.cursor, position.complete = true)
    (opened : reader.openNextUnit = some outcome) : batches outcome.2 = [] := by
  rw [openNextUnit_eq complete] at opened
  obtain ⟨answer, _, rfl⟩ := Option.map_eq_some_iff.mp opened
  cases answer with
  | error e => rfl
  | ok snapshots => exact reader.openFirst_batches

/-- Left alone, a reader inside a unit returns the rest of the unit. -/
theorem TableReader.Inside.inevitable {reader : TableReader Row} {log : List (List Row)} {id : Int}
    {position : Position} {rows : List Row} (inside : reader.Inside h id position)
    (rest_eq : log.flatten ++ h.rest position = rows) :
    (readerMachine Row).Inevitable (TableReader.Uninterrupted h)
      (fun _ log => log.flatten = rows) reader log := by
  refine Machine.Inevitable.of_rank (P := fun rank reader log => ∃ position,
    reader.Inside h id position ∧ log.flatten ++ h.rest position = rows ∧
      rank = reader.call.rankAt h position) ?_ ⟨position, inside, rest_eq, rfl⟩
  rintro _ reader log ⟨position, inside, rest_eq, rfl⟩
  constructor
  · obtain ⟨event, outcome, uninterrupted, stepped⟩ := inside.enabled
    refine ⟨event, outcome.1, batches outcome.2, uninterrupted, ?_⟩
    simp [readerMachine, stepped]
  · intro event reader' out uninterrupted taken
    obtain ⟨result, stepped, rfl⟩ := readerMachine_step taken
    cases inside.progress uninterrupted stepped with
    | inside next inside' _ more lower =>
        refine .inr ⟨_, lower, next, inside', ?_, rfl⟩
        rw [List.flatten_append, List.append_assoc, ← more, rest_eq]
    | finished _ _ _ _ _ ended =>
        left
        rw [List.flatten_append, ← ended, rest_eq]
    | opened base phase _ _ _ _ cursor ended opened =>
        left
        have complete : ∀ position ∈ base.cursor, position.complete = true := by
          intro position isCursor
          rw [cursor] at isCursor
          obtain rfl := Option.some_inj.mp isCursor
          rfl
        rw [ended, List.append_nil] at rest_eq
        rw [base.openNextUnit_batches complete opened, List.append_nil, rest_eq]

/-! ## Catching up -/

/-- None of the snapshots is refused. -/
def Accepted (policy : OnNonAppendSnapshot) (snapshots : List Snapshot) : Prop :=
  ∀ snapshot ∈ snapshots, ∃ action, classify snapshot policy = .ok action

/-- A reader that takes up snapshots: it opens the first to read, or there is none. -/
theorem TableReader.Free.openFirst_ahead {reader : TableReader Row} {last : Option Int}
    {older snapshots : List Snapshot} (free : reader.Free h) (batchSize : 1 ≤ reader.batchSize)
    (since : snapshotsSince reader.table last = some (.ok (older ++ snapshots)))
    (accepted : Accepted reader.policy snapshots)
    (sound : (reader.openFirst snapshots).1.Sound h) :
    h.laterRows reader.policy snapshots = [] ∨ ∃ (snapshot : Snapshot) (newer : List Snapshot),
      (reader.openFirst snapshots).1.Inside h snapshot.snapshotId
        (.start snapshot.snapshotId .incremental) ∧
      (reader.openFirst snapshots).1.table = reader.table ∧
      (reader.openFirst snapshots).1.policy = reader.policy ∧
      snapshotsSince reader.table (some snapshot.snapshotId) = some (.ok newer) ∧
      newer <:+ snapshots ∧ newer.length < snapshots.length ∧
      h.laterRows reader.policy snapshots =
        h.unitRows snapshot.snapshotId .incremental ++ h.laterRows reader.policy newer := by
  induction snapshots generalizing reader older with
  | nil => exact .inl rfl
  | cons snapshot snapshots ih =>
      obtain ⟨action, classified⟩ := accepted snapshot List.mem_cons_self
      unfold TableReader.openFirst at sound ⊢
      rw [classified] at sound ⊢
      cases action with
      | read =>
          have listed := listed_of_snapshotsSince since snapshot (by simp)
          dsimp only at sound ⊢
          unfold TableReader.openUnit at sound ⊢
          simp only [Position.start, listed] at sound ⊢
          refine .inr ⟨snapshot, snapshots, ⟨sound, batchSize, ?_, rfl, rfl, h.fits_start _ _, rfl⟩,
            rfl, rfl, snapshotsSince_of_mem free.table since, List.suffix_cons _ _,
            Nat.lt_succ_self _, ?_⟩
          · simp [TableReader.suspend, listed]
          · simp [History.laterRows, classified]
      | skip =>
          dsimp only at sound ⊢
          have later : h.laterRows reader.policy (snapshot :: snapshots) =
              h.laterRows reader.policy snapshots := by
            simp [History.laterRows, classified]
          rw [later]
          let skipped := { reader with
            cursor := some (.completed snapshot.snapshotId .incremental) }
          have free' : (skipped.finishSnapshot snapshot.timestampMs).Free h := by
            refine ⟨free.table, ?_, free.unit⟩
            intro position isCursor
            obtain rfl := Option.some_inj.mp isCursor
            exact h.fits_completed _ _
          have since' : snapshotsSince (skipped.finishSnapshot snapshot.timestampMs).table last =
              some (.ok ((older ++ [snapshot]) ++ snapshots)) := by
            rw [List.append_assoc]
            exact since
          rcases ih free' batchSize since'
            (fun s member => accepted s (List.mem_cons_of_mem _ member)) sound with
            none | ⟨s, newer, inside, table, policy, rest, suffix, shorter, rows⟩
          · exact .inl none
          · exact .inr ⟨s, newer, inside, table, policy, rest,
              suffix.trans (List.suffix_cons _ _), Nat.lt_succ_of_lt shorter, rows⟩

/-- The rows that a reader has to return to catch up, and how far it is from that. -/
inductive Ahead (h : History Row) (rows : List Row) :
    ℕ ×ₗ ℕ ×ₗ ℕ ×ₗ ℕ ×ₗ ℕ ×ₗ ℕ ×ₗ ℕ → TableReader Row → List (List Row) → Prop
  | inside {reader : TableReader Row} {log : List (List Row)} {id : Int} {position : Position}
    {snapshots : List Snapshot} :
    reader.Inside h id position → snapshotsSince reader.table (some id) = some (.ok snapshots) →
    Accepted reader.policy snapshots →
    log.flatten ++ (h.rest position ++ h.laterRows reader.policy snapshots) = rows →
    Ahead h rows (toLex (snapshots.length, toLex (1, reader.call.rankAt h position))) reader log
  | between {reader : TableReader Row} {log : List (List Row)} {snapshots : List Snapshot} :
    reader.Free h → 1 ≤ reader.batchSize → reader.call = .idle →
    (∀ position ∈ reader.cursor, position.complete = true) →
    snapshotsSince reader.table (reader.cursor.map Position.snapshotId) = some (.ok snapshots) →
    Accepted reader.policy snapshots →
    log.flatten ++ h.laterRows reader.policy snapshots = rows →
    Ahead h rows (toLex (snapshots.length, toLex (0, toLex (0, reader.call.rank)))) reader log

/-- The reader takes up what was found, or has nothing more to return. -/
theorem Ahead.of_openNextUnit {rows : List Row} {reader : TableReader Row}
    {log : List (List Row)} {snapshots : List Snapshot} {outcome : Outcome Row}
    (free : reader.Free h) (batchSize : 1 ≤ reader.batchSize)
    (complete : ∀ position ∈ reader.cursor, position.complete = true)
    (since : snapshotsSince reader.table (reader.cursor.map Position.snapshotId) =
      some (.ok snapshots)) (accepted : Accepted reader.policy snapshots)
    (rows_eq : log.flatten ++ h.laterRows reader.policy snapshots = rows)
    (opened : reader.openNextUnit = some outcome) (sound : outcome.1.Sound h) :
    log.flatten = rows ∨ ∃ rank, rank.1 < snapshots.length ∧ Ahead h rows rank outcome.1 log := by
  rw [TableReader.openNextUnit_eq complete, since] at opened
  obtain rfl := Option.some_inj.mp opened
  have since' : snapshotsSince reader.table (reader.cursor.map Position.snapshotId) =
      some (.ok ([] ++ snapshots)) := since
  rcases free.openFirst_ahead batchSize since' accepted sound with
    none | ⟨snapshot, newer, inside, table, policy, rest, suffix, shorter, later⟩
  · left
    rw [← rows_eq, none, List.append_nil]
  · right
    refine ⟨_, ?_, .inside inside (table ▸ rest) ?_ ?_⟩
    · exact shorter
    · rw [policy]
      exact fun s member => accepted s (suffix.subset member)
    · rw [policy, h.rest_start, ← later, rows_eq]

/-- An idle reader without a unit answers only a call. -/
theorem TableReader.nextBatch_of_idle {reader : TableReader Row} {event : ReaderEvent Row}
    {outcome : Outcome Row} (idle : reader.call = .idle) (none : reader.unit = none)
    (answered : event.Answered) (stepped : reader.step event = some outcome) :
    reader.openNextUnit = some outcome := by
  cases event with
  | nextBatch => simpa only [TableReader.step, idle, none] using stepped
  | planned answer => simp [TableReader.step, idle] at stepped
  | opened answer => simp [TableReader.step, idle] at stepped
  | polled answer => simp [TableReader.step, idle] at stepped
  | converted answer => simp [TableReader.step, idle] at stepped
  | cancel => cases answered
  | setTable table => cases answered

/-- Left alone, a reader catches up. -/
theorem Ahead.inevitable {rows : List Row} {rank : ℕ ×ₗ ℕ ×ₗ ℕ ×ₗ ℕ ×ₗ ℕ ×ₗ ℕ ×ₗ ℕ}
    {reader : TableReader Row} {log : List (List Row)} (ahead : Ahead h rows rank reader log) :
    (readerMachine Row).Inevitable (TableReader.Uninterrupted h)
      (fun _ log => log.flatten = rows) reader log := by
  refine Machine.Inevitable.of_rank (P := Ahead h rows) ?_ ahead
  intro rank reader log ahead
  cases ahead with
  | @inside _ _ id position snapshots inside since accepted rows_eq =>
      constructor
      · obtain ⟨event, outcome, uninterrupted, stepped⟩ := inside.enabled
        refine ⟨event, outcome.1, batches outcome.2, uninterrupted, ?_⟩
        simp [readerMachine, stepped]
      · intro event reader' out uninterrupted taken
        obtain ⟨result, stepped, rfl⟩ := readerMachine_step taken
        have effect := inside.sound.step uninterrupted.1 stepped
        have accepted' : Accepted reader'.policy snapshots := by
          rw [effect.policy]
          exact accepted
        cases inside.progress uninterrupted stepped with
        | inside next inside' table more lower =>
            right
            refine ⟨_, ?_, .inside inside' (table ▸ since) accepted' ?_⟩
            · refine Prod.Lex.toLex_lt_toLex.mpr (.inr ⟨rfl, ?_⟩)
              exact Prod.Lex.toLex_lt_toLex.mpr (.inr ⟨rfl, lower⟩)
            · rw [effect.policy, List.flatten_append, ← rows_eq, more]
              simp
        | finished phase idle none cursor table ended =>
            right
            have complete : ∀ position ∈ reader'.cursor, position.complete = true := by
              intro position isCursor
              rw [cursor] at isCursor
              obtain rfl := Option.some_inj.mp isCursor
              rfl
            have since' : snapshotsSince reader'.table
                (reader'.cursor.map Position.snapshotId) = some (.ok snapshots) := by
              rw [cursor, table]
              exact since
            have batchSize : 1 ≤ reader'.batchSize := by
              rw [effect.batchSize]
              exact inside.batchSize
            refine ⟨_, ?_, .between ⟨effect.sound.table, effect.sound.cursor, none⟩ batchSize idle
              complete since' accepted' ?_⟩
            · refine Prod.Lex.toLex_lt_toLex.mpr (.inr ⟨rfl, ?_⟩)
              exact Prod.Lex.toLex_lt_toLex.mpr (.inl Nat.zero_lt_one)
            · rw [effect.policy, List.flatten_append, ← rows_eq, ended]
              simp
        | opened base phase free size policy table cursor ended opened =>
            have complete : ∀ position ∈ base.cursor, position.complete = true := by
              intro position isCursor
              rw [cursor] at isCursor
              obtain rfl := Option.some_inj.mp isCursor
              rfl
            have since' : snapshotsSince base.table (base.cursor.map Position.snapshotId) =
                some (.ok snapshots) := by
              rw [cursor, table]
              exact since
            rw [ended, List.nil_append, ← policy] at rows_eq
            rw [← policy] at accepted
            have silent : batches result = [] := base.openNextUnit_batches complete opened
            rw [silent, List.append_nil]
            rcases Ahead.of_openNextUnit free (size ▸ inside.batchSize) complete since' accepted
              rows_eq opened effect.sound with reached | ⟨rank, lower, ahead⟩
            · exact .inl reached
            · exact .inr ⟨rank, Prod.Lex.lt_iff.mpr (.inl lower), ahead⟩
  | @between _ _ snapshots free batchSize idle complete since accepted rows_eq =>
      have next : reader.step .nextBatch = reader.openNextUnit := by
        simp only [TableReader.step, idle, free.unit]
      constructor
      · refine ⟨.nextBatch, (reader.openFirst snapshots).1,
          batches (reader.openFirst snapshots).2, ⟨trivial, trivial⟩, ?_⟩
        simp [readerMachine, next, TableReader.openNextUnit_eq complete, since]
      · intro event reader' out uninterrupted taken
        obtain ⟨result, stepped, rfl⟩ := readerMachine_step taken
        have sound : reader.Sound h :=
          ⟨free.table, free.cursor, by
            rw [idle]
            intro unit isUnit
            cases free.unit ▸ isUnit⟩
        have effect := sound.step uninterrupted.1 stepped
        have opened := reader.nextBatch_of_idle idle free.unit uninterrupted.2 stepped
        have silent : batches result = [] := reader.openNextUnit_batches complete opened
        rw [silent, List.append_nil]
        rcases Ahead.of_openNextUnit free batchSize complete since accepted rows_eq opened
          effect.sound with reached | ⟨rank, lower, ahead⟩
        · exact .inl reached
        · exact .inr ⟨rank, Prod.Lex.lt_iff.mpr (.inl lower), ahead⟩

/-- Left alone, a new reader returns the rows after its cursor up to the current
snapshot. -/
theorem drains_table {table : TableMetadata} {batchSize : Nat} {policy : OnNonAppendSnapshot}
    {cursor : Option Position} {snapshots : List Snapshot} (of : table.Of h)
    (positive : 1 ≤ batchSize) (fits : ∀ position ∈ cursor, h.Fits position)
    (listed : ∀ position ∈ cursor, position.complete = false →
      (table.snapshotById position.snapshotId).isSome)
    (since : snapshotsSince table (cursor.map Position.snapshotId) = some (.ok snapshots))
    (accepted : Accepted policy snapshots) :
    (readerMachine Row).Inevitable (TableReader.Uninterrupted h)
      (fun _ log => log.flatten = h.restAt cursor ++ h.laterRows policy snapshots)
      (.new table batchSize policy cursor) [] := by
  have sound : (TableReader.new table batchSize policy cursor : TableReader Row).Sound h :=
    TableReader.sound_new of fits
  have unfinished : (∀ position ∈ cursor, position.complete = true) ∨
      ∃ position, cursor = some position ∧ position.complete = false := by
    cases cursor with
    | none => exact .inl (by simp)
    | some position => cases complete : position.complete with
      | true => exact .inl (by simpa using complete)
      | false => exact .inr ⟨position, rfl, complete⟩
  rcases unfinished with complete | ⟨position, rfl, incomplete⟩
  · refine Ahead.inevitable (.between ⟨of, fits, rfl⟩ positive rfl complete since accepted ?_)
    rw [h.restAt_of_complete complete]
    rfl
  · refine Ahead.inevitable (.inside ⟨sound, positive, listed position rfl incomplete, rfl,
      incomplete, fits position rfl, rfl⟩ since accepted rfl)

end StreamlingPlugins.IcebergSource
