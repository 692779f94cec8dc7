import StreamlingPlugins.IcebergSource.Snapshots
import StreamlingPlugins.Machine

/-!
# The table reader

`TableReader` turns snapshots into units of data files and reads them in path order.
A call of `next_batch` runs from one await to the next: an event starts it, answers
the await it is suspended at, or drops it there.  Whether the slices convert to a
batch is an event of its own.  The columns of rows and the storage access are left
out.
-/

namespace StreamlingPlugins.IcebergSource

open IcebergSink (icebergError)

variable {Row : Type}

/-! ## Positions and units -/

/-- Every live data file of the start snapshot, or the files an append added. -/
inductive Phase
  | scan | incremental
  deriving DecidableEq

/-- Checkpointed read progress. -/
structure Position where
  snapshotId : Int
  phase : Phase
  filesDone : Nat
  rowsDoneInFile : Nat
  complete : Bool
  deriving DecidableEq

namespace Position

def start (snapshotId : Int) (phase : Phase) : Position :=
  ⟨snapshotId, phase, 0, 0, false⟩

def completed (snapshotId : Int) (phase : Phase) : Position :=
  { start snapshotId phase with complete := true }

end Position

/-- A data file and the rows a reader gets from it. -/
structure DataFile (Row : Type) where
  path : String
  rows : List Row

/-- `Unit`: one snapshot's files being read.  `stream` holds the record batches that
the open file has yet to give. -/
structure FileUnit (Row : Type) where
  snapshotId : Int
  timestampMs : Int
  phase : Phase
  files : List (DataFile Row)
  file : Nat
  rowsInFile : Nat
  skip : Nat
  stream : Option (List (List Row))
  leftover : Option (List Row)

namespace FileUnit

variable (unit : FileUnit Row)

def isDone : Bool :=
  unit.files.length ≤ unit.file

def position : Position :=
  if unit.isDone then .completed unit.snapshotId unit.phase
  else ⟨unit.snapshotId, unit.phase, unit.file, unit.rowsInFile, false⟩

/-- What `read_up_to` does with a record batch, after the slices `out`. -/
def take (max : Nat) (out : List (List Row)) (batch : List Row) :
    FileUnit Row × List (List Row) :=
  let take := min batch.length (max - out.flatten.length)
  let unit := { unit with
    leftover := if take < batch.length then some (batch.drop take) else none }
  if 0 < take then
    ({ unit with rowsInFile := unit.rowsInFile + take }, out ++ [batch.take take])
  else (unit, out)

/-- The end of the current file. -/
def nextFile : FileUnit Row :=
  { unit with stream := none, file := unit.file + 1, rowsInFile := 0 }

end FileUnit

/-! ## The reader -/

/-- Where a call of `next_batch` is suspended. -/
inductive Suspended (Row : Type)
  | idle
  /-- Planning the files of a snapshot. -/
  | opening (position : Position) (timestampMs : Int)
  /-- Reading the current file, with the slices so far. -/
  | reading (unit : FileUnit Row) (out : List (List Row))
  /-- Building the output batch from slices. -/
  | converting (unit : FileUnit Row) (out : List (List Row))

structure TableReader (Row : Type) where
  table : TableMetadata
  batchSize : Nat
  policy : OnNonAppendSnapshot
  cursor : Option Position
  unit : Option (FileUnit Row)
  lastProcessedMs : Option Int
  call : Suspended Row

/-- A result of `next_batch`. -/
abbrev Returned (Row : Type) := Except PluginError (Option (List Row))

/-- The state after an event, and the result if the call returned. -/
abbrev Outcome (Row : Type) := TableReader Row × Option (Returned Row)

inductive ReaderEvent (Row : Type)
  | nextBatch
  | planned (files : Except PluginError (List (DataFile Row)))
  | opened (chunks : Except String (List (List Row)))
  /-- The next record batch of the open file, or its end. -/
  | polled (answer : Except String PUnit)
  | converted (answer : Except PluginError PUnit)
  | cancel
  | setTable (table : TableMetadata)

namespace TableReader

variable (reader : TableReader Row)

def new (table : TableMetadata) (batchSize : Nat) (policy : OnNonAppendSnapshot)
    (cursor : Option Position) : TableReader Row where
  table := table
  batchSize := batchSize
  policy := policy
  cursor := cursor
  unit := none
  lastProcessedMs :=
    ((cursor.filter Position.complete).bind fun p => table.snapshotById p.snapshotId).map
      Snapshot.timestampMs
  call := .idle

/-- The call returns; its unit was taken out and is dropped. -/
def ret (result : Returned Row) : Outcome Row :=
  ({ reader with call := .idle }, some result)

def suspend (call : Suspended Row) : Outcome Row :=
  ({ reader with call := call }, none)

def setTable (table : TableMetadata) : TableReader Row :=
  { reader with table := table }

def finishSnapshot (timestampMs : Int) : TableReader Row :=
  { reader with lastProcessedMs := some timestampMs }

/-- `open_unit`, up to its first await. -/
def openUnit (position : Position) : Outcome Row :=
  match reader.table.snapshotById position.snapshotId with
  | none => reader.ret (.error (expired position.snapshotId))
  | some snapshot => reader.suspend (.opening position snapshot.timestampMs)

/-- The loop of `open_next_unit` over the snapshots to process. -/
def openFirst (reader : TableReader Row) : List Snapshot → Outcome Row
  | [] => reader.ret (.ok none)
  | snapshot :: snapshots =>
    match classify snapshot reader.policy with
    | .error e => reader.ret (.error e)
    | .ok .read => reader.openUnit (.start snapshot.snapshotId .incremental)
    | .ok .skip =>
      let skipped := { reader with
        cursor := some (.completed snapshot.snapshotId .incremental) }
      (skipped.finishSnapshot snapshot.timestampMs).openFirst snapshots

/-- `open_next_unit`, up to its first await; `none` when it does not end. -/
def openNextUnit : Option (Outcome Row) :=
  match reader.cursor.filter fun position => !position.complete with
  | some position => some (reader.openUnit position)
  | none =>
    match snapshotsSince reader.table (reader.cursor.map Position.snapshotId) with
    | none => none
    | some (.error e) => some (reader.ret (.error e))
    | some (.ok snapshots) => some (reader.openFirst snapshots)

/-- The cursor moves past the unit's slices. -/
def finishUnit (unit : FileUnit Row) : TableReader Row :=
  let reader := { reader with cursor := some unit.position }
  if unit.isDone then reader.finishSnapshot unit.timestampMs
  else { reader with unit := some unit }

/-- `next_batch` after `read_up_to`.  A unit that gave nothing and is not done would
be read again without end. -/
def finishRead (unit : FileUnit Row) (out : List (List Row)) : Option (Outcome Row) :=
  match out with
  | [] => if unit.isDone then (reader.finishUnit unit).openNextUnit else none
  | _ => some (reader.suspend (.converting unit out))

/-- `read_up_to` from the head of its loop to the next await.  What is left of a
leftover fills the batch, so only one is read without an await. -/
def readUpTo (unit : FileUnit Row) (out : List (List Row)) : Option (Outcome Row) :=
  let more (unit : FileUnit Row) (out : List (List Row)) : Bool :=
    out.flatten.length < reader.batchSize && !unit.isDone
  if more unit out then
    match unit.leftover with
    | none => some (reader.suspend (.reading unit out))
    | some batch =>
      let (unit, out) := unit.take reader.batchSize out batch
      if more unit out then some (reader.suspend (.reading unit out))
      else reader.finishRead unit out
  else reader.finishRead unit out

/-- A record batch of the current file, of which the resume skip drops the start. -/
def readBatch (unit : FileUnit Row) (out : List (List Row)) (batch : List Row) :
    Option (Outcome Row) :=
  let drop := min batch.length unit.skip
  let unit := { unit with skip := unit.skip - drop }
  let batch := batch.drop drop
  if batch = [] then some (reader.suspend (.reading unit out))
  else
    let (unit, out) := unit.take reader.batchSize out batch
    reader.readUpTo unit out

def shortFile (file : DataFile Row) (unit : FileUnit Row) : PluginError :=
  .execution ("iceberg_source: data file " ++ file.path ++ " of snapshot " ++
    toString unit.snapshotId ++ " has fewer rows than the checkpointed position; reset the " ++
    "source state")

/-- The open file gives its next record batch, or ends. -/
def poll (file : DataFile Row) (unit : FileUnit Row) (out : List (List Row)) :
    List (List Row) → Option (Outcome Row)
  | batch :: chunks => reader.readBatch { unit with stream := some chunks } out batch
  | [] =>
    if 0 < unit.skip then some (reader.ret (.error (shortFile file unit)))
    else reader.readUpTo unit.nextFile out

/-- `open_unit`, after the files were planned. -/
def openFiles (position : Position) (timestampMs : Int) (files : List (DataFile Row)) :
    Option (Outcome Row) :=
  let files := files.mergeSort fun a b => a.path ≤ b.path
  if files.length < position.filesDone then
    some (reader.ret (.error (.execution ("iceberg_source: checkpointed position has " ++
      toString position.filesDone ++ " files done but snapshot " ++
      toString position.snapshotId ++ " has only " ++ toString files.length ++
      " to read; reset the source state"))))
  else
    reader.readUpTo
      { snapshotId := position.snapshotId
        timestampMs := timestampMs
        phase := position.phase
        files := files
        file := position.filesDone
        rowsInFile := position.rowsDoneInFile
        skip := position.rowsDoneInFile
        stream := none
        leftover := none } []

/-- A call goes on from its await.  What the code cannot get there has no step. -/
def step : ReaderEvent Row → Option (Outcome Row)
  | .nextBatch =>
    match reader.call, reader.unit with
    | .idle, none => reader.openNextUnit
    | .idle, some unit => { reader with unit := none }.readUpTo unit []
    | _, _ => none
  | .planned answer =>
    match reader.call, answer with
    | .opening _ _, .error e => some (reader.ret (.error e))
    | .opening position timestampMs, .ok files => reader.openFiles position timestampMs files
    | _, _ => none
  | .opened answer =>
    match reader.call with
    | .reading unit out =>
      match unit.files[unit.file]?, unit.stream, answer with
      | some file, none, .error e =>
        some (reader.ret (.error (icebergError ("read data file " ++ file.path) e)))
      | some _, none, .ok chunks =>
        some (reader.suspend (.reading { unit with stream := some chunks } out))
      | _, _, _ => none
    | _ => none
  | .polled answer =>
    match reader.call with
    | .reading unit out =>
      match unit.files[unit.file]?, unit.stream, answer with
      | some file, some _, .error e =>
        some (reader.ret (.error (icebergError ("read data file " ++ file.path) e)))
      | some file, some chunks, .ok _ => reader.poll file unit out chunks
      | _, _, _ => none
    | _ => none
  | .converted answer =>
    match reader.call, answer with
    | .converting _ _, .error e => some (reader.ret (.error e))
    | .converting unit out, .ok _ =>
      some ((reader.finishUnit unit).ret (.ok (some out.flatten)))
    | _, _ => none
  | .cancel =>
    match reader.call with
    | .opening _ _ => some (reader.suspend .idle)
    | .reading unit _ => if unit.stream.isSome then some (reader.suspend .idle) else none
    | _ => none
  | .setTable table =>
    match reader.call with
    | .idle => some (reader.setTable table, none)
    | _ => none

end TableReader

end StreamlingPlugins.IcebergSource
