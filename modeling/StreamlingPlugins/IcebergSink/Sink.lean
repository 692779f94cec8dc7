import StreamlingPlugins.IcebergSink.Schema
import StreamlingPlugins.Machine

/-!
# The Iceberg sink

Batches are written to the data files of the open epoch, a checkpoint marker
closes the files and commits them as one snapshot.  A row is known by the call it
came with and its index there: its values decide only what the projector, the
partition splitter, the writers and the catalog answer, and their answers are
inputs of a call.  Metrics and tracing are left out.
-/

namespace StreamlingPlugins.IcebergSink

/-! ## Rows and files -/

/-- A row of a batch: the number of the call, and its index in the batch. -/
structure Row where
  call : Nat
  index : Nat
  deriving DecidableEq

/-- The rows of a call's batch. -/
def rowsOf (call numRows : Nat) : List Row :=
  (List.range numRows).map (Row.mk call)

/-- The batch of a call; `ops` is its `_gs_op` column cast to text, if it has one. -/
structure Batch where
  numRows : Nat
  ops : Option (Except PluginError (List (Option String)))

/-- A field of a partition spec, `void` or with another transform. -/
structure PartitionField where
  name : String
  void : Bool
  deriving DecidableEq

structure PartitionSpec where
  specId : Nat
  fields : List PartitionField
  deriving DecidableEq

def PartitionSpec.isUnpartitioned (spec : PartitionSpec) : Bool :=
  spec.fields.all PartitionField.void

/-- A partition of a spec, its literals as text. -/
structure PartitionKey where
  spec : PartitionSpec
  data : List (Option String)
  deriving DecidableEq

/-- How rows map to partitions of the table's default spec. -/
inductive Partitioning
  | none
  | constant (key : PartitionKey)
  /-- Computes partition keys per row. -/
  | split
  deriving DecidableEq

def partitioning (spec : PartitionSpec) (splitter : Except String Unit) :
    Except String Partitioning :=
  if spec.specId = 0 && spec.fields.isEmpty then .ok .none
  else if spec.isUnpartitioned then .ok (.constant ⟨spec, spec.fields.map fun _ => .none⟩)
  else splitter.map fun () => .split

structure DataFile where
  partition : Option PartitionKey
  rows : List Row
  deriving DecidableEq

/-- The rows of a file, each beside its partition. -/
def DataFile.placed (file : DataFile) : List (Option PartitionKey × Row) :=
  file.rows.map fun row => (file.partition, row)

/-- A snapshot of the table that appends files, and its summary properties. -/
structure Snapshot where
  files : List DataFile
  properties : List (String × String)
  deriving DecidableEq

def Snapshot.rows (snapshot : Snapshot) : List Row :=
  snapshot.files.flatMap DataFile.rows

/-- `SNAPSHOT_PROP_EPOCH`. -/
def snapshotPropEpoch : String := "streamling.checkpoint-epoch"

/-- `SNAPSHOT_PROP_WRITER_ID`. -/
def snapshotPropWriterId : String := "streamling.writer-id"

/-! ## Writers -/

/-- How a write to a data file goes.  One that fails may have kept rows. -/
inductive WriteAnswer
  | ok
  | failed (error : String) (kept : Nat)

namespace WriteAnswer

def kept (part : List Row) : WriteAnswer → List Row
  | ok => part
  | failed _ kept => part.take kept

def result : WriteAnswer → Except String Unit
  | ok => .ok ()
  | failed error _ => .error error

end WriteAnswer

/-- Data files open for the current epoch: the rows their writers took. -/
inductive EpochWriter
  | unpartitioned (rows : List Row)
  | partitioned (rows : List (PartitionKey × Row))

namespace EpochWriter

/-- The rows of the open files, each beside its partition. -/
def placed : EpochWriter → List (Option PartitionKey × Row)
  | unpartitioned rows => rows.map fun row => (none, row)
  | partitioned rows => rows.map fun (key, row) => (some key, row)

/-- `UnpartitionedWriter::write`. -/
def writeRows (rows batch : List Row) (answer : WriteAnswer) : EpochWriter × Except String Unit :=
  (unpartitioned (rows ++ answer.kept batch), answer.result)

/-- `FanoutWriter::write`. -/
def writePart (rows : List (PartitionKey × Row)) (key : PartitionKey) (part : List Row)
    (answer : WriteAnswer) : List (PartitionKey × Row) × Except String Unit :=
  (rows ++ (answer.kept part).map fun row => (key, row), answer.result)

/-- The writes of a batch's parts, up to the first that fails; `answers` are those
from the next write on. -/
def writeParts (rows : List (PartitionKey × Row)) :
    List (PartitionKey × List Row) → (Nat → WriteAnswer) →
      List (PartitionKey × Row) × Except String Unit
  | [], _ => (rows, .ok ())
  | (key, part) :: parts, answers =>
    match writePart rows key part (answers 0) with
    | (rows, .ok ()) => writeParts rows parts fun n => answers (n + 1)
    | (rows, .error e) => (rows, .error e)

end EpochWriter

/-! ## The sink -/

structure SinkState where
  /-- Latest committed table; the base of the next commit. -/
  table : List Snapshot
  partitioning : Partitioning
  writer : Option EpochWriter

/-- What a call that writes a batch meets. -/
structure WriteAnswers where
  split : Except String (List (PartitionKey × List Row))
  write : Nat → WriteAnswer

/-- The splitter puts every row in one part. -/
def WriteAnswers.keep (answers : WriteAnswers) (rows : List Row) : Bool :=
  match answers.split with
  | .error _ => true
  | .ok parts => (parts.flatMap Prod.snd).Perm rows

namespace SinkState

variable (state : SinkState)

/-- The writer of the open epoch, opened if need be. -/
def openWriter : EpochWriter :=
  match state.writer, state.partitioning with
  | some writer, _ => writer
  | none, .none => .unpartitioned []
  | none, _ => .partitioned []

def write (batch : List Row) (answers : WriteAnswers) : SinkState × Except String Unit :=
  let done (written : EpochWriter × Except String Unit) :=
    ({ state with writer := some written.1 }, written.2)
  match state.openWriter, state.partitioning with
  | .partitioned rows, .split =>
    match answers.split with
    | .error e => done (.partitioned rows, .error e)
    | .ok parts => done ((EpochWriter.writeParts rows parts answers.write).map .partitioned id)
  | .partitioned rows, .constant key =>
    done ((EpochWriter.writePart rows key batch (answers.write 0)).map .partitioned id)
  | .unpartitioned rows, _ => done (EpochWriter.writeRows rows batch (answers.write 0))
  | .partitioned rows, .none =>
    done (.partitioned rows, .error "partitioned writer for an unpartitioned table")

/-- The open epoch's rows, each beside its partition. -/
def placed : List (Option PartitionKey × Row) :=
  state.writer.toList.flatMap EpochWriter.placed

end SinkState

/-- The sink and the table's snapshots in the catalog.  `calls` numbers its calls. -/
structure Sink where
  includeOpColumn : Bool
  writerId : String
  tableName : String
  running : Bool
  state : Option SinkState
  catalog : List Snapshot
  calls : Nat

/-- What a marker meets: closing the files, building the append, committing it. -/
structure CommitAnswers where
  close : Except String (List DataFile)
  apply : Except String Unit
  commit : Except String Unit

/-- The closed files hold what their writers took. -/
def CommitAnswers.keep (answers : CommitAnswers)
    (placed : List (Option PartitionKey × Row)) : Bool :=
  match answers.close with
  | .error _ => true
  | .ok files => (files.flatMap DataFile.placed).Perm placed

inductive CallKind
  | start
  | processBatch (numRows : Nat)
  | marker (epoch : Nat)
  | terminate
  deriving DecidableEq

/-- A call that returned: whether it tried to write, and what it committed. -/
structure Call where
  kind : CallKind
  result : Except PluginError Unit
  wrote : Bool
  committed : List Snapshot

/-- `ensure_inserts_only`. -/
def ensureInsertsOnly (batch : Batch) : Except PluginError Unit := do
  match batch.ops with
  | none => .ok ()
  | some ops =>
    match (← ops).filter (· ≠ some "i") with
    | [] => .ok ()
    | first :: others =>
      .error (.internal ("iceberg_sink: received " ++ toString (others.length + 1) ++
        " non-insert row(s) (first _gs_op=" ++ (first.getD "null").quote ++ "); the sink " ++
        "appends only and cannot apply updates or deletes. Set include_op_column=true to " ++
        "append the changelog with its _gs_op column and apply it downstream (MERGE)"))

namespace Sink

/-- `IcebergSink::new`, for a table with these snapshots. -/
def new (includeOpColumn : Bool) (writerId tableName : String) (catalog : List Snapshot) :
    Sink where
  includeOpColumn := includeOpColumn
  writerId := writerId
  tableName := tableName
  running := true
  state := none
  catalog := catalog
  calls := 0

variable (s : Sink)

/-- The open epoch's rows, each beside its partition. -/
def placed : List (Option PartitionKey × Row) :=
  s.state.toList.flatMap SinkState.placed

/-- `SinkPlugin::initialize`; the table was loaded or created, and its default spec
is `spec`. -/
def start (loaded : Except PluginError PartitionSpec) (splitter : Except String Unit) :
    Sink × Except PluginError Unit :=
  match s.state with
  | some _ => (s, .ok ())
  | none =>
    match loaded with
    | .error e => (s, .error e)
    | .ok spec =>
      match partitioning spec splitter with
      | .error e => (s, .error (icebergError "build the partition splitter" e))
      | .ok partitioning => ({ s with state := some ⟨s.catalog, partitioning, none⟩ }, .ok ())

def notInitialized : PluginError :=
  .internal "Iceberg sink is not initialized"

/-- The state after the call, whether it tried to write, and its result. -/
def processBatchInner (batch : Batch) (projected : Except PluginError Unit)
    (answers : WriteAnswers) : Sink × Bool × Except PluginError Unit :=
  match if s.includeOpColumn then .ok () else ensureInsertsOnly batch with
  | .error e => (s, false, .error e)
  | .ok () =>
    match s.state with
    | none => (s, false, .error notInitialized)
    | some state =>
      match projected with
      | .error e => (s, false, .error e)
      | .ok () =>
        let (state, written) := state.write (rowsOf s.calls batch.numRows) answers
        ({ s with state := some state }, true,
          written.mapError (icebergError "write data files"))

def processBatch (batch : Batch) (projected : Except PluginError Unit)
    (answers : WriteAnswers) : Sink × Bool × Except PluginError Unit :=
  if !s.running then
    (s, false, .error (.internal "Iceberg sink is not running, cannot process batch"))
  else if batch.numRows = 0 then (s, false, .ok ())
  else s.processBatchInner batch projected answers

/-- The snapshot that commits an epoch's files. -/
def snapshotOf (epoch : Nat) (files : List DataFile) : Snapshot where
  files := files
  properties := [(snapshotPropEpoch, toString epoch), (snapshotPropWriterId, s.writerId)]

/-- The state after the call, and its result. -/
def commitEpoch (epoch : Nat) (answers : CommitAnswers) : Sink × Except PluginError Unit :=
  match s.state with
  | none => (s, .error notInitialized)
  | some state =>
    match state.writer with
    | none => (s, .ok ())
    | some _ =>
      let state := { state with writer := none }
      let s := { s with state := some state }
      match answers.close with
      | .error e => (s, .error (icebergError "close data files" e))
      | .ok files =>
        if files = [] then (s, .ok ())
        else
          match answers.apply, answers.commit with
          | .error e, _ => (s, .error (icebergError "build the append" e))
          | .ok (), .error e =>
            (s, .error (icebergError ("commit " ++ toString files.length ++
              " data file(s) for checkpoint epoch " ++ toString epoch ++ " to '" ++
              s.tableName ++ "'") e))
          | .ok (), .ok () =>
            let catalog := s.catalog ++ [s.snapshotOf epoch files]
            ({ s with state := some { state with table := catalog }, catalog := catalog }, .ok ())

def terminate : Sink :=
  { s with running := false }

/-! ## Calls -/

inductive Event
  | start (loaded : Except PluginError PartitionSpec) (splitter : Except String Unit)
  | processBatch (batch : Batch) (projected : Except PluginError Unit) (answers : WriteAnswers)
  | marker (epoch : Nat) (answers : CommitAnswers)
  | terminate

/-- The next call returns. -/
def returned (after : Sink) (kind : CallKind) (result : Except PluginError Unit)
    (wrote : Bool) : Option (Sink × List Call) :=
  some ({ after with calls := s.calls + 1 },
    [⟨kind, result, wrote, after.catalog.drop s.catalog.length⟩])

def step : Event → Option (Sink × List Call)
  | .start loaded splitter =>
    let (after, result) := s.start loaded splitter
    s.returned after .start result false
  | .processBatch batch projected answers =>
    if answers.keep (rowsOf s.calls batch.numRows) then
      let (after, wrote, result) := s.processBatch batch projected answers
      s.returned after (.processBatch batch.numRows) result wrote
    else none
  | .marker epoch answers =>
    if answers.keep s.placed then
      let (after, result) := s.commitEpoch epoch answers
      s.returned after (.marker epoch) result false
    else none
  | .terminate => s.returned s.terminate .terminate (.ok ()) false

def machine : Machine Sink Event Call where
  step := step

end Sink

end StreamlingPlugins.IcebergSink
