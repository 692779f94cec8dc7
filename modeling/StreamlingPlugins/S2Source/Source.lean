import StreamlingPlugins.Checkpointing
import StreamlingPlugins.Conveyor
import StreamlingPlugins.Machine
import StreamlingPlugins.S2Source.PrefixScan

/-!
# The S2 source

The readers, calls for batches, checkpoint markers and finalizers as a machine, with crashes and
restarts.  Every reader sends what its session gives into one channel; anything may happen
between two of its steps, during a call, and between the puts of a finalizer.  Starting a reader
and pruning after a scan are one step each.  Whether a batch converts is part of the event;
metrics, logs and pauses are left out.
-/

namespace StreamlingPlugins.S2Source

/-- `MAX_BUFFERED_BATCHES` -/
def maxBufferedBatches : Nat := 16

/-! ## Positions -/

abbrev Positions := String → Option Nat

/-- `seq_num.saturating_add(1)` -/
def SourceRecord.next (record : SourceRecord) : Nat :=
  min (record.seqNum.toNat + 1) (2 ^ 64 - 1)

/-- The reader of a stream puts its name on the records it reads. -/
def SourceRecord.ofStream (name : String) (record : SourceRecord) : SourceRecord :=
  { record with stream := name }

/-- The positions after a batch: of each stream, the one after its last row. -/
def batchPositions (rows : List SourceRecord) : List (String × Nat) :=
  rows.reverse.foldl (fun positions row =>
    if (positions.lookup row.stream).isSome then positions
    else positions ++ [(row.stream, row.next)]) []

def pendingPositions (rows : List SourceRecord) : Option (List (String × Nat)) :=
  if rows = [] then none else some (batchPositions rows)

/-! ## States -/

/-- A task of `read_stream`: where its session goes on, and the batch it is sending. -/
structure ReaderTask where
  nextSeqNum : Nat
  session : Bool
  unsent : Option (List SourceRecord)

structure SourceState where
  readers : StreamReaders
  tasks : String → Option ReaderTask
  /-- The refresh task was not aborted. -/
  running : Bool
  conveyor : Conveyor SourceRecord (List (String × Nat))
  /-- The positions that a call takes to the readers. -/
  emitting : Option (List (String × Nat))
  checkpoints : Checkpointing Positions
  /-- The snapshots of finalizers that did not compare them with the readers yet. -/
  taken : List (Nat × Positions)

inductive SourceEvent
  | ensure (call : Call) (name : String)
  | prune (call : Call) (listed : Finset String)
  | opened (name : String)
  | failed (name : String)
  | batch (name : String) (records : List SourceRecord)
  | send (name : String)
  | terminate
  | call
  | emitted
  | withdraw
  | tryRecv
  | receive
  | expire
  | abandon
  | finish (built : Bool)
  | marker (epoch : Nat)
  | record (i : Nat)
  | finalizer (epoch : Nat)
  | retain (i : Nat)
  | put (i : Nat) (name : String) (succeeds : Bool)
  | restart

inductive SourceObs
  | started (name : String) (nextSeqNum : Nat)
  | conveyor (obs : ConveyorObs SourceRecord)
  | snapshot (epoch : Nat) (positions : Positions)
  | persisted (name : String) (nextSeqNum : Nat)
  | restarted

namespace SourceState

/-- Before any reader was started. -/
def initial (persisted : Positions) : SourceState where
  readers := ⟨∅, fun _ => none, persisted, .default⟩
  tasks _ := none
  running := true
  conveyor := .new
  emitting := none
  checkpoints := .restored none
  taken := []

def withConveyor (s : SourceState) (conveyor : Conveyor SourceRecord (List (String × Nat))) :
    SourceState :=
  { s with conveyor }

def withTask (s : SourceState) (name : String) (task : ReaderTask) : SourceState :=
  { s with tasks := Function.update s.tasks name (some task) }

end SourceState

/-- The streams of a snapshot that still have a reader. -/
def Positions.retain (snapshot current : Positions) : Positions :=
  fun name => if (current name).isSome then snapshot name else none

section

variable (config : S2SourceConfig) (batchSize : Nat)

/-- `ensure_stream`, which starts a task unless there is one. -/
def ensureStep (s : SourceState) (call : Call) (name : String) :
    SourceState × List SourceObs :=
  if name ∈ s.readers.tasks then (s, [])
  else
    let readers := (ensureStream config call s.readers name).1
    match readers.positions name, decide (name ∈ readers.tasks) with
    | some nextSeqNum, true =>
      ({ s.withTask name ⟨nextSeqNum, false, none⟩ with readers }, [.started name nextSeqNum])
    | _, _ => (s, [])

/-- The readers of streams that were not listed are aborted. -/
def pruneStep (s : SourceState) (call : Call) (listed : Finset String) : SourceState :=
  let readers := pruneUnlistedStreams config call s.readers listed
  { s with
    readers
    tasks := fun name => if name ∈ readers.tasks then s.tasks name else none }

/-- A finalizer takes the snapshot of its epoch. -/
def finalizerStep (s : SourceState) (epoch : Nat) : SourceState :=
  { s with
    checkpoints := { s.checkpoints.finalize epoch with storing := s.checkpoints.storing }
    taken := s.taken ++
      (s.checkpoints.pending[epoch]?.map fun positions => (epoch, positions)).toList }

/-- It drops the streams that have no reader any more. -/
def retainStep (s : SourceState) (i : Nat) : Option SourceState :=
  s.taken[i]?.map fun entry =>
    { s with
      taken := s.taken.eraseIdx i
      checkpoints := { s.checkpoints with
        storing := s.checkpoints.storing ++
          [(entry.1, Positions.retain entry.2 s.readers.positions)] } }

/-- One put of a finalizer.  Puts that are dropped after one failed may still arrive. -/
def putStep (s : SourceState) (i : Nat) (name : String) (succeeds : Bool) :
    Option (SourceState × List SourceObs) :=
  match s.checkpoints.storing[i]? with
  | none => none
  | some (epoch, positions) =>
    (positions name).map fun nextSeqNum =>
      let checkpoints := { s.checkpoints with
        storing := s.checkpoints.storing.set i (epoch, Function.update positions name none) }
      if succeeds then
        ({ s with readers := putCheckpoint s.readers name nextSeqNum, checkpoints },
          [.persisted name nextSeqNum])
      else ({ s with checkpoints }, [])

def sourceStep (s : SourceState) : SourceEvent → Option (SourceState × List SourceObs)
  | .ensure call name => if s.running then some (ensureStep config s call name) else none
  | .prune call listed => if s.running then some (pruneStep config s call listed, []) else none
  | .opened name =>
    match s.tasks name with
    | some ⟨next, false, none⟩ => some (s.withTask name ⟨next, true, none⟩, [])
    | _ => none
  | .failed name =>
    match s.tasks name with
    | some ⟨next, true, none⟩ => some (s.withTask name ⟨next, false, none⟩, [])
    | _ => none
  | .batch name records =>
    match s.tasks name, records.getLast? with
    | some ⟨_, true, none⟩, some last =>
      some (s.withTask name ⟨last.next, true, some (records.map (.ofStream name))⟩, [])
    | _, _ => none
  | .send name =>
    match s.tasks name with
    | some ⟨next, session, some records⟩ =>
      (s.conveyor.send maxBufferedBatches records).map fun conveyor =>
        ((s.withConveyor conveyor).withTask name ⟨next, session, none⟩,
          [.conveyor (.sent records)])
    | _ => none
  -- Readers are aborted wherever they wait; what they did not send is gone.
  | .terminate => some ({ s with running := false, tasks := fun _ => none }, [])
  -- A call that finds the source stopped does nothing; one that found it running may come here
  -- later.
  | .call =>
    s.conveyor.call.map fun called =>
      ({ s.withConveyor called.1 with emitting := called.2 }, [.conveyor .called])
  | .emitted =>
    s.emitting.map fun updates =>
      ({ s with readers := recordEmitted s.readers updates, emitting := none }, [])
  | .withdraw =>
    if s.emitting.isSome then
      s.conveyor.withdraw.map fun c => ({ s.withConveyor c with emitting := none }, [])
    else none
  | .tryRecv =>
    if s.emitting.isNone then
      (s.conveyor.tryRecv batchSize).map fun c => (s.withConveyor c, [])
    else none
  | .receive => s.conveyor.receive.map fun c => (s.withConveyor c, [])
  | .expire => s.conveyor.expire.map fun c => (s.withConveyor c, [])
  | .abandon => s.conveyor.abandon.map fun c => (s.withConveyor c, [])
  | .finish built =>
    (s.conveyor.finish batchSize pendingPositions built).map fun finished =>
      (s.withConveyor finished.1, (Conveyor.resultObs finished.2).map .conveyor)
  | .marker epoch =>
    some ({ s with checkpoints := s.checkpoints.load epoch s.readers.positions },
      [.snapshot epoch s.readers.positions])
  | .record i => (s.checkpoints.record i).map fun checkpoints => ({ s with checkpoints }, [])
  | .finalizer epoch => some (finalizerStep s epoch, [])
  | .retain i => (retainStep s i).map fun retained => (retained, [])
  | .put i name succeeds => putStep s i name succeeds
  | .restart => some (.initial s.readers.checkpoints, [.restarted])

def sourceMachine : Machine SourceState SourceEvent SourceObs where
  step := sourceStep config batchSize

end

end StreamlingPlugins.S2Source
