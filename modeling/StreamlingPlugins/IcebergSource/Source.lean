import StreamlingPlugins.Checkpointing
import StreamlingPlugins.IcebergSource.ReaderRuns

/-!
# The Iceberg source

`generate_batch`, checkpoint markers and finalizers over a reader, as a machine.  A call runs
from one await to the next, so that markers and finalizers may come in between, and it may fail
or be dropped there.  Whether a refresh is due is part of the event; pauses, metrics and logs
are left out.
-/

namespace StreamlingPlugins.IcebergSource

inductive StartPosition
  | earliest | latest
  deriving DecidableEq

structure IcebergSourceConfig where
  startPosition : StartPosition
  batchSize : Nat
  onNonAppendSnapshot : OnNonAppendSnapshot
  batchSize_pos : 1 ≤ batchSize

/-- Where a source without persisted state starts. -/
def initialPosition (metadata : TableMetadata) (start : StartPosition) : Option Position :=
  metadata.currentSnapshotId.map fun current =>
    match start with
    | .earliest => .start current .scan
    | .latest => .completed current .incremental

/-- Fails when a persisted position can no longer be resumed; `none` when the walk does not
end. -/
def validateResume (metadata : TableMetadata) (position : Position) :
    Option (Except PluginError Unit) :=
  if position.complete then
    (snapshotsSince metadata (some position.snapshotId)).map fun since => since.map fun _ => ()
  else if (metadata.snapshotById position.snapshotId).isNone then
    some (.error (expired position.snapshotId))
  else some (.ok ())

/-! ## States -/

/-- Where a call of `generate_batch` stands. -/
inductive SourceCall
  | idle
  /-- Reloading the table, before the first read or after the reader caught up. -/
  | refreshing (caughtUp : Bool)
  | reading (refreshed : Bool)
  /-- The reader caught up, and the call waits to record that. -/
  | caughtUp (refreshed : Bool)
  deriving DecidableEq

structure SourceState (Row : Type) where
  reader : TableReader Row
  call : SourceCall
  delivered : Option Position
  checkpoints : Checkpointing Position

inductive SourceEvent (Row : Type)
  | generateBatch (due : Bool)
  | refreshed (table : Option TableMetadata)
  | read (event : ReaderEvent Row)
  | caughtUp (due : Bool)
  | cancel
  | marker (epoch : Nat)
  | record (i : Nat)
  | finalizer (epoch : Nat)
  | put (i : Nat) (succeeds : Bool)

inductive SourceObs (Row : Type)
  | called
  | returned (batch : List Row)
  | snapshot (epoch : Nat) (position : Position)
  | persisted (position : Position)

/-- The position of a successful `put`. -/
def SourceObs.persistedPosition {Row : Type} : SourceObs Row → Option Position
  | .persisted position => some position
  | _ => none

/-- The events of a call of `next_batch`. -/
def ReaderEvent.ofCall {Row : Type} : ReaderEvent Row → Bool
  | .cancel | .setTable _ => false
  | _ => true

section

variable {Row : Type}

/-- The state that `initialize` sets up. -/
def SourceState.initial (config : IcebergSourceConfig) (table : TableMetadata)
    (persisted : Option Position) : SourceState Row :=
  let cursor := persisted.or (initialPosition table config.startPosition)
  { reader := .new table config.batchSize config.onNonAppendSnapshot cursor
    call := .idle
    delivered := cursor
    checkpoints := .restored persisted }

/-- `initialize`: what is persisted is validated first. -/
def SourceState.initialized (config : IcebergSourceConfig) (table : TableMetadata)
    (persisted : Option Position) : Option (Except PluginError (SourceState Row)) :=
  match persisted with
  | some position =>
    (validateResume table position).map fun checked =>
      checked.map fun _ => .initial config table (some position)
  | none => some (.ok (.initial config table none))

/-- Where a call goes on after an event of the reader. -/
def SourceCall.afterRead (refreshed : Bool) : Option (Returned Row) → SourceCall
  | none => .reading refreshed
  | some (.ok none) => .caughtUp refreshed
  | some (.ok (some _)) | some (.error _) => .idle

def sourceStep (s : SourceState Row) :
    SourceEvent Row → Option (SourceState Row × List (SourceObs Row))
  -- The host delivered the batch before, so the cursor past it becomes visible.
  | .generateBatch due =>
    match s.call with
    | .idle =>
      some ({ s with
        delivered := s.reader.cursor
        call := if due then .refreshing false else .reading false }, [.called])
    | _ => none
  | .refreshed answer =>
    match s.call, answer with
    | .refreshing _, some table =>
      some ({ s with reader := s.reader.setTable table, call := .reading true }, [])
    | .refreshing false, none => some ({ s with call := .reading true }, [])
    | .refreshing true, none => some ({ s with call := .idle }, [])
    | _, _ => none
  | .read event =>
    match s.call with
    | .reading refreshed =>
      if event.ofCall then
        (s.reader.step event).map fun outcome =>
          ({ s with reader := outcome.1, call := .afterRead refreshed outcome.2 },
            (batches outcome.2).map .returned)
      else none
    | _ => none
  -- Nothing is undelivered, so the cursor is visible as it is.
  | .caughtUp due =>
    match s.call with
    | .caughtUp refreshed =>
      some ({ s with
        delivered := s.reader.cursor
        call := if refreshed || !due then .idle else .refreshing true }, [])
    | _ => none
  | .cancel =>
    match s.call with
    | .idle => none
    | .reading _ =>
      (s.reader.step .cancel).map fun outcome =>
        ({ s with reader := outcome.1, call := .idle }, [])
    | _ => some ({ s with call := .idle }, [])
  | .marker epoch =>
    match s.delivered with
    | some position =>
      some ({ s with checkpoints := s.checkpoints.load epoch position }, [.snapshot epoch position])
    | none => some (s, [])
  | .record i => (s.checkpoints.record i).map fun checkpoints => ({ s with checkpoints }, [])
  | .finalizer epoch => some ({ s with checkpoints := s.checkpoints.finalize epoch }, [])
  | .put i succeeds =>
    (s.checkpoints.store i succeeds).map fun stored =>
      ({ s with checkpoints := stored.1 }, (stored.2.map .persisted).toList)

def sourceMachine (Row : Type) : Machine (SourceState Row) (SourceEvent Row) (SourceObs Row) where
  step := sourceStep

/-! ## What a source that starts can resume -/

variable {h : History Row} {config : IcebergSourceConfig} {table : TableMetadata}
  {position : Position} {s : SourceState Row}

theorem SourceState.initialized_eq_ok
    (started : initialized config table (some position) = some (.ok s)) :
    validateResume table position = some (.ok ()) ∧ s = .initial config table (some position) := by
  obtain ⟨checked, validated, same⟩ := Option.map_eq_some_iff.mp started
  cases checked with
  | error e => cases same
  | ok valid =>
      cases same
      exact ⟨validated, rfl⟩

/-- What was read whole can be gone on from: the snapshots since are all there. -/
theorem snapshotsSince_of_validateResume (complete : position.complete = true)
    (validated : validateResume table position = some (.ok ())) :
    ∃ snapshots, snapshotsSince table (some position.snapshotId) = some (.ok snapshots) := by
  rw [validateResume, if_pos complete] at validated
  obtain ⟨since, found, ok⟩ := Option.map_eq_some_iff.mp validated
  cases since with
  | error e => cases ok
  | ok snapshots => exact ⟨snapshots, found⟩

/-- What was read in part is still listed. -/
theorem listed_of_validateResume (incomplete : position.complete = false)
    (validated : validateResume table position = some (.ok ())) :
    (table.snapshotById position.snapshotId).isSome := by
  rw [validateResume, if_neg (by simp [incomplete])] at validated
  split at validated
  · cases validated
  · rename_i listed
    exact Option.isSome_iff_ne_none.mpr (mt Option.isNone_iff_eq_none.mpr listed)

/-- **A source that starts again is not stuck.**  From a complete position the snapshots since
are there, and if they are and are all accepted, its reader, left alone, returns the rest. -/
theorem initialized_resumes (of : table.Of h) (fits : h.Fits position)
    (started : SourceState.initialized config table (some position) = some (.ok s)) :
    (position.complete = true →
      ∃ snapshots, snapshotsSince table (some position.snapshotId) = some (.ok snapshots)) ∧
    ∀ snapshots, snapshotsSince table (some position.snapshotId) = some (.ok snapshots) →
      Accepted config.onNonAppendSnapshot snapshots →
      (readerMachine Row).Inevitable (TableReader.Uninterrupted h)
        (fun _ log => log.flatten =
          h.rest position ++ h.laterRows config.onNonAppendSnapshot snapshots) s.reader [] := by
  obtain ⟨validated, rfl⟩ := SourceState.initialized_eq_ok started
  refine ⟨fun complete => snapshotsSince_of_validateResume complete validated,
    fun snapshots since accepted => ?_⟩
  have all_fit : ∀ p ∈ some position, h.Fits p := by
    rintro p ⟨⟩
    exact fits
  have listed : ∀ p ∈ some position, p.complete = false →
      (table.snapshotById p.snapshotId).isSome := by
    rintro p ⟨⟩ incomplete
    exact listed_of_validateResume incomplete validated
  exact drains_table of config.batchSize_pos all_fit listed since accepted

/-! ## What the host has -/

/-- The rows of batches that a call for another one followed, and those returned since. -/
structure Handed (Row : Type) where
  settled : List Row
  last : List Row

namespace Handed

def observe (self : Handed Row) : SourceObs Row → Handed Row
  | .called => ⟨self.settled ++ self.last, []⟩
  | .returned batch => { self with last := self.last ++ batch }
  | .snapshot _ _ | .persisted _ => self

abbrev of (log : List (SourceObs Row)) : Handed Row := log.foldl observe ⟨[], []⟩

end Handed

end

end StreamlingPlugins.IcebergSource
