import StreamlingPlugins.Checkpointing
import StreamlingPlugins.CloudTrail.Fetching
import StreamlingPlugins.Conveyor
import StreamlingPlugins.Machine

/-!
# The CloudTrail source

The poll task, calls for batches, checkpoint markers and finalizers as a machine, with crashes
and restarts.  One event is one lock section, one channel operation or one poll cycle, so that
anything may happen between the chunks that a cycle sends, during a call, and between the halves
of a marker or a finalizer.  Converting records to Arrow is a result of the event; metrics and
logs are left out.
-/

namespace StreamlingPlugins.CloudTrail

/-- `MAX_BUFFERED_BATCHES` -/
def maxBufferedBatches : Nat := 16

structure SourceState where
  poll : PollState
  floorMs : Int64
  /-- The chunks of the last cycle that were not sent yet. -/
  unsent : List (List CloudTrailRecord)
  /-- The poll task was not aborted. -/
  polling : Bool
  conveyor : Conveyor CloudTrailRecord Int64
  deliveredWatermark : Int64
  checkpoints : Checkpointing Int64

inductive SourceEvent
  /-- A cycle planned at one time; its requests are answered until another. -/
  | cycle (nowMs answeredMs : Int64) (response : Response)
  | send
  | terminate
  | call
  | tryRecv
  | receive
  | expire
  | abandon
  | finish (built : Bool)
  | marker (epoch : Nat)
  | record (i : Nat)
  | finalizer (epoch : Nat)
  | put (i : Nat) (succeeds : Bool)
  | restart (nowMs : Int64)

/-- An event that neither fetches nor restarts. -/
def SourceEvent.Quiet : SourceEvent → Prop
  | .cycle _ _ _ | .restart _ => False
  | _ => True

inductive SourceObs
  | fetched (records : List CloudTrailRecord)
  | conveyor (obs : ConveyorObs CloudTrailRecord)
  | snapshot (epoch : Nat) (watermark : Int64)
  | persisted (watermark : Int64)
  | restarted
  deriving DecidableEq

/-- The watermark of a successful `put`. -/
def SourceObs.persistedMs : SourceObs → Option Int64
  | .persisted watermark => some watermark
  | _ => none

namespace SourceState

/-- `initialize`: resumes from what the state backend holds. -/
def initial (config : CloudTrailSourceConfig) (checkpoint : Option Int64) (nowMs : Int64) :
    SourceState :=
  let (watermark, floor) := resolveStart checkpoint config.startTime nowMs
  { poll := ⟨watermark, .empty⟩
    floorMs := floor
    unsent := []
    polling := true
    conveyor := .new
    deliveredWatermark := watermark
    checkpoints := .restored checkpoint }

def withConveyor (s : SourceState) (conveyor : Conveyor CloudTrailRecord Int64) : SourceState :=
  { s with conveyor }

/-- `delivered_watermark.fetch_max` -/
def advanceDelivered (s : SourceState) (delivered : Option Int64) : SourceState :=
  { s with
    deliveredWatermark := delivered.elim s.deliveredWatermark (max s.deliveredWatermark) }

end SourceState

section

variable (parsers : Parsers) (config : CloudTrailSourceConfig)

def sourceStep (s : SourceState) : SourceEvent → Option (SourceState × List SourceObs)
  | .cycle nowMs _ response =>
    if s.polling ∧ s.unsent = [] then
      let polled := pollCycle parsers config s.floorMs s.poll nowMs response
      match polled.2.outcome with
      | .ok batches =>
        some ({ s with poll := polled.1, unsent := batches }, [.fetched batches.flatten])
      | .error _ => some ({ s with poll := polled.1 }, [])
    else none
  | .send =>
    match s.unsent with
    | [] => none
    | chunk :: unsent =>
      (s.conveyor.send maxBufferedBatches chunk).map fun conveyor =>
        ({ s with conveyor, unsent }, [.conveyor (.sent chunk)])
  -- The task is aborted wherever it waits, and what it has not sent is gone.
  | .terminate => some ({ s with polling := false, unsent := [] }, [])
  -- A call that finds the source stopped does nothing; one that found it running may come here
  -- later.
  | .call =>
    s.conveyor.call.map fun called =>
      ((s.withConveyor called.1).advanceDelivered called.2, [.conveyor .called])
  | .tryRecv => (s.conveyor.tryRecv config.batchSize).map fun c => (s.withConveyor c, [])
  | .receive => s.conveyor.receive.map fun c => (s.withConveyor c, [])
  | .expire => s.conveyor.expire.map fun c => (s.withConveyor c, [])
  | .abandon => s.conveyor.abandon.map fun c => (s.withConveyor c, [])
  | .finish built =>
    (s.conveyor.finish config.batchSize maxEventTime built).map fun finished =>
      (s.withConveyor finished.1, (Conveyor.resultObs finished.2).map .conveyor)
  | .marker epoch =>
    some ({ s with checkpoints := s.checkpoints.load epoch s.deliveredWatermark },
      [.snapshot epoch s.deliveredWatermark])
  | .record i => (s.checkpoints.record i).map fun checkpoints => ({ s with checkpoints }, [])
  | .finalizer epoch => some ({ s with checkpoints := s.checkpoints.finalize epoch }, [])
  | .put i succeeds =>
    (s.checkpoints.store i succeeds).map fun stored =>
      ({ s with checkpoints := stored.1 }, (stored.2.map .persisted).toList)
  | .restart nowMs => some (.initial config s.checkpoints.stored nowMs, [.restarted])

def sourceMachine : Machine SourceState SourceEvent SourceObs where
  step := sourceStep parsers config

end

section

variable {parsers : Parsers} {config : CloudTrailSourceConfig} {s s' : SourceState}
  {out : List SourceObs}

/-- What a cycle can do: nothing but forget ids, or queue what it fetched and move on. -/
theorem cycle_cases {nowMs answeredMs : Int64} {response : Response}
    (taken : sourceStep parsers config s (.cycle nowMs answeredMs response) = some (s', out)) :
    s.polling = true ∧ s.unsent = [] ∧
      (out = [] ∧
          s' = { s with poll := ⟨s.poll.watermarkMs, config.known s.floorMs nowMs s.poll⟩ } ∨
        ∃ (fetched : FetchedWindow) (batches : List (List CloudTrailRecord)),
          response.failure = none ∧
          Fetched parsers (config.known s.floorMs nowMs s.poll) response.pages.flatten fetched ∧
          batches.flatten.Perm fetched.records ∧
          (batches.flatten.Pairwise fun a b => a.eventTimeMs.toInt ≤ b.eventTimeMs.toInt) ∧
          out = [.fetched batches.flatten] ∧
          s' = { s with
            poll := ⟨advanceWatermark s.poll.watermarkMs (maxEventTime fetched.records)
              (config.plan s.poll.watermarkMs s.floorMs nowMs).endMs,
              fetched.remember (config.known s.floorMs nowMs s.poll)⟩
            unsent := batches }) := by
  simp only [sourceStep, Option.ite_none_right_eq_some] at taken
  obtain ⟨⟨polling, sent⟩, taken⟩ := taken
  refine ⟨polling, sent, ?_⟩
  rcases pollCycle_cases parsers config s.floorMs nowMs s.poll response with
    ⟨⟨e, failed⟩, after⟩ | ⟨fetched, whole, fetches, queued, after⟩
  · rw [failed, after] at taken
    cases taken
    exact .inl ⟨rfl, rfl⟩
  · rw [queued, after] at taken
    cases taken
    exact .inr ⟨fetched, _, whole, fetches, sortIntoBatches_perm _, sortIntoBatches_sorted _, rfl,
      rfl⟩

end

/-! ## What became of the records -/

/-- What became of the records, and those that this run fetched. -/
structure SourceHistory extends RunHistory CloudTrailRecord where
  fetched : List CloudTrailRecord

namespace SourceHistory

def start : SourceHistory where
  earlier := []
  conveyor := .start
  fetched := []

def observe (self : SourceHistory) : SourceObs → SourceHistory
  | .fetched records => { self with fetched := self.fetched ++ records }
  | .conveyor obs => { self with conveyor := self.conveyor.observe obs }
  | .snapshot _ _ | .persisted _ => self
  | .restarted => { start with earlier := self.delivered }

abbrev of (log : List SourceObs) : SourceHistory := log.foldl observe start

/-- What was delivered stays so. -/
theorem delivered_subset_observe (h : SourceHistory) (obs : SourceObs) :
    h.delivered ⊆ (h.observe obs).delivered := by
  cases obs with
  | conveyor obs => exact h.toRunHistory.delivered_subset_observe obs
  | restarted => exact List.subset_append_left _ _
  | _ => exact List.Subset.refl _

theorem delivered_subset (log out : List SourceObs) :
    (of log).delivered ⊆ (of (log ++ out)).delivered := by
  simp only [List.foldl_append]
  exact RunHistory.delivered_subset_foldl delivered_subset_observe _ out

end SourceHistory

/-- A quiet step leaves the poll task and what it fetched alone. -/
theorem sourceStep_quiet {parsers : Parsers} {config : CloudTrailSourceConfig}
    {s s' : SourceState} {out : List SourceObs} {event : SourceEvent} (quiet : event.Quiet)
    (taken : sourceStep parsers config s event = some (s', out)) :
    s'.poll = s.poll ∧ s'.floorMs = s.floorMs ∧
      ∀ log, (SourceHistory.of (log ++ out)).fetched = (SourceHistory.of log).fetched := by
  simp only [List.foldl_append]
  cases event with
  | cycle nowMs answeredMs response => cases quiet
  | restart nowMs => cases quiet
  | send =>
      simp only [sourceStep] at taken
      split at taken
      · cases taken
      · obtain ⟨c, sent, same⟩ := Option.map_eq_some_iff.mp taken
        cases same
        exact ⟨rfl, rfl, fun _ => rfl⟩
  | terminate | marker epoch | finalizer epoch =>
      cases taken
      exact ⟨rfl, rfl, fun _ => rfl⟩
  | call | tryRecv | receive | expire | abandon | record i =>
      obtain ⟨c, moved, same⟩ := Option.map_eq_some_iff.mp taken
      cases same
      exact ⟨rfl, rfl, fun _ => rfl⟩
  | finish built =>
      obtain ⟨⟨c, result⟩, finished, same⟩ := Option.map_eq_some_iff.mp taken
      cases same
      cases result <;> exact ⟨rfl, rfl, fun _ => rfl⟩
  | put i succeeds =>
      obtain ⟨⟨checkpoints, stored⟩, put, same⟩ := Option.map_eq_some_iff.mp taken
      cases same
      cases stored <;> exact ⟨rfl, rfl, fun _ => rfl⟩

end StreamlingPlugins.CloudTrail
