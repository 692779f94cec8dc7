import StreamlingPlugins.CloudTrail.RestartSafety

/-!
# Events are emitted once

A `Service` is what LookupEvents serves: events that an id identifies, each visible from some
time on.  The ids that the poller forgets are those of events before its window, which the
service does not list again, so a run emits every event at most once.
-/

namespace StreamlingPlugins.CloudTrail

/-! ## What LookupEvents serves -/

structure Service where
  events : Set CloudTrailRecord
  visibleAt : CloudTrailRecord → Int
  identified : ∀ a ∈ events, ∀ b ∈ events, a.eventId = b.eventId → a = b
  /-- No event is visible before it happens. -/
  past : ∀ a ∈ events, a.eventTimeMs.toInt ≤ visibleAt a

/-- The answer to a window lists events of the service from its start on, and what is malformed
is none of them. -/
structure Service.Answers (service : Service) (parsers : Parsers) (window : Window)
    (response : Response) : Prop where
  listed : ∀ event ∈ response.pages.flatten, ∀ record,
    CloudTrailRecord.fromSdkEvent parsers event = .ok record →
      record ∈ service.events ∧ window.startMs.toInt ≤ record.eventTimeMs.toInt
  malformed : ∀ event ∈ response.pages.flatten, ∀ id, event.eventId = some id →
    ∀ e, CloudTrailRecord.fromSdkEvent parsers event = .error e →
      ∀ record ∈ service.events, record.eventId ≠ id

/-- Every cycle is answered by a service. -/
def Service.Answered (service : Service) (parsers : Parsers) (config : CloudTrailSourceConfig)
    (s : SourceState) : SourceEvent → Prop
  | .cycle nowMs _ response =>
    service.Answers parsers (config.plan s.poll.watermarkMs s.floorMs nowMs) response
  | _ => True

/-! ## Ids -/

/-- The records of a run are known by their ids until they are older than its windows. -/
structure Remembered (service : Service) (config : CloudTrailSourceConfig) (h : SourceHistory)
    (s : SourceState) : Prop where
  among : ∀ record ∈ h.fetched, record ∈ service.events
  distinct : (h.fetched.map CloudTrailRecord.eventId).Nodup
  known : ∀ record ∈ h.fetched,
    s.poll.deduped record.eventId = some record.eventTimeMs ∨
      record.eventTimeMs.toInt <
        max (max (s.poll.watermarkMs.toInt - 1000 * config.lookbackSecs) s.floorMs.toInt) 0

section

variable {service : Service} {parsers : Parsers} {config : CloudTrailSourceConfig}
  {checkpoint : Option Int64} {h : SourceHistory} {s s' : SourceState} {log out : List SourceObs}

theorem Service.Answered.listedFromStart {event : SourceEvent}
    (answered : service.Answered parsers config s event) :
    ListedFromStart parsers config s event := by
  cases event with
  | cycle nowMs answeredMs response =>
      exact fun source among record converted =>
        (Service.Answers.listed answered source among record converted).2
  | _ => trivial

theorem CloudTrailSourceConfig.known_eq (config : CloudTrailSourceConfig) (nowMs : Int64)
    (record : CloudTrailRecord)
    (before : s.poll.deduped record.eventId = some record.eventTimeMs) :
    config.known s.floorMs nowMs s.poll record.eventId = some record.eventTimeMs ∨
      record.eventTimeMs.toInt <
        max (max (s.poll.watermarkMs.toInt - 1000 * config.lookbackSecs) s.floorMs.toInt) 0 := by
  have start := plan_startMs config s.poll.watermarkMs s.floorMs nowMs
  unfold CloudTrailSourceConfig.known DedupedEventIds.evictBefore
  rw [before, Option.filter_some]
  split
  · exact .inl rfl
  · rename_i evicted
    rw [decide_eq_true_eq, Int64.le_iff_toInt_le] at evicted
    exact .inr (by omega)

theorem Remembered.cycle {nowMs answeredMs : Int64} {response : Response}
    (remembered : Remembered service config h s)
    (answers : service.Answers parsers (config.plan s.poll.watermarkMs s.floorMs nowMs) response)
    (taken : sourceStep parsers config s (.cycle nowMs answeredMs response) = some (s', out)) :
    Remembered service config (out.foldl SourceHistory.observe h) s' := by
  have start := plan_startMs config s.poll.watermarkMs s.floorMs nowMs
  have still_known (record : CloudTrailRecord) (member : record ∈ h.fetched) :
      config.known s.floorMs nowMs s.poll record.eventId = some record.eventTimeMs ∨
        record.eventTimeMs.toInt <
          max (max (s.poll.watermarkMs.toInt - 1000 * config.lookbackSecs) s.floorMs.toInt) 0 := by
    rcases remembered.known record member with known | old
    · exact config.known_eq nowMs record known
    · exact .inr old
  obtain ⟨-, -, ⟨rfl, rfl⟩ | ⟨fetched, batches, -, fetches, same, -, rfl, rfl⟩⟩ := cycle_cases taken
  · exact ⟨remembered.among, remembered.distinct, still_known⟩
  · have listed (record : CloudTrailRecord) (member : record ∈ fetched.records) :
        record ∈ service.events ∧
          (config.plan s.poll.watermarkMs s.floorMs nowMs).startMs.toInt ≤
            record.eventTimeMs.toInt := by
      obtain ⟨event, source, converted⟩ := fetches.accepted record member
      exact answers.listed event source record converted
    have unskipped (record : CloudTrailRecord) (event : record ∈ service.events) :
        record.eventId ∉ fetched.skipped.map Prod.fst := by
      intro skipped
      obtain ⟨entry, member, named⟩ := List.mem_map.mp skipped
      obtain ⟨source, among, id, e, malformed⟩ := fetches.skipped entry member
      exact answers.malformed source among entry.1 id e malformed record event named.symm
    have new_id (record : CloudTrailRecord) (member : record ∈ h.fetched) :
        record.eventId ∉ fetched.records.map CloudTrailRecord.eventId := by
      intro again
      obtain ⟨other, other_member, same_id⟩ := List.mem_map.mp again
      obtain rfl := service.identified other (listed other other_member).1 record
        (remembered.among record member) same_id
      have from_start := (listed other other_member).2
      have fresh := fetches.fresh other other_member
      rcases still_known other member with known | old
      · rw [DedupedEventIds.contains, known] at fresh
        cases fresh
      · omega
    have further := @le_advanceWatermark s.poll.watermarkMs (maxEventTime fetched.records)
      (config.plan s.poll.watermarkMs s.floorMs nowMs).endMs
    refine ⟨fun record member => ?_, ?_, fun record member => ?_⟩
    · rcases List.mem_append.mp member with before | new
      · exact remembered.among record before
      · exact (listed record (same.mem_iff.mp new)).1
    · show ((h.fetched ++ batches.flatten).map CloudTrailRecord.eventId).Nodup
      rw [List.map_append]
      refine remembered.distinct.append ((same.map _).nodup_iff.mpr fetches.distinct) ?_
      intro id before new
      obtain ⟨record, member, rfl⟩ := List.mem_map.mp before
      exact new_id record member ((same.map _).mem_iff.mp new)
    · rcases List.mem_append.mp member with before | new
      · have kept : fetched.remember (config.known s.floorMs nowMs s.poll) record.eventId =
            config.known s.floorMs nowMs s.poll record.eventId :=
          FetchedWindow.remember_of_not_mem (new_id record before)
            (unskipped record (remembered.among record before))
        rcases still_known record before with known | old
        · exact .inl (kept.trans known)
        · refine .inr (old.trans_le ?_)
          show _ ≤ max (max (_ - _) s.floorMs.toInt) 0
          dsimp only
          omega
      · have member := same.mem_iff.mp new
        exact .inl (FetchedWindow.remember_record fetches.distinct member
          (unskipped record (listed record member).1))

theorem Remembered.step {event : SourceEvent} (remembered : Remembered service config (.of log) s)
    (answered : service.Answered parsers config s event)
    (taken : sourceStep parsers config s event = some (s', out)) :
    Remembered service config (.of (log ++ out)) s' := by
  have quietly (quiet : event.Quiet) : Remembered service config (.of (log ++ out)) s' := by
    obtain ⟨poll, floor, fetched⟩ := sourceStep_quiet quiet taken
    refine ⟨?_, ?_, ?_⟩ <;> rw [fetched log]
    · exact remembered.among
    · exact remembered.distinct
    · rw [poll, floor]
      exact remembered.known
  cases event with
  | cycle nowMs answeredMs response =>
      simp only [List.foldl_append]
      exact remembered.cycle answered taken
  | restart nowMs =>
      cases taken
      simp only [List.foldl_append]
      exact ⟨nofun, .nil, nofun⟩
  | _ => exact quietly trivial

/-- **A run emits every event once.**  The records of a run have distinct ids, its batches are
the first of them in the order in which they were fetched, and none is older than one before it
by more than the lookback. -/
theorem emitted_once {startMs : Int64}
    (reached : (sourceMachine parsers config).ReachesWhere (service.Answered parsers config)
      (.initial config checkpoint startMs) s log) :
    ((SourceHistory.of log).fetched.map CloudTrailRecord.eventId).Nodup ∧
      (SourceHistory.of log).conveyor.settled ++ (SourceHistory.of log).conveyor.last <+:
        (SourceHistory.of log).fetched ∧
      (SourceHistory.of log).fetched.Pairwise fun (a b : CloudTrailRecord) =>
        a.eventTimeMs.toInt - 1000 * config.lookbackSecs ≤ b.eventTimeMs.toInt := by
  have remembered : Remembered service config (.of log) s :=
    reached.invariant (P := fun s log => Remembered service config (.of log) s)
      ⟨nofun, .nil, nofun⟩ fun remembered answered taken => remembered.step answered taken
  have inOrder := (restartable_of_reaches (reached.mono fun _ _ answered =>
    Service.Answered.listedFromStart answered)).inOrder
  obtain ⟨dropped, all, -⟩ := inOrder.sent
  refine ⟨remembered.distinct, ?_, inOrder.ordered⟩
  rw [all, inOrder.tracks.sent]
  exact ⟨s.conveyor.carry ++ s.conveyor.channel.flatten ++ s.unsent.flatten ++ dropped, by simp⟩

end

/-- Two events, visible from when they happen. -/
def demoService : Service where
  events := {⟨"a", 5000⟩, ⟨"b", 6000⟩}
  visibleAt record := record.eventTimeMs.toInt
  identified := by
    rintro a (rfl | rfl) b (rfl | rfl) same
    · rfl
    · exact absurd same (by decide)
    · exact absurd same (by decide)
    · rfl
  past _ _ := le_rfl

theorem demo_answers : demoService.Answers demoParsers
    (demoConfig.plan demoState.poll.watermarkMs demoState.floorMs 10000)
    ⟨[[demoEvent "b" 6000, demoEvent "a" 5000]], none⟩ where
  listed event among record converted := by
    rcases demo_converted among with is_record | is_record <;>
      cases is_record.symm.trans converted
    · exact ⟨.inl rfl, by decide⟩
    · exact ⟨.inr rfl, by decide⟩
  malformed event among id named e malformed := by
    rcases demo_converted among with is_record | is_record <;>
      cases is_record.symm.trans malformed

theorem emitted_once_demo : ∃ s log,
    (sourceMachine demoParsers demoConfig).ReachesWhere
      (demoService.Answered demoParsers demoConfig) demoState s log ∧
    (SourceHistory.of log).fetched = [⟨"a", 5000⟩, ⟨"b", 6000⟩] ∧
    ((SourceHistory.of log).fetched.map CloudTrailRecord.eventId).Nodup := by
  have answered : demoService.Answered demoParsers demoConfig demoState demoCycle := demo_answers
  obtain ⟨s, log, reached, fetched, -⟩ := demo_reaches answered fun e fetchless running s => by
    cases e with
    | cycle nowMs answeredMs response => exact absurd rfl (fetchless _ _ _)
    | _ => trivial
  exact ⟨s, log, reached, fetched, (emitted_once reached).1⟩

end StreamlingPlugins.CloudTrail
