import StreamlingPlugins.CloudTrail.Service

/-!
# No event is lost

Each successful cycle lists what was visible when it was planned.  An event that becomes visible
within the lookback, less the time that a cycle takes, is still in the next window after any
cycle that missed it, whatever the watermark became.  So it is queued in this run or still
ahead of it, and ahead of every restart unless it was delivered when the stored watermark was
read.
-/

namespace StreamlingPlugins.CloudTrail

/-! ## Answers that miss nothing -/

/-- A whole answer lists every event of the window that was visible when it was planned, and no
event that became visible after it. -/
structure Service.AnswersAll (service : Service) (parsers : Parsers) (window : Window)
    (nowMs answeredMs : Int64) (response : Response) : Prop
    extends service.Answers parsers window response where
  visible : ∀ event ∈ response.pages.flatten, ∀ record,
    CloudTrailRecord.fromSdkEvent parsers event = .ok record →
      service.visibleAt record ≤ answeredMs.toInt ∧
        ∀ endMs ∈ window.endMs, record.eventTimeMs.toInt ≤ endMs.toInt
  complete : response.failure = none → ∀ record ∈ service.events,
    service.visibleAt record ≤ nowMs.toInt → window.startMs.toInt ≤ record.eventTimeMs.toInt →
      (∀ endMs ∈ window.endMs, record.eventTimeMs.toInt < endMs.toInt) →
        ∃ event ∈ response.pages.flatten,
          CloudTrailRecord.fromSdkEvent parsers event = .ok record

/-- The start of the first window of a source that begins with a checkpoint, or without. -/
def CloudTrailSourceConfig.firstMs (config : CloudTrailSourceConfig) (checkpoint : Option Int64)
    (nowMs : Int64) : Int64 :=
  let s := SourceState.initial config checkpoint nowMs
  (config.plan s.poll.watermarkMs s.floorMs nowMs).startMs

/-- Cycles take a bounded time and are answered in full, and a run that finds nothing stored
starts no later than the first one. -/
def Service.AnsweredInFull (service : Service) (parsers : Parsers)
    (config : CloudTrailSourceConfig) (cycleMs : Nat) (sinceMs : Int) (s : SourceState) :
    SourceEvent → Prop
  | .cycle nowMs answeredMs response =>
    service.AnswersAll parsers (config.plan s.poll.watermarkMs s.floorMs nowMs) nowMs answeredMs
      response ∧ answeredMs.toInt ≤ nowMs.toInt + cycleMs
  | .restart nowMs =>
    s.checkpoints.stored = none → (config.firstMs none nowMs).toInt ≤ sinceMs
  | _ => True

/-- An event since some time that becomes visible early enough. -/
structure Service.Due (service : Service) (config : CloudTrailSourceConfig) (cycleMs : Nat)
    (sinceMs : Int) (record : CloudTrailRecord) : Prop where
  event : record ∈ service.events
  since : sinceMs ≤ record.eventTimeMs.toInt
  early : service.visibleAt record + cycleMs ≤
    record.eventTimeMs.toInt + 1000 * config.lookbackSecs

/-! ## Coverage -/

/-- A watermark has an event ahead of it, or a marker read it after the event was delivered. -/
def Settles (config : CloudTrailSourceConfig) (log : List SourceObs) (watermark : Int64)
    (record : CloudTrailRecord) : Prop :=
  (∃ before epoch after, log = before ++ .snapshot epoch watermark :: after ∧
      record ∈ (SourceHistory.of before).delivered) ∨
    watermark.toInt - 1000 * config.lookbackSecs ≤ record.eventTimeMs.toInt

structure Covered (service : Service) (config : CloudTrailSourceConfig) (cycleMs : Nat)
    (sinceMs : Int) (log : List SourceObs) (s : SourceState) : Prop where
  floor : max s.floorMs.toInt 0 ≤ sinceMs
  known : ∀ record ∈ service.events, (s.poll.deduped record.eventId).isSome →
    record ∈ (SourceHistory.of log).fetched
  ahead : ∀ record, service.Due config cycleMs sinceMs record →
    record ∈ (SourceHistory.of log).delivered ∨ record ∈ (SourceHistory.of log).fetched ∨
      s.poll.watermarkMs.toInt - 1000 * config.lookbackSecs ≤ record.eventTimeMs.toInt
  read : s.checkpoints.All fun _ watermark => ∀ record,
    service.Due config cycleMs sinceMs record → Settles config log watermark record
  stored : ∀ watermark, s.checkpoints.stored = some watermark → ∀ record,
    service.Due config cycleMs sinceMs record → Settles config log watermark record

section

variable {service : Service} {parsers : Parsers} {config : CloudTrailSourceConfig}
  {checkpoint : Option Int64} {cycleMs : Nat} {sinceMs : Int} {s s' : SourceState}
  {log out : List SourceObs} {record : CloudTrailRecord}

theorem Settles.append {watermark : Int64} (settles : Settles config log watermark record) :
    Settles config (log ++ out) watermark record := by
  rcases settles with ⟨before, epoch, after, rfl, delivered⟩ | ahead
  · exact .inl ⟨before, epoch, after ++ out, by simp, delivered⟩
  · exact .inr ahead

theorem Service.AnsweredInFull.answered {event : SourceEvent}
    (answered : service.AnsweredInFull parsers config cycleMs sinceMs s event) :
    service.Answered parsers config s event := by
  cases event with
  | cycle nowMs answeredMs response => exact answered.1.toAnswers
  | _ => trivial

theorem toInt_firstMs (config : CloudTrailSourceConfig) (checkpoint : Option Int64)
    (nowMs : Int64) : (config.firstMs checkpoint nowMs).toInt =
      max (max ((SourceState.initial config checkpoint nowMs).poll.watermarkMs.toInt -
        1000 * config.lookbackSecs) (SourceState.initial config checkpoint nowMs).floorMs.toInt) 0 :=
  plan_startMs config _ _ nowMs

/-- A source that begins no later than the events that are due. -/
theorem covered_initial {nowMs : Int64}
    (early : (config.firstMs checkpoint nowMs).toInt ≤ sinceMs) :
    Covered service config cycleMs sinceMs log (.initial config checkpoint nowMs) := by
  rw [toInt_firstMs] at early
  refine ⟨by omega, fun _ _ known => ?_, fun record due => .inr (.inr ?_),
    Checkpointing.all_restored _, ?_⟩
  · cases known
  · have since := due.since
    omega
  · rintro watermark rfl record due
    have since := due.since
    have started : (SourceState.initial config (some watermark) nowMs).poll.watermarkMs =
        watermark := rfl
    rw [started] at early
    exact .inr (by omega)

theorem Covered.known_of_cycle {nowMs : Int64}
    (covered : Covered service config cycleMs sinceMs log s) (event : record ∈ service.events)
    (known : (config.known s.floorMs nowMs s.poll record.eventId).isSome) :
    record ∈ (SourceHistory.of log).fetched := by
  refine covered.known record event ?_
  obtain ⟨time, held⟩ := Option.isSome_iff_exists.mp known
  rw [(Option.filter_eq_some_iff.mp held).1]
  rfl

/-- The record that a fetch accepted under the id of an event is the event's. -/
theorem Fetched.mem_of_id {window : Window} {response : Response} {deduped : DedupedEventIds}
    {fetched : FetchedWindow} (fetches : Fetched parsers deduped response.pages.flatten fetched)
    (answers : service.Answers parsers window response) (event : record ∈ service.events)
    (recorded : record.eventId ∈ fetched.records.map CloudTrailRecord.eventId) :
    record ∈ fetched.records := by
  obtain ⟨other, member, same_id⟩ := List.mem_map.mp recorded
  obtain ⟨source, among, converted⟩ := fetches.accepted other member
  have other_event := (answers.listed source among other converted).1
  obtain rfl := service.identified other other_event record event same_id
  exact member

/-- An event that a successful cycle does not queue is not delivered late: the next window
still starts before it. -/
theorem Covered.ahead_of_cycle {nowMs answeredMs : Int64} {response : Response}
    {fetched : FetchedWindow} (covered : Covered service config cycleMs sinceMs log s)
    (answers : service.AnswersAll parsers (config.plan s.poll.watermarkMs s.floorMs nowMs) nowMs
      answeredMs response)
    (prompt : answeredMs.toInt ≤ nowMs.toInt + cycleMs) (whole : response.failure = none)
    (fetches : Fetched parsers (config.known s.floorMs nowMs s.poll) response.pages.flatten fetched)
    (due : service.Due config cycleMs sinceMs record)
    (ahead : s.poll.watermarkMs.toInt - 1000 * config.lookbackSecs ≤ record.eventTimeMs.toInt) :
    record ∈ (SourceHistory.of log).fetched ∨ record ∈ fetched.records ∨
      (advanceWatermark s.poll.watermarkMs (maxEventTime fetched.records)
        (config.plan s.poll.watermarkMs s.floorMs nowMs).endMs).toInt -
          1000 * config.lookbackSecs ≤ record.eventTimeMs.toInt := by
  have start := plan_startMs config s.poll.watermarkMs s.floorMs nowMs
  have from_start : (config.plan s.poll.watermarkMs s.floorMs nowMs).startMs.toInt ≤
      record.eventTimeMs.toInt := by
    have floor := covered.floor
    have since := due.since
    omega
  have early := due.early
  by_cases listed : service.visibleAt record ≤ nowMs.toInt ∧
      ∀ endMs ∈ (config.plan s.poll.watermarkMs s.floorMs nowMs).endMs,
        record.eventTimeMs.toInt < endMs.toInt
  · obtain ⟨event, among, converted⟩ :=
      answers.complete whole record due.event listed.1 from_start listed.2
    rcases fetches.complete event among record converted with known | recorded
    · exact .inl (covered.known_of_cycle due.event known)
    · exact .inr (.inl (fetches.mem_of_id answers.toAnswers due.event recorded))
  · refine .inr (.inr ?_)
    have records_end (other : CloudTrailRecord) (member : other ∈ fetched.records) :
        other.eventTimeMs.toInt ≤ answeredMs.toInt ∧
          ∀ endMs ∈ (config.plan s.poll.watermarkMs s.floorMs nowMs).endMs,
            other.eventTimeMs.toInt ≤ endMs.toInt := by
      obtain ⟨source, among, converted⟩ := fetches.accepted other member
      obtain ⟨visible, capped⟩ := answers.visible source among other converted
      exact ⟨(service.past other (answers.listed source among other converted).1).trans visible,
        capped⟩
    rcases @advanceWatermark_cases s.poll.watermarkMs (maxEventTime fetched.records)
        (config.plan s.poll.watermarkMs s.floorMs nowMs).endMs with stays | newest | ending
    · rw [stays]
      exact ahead
    · obtain ⟨⟨other, member, same⟩, -⟩ := maxEventTime_eq_some newest
      obtain ⟨visible, capped⟩ := records_end other member
      rw [← same]
      by_cases late : service.visibleAt record ≤ nowMs.toInt
      · obtain ⟨endMs, is_end, beyond⟩ : ∃ endMs ∈
            (config.plan s.poll.watermarkMs s.floorMs nowMs).endMs,
            ¬ record.eventTimeMs.toInt < endMs.toInt := by
          by_contra! within
          exact listed ⟨late, within⟩
        have before_end := capped endMs is_end
        omega
      · omega
    · have before_now := (plan_endMs ending).2
      by_cases late : service.visibleAt record ≤ nowMs.toInt
      · have beyond : ¬ record.eventTimeMs.toInt < (advanceWatermark s.poll.watermarkMs
            (maxEventTime fetched.records)
            (config.plan s.poll.watermarkMs s.floorMs nowMs).endMs).toInt := by
          intro within
          refine listed ⟨late, fun endMs is_end => ?_⟩
          obtain rfl := Option.some.inj (ending.symm.trans is_end)
          exact within
        omega
      · omega

theorem Covered.settles_append (covered : Covered service config cycleMs sinceMs log s)
    (out : List SourceObs) :
    (s.checkpoints.All fun _ watermark => ∀ record,
        service.Due config cycleMs sinceMs record → Settles config (log ++ out) watermark record) ∧
      ∀ watermark, s.checkpoints.stored = some watermark → ∀ record,
        service.Due config cycleMs sinceMs record → Settles config (log ++ out) watermark record :=
  ⟨covered.read.mono fun _ _ settles record due => (settles record due).append,
    fun watermark stored record due => (covered.stored watermark stored record due).append⟩

theorem Covered.cycle {nowMs answeredMs : Int64} {response : Response}
    (covered : Covered service config cycleMs sinceMs log s)
    (answered : service.AnsweredInFull parsers config cycleMs sinceMs s
      (.cycle nowMs answeredMs response))
    (taken : sourceStep parsers config s (.cycle nowMs answeredMs response) = some (s', out)) :
    Covered service config cycleMs sinceMs (log ++ out) s' := by
  obtain ⟨answers, prompt⟩ := answered
  obtain ⟨read, stored⟩ := covered.settles_append out
  obtain ⟨-, -, ⟨rfl, rfl⟩ | ⟨fetched, batches, whole, fetches, same, -, rfl, rfl⟩⟩ :=
    cycle_cases taken
  · rw [List.append_nil] at read stored ⊢
    exact ⟨covered.floor, fun record event known => covered.known_of_cycle event known,
      covered.ahead, read, stored⟩
  · have grown : (SourceHistory.of (log ++ [.fetched batches.flatten])).fetched =
        (SourceHistory.of log).fetched ++ batches.flatten := by
      simp [SourceHistory.observe]
    refine ⟨covered.floor, fun record event known => ?_, fun record due => ?_, read, stored⟩
    · rw [grown, List.mem_append, same.mem_iff]
      rcases FetchedWindow.remember_isSome known with skipped | recorded | known
      · obtain ⟨entry, member, named⟩ := List.mem_map.mp skipped
        obtain ⟨source, among, id, e, malformed⟩ := fetches.skipped entry member
        exact absurd named.symm
          (answers.malformed source among entry.1 id e malformed record event)
      · exact .inr (fetches.mem_of_id answers.toAnswers event recorded)
      · exact .inl (covered.known_of_cycle event known)
    · rw [grown, List.mem_append, same.mem_iff]
      rcases covered.ahead record due with delivered | already | ahead
      · exact .inl (SourceHistory.delivered_subset log _ delivered)
      · exact .inr (.inl (.inl already))
      · rcases covered.ahead_of_cycle answers prompt whole fetches due ahead with
          already | queued | later
        · exact .inr (.inl (.inl already))
        · exact .inr (.inl (.inr queued))
        · exact .inr (.inr later)

/-- A restart resumes from the stored watermark, or begins again where nothing is stored. -/
theorem Covered.restart {nowMs : Int64} (covered : Covered service config cycleMs sinceMs log s)
    (floor : config.resumeFloorMs.toInt ≤ sinceMs)
    (again : s.checkpoints.stored = none → (config.firstMs none nowMs).toInt ≤ sinceMs) :
    Covered service config cycleMs sinceMs (log ++ [.restarted])
      (.initial config s.checkpoints.stored nowMs) := by
  cases held : s.checkpoints.stored with
  | none => exact covered_initial (again held)
  | some watermark =>
      have settles := covered.stored watermark held
      have since_zero : 0 ≤ sinceMs := (le_max_right _ _).trans covered.floor
      have resumed : (SourceState.initial config (some watermark) nowMs).floorMs =
          config.resumeFloorMs := by
        unfold CloudTrailSourceConfig.resumeFloorMs SourceState.initial resolveStart
        cases config.startTime <;> rfl
      refine ⟨?_, fun _ _ known => ?_, fun record due => ?_, Checkpointing.all_restored _, ?_⟩
      · rw [resumed]
        exact max_le floor since_zero
      · cases known
      · rcases settles record due with ⟨before, epoch, after, rfl, delivered⟩ | ahead
        · rw [List.append_assoc]
          exact .inl (SourceHistory.delivered_subset before _ delivered)
        · exact .inr (.inr ahead)
      · rintro watermark' ⟨⟩ record due
        exact (settles record due).append

/-- Where a watermark stands that a batch made the delivered one, every event that is due is
delivered or still ahead. -/
theorem Covered.settles_delivered (covered : Covered service config cycleMs sinceMs log s)
    (inOrder : InOrder config (.of log) s) (due : service.Due config cycleMs sinceMs record) :
    record ∈ (SourceHistory.of log).delivered ∨
      s.deliveredWatermark.toInt - 1000 * config.lookbackSecs ≤ record.eventTimeMs.toInt := by
  rcases covered.ahead record due with delivered | fetched | ahead
  · exact .inl delivered
  · exact inOrder.covers.again record fetched
  · have le := inOrder.covers.le
    exact .inr (by omega)

theorem Covered.quiet {event : SourceEvent} (quiet : event.Quiet)
    (covered : Covered service config cycleMs sinceMs log s) (inOrder : InOrder config (.of log) s)
    (taken : sourceStep parsers config s event = some (s', out)) :
    Covered service config cycleMs sinceMs (log ++ out) s' := by
  obtain ⟨poll, floor, fetched⟩ := sourceStep_quiet quiet taken
  obtain ⟨read, stored⟩ := covered.settles_append out
  have ahead (record : CloudTrailRecord) (due : service.Due config cycleMs sinceMs record) :
      record ∈ (SourceHistory.of (log ++ out)).delivered ∨
        record ∈ (SourceHistory.of (log ++ out)).fetched ∨
        s'.poll.watermarkMs.toInt - 1000 * config.lookbackSecs ≤ record.eventTimeMs.toInt := by
    rw [poll, fetched log]
    exact (covered.ahead record due).imp_left fun delivered =>
      SourceHistory.delivered_subset log out delivered
  have with_checkpoints
      (read : s'.checkpoints.All fun _ watermark => ∀ record,
        service.Due config cycleMs sinceMs record → Settles config (log ++ out) watermark record)
      (stored : ∀ watermark, s'.checkpoints.stored = some watermark → ∀ record,
        service.Due config cycleMs sinceMs record → Settles config (log ++ out) watermark record) :
      Covered service config cycleMs sinceMs (log ++ out) s' := by
    refine ⟨?_, ?_, ahead, read, stored⟩
    · rw [floor]
      exact covered.floor
    · rw [poll, fetched log]
      exact covered.known
  have kept (same : s'.checkpoints = s.checkpoints) :
      Covered service config cycleMs sinceMs (log ++ out) s' := by
    refine with_checkpoints ?_ ?_ <;> rw [same]
    · exact read
    · exact stored
  cases event with
  | cycle nowMs answeredMs response => cases quiet
  | restart nowMs => cases quiet
  | send =>
      simp only [sourceStep] at taken
      split at taken
      · cases taken
      · obtain ⟨c, sent, same⟩ := Option.map_eq_some_iff.mp taken
        cases same
        exact kept rfl
  | terminate =>
      cases taken
      exact kept rfl
  | call | tryRecv | receive | expire | abandon | finish built =>
      obtain ⟨c, moved, same⟩ := Option.map_eq_some_iff.mp taken
      cases same
      exact kept rfl
  | marker epoch =>
      cases taken
      refine with_checkpoints (read.load fun record due => ?_) stored
      rcases covered.settles_delivered inOrder due with delivered | ahead
      · exact .inl ⟨log, epoch, [], rfl, delivered⟩
      · exact .inr ahead
  | record i =>
      obtain ⟨checkpoints, recorded, same⟩ := Option.map_eq_some_iff.mp taken
      cases same
      refine with_checkpoints (read.record recorded) ?_
      obtain ⟨entry, -, rfl⟩ := Option.map_eq_some_iff.mp recorded
      exact stored
  | finalizer epoch =>
      cases taken
      exact with_checkpoints read.finalize stored
  | put i succeeds =>
      obtain ⟨⟨checkpoints, persisted⟩, put, same⟩ := Option.map_eq_some_iff.mp taken
      cases same
      obtain ⟨read, origin, now_stored⟩ := read.store put
      refine with_checkpoints read fun watermark held => ?_
      rw [show checkpoints.stored = some watermark from held] at now_stored
      cases persisted with
      | none => exact stored watermark now_stored.symm
      | some value =>
          obtain rfl : watermark = value := Option.some.inj now_stored
          exact (origin watermark rfl).choose_spec

theorem Covered.step {event : SourceEvent} (covered : Covered service config cycleMs sinceMs log s)
    (inOrder : InOrder config (.of log) s) (floor : config.resumeFloorMs.toInt ≤ sinceMs)
    (answered : service.AnsweredInFull parsers config cycleMs sinceMs s event)
    (taken : sourceStep parsers config s event = some (s', out)) :
    Covered service config cycleMs sinceMs (log ++ out) s' := by
  cases event with
  | cycle nowMs answeredMs response => exact covered.cycle answered taken
  | restart nowMs =>
      cases taken
      exact covered.restart floor answered
  | _ => exact covered.quiet (by trivial) inOrder taken

theorem covered_of_reaches {startMs : Int64}
    (early : (config.firstMs checkpoint startMs).toInt ≤ sinceMs)
    (reached : (sourceMachine parsers config).ReachesWhere
      (service.AnsweredInFull parsers config cycleMs sinceMs) (.initial config checkpoint startMs)
      s log) :
    Covered service config cycleMs sinceMs log s ∧ InOrder config (.of log) s := by
  have floor : config.resumeFloorMs.toInt ≤ sinceMs := by
    have resumes := initial_floorMs_le config checkpoint startMs
    rw [toInt_firstMs] at early
    omega
  have both := reached.invariant
    (P := fun s log => Covered service config cycleMs sinceMs log s ∧
      Restartable config checkpoint log s)
    ⟨covered_initial early, restartable_initial checkpoint startMs⟩ (by
      intro s s' log out event both answered taken
      exact ⟨both.1.step both.2.inOrder floor answered taken,
        both.2.step answered.answered.listedFromStart taken⟩)
  exact ⟨both.1, both.2.inOrder⟩

/-! ## Delivery -/

/-- **No event that is due is lost.**  Whatever crashes and restarts there were, the stored
watermark was read after it was delivered, or a restart from it starts no later; and while the
poll task lives, it is delivered, on its way, or not before the next window. -/
theorem due_event_kept {startMs : Int64}
    (early : (config.firstMs checkpoint startMs).toInt ≤ sinceMs)
    (reached : (sourceMachine parsers config).ReachesWhere
      (service.AnsweredInFull parsers config cycleMs sinceMs) (.initial config checkpoint startMs)
      s log)
    (due : service.Due config cycleMs sinceMs record) :
    (∀ watermark, s.checkpoints.stored = some watermark →
        (∃ before epoch after, log = before ++ .snapshot epoch watermark :: after ∧
          record ∈ (SourceHistory.of before).delivered) ∨
        ∀ nowMs plannedMs,
          (config.resumeMs watermark nowMs plannedMs).toInt ≤ record.eventTimeMs.toInt) ∧
      (s.polling →
        record ∈ (SourceHistory.of log).delivered ∨
        record ∈ (SourceHistory.of log).conveyor.last ++ s.conveyor.carry ++
          s.conveyor.channel.flatten ++ s.unsent.flatten ∨
        ∀ nowMs, (config.plan s.poll.watermarkMs s.floorMs nowMs).startMs.toInt ≤
          record.eventTimeMs.toInt) := by
  obtain ⟨covered, inOrder⟩ := covered_of_reaches early reached
  have since := due.since
  have floor := covered.floor
  constructor
  · intro watermark stored
    refine (covered.stored watermark stored record due).imp_right fun ahead nowMs plannedMs => ?_
    have resumes := initial_floorMs_le config checkpoint startMs
    rw [toInt_firstMs] at early
    rw [toInt_resumeMs]
    omega
  · intro polling
    rcases covered.ahead record due with delivered | fetched | ahead
    · exact .inl delivered
    · obtain ⟨dropped, all, live⟩ := inOrder.sent
      obtain rfl := live polling
      rw [all, inOrder.tracks.sent] at fetched
      by_cases settled : record ∈ (SourceHistory.of log).conveyor.settled
      · exact .inl (List.mem_append_right _ settled)
      · refine .inr (.inl ?_)
        simp only [List.append_nil, List.mem_append] at fetched ⊢
        tauto
    · refine .inr (.inr fun nowMs => ?_)
      rw [plan_startMs]
      omega

/-- **An event that is due is queued in time.**  It is queued by the first successful cycle that
is planned after it became visible and whose window does not end before it. -/
theorem due_event_queued {startMs : Int64}
    (early : (config.firstMs checkpoint startMs).toInt ≤ sinceMs)
    (reached : (sourceMachine parsers config).ReachesWhere
      (service.AnsweredInFull parsers config cycleMs sinceMs) (.initial config checkpoint startMs)
      s log)
    (due : service.Due config cycleMs sinceMs record) {nowMs answeredMs : Int64}
    {response : Response} {queued : List CloudTrailRecord}
    (answered : service.AnsweredInFull parsers config cycleMs sinceMs s
      (.cycle nowMs answeredMs response))
    (cycle : sourceStep parsers config s (.cycle nowMs answeredMs response) =
      some (s', [.fetched queued]))
    (visible : service.visibleAt record ≤ nowMs.toInt)
    (within : ∀ endMs ∈ (config.plan s.poll.watermarkMs s.floorMs nowMs).endMs,
      record.eventTimeMs.toInt < endMs.toInt) :
    record ∈ (SourceHistory.of log).delivered ∨
      record ∈ (SourceHistory.of log).fetched ∨ record ∈ queued := by
  obtain ⟨covered, -⟩ := covered_of_reaches early reached
  rcases covered.ahead record due with delivered | fetched | ahead
  · exact .inl delivered
  · exact .inr (.inl fetched)
  · obtain ⟨-, -, ⟨none, -⟩ | ⟨fetched, batches, whole, fetches, same, -, is_queued, -⟩⟩ :=
      cycle_cases cycle
    · cases none
    · cases is_queued
      rw [same.mem_iff]
      have start := plan_startMs config s.poll.watermarkMs s.floorMs nowMs
      have floor := covered.floor
      have since := due.since
      obtain ⟨event, among, converted⟩ := answered.1.complete whole record due.event visible
        (by omega) within
      rcases fetches.complete event among record converted with known | recorded
      · exact .inr (.inl (covered.known_of_cycle due.event known))
      · exact .inr (.inr (fetches.mem_of_id answered.1.toAnswers due.event recorded))

end

theorem demo_answersAll : demoService.AnswersAll demoParsers
    (demoConfig.plan demoState.poll.watermarkMs demoState.floorMs 10000) 10000 10000
    ⟨[[demoEvent "b" 6000, demoEvent "a" 5000]], none⟩ where
  toAnswers := demo_answers
  visible event among record converted := by
    rcases demo_converted among with is_record | is_record <;>
      cases is_record.symm.trans converted <;> exact ⟨by decide, nofun⟩
  complete _ record member _ _ _ := by
    rcases member with rfl | rfl
    · exact ⟨demoEvent "a" 5000, by simp, rfl⟩
    · exact ⟨demoEvent "b" 6000, by simp, rfl⟩

theorem demo_answeredInFull :
    demoService.AnsweredInFull demoParsers demoConfig 0 0 demoState demoCycle :=
  ⟨demo_answersAll, by decide⟩

theorem demo_due : demoService.Due demoConfig 0 0 ⟨"b", 6000⟩ :=
  ⟨.inr rfl, by decide, by decide⟩

/-- The second event is on its way when the time of the first is stored. -/
theorem due_event_kept_demo : ∃ s log,
    (sourceMachine demoParsers demoConfig).ReachesWhere
      (demoService.AnsweredInFull demoParsers demoConfig 0 0) demoState s log ∧
    ((∃ before epoch after, log = before ++ .snapshot epoch 5000 :: after ∧
        ⟨"b", 6000⟩ ∈ (SourceHistory.of before).delivered) ∨
      ∀ nowMs plannedMs, (demoConfig.resumeMs 5000 nowMs plannedMs).toInt ≤ 6000) := by
  obtain ⟨s, log, reached, -, -, stored⟩ := demo_reaches demo_answeredInFull
    fun e fetchless running s => by
      cases e with
      | cycle nowMs answeredMs response => exact absurd rfl (fetchless _ _ _)
      | restart nowMs => exact absurd rfl (running _)
      | _ => trivial
  exact ⟨s, log, reached, (due_event_kept (by decide) reached demo_due).1 5000 stored⟩

/-- The first cycle queues the second event. -/
theorem due_event_queued_demo : ∃ s' queued,
    sourceStep demoParsers demoConfig demoState demoCycle = some (s', [.fetched queued]) ∧
      ⟨"b", 6000⟩ ∈ queued := by
  obtain ⟨poll, cycle⟩ := demo_cycle demoState.checkpoints
  have queued := due_event_queued (by decide) Machine.ReachesWhere.refl demo_due
    demo_answeredInFull cycle (by decide) nofun
  rcases queued with delivered | fetched | queued
  · cases delivered
  · cases fetched
  · exact ⟨_, _, cycle, queued⟩

end StreamlingPlugins.CloudTrail
