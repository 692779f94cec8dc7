import StreamlingPlugins.CloudTrail.Source

/-!
# Restarting from a persisted watermark

A watermark that a marker read is the time of a delivered record, or the one that the run
started with.  Records travel in the order in which they were fetched, and none is older than
one fetched before it by more than the lookback.  So the windows of a source that restarts from
a persisted watermark reach back to every record that was not delivered when it was read.
-/

namespace StreamlingPlugins.CloudTrail

/-! ## Where a restart resumes -/

section

variable (config : CloudTrailSourceConfig)

/-- The start of the first window after a restart from a watermark. -/
def CloudTrailSourceConfig.resumeMs (watermark nowMs plannedMs : Int64) : Int64 :=
  let s := SourceState.initial config (some watermark) nowMs
  (config.plan s.poll.watermarkMs s.floorMs plannedMs).startMs

/-- The floor of a source that resumes from a watermark. -/
def CloudTrailSourceConfig.resumeFloorMs : Int64 :=
  match config.startTime with
  | .at t => t
  | .now | .earliest => 0

theorem initial_floorMs_le (checkpoint : Option Int64) (nowMs : Int64) :
    config.resumeFloorMs.toInt ≤ max (SourceState.initial config checkpoint nowMs).floorMs.toInt 0 := by
  have zero : (0 : Int64).toInt = 0 := rfl
  unfold CloudTrailSourceConfig.resumeFloorMs SourceState.initial resolveStart
  cases checkpoint <;> cases config.startTime <;> simp [zero]

theorem initial_watermarkMs (watermark nowMs : Int64) :
    (SourceState.initial config (some watermark) nowMs).poll.watermarkMs = watermark := rfl

theorem toInt_resumeMs (watermark nowMs plannedMs : Int64) :
    (config.resumeMs watermark nowMs plannedMs).toInt =
      max (max (watermark.toInt - 1000 * config.lookbackSecs) config.resumeFloorMs.toInt) 0 := by
  have floor : (SourceState.initial config (some watermark) nowMs).floorMs =
      config.resumeFloorMs := by
    unfold CloudTrailSourceConfig.resumeFloorMs SourceState.initial resolveStart
    cases config.startTime <;> rfl
  unfold CloudTrailSourceConfig.resumeMs
  rw [plan_startMs, initial_watermarkMs, floor]

end

/-! ## Records of a run -/

/-- LookupEvents returns no event before the start that it is asked for. -/
def Window.ListsFromStart (parsers : Parsers) (window : Window) (response : Response) : Prop :=
  ∀ event ∈ response.pages.flatten, ∀ record,
    CloudTrailRecord.fromSdkEvent parsers event = .ok record →
      window.startMs.toInt ≤ record.eventTimeMs.toInt

def ListedFromStart (parsers : Parsers) (config : CloudTrailSourceConfig) (s : SourceState) :
    SourceEvent → Prop
  | .cycle nowMs _ response =>
    (config.plan s.poll.watermarkMs s.floorMs nowMs).ListsFromStart parsers response
  | _ => True

/-- A watermark up to one that was reached covers what is not delivered with the lookback. -/
structure Covers (config : CloudTrailSourceConfig) (delivered fetched : List CloudTrailRecord)
    (reached watermark : Int64) : Prop where
  le : watermark.toInt ≤ reached.toInt
  again : ∀ record ∈ fetched, record ∈ delivered ∨
    watermark.toInt - 1000 * config.lookbackSecs ≤ record.eventTimeMs.toInt

/-- The records of a run, from the fetch to the host. -/
structure InOrder (config : CloudTrailSourceConfig) (h : SourceHistory) (s : SourceState) :
    Prop where
  tracks : s.conveyor.Tracks maxEventTime h.conveyor
  sent : ∃ dropped, h.fetched = h.conveyor.sent ++ s.unsent.flatten ++ dropped ∧
    (s.polling → dropped = [])
  ordered : h.fetched.Pairwise fun (a b : CloudTrailRecord) =>
    a.eventTimeMs.toInt - 1000 * config.lookbackSecs ≤ b.eventTimeMs.toInt
  reached : ∀ record ∈ h.fetched, record.eventTimeMs.toInt ≤ s.poll.watermarkMs.toInt
  started : ∀ record ∈ h.fetched, max config.resumeFloorMs.toInt 0 ≤ record.eventTimeMs.toInt
  floor : config.resumeFloorMs.toInt ≤ max s.floorMs.toInt 0
  covers : Covers config h.delivered h.fetched s.poll.watermarkMs s.deliveredWatermark

section

variable {parsers : Parsers} {config : CloudTrailSourceConfig} {h : SourceHistory}
  {s s' : SourceState} {out : List SourceObs}

theorem Covers.mono {delivered delivered' fetched new : List CloudTrailRecord}
    {reached reached' watermark : Int64} (covers : Covers config delivered fetched reached watermark)
    (more : delivered ⊆ delivered') (further : reached.toInt ≤ reached'.toInt)
    (recent : ∀ record ∈ new,
      reached.toInt - 1000 * config.lookbackSecs ≤ record.eventTimeMs.toInt) :
    Covers config delivered' (fetched ++ new) reached' watermark := by
  refine ⟨covers.le.trans further, fun record member => ?_⟩
  rcases List.mem_append.mp member with before | after
  · exact (covers.again record before).imp_left fun among => more among
  · have le := covers.le
    have time := recent record after
    exact .inr (by omega)

theorem inOrder_initial (checkpoint : Option Int64) (nowMs : Int64)
    (earlier : List CloudTrailRecord) :
    InOrder config { SourceHistory.start with earlier } (.initial config checkpoint nowMs) where
  tracks := Conveyor.tracks_new rfl
  sent := ⟨[], rfl, fun _ => rfl⟩
  ordered := .nil
  reached := nofun
  started := nofun
  floor := initial_floorMs_le config checkpoint nowMs
  covers := ⟨le_refl _, nofun⟩

/-- What a cycle queues, and how it moves the watermark. -/
theorem InOrder.cycle {nowMs answeredMs : Int64} {response : Response}
    (inOrder : InOrder config h s)
    (listed : (config.plan s.poll.watermarkMs s.floorMs nowMs).ListsFromStart parsers response)
    (taken : sourceStep parsers config s (.cycle nowMs answeredMs response) = some (s', out)) :
    InOrder config (out.foldl SourceHistory.observe h) s' ∧
      s.poll.watermarkMs.toInt ≤ s'.poll.watermarkMs.toInt ∧
      s'.checkpoints = s.checkpoints ∧
      ∃ new, (out.foldl SourceHistory.observe h).fetched = h.fetched ++ new ∧
        ∀ record ∈ new, s.poll.watermarkMs.toInt - 1000 * config.lookbackSecs ≤
          record.eventTimeMs.toInt := by
  obtain ⟨polling, sent, ⟨rfl, rfl⟩ | ⟨fetched, batches, -, fetches, same, sorted, rfl, rfl⟩⟩ :=
    cycle_cases taken
  · refine ⟨⟨inOrder.tracks, inOrder.sent, inOrder.ordered, inOrder.reached, inOrder.started,
      inOrder.floor, inOrder.covers⟩, le_refl _, rfl, [], by simp, nofun⟩
  · have from_start (record : CloudTrailRecord) (member : record ∈ batches.flatten) :
        max (max (s.poll.watermarkMs.toInt - 1000 * config.lookbackSecs) s.floorMs.toInt) 0 ≤
          record.eventTimeMs.toInt := by
      obtain ⟨event, among, converted⟩ := fetches.accepted record (same.mem_iff.mp member)
      rw [← plan_startMs config s.poll.watermarkMs s.floorMs nowMs]
      exact listed event among record converted
    have recent (record : CloudTrailRecord) (member : record ∈ batches.flatten) :
        s.poll.watermarkMs.toInt - 1000 * config.lookbackSecs ≤ record.eventTimeMs.toInt := by
      have start := from_start record member
      omega
    have further := @le_advanceWatermark s.poll.watermarkMs (maxEventTime fetched.records)
      (config.plan s.poll.watermarkMs s.floorMs nowMs).endMs
    refine ⟨⟨inOrder.tracks, ?_, ?_, fun record member => ?_, fun record member => ?_,
      inOrder.floor, inOrder.covers.mono (List.Subset.refl _) further recent⟩, further, rfl,
      batches.flatten, rfl, recent⟩
    · obtain ⟨dropped, all, live⟩ := inOrder.sent
      obtain rfl := live polling
      refine ⟨[], ?_, fun _ => rfl⟩
      simp [SourceHistory.observe, all, sent]
    · refine List.pairwise_append.mpr ⟨inOrder.ordered, sorted.imp (by omega), ?_⟩
      intro a before b after
      have a_reached := inOrder.reached a before
      have b_recent := recent b after
      omega
    · rcases List.mem_append.mp member with before | new
      · exact (inOrder.reached record before).trans further
      · cases largest : maxEventTime fetched.records with
        | none =>
            rw [maxEventTime_eq_none] at largest
            have among := same.mem_iff.mp new
            rw [largest] at among
            cases among
        | some time =>
            have le := (maxEventTime_eq_some largest).2 record (same.mem_iff.mp new)
            exact le.trans (fetched_le_advanceWatermark time rfl)
    · rcases List.mem_append.mp member with before | new
      · exact inOrder.started record before
      · have start := from_start record new
        have floor := inOrder.floor
        omega

/-- A delivered batch is in the middle of the records of its run: those before it are delivered
too, and those after it are at most the lookback older. -/
theorem InOrder.covers_delivered {conveyor : Conveyor CloudTrailRecord Int64}
    {delivered : Option Int64} (inOrder : InOrder config h s)
    (called : s.conveyor.call = some (conveyor, delivered)) :
    Covers config (h.observe (.conveyor .called)).delivered h.fetched s.poll.watermarkMs
      (delivered.elim s.deliveredWatermark (max s.deliveredWatermark)) := by
  obtain ⟨tracks, summary⟩ := inOrder.tracks.call rfl called
  have settled := @Covers.mono config _ _ _ [] _ _ _ inOrder.covers
    (SourceHistory.delivered_subset_observe h (.conveyor .called))
    (le_refl s.poll.watermarkMs.toInt) nofun
  rw [List.append_nil] at settled
  cases delivered with
  | none => exact settled
  | some time =>
      obtain ⟨⟨newest, returned, newest_time⟩, -⟩ := maxEventTime_eq_some summary.symm
      obtain ⟨dropped, all, -⟩ := inOrder.sent
      have flow : h.fetched = (h.conveyor.settled ++ h.conveyor.last) ++
          (s.conveyor.carry ++ s.conveyor.channel.flatten ++ s.unsent.flatten ++ dropped) := by
        simp [all, inOrder.tracks.sent]
      have newest_reached := inOrder.reached newest (by simp [flow, returned])
      have ordered := inOrder.ordered
      rw [flow, List.pairwise_append] at ordered
      rw [newest_time] at newest_reached
      rw [Option.elim_some]
      refine ⟨?_, fun record member => ?_⟩
      · rw [Int64.toInt_max]
        exact max_le settled.le newest_reached
      · rw [Int64.toInt_max]
        rcases settled.again record member with already | recent
        · exact .inl already
        · rw [flow, List.mem_append] at member
          rcases member with before | after
          · refine .inl (List.mem_append_right _ ?_)
            simpa [SourceHistory.observe, ConveyorHistory.observe] using before
          · have late := ordered.2.2 newest (List.mem_append_right _ returned) record after
            rw [newest_time] at late
            exact .inr (by omega)

/-- A quiet step only moves records on. -/
theorem InOrder.step {event : SourceEvent} (inOrder : InOrder config h s) (quiet : event.Quiet)
    (taken : sourceStep parsers config s event = some (s', out)) :
    InOrder config (out.foldl SourceHistory.observe h) s' := by
  obtain ⟨tracks, ⟨dropped, all, live⟩, ordered, reached, started, floor, covers⟩ := inOrder
  have moved (c : Conveyor CloudTrailRecord Int64)
      (tracks : c.Tracks maxEventTime h.conveyor) : InOrder config h (s.withConveyor c) :=
    ⟨tracks, ⟨dropped, all, live⟩, ordered, reached, started, floor, covers⟩
  cases event with
  | cycle nowMs answeredMs response => cases quiet
  | restart nowMs => cases quiet
  | send =>
      simp only [sourceStep] at taken
      split at taken
      · cases taken
      · rename_i chunk unsent chunks
        obtain ⟨c, sent, same⟩ := Option.map_eq_some_iff.mp taken
        cases same
        refine ⟨tracks.send sent, ⟨dropped, ?_, live⟩, ordered, reached, started, floor, covers⟩
        simp [SourceHistory.observe, ConveyorHistory.observe, all, chunks]
  | terminate =>
      cases taken
      refine ⟨tracks, ⟨s.unsent.flatten ++ dropped, ?_, fun polling => ?_⟩, ordered, reached,
        started, floor, covers⟩
      · simp [all]
      · cases polling
  | call =>
      obtain ⟨called, called_eq, same⟩ := Option.map_eq_some_iff.mp taken
      cases same
      have whole : InOrder config h s :=
        ⟨tracks, ⟨dropped, all, live⟩, ordered, reached, started, floor, covers⟩
      exact ⟨(tracks.call rfl called_eq).1, ⟨dropped, all, live⟩, ordered, reached, started, floor,
        whole.covers_delivered called_eq⟩
  | tryRecv =>
      obtain ⟨c, received, same⟩ := Option.map_eq_some_iff.mp taken
      cases same
      exact moved c (tracks.tryRecv received)
  | receive =>
      obtain ⟨c, received, same⟩ := Option.map_eq_some_iff.mp taken
      cases same
      exact moved c (tracks.receive received)
  | expire =>
      obtain ⟨c, expired, same⟩ := Option.map_eq_some_iff.mp taken
      cases same
      exact moved c (tracks.expire expired)
  | abandon =>
      obtain ⟨c, abandoned, same⟩ := Option.map_eq_some_iff.mp taken
      cases same
      exact moved c (tracks.abandon abandoned)
  | finish built =>
      obtain ⟨⟨c, result⟩, finished, same⟩ := Option.map_eq_some_iff.mp taken
      cases same
      have after := tracks.finish finished
      cases result with
      | none => exact moved c after
      | some batch =>
          exact ⟨after, ⟨dropped, all, live⟩, ordered, reached, started, floor, covers⟩
  | marker epoch | finalizer epoch =>
      cases taken
      exact ⟨tracks, ⟨dropped, all, live⟩, ordered, reached, started, floor, covers⟩
  | record i =>
      obtain ⟨checkpoints, recorded, same⟩ := Option.map_eq_some_iff.mp taken
      cases same
      exact ⟨tracks, ⟨dropped, all, live⟩, ordered, reached, started, floor, covers⟩
  | put i succeeds =>
      obtain ⟨⟨checkpoints, stored⟩, put, same⟩ := Option.map_eq_some_iff.mp taken
      cases same
      cases stored <;>
        exact ⟨tracks, ⟨dropped, all, live⟩, ordered, reached, started, floor, covers⟩

end

/-! ## Watermarks on their way to the backend -/

/-- A marker read a watermark, which covers what was not delivered then. -/
def ReadAt (config : CloudTrailSourceConfig) (log : List SourceObs) (reached : Int64) (epoch : Nat)
    (watermark : Int64) : Prop :=
  ∃ before after, log = before ++ .snapshot epoch watermark :: after ∧
    Covers config (SourceHistory.of before).delivered (SourceHistory.of log).fetched reached
      watermark

structure Restartable (config : CloudTrailSourceConfig) (checkpoint : Option Int64)
    (log : List SourceObs) (s : SourceState) : Prop where
  inOrder : InOrder config (.of log) s
  read : s.checkpoints.All (ReadAt config log s.poll.watermarkMs)
  stored : ∀ watermark, s.checkpoints.stored = some watermark →
    (∃ epoch, ReadAt config log s.poll.watermarkMs epoch watermark) ∨
      checkpoint = some watermark ∧
        Covers config [] (SourceHistory.of log).fetched s.poll.watermarkMs watermark

section

variable {parsers : Parsers} {config : CloudTrailSourceConfig} {checkpoint : Option Int64}
  {log out : List SourceObs} {s s' : SourceState}

theorem ReadAt.append {reached reached' watermark : Int64} {epoch : Nat}
    {new : List CloudTrailRecord} (read : ReadAt config log reached epoch watermark)
    (further : reached.toInt ≤ reached'.toInt)
    (grown : (SourceHistory.of (log ++ out)).fetched = (SourceHistory.of log).fetched ++ new)
    (recent : ∀ record ∈ new,
      reached.toInt - 1000 * config.lookbackSecs ≤ record.eventTimeMs.toInt) :
    ReadAt config (log ++ out) reached' epoch watermark := by
  obtain ⟨before, after, rfl, covers⟩ := read
  refine ⟨before, after ++ out, by simp, ?_⟩
  rw [grown]
  exact covers.mono (List.Subset.refl _) further recent

theorem restartable_initial (checkpoint : Option Int64) (nowMs : Int64) :
    Restartable config checkpoint [] (.initial config checkpoint nowMs) where
  inOrder := inOrder_initial checkpoint nowMs []
  read := Checkpointing.all_restored _
  stored := by
    rintro watermark rfl
    exact .inr ⟨rfl, le_refl _, nofun⟩

theorem Restartable.stored_append {reached' : Int64} {new : List CloudTrailRecord}
    (restartable : Restartable config checkpoint log s)
    (further : s.poll.watermarkMs.toInt ≤ reached'.toInt)
    (grown : (SourceHistory.of (log ++ out)).fetched = (SourceHistory.of log).fetched ++ new)
    (recent : ∀ record ∈ new, s.poll.watermarkMs.toInt - 1000 * config.lookbackSecs ≤
      record.eventTimeMs.toInt) (watermark : Int64)
    (stored : s.checkpoints.stored = some watermark) :
    (∃ epoch, ReadAt config (log ++ out) reached' epoch watermark) ∨
      checkpoint = some watermark ∧
        Covers config [] (SourceHistory.of (log ++ out)).fetched reached' watermark := by
  rcases restartable.stored watermark stored with ⟨epoch, read⟩ | ⟨started, covers⟩
  · exact .inl ⟨epoch, read.append further grown recent⟩
  · refine .inr ⟨started, ?_⟩
    rw [grown]
    exact covers.mono (List.Subset.refl _) further recent

/-- Where the checkpoints are left alone. -/
theorem Restartable.mono {new : List CloudTrailRecord}
    (restartable : Restartable config checkpoint log s)
    (inOrder : InOrder config (.of (log ++ out)) s')
    (further : s.poll.watermarkMs.toInt ≤ s'.poll.watermarkMs.toInt)
    (grown : (SourceHistory.of (log ++ out)).fetched = (SourceHistory.of log).fetched ++ new)
    (recent : ∀ record ∈ new, s.poll.watermarkMs.toInt - 1000 * config.lookbackSecs ≤
      record.eventTimeMs.toInt) (same : s'.checkpoints = s.checkpoints) :
    Restartable config checkpoint (log ++ out) s' := by
  refine ⟨inOrder, ?_, ?_⟩ <;> rw [same]
  · exact restartable.read.mono fun _ _ read => read.append further grown recent
  · exact restartable.stored_append further grown recent

/-- A restart begins where the stored watermark stands, with nothing fetched. -/
theorem Restartable.restart (restartable : Restartable config checkpoint log s) (nowMs : Int64) :
    Restartable config checkpoint (log ++ [.restarted])
      (.initial config s.checkpoints.stored nowMs) := by
  have nothing : (SourceHistory.of (log ++ [.restarted])).fetched = [] := by
    simp [SourceHistory.observe, SourceHistory.start]
  refine ⟨?_, Checkpointing.all_restored _, fun watermark stored => ?_⟩
  · simp only [List.foldl_append]
    exact inOrder_initial _ nowMs _
  · have at_watermark : (SourceState.initial config s.checkpoints.stored nowMs).poll.watermarkMs =
        watermark := by
      rw [show s.checkpoints.stored = some watermark from stored]
      rfl
    rw [at_watermark]
    rcases restartable.stored watermark stored with ⟨epoch, before, after, rfl, -⟩ | ⟨started, -⟩
    · refine .inl ⟨epoch, before, after ++ [.restarted], by simp, le_refl _, ?_⟩
      rw [nothing]
      exact nofun
    · refine .inr ⟨started, le_refl _, ?_⟩
      rw [nothing]
      exact nofun

/-- A quiet step hands watermarks on, from the delivered one to the backend. -/
theorem Restartable.quiet {event : SourceEvent} (quiet : event.Quiet)
    (restartable : Restartable config checkpoint log s)
    (taken : sourceStep parsers config s event = some (s', out)) :
    Restartable config checkpoint (log ++ out) s' := by
  obtain ⟨poll, -, fetched⟩ := sourceStep_quiet quiet taken
  have inOrder := restartable.inOrder.step quiet taken
  rw [← List.foldl_append] at inOrder
  have further : s.poll.watermarkMs.toInt ≤ s'.poll.watermarkMs.toInt := by rw [poll]
  have grown := fetched log
  rw [← List.append_nil (SourceHistory.of log).fetched] at grown
  have kept (same : s'.checkpoints = s.checkpoints) :
      Restartable config checkpoint (log ++ out) s' :=
    restartable.mono inOrder further grown nofun same
  have read := restartable.read.mono fun _ _ read =>
    ReadAt.append read further grown nofun
  have stored := restartable.stored_append further grown nofun
  cases event with
  | cycle nowMs answeredMs response => cases quiet
  | restart nowMs => cases quiet
  | send =>
      simp only [sourceStep] at taken
      split at taken
      · cases taken
      · obtain ⟨c, sent, same⟩ := Option.map_eq_some_iff.mp taken
        cases same
        exact kept rfl
  | terminate =>
      cases taken
      exact kept rfl
  | call | tryRecv | receive | expire | abandon | finish built =>
      obtain ⟨c, moved, same⟩ := Option.map_eq_some_iff.mp taken
      cases same
      exact kept rfl
  | marker epoch =>
      cases taken
      refine ⟨inOrder, read.load ⟨log, [], rfl, ?_⟩, stored⟩
      have covers := restartable.inOrder.covers
      rw [grown, List.append_nil]
      exact covers
  | record i =>
      obtain ⟨checkpoints, recorded, same⟩ := Option.map_eq_some_iff.mp taken
      cases same
      refine ⟨inOrder, read.record recorded, ?_⟩
      obtain ⟨entry, -, rfl⟩ := Option.map_eq_some_iff.mp recorded
      exact stored
  | finalizer epoch =>
      cases taken
      exact ⟨inOrder, read.finalize, stored⟩
  | put i succeeds =>
      obtain ⟨⟨checkpoints, persisted⟩, put, same⟩ := Option.map_eq_some_iff.mp taken
      cases same
      obtain ⟨read, origin, now_stored⟩ := read.store put
      refine ⟨inOrder, read, fun watermark held => ?_⟩
      rw [show checkpoints.stored = some watermark from held] at now_stored
      cases persisted with
      | none => exact stored watermark now_stored.symm
      | some value =>
          obtain rfl : watermark = value := Option.some.inj now_stored
          exact .inl (origin watermark rfl)

theorem Restartable.step {event : SourceEvent}
    (restartable : Restartable config checkpoint log s)
    (listed : ListedFromStart parsers config s event)
    (taken : sourceStep parsers config s event = some (s', out)) :
    Restartable config checkpoint (log ++ out) s' := by
  cases event with
  | cycle nowMs answeredMs response =>
      obtain ⟨inOrder, further, same, new, grown, recent⟩ := restartable.inOrder.cycle listed taken
      rw [← List.foldl_append] at inOrder grown
      exact restartable.mono inOrder further grown recent same
  | restart nowMs =>
      cases taken
      exact restartable.restart nowMs
  | _ => exact restartable.quiet (by trivial) taken

/-! ## Restarts -/

theorem restartable_of_reaches {startMs : Int64}
    (reached : (sourceMachine parsers config).ReachesWhere (ListedFromStart parsers config)
      (.initial config checkpoint startMs) s log) : Restartable config checkpoint log s :=
  reached.invariant (P := fun s log => Restartable config checkpoint log s)
    (restartable_initial checkpoint startMs) fun restartable listed taken =>
      restartable.step listed taken

theorem Covers.resumeMs_le {delivered : List CloudTrailRecord} {reached watermark : Int64}
    (inOrder : InOrder config (.of log) s)
    (covers : Covers config delivered (SourceHistory.of log).fetched reached watermark)
    {record : CloudTrailRecord} (fetched : record ∈ (SourceHistory.of log).fetched) :
    record ∈ delivered ∨ ∀ nowMs plannedMs,
      (config.resumeMs watermark nowMs plannedMs).toInt ≤ record.eventTimeMs.toInt := by
  refine (covers.again record fetched).imp_right fun recent nowMs plannedMs => ?_
  have started := inOrder.started record fetched
  rw [toInt_resumeMs]
  omega

/-- **No fetched event is lost across a restart.**  A source that restarts from the stored
watermark starts its first window at or before every record that the run fetched and had not
delivered when a marker read the watermark. -/
theorem restart_covers {startMs watermark : Int64}
    (reached : (sourceMachine parsers config).ReachesWhere (ListedFromStart parsers config)
      (.initial config checkpoint startMs) s log)
    (stored : s.checkpoints.stored = some watermark) :
    ∃ delivered, ((∃ before epoch after, log = before ++ .snapshot epoch watermark :: after ∧
          delivered = (SourceHistory.of before).delivered) ∨
        checkpoint = some watermark ∧ delivered = []) ∧
      ∀ record ∈ (SourceHistory.of log).fetched, record ∈ delivered ∨
        ∀ nowMs plannedMs,
          (config.resumeMs watermark nowMs plannedMs).toInt ≤ record.eventTimeMs.toInt := by
  have restartable := restartable_of_reaches reached
  rcases restartable.stored watermark stored with
    ⟨epoch, before, after, split, covers⟩ | ⟨started, covers⟩
  · exact ⟨_, .inl ⟨before, epoch, after, split, rfl⟩, fun record fetched =>
      covers.resumeMs_le restartable.inOrder fetched⟩
  · exact ⟨[], .inr ⟨started, rfl⟩, fun record fetched =>
      covers.resumeMs_le restartable.inOrder fetched⟩

end

/-- One second of lookback, batches of one record, from the epoch. -/
def demoConfig : CloudTrailSourceConfig where
  region := none
  endpointUrl := none
  startTime := .at 0
  pollIntervalSecs := 60
  lookbackSecs := 1
  maxWindowSecs := 10
  batchSize := 1
  lookupAttribute := none
  onMalformed := .error
  lookback_lt := by decide
  batchSize_pos := by decide

/-- Every payload is an empty object. -/
def demoParsers : Parsers where
  json text := if text = "\x7b\x7d" then .ok (.object []) else .error "expected value"
  rfc3339 _ := .error "premature end of input"

def demoEvent (id : String) (time : Int64) : Event := ⟨some id, some (.ok time), some "\x7b\x7d"⟩

def demoState : SourceState := .initial demoConfig none 0

def demoCycle : SourceEvent :=
  .cycle 10000 10000 ⟨[[demoEvent "b" 6000, demoEvent "a" 5000]], none⟩

theorem demo_batches : sortIntoBatches [⟨"b", 6000⟩, ⟨"a", 5000⟩] 1 (by decide) =
    [[⟨"a", 5000⟩], [⟨"b", 6000⟩]] := by
  have sorted : List.mergeSort [(⟨"b", 6000⟩ : CloudTrailRecord), ⟨"a", 5000⟩]
      (fun a b => a.eventTimeMs ≤ b.eventTimeMs) = [⟨"a", 5000⟩, ⟨"b", 6000⟩] := by
    simp [List.mergeSort]
  rw [sortIntoBatches, sorted]
  simp [splitOff]

/-- A cycle lists two events, the newest first, and queues them by their times. -/
theorem demo_cycle (checkpoints : Checkpointing Int64) : ∃ poll,
    sourceStep demoParsers demoConfig { demoState with checkpoints } demoCycle =
      some ({ demoState with checkpoints, poll, unsent := [[⟨"a", 5000⟩], [⟨"b", 6000⟩]] },
        [.fetched [⟨"a", 5000⟩, ⟨"b", 6000⟩]]) := by
  obtain ⟨poll, cycle⟩ : ∃ poll,
      sourceStep demoParsers demoConfig { demoState with checkpoints } demoCycle =
        some ({ demoState with
          checkpoints, poll, unsent := sortIntoBatches [⟨"b", 6000⟩, ⟨"a", 5000⟩] 1 (by decide) },
          [.fetched (sortIntoBatches [⟨"b", 6000⟩, ⟨"a", 5000⟩] 1 (by decide)).flatten]) :=
    ⟨_, rfl⟩
  rw [demo_batches] at cycle
  exact ⟨poll, cycle⟩

/-- The first is delivered, and its time stored. -/
def demoCalls : List SourceEvent :=
  [.send, .send, .call, .tryRecv, .tryRecv, .finish true, .call, .marker 1, .record 0,
    .finalizer 1, .put 0 true]

theorem demo_calls (poll : PollState) : ∃ s, (sourceMachine demoParsers demoConfig).run
    { demoState with poll, unsent := [[⟨"a", 5000⟩], [⟨"b", 6000⟩]] } demoCalls =
      some (s, [.conveyor (.sent [⟨"a", 5000⟩]), .conveyor (.sent [⟨"b", 6000⟩]),
        .conveyor .called, .conveyor (.returned [⟨"a", 5000⟩]), .conveyor .called,
        .snapshot 1 5000, .persisted 5000]) ∧ s.checkpoints.stored = some 5000 :=
  ⟨_, rfl, rfl⟩

/-- The run of one cycle and these calls, where it is allowed. -/
theorem demo_reaches {allowed : SourceState → SourceEvent → Prop}
    (cycle_allowed : allowed demoState demoCycle)
    (others : ∀ e, (∀ nowMs answeredMs response, e ≠ .cycle nowMs answeredMs response) →
      (∀ nowMs, e ≠ .restart nowMs) → ∀ s, allowed s e) :
    ∃ s log, (sourceMachine demoParsers demoConfig).ReachesWhere allowed demoState s log ∧
      (SourceHistory.of log).fetched = [⟨"a", 5000⟩, ⟨"b", 6000⟩] ∧
      (SourceHistory.of log).delivered = [⟨"a", 5000⟩] ∧ s.checkpoints.stored = some 5000 := by
  obtain ⟨poll, cycle⟩ := demo_cycle demoState.checkpoints
  obtain ⟨s, calls, stored⟩ := demo_calls poll
  refine ⟨s, _, (Machine.ReachesWhere.refl.step cycle_allowed cycle).run ?_ calls, rfl, rfl, stored⟩
  intro e member
  simp only [demoCalls, List.mem_cons, List.not_mem_nil, or_false] at member
  refine others e ?_ ?_ <;> grind

theorem demo_converted {event : Event}
    (member : event ∈ [[demoEvent "b" 6000, demoEvent "a" 5000]].flatten) :
    CloudTrailRecord.fromSdkEvent demoParsers event = .ok ⟨"a", 5000⟩ ∨
      CloudTrailRecord.fromSdkEvent demoParsers event = .ok ⟨"b", 6000⟩ := by
  have both : event = demoEvent "b" 6000 ∨ event = demoEvent "a" 5000 := by simpa using member
  rcases both with rfl | rfl
  · exact .inr rfl
  · exact .inl rfl

/-- The second event, which was not delivered, is fetched again after a restart. -/
theorem restart_covers_demo : ∃ s log,
    (sourceMachine demoParsers demoConfig).ReachesWhere (ListedFromStart demoParsers demoConfig)
      demoState s log ∧
    (SourceHistory.of log).fetched = [⟨"a", 5000⟩, ⟨"b", 6000⟩] ∧
    (SourceHistory.of log).delivered = [⟨"a", 5000⟩] ∧
    ∀ nowMs plannedMs, (demoConfig.resumeMs 5000 nowMs plannedMs).toInt ≤ 6000 := by
  have listed : ListedFromStart demoParsers demoConfig demoState demoCycle := by
    intro event among record converted
    rcases demo_converted among with is_record | is_record <;>
      cases is_record.symm.trans converted <;> decide
  obtain ⟨s, log, reached, fetched, delivered, stored⟩ :=
    demo_reaches listed fun e fetchless running s => by
      cases e with
      | cycle nowMs answeredMs response => exact absurd rfl (fetchless _ _ _)
      | _ => trivial
  refine ⟨s, log, reached, fetched, delivered, ?_⟩
  have second : (⟨"b", 6000⟩ : CloudTrailRecord) ∈ (SourceHistory.of log).fetched := by
    simp [fetched]
  obtain ⟨earlier, origin, again⟩ := restart_covers reached stored
  refine (again _ second).resolve_left fun among => ?_
  rcases origin with ⟨before, epoch, after, rfl, rfl⟩ | ⟨⟨⟩, -⟩
  have late := SourceHistory.delivered_subset before (.snapshot epoch 5000 :: after) among
  rw [delivered] at late
  simp at late

end StreamlingPlugins.CloudTrail
