import StreamlingPlugins.S2Source.Source

/-!
# Delivery of a stream

Every reader starts at the persisted position of its stream, so of a stream that is not deleted
each run returns the records from there on in order, each once and none left out; and whatever a
position that was ever persisted is past was delivered when a marker read it.  Other streams may
come and go meanwhile.
-/

namespace StreamlingPlugins.S2Source

def SourceRecord.position (record : SourceRecord) : Nat :=
  record.seqNum.toNat

theorem SourceRecord.next_le (record : SourceRecord) : record.next ≤ record.position + 1 :=
  Nat.min_le_left _ _

/-! ## One stream -/

/-- A stream, the records that stay in it until they are read, and the position that these are
wanted from. -/
structure Stream where
  name : String
  kept : Set SourceRecord
  since : Nat
  named : ∀ record ∈ kept, record.stream = name

namespace Stream

/-- The records of the stream. -/
def of (stream : Stream) (records : List SourceRecord) : List SourceRecord :=
  records.filter fun record => record.stream = stream.name

/-- What a session that goes on at a position may give: records in order from there on, and all
that stay up to the last of them. -/
structure Answers (stream : Stream) (nextSeqNum : Nat) (records : List SourceRecord) : Prop where
  ascending : records.Pairwise fun a b => a.position < b.position
  started : ∀ record ∈ records, nextSeqNum ≤ record.position
  complete : ∀ record ∈ stream.kept, nextSeqNum ≤ record.position →
    ∀ last ∈ records, record.position ≤ last.position →
      record ∈ records.map (.ofStream stream.name)
  /-- No sequence number is the largest one. -/
  bounded : ∀ record ∈ records, record.position + 1 < 2 ^ 64

/-- The records that a reader which started at a position has read. -/
structure InOrder (stream : Stream) (start : Nat) (read : List SourceRecord) : Prop where
  ascending : read.Pairwise fun a b => a.position < b.position
  started : ∀ record ∈ read, start ≤ record.position
  complete : ∀ record ∈ stream.kept, start ≤ record.position →
    ∀ last ∈ read, record.position ≤ last.position → record ∈ read

/-- They are all up to where the reader goes on. -/
structure UpTo (stream : Stream) (start nextSeqNum : Nat) (read : List SourceRecord) : Prop where
  start_le : start ≤ nextSeqNum
  below : ∀ record ∈ read, record.position < nextSeqNum
  complete : ∀ record ∈ stream.kept, start ≤ record.position → record.position < nextSeqNum →
    record ∈ read

/-- Every record wanted before a position was delivered. -/
def Covers (stream : Stream) (delivered : List SourceRecord) (position : Nat) : Prop :=
  ∀ record ∈ stream.kept, stream.since ≤ record.position → record.position < position →
    record ∈ delivered

variable {stream : Stream} {start nextSeqNum position : Nat}
  {read before records delivered delivered' : List SourceRecord}

@[simp] theorem of_append (stream : Stream) (records more : List SourceRecord) :
    stream.of (records ++ more) = stream.of records ++ stream.of more :=
  List.filter_append ..

theorem of_eq_self (named : ∀ record ∈ records, record.stream = stream.name) :
    stream.of records = records :=
  List.filter_eq_self.mpr fun record member => by simpa using named record member

theorem of_eq_nil {name : String} (other : name ≠ stream.name)
    (named : ∀ record ∈ records, record.stream = name) : stream.of records = [] :=
  List.filter_eq_nil_iff.mpr fun record member => by simpa [named record member] using other

theorem mem_of {record : SourceRecord} :
    record ∈ stream.of records ↔ record ∈ records ∧ record.stream = stream.name := by
  simp [of]

theorem of_prefix (prefixed : before <+: records) : stream.of before <+: stream.of records :=
  prefixed.filter _

theorem inOrder_nil : InOrder stream start [] :=
  ⟨.nil, nofun, fun _ _ _ _ member => nomatch member⟩

theorem upTo_nil : UpTo stream start start [] :=
  ⟨le_refl _, nofun, fun _ _ from_start below => absurd below (Nat.not_lt.mpr from_start)⟩

/-- Of what was read in order, so was what was read first. -/
theorem InOrder.of_prefix (inOrder : InOrder stream start read) (prefixed : before <+: read) :
    InOrder stream start before := by
  obtain ⟨after, rfl⟩ := prefixed
  have ordered := List.pairwise_append.mp inOrder.ascending
  refine ⟨ordered.1, fun record member => inOrder.started record (List.mem_append_left _ member),
    fun record kept from_start last member le => ?_⟩
  rcases List.mem_append.mp (inOrder.complete record kept from_start last
    (List.mem_append_left _ member) le) with early | late
  · exact early
  · have less := ordered.2.2 last member record late
    omega

theorem InOrder.answer (inOrder : InOrder stream start read)
    (upTo : UpTo stream start nextSeqNum read) (answers : stream.Answers nextSeqNum records) :
    InOrder stream start (read ++ records.map (.ofStream stream.name)) := by
  refine ⟨List.pairwise_append.mpr ⟨inOrder.ascending, List.pairwise_map.mpr answers.ascending,
    fun a before b new => ?_⟩, fun record member => ?_,
    fun record kept from_start last member le => ?_⟩
  · obtain ⟨raw, among, rfl⟩ := List.mem_map.mp new
    exact (upTo.below a before).trans_le (answers.started raw among)
  · rcases List.mem_append.mp member with before | new
    · exact inOrder.started record before
    · obtain ⟨raw, among, rfl⟩ := List.mem_map.mp new
      exact upTo.start_le.trans (answers.started raw among)
  · by_cases early : record.position < nextSeqNum
    · exact List.mem_append_left _ (upTo.complete record kept from_start early)
    · rcases List.mem_append.mp member with before | new
      · exact absurd (le.trans_lt (upTo.below last before)) early
      · obtain ⟨raw, among, rfl⟩ := List.mem_map.mp new
        exact List.mem_append_right _
          (answers.complete record kept (Nat.not_lt.mp early) raw among le)

theorem UpTo.answer {last : SourceRecord} (upTo : UpTo stream start nextSeqNum read)
    (answers : stream.Answers nextSeqNum records) (is_last : records.getLast? = some last) :
    UpTo stream start last.next (read ++ records.map (.ofStream stream.name)) := by
  have among := List.mem_of_getLast? is_last
  have bounded := answers.bounded last among
  have next : last.next = last.position + 1 := Nat.min_eq_left (Nat.le_sub_one_of_lt bounded)
  have from_next := answers.started last among
  have start_le := upTo.start_le
  have largest (record : SourceRecord) (member : record ∈ records) :
      record.position ≤ last.position := by
    obtain ⟨front, rfl⟩ := List.getLast?_eq_some_iff.mp is_last
    rcases List.mem_append.mp member with before | same
    · have ordered := (List.pairwise_append.mp answers.ascending).2.2
      exact (ordered record before last (List.mem_singleton_self _)).le
    · rw [List.mem_singleton.mp same]
  rw [next]
  refine ⟨by omega, fun record member => ?_, fun record kept from_start below => ?_⟩
  · rcases List.mem_append.mp member with before | new
    · have := upTo.below record before
      omega
    · obtain ⟨raw, raw_among, rfl⟩ := List.mem_map.mp new
      exact Nat.lt_succ_of_le (largest raw raw_among)
  · by_cases early : record.position < nextSeqNum
    · exact List.mem_append_left _ (upTo.complete record kept from_start early)
    · exact List.mem_append_right _
        (answers.complete record kept (Nat.not_lt.mp early) last among (Nat.le_of_lt_succ below))

theorem Covers.mono (covers : stream.Covers delivered position)
    (more : delivered ⊆ delivered') : stream.Covers delivered' position :=
  fun record kept wanted below => more (covers record kept wanted below)

end Stream

/-! ## What became of the records -/

/-- What became of the records, and where the readers of this run started. -/
structure SourceHistory extends RunHistory SourceRecord where
  starts : Positions

namespace SourceHistory

def start : SourceHistory where
  earlier := []
  conveyor := .start
  starts _ := none

def observe (h : SourceHistory) : SourceObs → SourceHistory
  | .started name nextSeqNum =>
    { h with starts := Function.update h.starts name (some nextSeqNum) }
  | .conveyor obs => { h with conveyor := h.conveyor.observe obs }
  | .snapshot _ _ | .persisted _ _ => h
  | .restarted => { start with earlier := h.delivered }

abbrev of (log : List SourceObs) : SourceHistory := log.foldl observe start

theorem delivered_subset_observe (h : SourceHistory) (obs : SourceObs) :
    h.delivered ⊆ (h.observe obs).delivered := by
  cases obs with
  | conveyor obs => exact h.toRunHistory.delivered_subset_observe obs
  | restarted => exact List.subset_append_left _ _
  | _ => exact List.Subset.refl _

theorem delivered_subset (log out : List SourceObs) :
    (of log).delivered ⊆ (of (log ++ out)).delivered := by
  simp only [List.foldl_append]
  exact RunHistory.delivered_subset_foldl delivered_subset_observe _ out

end SourceHistory

/-! ## One run -/

/-- What a reader has yet to send. -/
def inFlight (task : Option ReaderTask) : List SourceRecord :=
  (task.bind ReaderTask.unsent).getD []

/-- A reader of the stream that started at a position, and the position that markers see. -/
structure Reading (stream : Stream) (h : SourceHistory) (task : Option ReaderTask)
    (start position : Nat) : Prop where
  inOrder : stream.InOrder start (stream.of h.conveyor.sent ++ inFlight task)
  upTo : ∀ running ∈ task,
    stream.UpTo start running.nextSeqNum (stream.of h.conveyor.sent ++ inFlight task)
  emitted : position ≤ start ∨
    ∃ last ∈ stream.of h.conveyor.settled, position ≤ last.position + 1
  covered : stream.Covers h.earlier start

structure Delivering (stream : Stream) (h : SourceHistory) (s : SourceState) : Prop where
  tracks : s.conveyor.Tracks pendingPositions h.conveyor
  named : ∀ name task, s.tasks name = some task →
    ∀ records ∈ task.unsent, ∀ record ∈ records, record.stream = name
  idle : h.starts stream.name = none → stream.name ∉ s.readers.tasks ∧
    s.readers.positions stream.name = none ∧ s.tasks stream.name = none ∧
      stream.of h.conveyor.sent = []
  reading : ∀ start, h.starts stream.name = some start → stream.name ∈ s.readers.tasks ∧
    ∃ position, s.readers.positions stream.name = some position ∧
      Reading stream h (s.tasks stream.name) start position
  emitting : ∀ updates ∈ s.emitting, ∀ position, updates.lookup stream.name = some position →
    ∃ last ∈ stream.of h.conveyor.settled, position ≤ last.position + 1

section

variable {stream : Stream} {h : SourceHistory} {task : Option ReaderTask} {start position : Nat}
  {s s' : SourceState} {out : List SourceObs}

theorem reading_started (covered : stream.Covers h.earlier start)
    (nothing : stream.of h.conveyor.sent = []) :
    Reading stream h (some ⟨start, false, none⟩) start start := by
  refine ⟨?_, ?_, .inl le_rfl, covered⟩
  · rw [nothing]
    exact Stream.inOrder_nil
  · rintro running ⟨⟩
    rw [nothing]
    exact Stream.upTo_nil

theorem Reading.starting (starts : Positions) (reading : Reading stream h task start position) :
    Reading stream { h with starts } task start position :=
  ⟨reading.inOrder, reading.upTo, reading.emitted, reading.covered⟩

/-- A reader that only opens or loses its session. -/
theorem Reading.session {nextSeqNum : Nat} {session session' : Bool}
    (reading : Reading stream h (some ⟨nextSeqNum, session, none⟩) start position) :
    Reading stream h (some ⟨nextSeqNum, session', none⟩) start position := by
  refine ⟨reading.inOrder, ?_, reading.emitted, reading.covered⟩
  rintro running ⟨⟩
  exact reading.upTo ⟨nextSeqNum, session, none⟩ rfl

theorem Reading.batch {nextSeqNum : Nat} {records : List SourceRecord} {last : SourceRecord}
    (reading : Reading stream h (some ⟨nextSeqNum, true, none⟩) start position)
    (answers : stream.Answers nextSeqNum records) (is_last : records.getLast? = some last) :
    Reading stream h (some ⟨last.next, true, some (records.map (.ofStream stream.name))⟩) start
      position := by
  obtain ⟨inOrder, upTo, emitted, covered⟩ := reading
  have reached := upTo _ rfl
  simp only [inFlight, Option.bind_some, Option.getD_none, List.append_nil] at inOrder reached
  refine ⟨inOrder.answer reached answers, ?_, emitted, covered⟩
  rintro running ⟨⟩
  exact reached.answer answers is_last

theorem Reading.send {nextSeqNum : Nat} {session : Bool} {records : List SourceRecord}
    (reading : Reading stream h (some ⟨nextSeqNum, session, some records⟩) start position)
    (named : ∀ record ∈ records, record.stream = stream.name) :
    Reading stream (h.observe (.conveyor (.sent records))) (some ⟨nextSeqNum, session, none⟩) start
      position := by
  have moved : stream.of (h.conveyor.sent ++ records) ++
      inFlight (some ⟨nextSeqNum, session, none⟩) =
        stream.of h.conveyor.sent ++ inFlight (some ⟨nextSeqNum, session, some records⟩) := by
    simp [inFlight, Stream.of_eq_self named]
  refine ⟨?_, ?_, reading.emitted, reading.covered⟩
  · exact moved ▸ reading.inOrder
  · rintro running ⟨⟩
    exact moved ▸ reading.upTo ⟨nextSeqNum, session, some records⟩ rfl

/-- Another reader sends. -/
theorem Reading.send_other {records : List SourceRecord}
    (reading : Reading stream h task start position) (nothing : stream.of records = []) :
    Reading stream (h.observe (.conveyor (.sent records))) task start position := by
  have same : stream.of (h.conveyor.sent ++ records) = stream.of h.conveyor.sent := by
    rw [Stream.of_append, nothing, List.append_nil]
  refine ⟨?_, ?_, reading.emitted, reading.covered⟩
  · exact same.symm ▸ reading.inOrder
  · exact same.symm ▸ reading.upTo

theorem Reading.abort (reading : Reading stream h task start position) :
    Reading stream h none start position :=
  ⟨by
    refine reading.inOrder.of_prefix ?_
    rw [show inFlight none = [] from rfl, List.append_nil]
    exact List.prefix_append _ _, nofun, reading.emitted, reading.covered⟩

theorem Reading.settle (reading : Reading stream h task start position) :
    Reading stream (h.observe (.conveyor .called)) task start position := by
  refine ⟨reading.inOrder, reading.upTo, reading.emitted.imp_right fun below => ?_,
    reading.covered⟩
  obtain ⟨last, member, le⟩ := below
  have more : h.conveyor.settled <+: (h.observe (.conveyor .called)).conveyor.settled :=
    List.prefix_append _ _
  exact ⟨last, (Stream.of_prefix more).subset member, le⟩

theorem Reading.emit {update : Nat} (reading : Reading stream h task start position)
    (settled : ∃ last ∈ stream.of h.conveyor.settled, update ≤ last.position + 1) :
    Reading stream h task start (max position update) := by
  refine ⟨reading.inOrder, reading.upTo, ?_, reading.covered⟩
  rcases le_total update position with le | le
  · rw [max_eq_left le]
    exact reading.emitted
  · rw [max_eq_right le]
    exact .inr settled

/-- What is before the position that markers see was delivered. -/
theorem Reading.covers (reading : Reading stream h task start position)
    (within : h.conveyor.settled <+: h.conveyor.sent) :
    stream.Covers h.delivered position := by
  intro record kept wanted below
  by_cases early : record.position < start
  · exact List.mem_append_left _ (reading.covered record kept wanted early)
  · rcases reading.emitted with le | ⟨last, member, le⟩
    · omega
    · have prefixed : stream.of h.conveyor.settled <+:
          stream.of h.conveyor.sent ++ inFlight task :=
        (Stream.of_prefix within).trans (List.prefix_append _ _)
      have settled := (reading.inOrder.of_prefix prefixed).complete record kept
        (Nat.not_lt.mp early) last member (by omega)
      exact List.mem_append_right _ (Stream.mem_of.mp settled).1

/-- The positions of a batch are those after its rows. -/
theorem batchPositions_lookup {rows : List SourceRecord} {name : String}
    (found : (batchPositions rows).lookup name = some position) :
    ∃ row ∈ rows, row.stream = name ∧ position = row.next := by
  revert found
  refine List.foldlRecOn (motive := fun (positions : List (String × Nat)) =>
    positions.lookup name = some position →
      ∃ row ∈ rows, row.stream = name ∧ position = row.next) _ _ (by simp) ?_
  intro positions sound row member found
  split at found
  · exact sound found
  · rw [List.lookup_append, Option.or_eq_some_iff] at found
    rcases found with early | ⟨-, new⟩
    · exact sound early
    · simp only [List.lookup_cons, List.lookup_nil] at new
      split at new
      · rename_i same
        exact ⟨row, List.mem_reverse.mp member, (eq_of_beq same).symm, (Option.some.inj new).symm⟩
      · cases new

/-- The stream is answered for, is not deleted, and a tail that it starts at is not past the
records that are wanted. -/
def Stream.Conforms (stream : Stream) (config : S2SourceConfig) (s : SourceState) :
    SourceEvent → Prop
  | .ensure call name => name = stream.name → s.readers.checkpoints name = none →
      ∀ tail, call.checkTail name = .ok tail → tail ≤ stream.since
  | .prune _ listed => stream.name ∈ listed ∨ stream.name ∈ config.streams
  | .batch name records => name = stream.name →
      ∀ task ∈ s.tasks name, stream.Answers task.nextSeqNum records
  | _ => True

theorem delivering_initial (persisted : Positions) (earlier : List SourceRecord) :
    Delivering stream { SourceHistory.start with earlier } (.initial persisted) where
  tracks := Conveyor.tracks_new rfl
  named := nofun
  idle _ := ⟨Finset.notMem_empty _, rfl, rfl, rfl⟩
  reading := nofun
  emitting := nofun

/-- Starting a reader: nothing happens, or it starts where its stream is persisted, or else where
the source is told to start. -/
theorem ensureStep_cases (config : S2SourceConfig) (s : SourceState) (call : Call)
    (name : String) :
    ensureStep config s call name = (s, []) ∨
      ∃ nextSeqNum, name ∉ s.readers.tasks ∧
        (s.readers.checkpoints name = some nextSeqNum ∨
          s.readers.checkpoints name = none ∧
            (nextSeqNum = 0 ∨ call.checkTail name = .ok nextSeqNum)) ∧
        ensureStep config s call name =
          ({ s.withTask name ⟨nextSeqNum, false, none⟩ with
            readers := s.readers.start name nextSeqNum }, [.started name nextSeqNum]) := by
  by_cases running : name ∈ s.readers.tasks
  · exact .inl (if_pos running)
  have start (nextSeqNum : Nat)
      (ensured : (ensureStream config call s.readers name).1 = s.readers.start name nextSeqNum) :
      ensureStep config s call name =
        ({ s.withTask name ⟨nextSeqNum, false, none⟩ with
          readers := s.readers.start name nextSeqNum }, [.started name nextSeqNum]) := by
    simp [ensureStep, running, ensured, StreamReaders.start]
  have stay (ensured : (ensureStream config call s.readers name).1 = s.readers) :
      ensureStep config s call name = (s, []) := by
    simp [ensureStep, running, ensured]
  cases answer : call.getKv name with
  | error e => exact .inl (stay (by simp [ensureStream, running, answer]))
  | ok _ =>
      cases persisted : s.readers.checkpoints name with
      | some nextSeqNum =>
          exact .inr ⟨nextSeqNum, running, .inl rfl,
            start nextSeqNum (by simp [ensureStream, running, answer, persisted])⟩
      | none =>
          cases config_start : config.startPosition with
          | earliest =>
              exact .inr ⟨0, running, .inr ⟨rfl, .inl rfl⟩,
                start 0 (by simp [ensureStream, running, answer, persisted, config_start])⟩
          | latest =>
              cases tail : call.checkTail name with
              | error e =>
                  exact .inl (stay
                    (by simp [ensureStream, running, answer, persisted, config_start, tail]))
              | ok seqNum =>
                  exact .inr ⟨seqNum, running, .inr ⟨rfl, .inr rfl⟩, start seqNum
                    (by simp [ensureStream, running, answer, persisted, config_start, tail])⟩

/-- A scan that lists a stream, or a stream that is configured, leaves its reader alone. -/
theorem pruneUnlistedStreams_kept {config : S2SourceConfig} {call : Call}
    {readers : StreamReaders} {listed : Finset String} {name : String}
    (kept : name ∈ listed ∨ name ∈ config.streams) :
    let pruned := pruneUnlistedStreams config call readers listed
    (name ∈ pruned.tasks ↔ name ∈ readers.tasks) ∧
      pruned.positions name = readers.positions name ∧
      pruned.checkpoints name = readers.checkpoints name := by
  have not_removed : name ∉ readers.tasks.filter fun name =>
      name ∉ listed ∧ name ∉ config.streams := by
    rcases kept with among | configured
    · simp [among]
    · simp [configured]
  simp only [pruneUnlistedStreams, Finset.mem_sdiff, not_removed, not_false_eq_true, and_true,
    false_and, if_false]

/-- One reader goes on. -/
theorem Delivering.withTask {name : String} {task task' : ReaderTask}
    (delivering : Delivering stream h s) (current : s.tasks name = some task)
    (named : ∀ records ∈ task'.unsent, ∀ record ∈ records, record.stream = name)
    (goes_on : name = stream.name → ∀ start position,
      Reading stream h (some task) start position → Reading stream h (some task') start position) :
    Delivering stream h (s.withTask name task') := by
  obtain ⟨tracks, all_named, idle, reading, emitting⟩ := delivering
  refine ⟨tracks, fun other task at_other => ?_, fun not_started => ?_, fun start started => ?_,
    emitting⟩
  · by_cases same : other = name
    · subst same
      obtain rfl : task' = task := by simpa [SourceState.withTask] using at_other
      exact named
    · exact all_named other task (by simpa [SourceState.withTask, same] using at_other)
  · obtain ⟨absent, no_position, no_task, nothing⟩ := idle not_started
    have other : stream.name ≠ name := by
      rintro rfl
      simp [current] at no_task
    exact ⟨absent, no_position, by simp [SourceState.withTask, other, no_task], nothing⟩
  · obtain ⟨present, position, at_position, reads⟩ := reading start started
    refine ⟨present, position, at_position, ?_⟩
    by_cases same : stream.name = name
    · subst same
      rw [current] at reads
      simpa [SourceState.withTask] using goes_on rfl start position reads
    · simpa [SourceState.withTask, same] using reads

theorem Delivering.ensure {config : S2SourceConfig} {call : Call} {name : String}
    (delivering : Delivering stream h s)
    (conforms : stream.Conforms config s (.ensure call name))
    (stored : ∀ position, s.readers.checkpoints stream.name = some position →
      stream.Covers h.delivered position)
    (taken : ensureStep config s call name = (s', out)) :
    Delivering stream (out.foldl SourceHistory.observe h) s' := by
  rcases ensureStep_cases config s call name with stays | ⟨nextSeqNum, absent, begins, starts⟩
  · rw [stays] at taken
    cases taken
    exact delivering
  rw [starts] at taken
  cases taken
  obtain ⟨tracks, all_named, idle, reading, emitting⟩ := delivering
  refine ⟨tracks, fun other task at_other => ?_, fun not_started => ?_, fun start started => ?_,
    emitting⟩
  · by_cases same : other = name
    · subst same
      obtain rfl : _ = task := Option.some.inj (by simpa [SourceState.withTask] using at_other)
      exact nofun
    · exact all_named other task (by simpa [SourceState.withTask, same] using at_other)
  · have other : stream.name ≠ name := by
      rintro rfl
      simp [SourceHistory.observe] at not_started
    simpa [SourceState.withTask, StreamReaders.start, SourceHistory.observe, other] using
      idle (by simpa [SourceHistory.observe, other] using not_started)
  · by_cases same : stream.name = name
    · subst same
      obtain rfl : nextSeqNum = start := by simpa [SourceHistory.observe] using started
      have not_started : h.starts stream.name = none := by
        by_contra has_started
        obtain ⟨earlier, started⟩ := Option.ne_none_iff_exists'.mp has_started
        exact absent (reading earlier started).1
      obtain ⟨-, -, -, nothing⟩ := idle not_started
      refine ⟨by simp [StreamReaders.start], nextSeqNum, by simp [StreamReaders.start], ?_⟩
      rw [show (s.withTask stream.name ⟨nextSeqNum, false, none⟩).tasks stream.name =
        some ⟨nextSeqNum, false, none⟩ by simp [SourceState.withTask]]
      refine reading_started (h := h) (fun record kept wanted below => ?_) nothing |>.starting _
      rcases begins with persisted | ⟨fresh, zero | tail⟩
      · have none_settled : stream.of h.conveyor.settled <+: stream.of h.conveyor.sent :=
          Stream.of_prefix tracks.settled_prefix
        rw [nothing, List.prefix_nil] at none_settled
        rcases List.mem_append.mp (stored nextSeqNum persisted record kept wanted below) with
          early | settled
        · exact early
        · have among := Stream.mem_of.mpr ⟨settled, stream.named record kept⟩
          rw [none_settled] at among
          cases among
      · omega
      · have le := conforms rfl fresh nextSeqNum tail
        omega
    · obtain ⟨present, position, at_position, reads⟩ :=
        reading start (by simpa [SourceHistory.observe, same] using started)
      refine ⟨by simp [StreamReaders.start, present], position,
        by simp [StreamReaders.start, same, at_position], ?_⟩
      rw [show (s.withTask name ⟨nextSeqNum, false, none⟩).tasks stream.name =
        s.tasks stream.name by simp [SourceState.withTask, same]]
      exact reads.starting _

theorem Delivering.prune {config : S2SourceConfig} {call : Call} {listed : Finset String}
    (delivering : Delivering stream h s)
    (kept : stream.name ∈ listed ∨ stream.name ∈ config.streams) :
    Delivering stream h (pruneStep config s call listed) := by
  obtain ⟨tracks, all_named, idle, reading, emitting⟩ := delivering
  obtain ⟨tasks, positions, -⟩ :=
    @pruneUnlistedStreams_kept config call s.readers listed stream.name kept
  refine ⟨tracks, fun other task at_other => ?_, fun not_started => ?_, fun start started => ?_,
    emitting⟩
  · dsimp only [pruneStep] at at_other
    split at at_other
    · exact all_named other task at_other
    · cases at_other
  · obtain ⟨absent, no_position, no_task, nothing⟩ := idle not_started
    refine ⟨mt tasks.mp absent, positions.trans no_position, ?_, nothing⟩
    simp [pruneStep, no_task]
  · obtain ⟨present, position, at_position, reads⟩ := reading start started
    refine ⟨tasks.mpr present, position, positions.trans at_position, ?_⟩
    simpa [pruneStep, tasks.mpr present] using reads

/-- A reader hands its batch to the channel. -/
theorem Delivering.send {name : String} {nextSeqNum capacity : Nat} {session : Bool}
    {records : List SourceRecord} {c : Conveyor SourceRecord (List (String × Nat))}
    (delivering : Delivering stream h s)
    (current : s.tasks name = some ⟨nextSeqNum, session, some records⟩)
    (sent : s.conveyor.send capacity records = some c) :
    Delivering stream (h.observe (.conveyor (.sent records)))
      ((s.withConveyor c).withTask name ⟨nextSeqNum, session, none⟩) := by
  obtain ⟨tracks, all_named, idle, reading, emitting⟩ := delivering
  have named := all_named name _ current records rfl
  refine ⟨tracks.send sent, fun other task at_other => ?_, fun not_started => ?_,
    fun start started => ?_, emitting⟩
  · by_cases same : other = name
    · subst same
      obtain rfl : _ = task := Option.some.inj (by simpa [SourceState.withTask] using at_other)
      exact nofun
    · exact all_named other task
        (by simpa [SourceState.withTask, SourceState.withConveyor, same] using at_other)
  · obtain ⟨absent, no_position, no_task, nothing⟩ := idle not_started
    have other : stream.name ≠ name := by
      rintro rfl
      simp [current] at no_task
    refine ⟨absent, no_position,
      by simpa [SourceState.withTask, SourceState.withConveyor, other] using no_task, ?_⟩
    simp [SourceHistory.observe, ConveyorHistory.observe, nothing,
      Stream.of_eq_nil other.symm named]
  · obtain ⟨present, position, at_position, reads⟩ := reading start started
    refine ⟨present, position, at_position, ?_⟩
    by_cases same : stream.name = name
    · subst same
      rw [current] at reads
      simpa [SourceState.withTask] using reads.send named
    · have nothing : stream.of records = [] := Stream.of_eq_nil (Ne.symm same) named
      simpa [SourceState.withTask, SourceState.withConveyor, same] using reads.send_other nothing

/-- A call settles the batch before, and takes its positions to the readers. -/
theorem Delivering.call {c : Conveyor SourceRecord (List (String × Nat))}
    {delivered : Option (List (String × Nat))} (delivering : Delivering stream h s)
    (called : s.conveyor.call = some (c, delivered)) :
    Delivering stream (h.observe (.conveyor .called))
      { s.withConveyor c with emitting := delivered } := by
  obtain ⟨tracks, summary⟩ := delivering.tracks.call rfl called
  refine ⟨tracks, delivering.named, delivering.idle, fun start started => ?_,
    fun updates is_delivered position found => ?_⟩
  · obtain ⟨present, position, at_position, reads⟩ := delivering.reading start started
    exact ⟨present, position, at_position, reads.settle⟩
  · rw [show delivered = some updates from is_delivered, pendingPositions] at summary
    split at summary
    · cases summary
    · obtain rfl := Option.some.inj summary
      obtain ⟨row, returned, of_stream, rfl⟩ := batchPositions_lookup found
      exact ⟨row, Stream.mem_of.mpr ⟨List.mem_append_right _ returned, of_stream⟩, row.next_le⟩

theorem Delivering.emitted {updates : List (String × Nat)} (delivering : Delivering stream h s)
    (emitting : s.emitting = some updates) :
    Delivering stream h
      { s with readers := recordEmitted s.readers updates, emitting := none } := by
  refine ⟨delivering.tracks, delivering.named, fun not_started => ?_, fun start started => ?_,
    nofun⟩
  · obtain ⟨absent, no_position, rest⟩ := delivering.idle not_started
    exact ⟨absent, by simp [recordEmitted, no_position], rest⟩
  · obtain ⟨present, position, at_position, reads⟩ := delivering.reading start started
    refine ⟨present, (updates.lookup stream.name).elim position (max position),
      by simp [recordEmitted, at_position], ?_⟩
    cases found : updates.lookup stream.name with
    | none => exact reads
    | some update => exact reads.emit (delivering.emitting updates emitting update found)

theorem Delivering.returned {batch : List SourceRecord}
    {c : Conveyor SourceRecord (List (String × Nat))} (delivering : Delivering stream h s)
    (tracks : c.Tracks pendingPositions (h.conveyor.observe (.returned batch))) :
    Delivering stream (h.observe (.conveyor (.returned batch))) (s.withConveyor c) := by
  refine ⟨tracks, delivering.named, delivering.idle, fun start started => ?_,
    delivering.emitting⟩
  obtain ⟨present, position, at_position, reads⟩ := delivering.reading start started
  exact ⟨present, position, at_position, reads.inOrder, reads.upTo, reads.emitted, reads.covered⟩

theorem Delivering.step {config : S2SourceConfig} {batchSize : Nat} {event : SourceEvent}
    (delivering : Delivering stream h s) (conforms : stream.Conforms config s event)
    (running : event ≠ .restart)
    (stored : ∀ position, s.readers.checkpoints stream.name = some position →
      stream.Covers h.delivered position)
    (taken : sourceStep config batchSize s event = some (s', out)) :
    Delivering stream (out.foldl SourceHistory.observe h) s' := by
  have moved {c : Conveyor SourceRecord (List (String × Nat))}
      (tracks : c.Tracks pendingPositions h.conveyor) : Delivering stream h (s.withConveyor c) :=
    ⟨tracks, delivering.named, delivering.idle, delivering.reading, delivering.emitting⟩
  cases event with
  | restart => exact absurd rfl running
  | ensure call name =>
      simp only [sourceStep, Option.ite_none_right_eq_some, Option.some.injEq] at taken
      exact delivering.ensure conforms stored taken.2
  | prune call listed =>
      simp only [sourceStep, Option.ite_none_right_eq_some, Option.some.injEq] at taken
      cases taken.2
      exact delivering.prune conforms
  | opened name =>
      simp only [sourceStep] at taken
      split at taken
      · rename_i nextSeqNum current
        cases taken
        exact delivering.withTask current nofun fun _ start position reading => reading.session
      · cases taken
  | failed name =>
      simp only [sourceStep] at taken
      split at taken
      · rename_i nextSeqNum current
        cases taken
        exact delivering.withTask current nofun fun _ start position reading => reading.session
      · cases taken
  | batch name records =>
      simp only [sourceStep] at taken
      split at taken
      · rename_i nextSeqNum last current is_last
        cases taken
        refine delivering.withTask current ?_ fun same start position reading => ?_
        · rintro all ⟨⟩ record member
          obtain ⟨raw, -, rfl⟩ := List.mem_map.mp member
          rfl
        · subst same
          exact reading.batch (conforms rfl _ current) is_last
      · cases taken
  | send name =>
      simp only [sourceStep] at taken
      split at taken
      · rename_i nextSeqNum session records current
        obtain ⟨c, sent, same⟩ := Option.map_eq_some_iff.mp taken
        cases same
        exact delivering.send current sent
      · cases taken
  | terminate =>
      cases taken
      refine ⟨delivering.tracks, nofun, fun not_started => ?_, fun start started => ?_,
        delivering.emitting⟩
      · obtain ⟨absent, no_position, -, nothing⟩ := delivering.idle not_started
        exact ⟨absent, no_position, rfl, nothing⟩
      · obtain ⟨present, position, at_position, reads⟩ := delivering.reading start started
        exact ⟨present, position, at_position, reads.abort⟩
  | call =>
      obtain ⟨called, called_eq, same⟩ := Option.map_eq_some_iff.mp taken
      cases same
      exact delivering.call called_eq
  | emitted =>
      obtain ⟨updates, emitting, same⟩ := Option.map_eq_some_iff.mp taken
      cases same
      exact delivering.emitted emitting
  | withdraw =>
      simp only [sourceStep, Option.ite_none_right_eq_some] at taken
      obtain ⟨c, withdrawn, same⟩ := Option.map_eq_some_iff.mp taken.2
      cases same
      exact ⟨delivering.tracks.withdraw withdrawn, delivering.named, delivering.idle,
        delivering.reading, nofun⟩
  | tryRecv =>
      simp only [sourceStep, Option.ite_none_right_eq_some] at taken
      obtain ⟨c, received, same⟩ := Option.map_eq_some_iff.mp taken.2
      cases same
      exact moved (delivering.tracks.tryRecv received)
  | receive =>
      obtain ⟨c, received, same⟩ := Option.map_eq_some_iff.mp taken
      cases same
      exact moved (delivering.tracks.receive received)
  | expire =>
      obtain ⟨c, expired, same⟩ := Option.map_eq_some_iff.mp taken
      cases same
      exact moved (delivering.tracks.expire expired)
  | abandon =>
      obtain ⟨c, abandoned, same⟩ := Option.map_eq_some_iff.mp taken
      cases same
      exact moved (delivering.tracks.abandon abandoned)
  | finish built =>
      obtain ⟨⟨c, result⟩, finished, same⟩ := Option.map_eq_some_iff.mp taken
      cases same
      have tracks := delivering.tracks.finish finished
      cases result with
      | none => exact moved tracks
      | some batch => exact delivering.returned tracks
  | marker epoch | finalizer epoch =>
      cases taken
      exact ⟨delivering.tracks, delivering.named, delivering.idle, delivering.reading,
        delivering.emitting⟩
  | record i =>
      obtain ⟨checkpoints, recorded, same⟩ := Option.map_eq_some_iff.mp taken
      cases same
      exact ⟨delivering.tracks, delivering.named, delivering.idle, delivering.reading,
        delivering.emitting⟩
  | retain i =>
      obtain ⟨retained, retains, same⟩ := Option.map_eq_some_iff.mp taken
      cases same
      obtain ⟨entry, -, rfl⟩ := Option.map_eq_some_iff.mp retains
      exact ⟨delivering.tracks, delivering.named, delivering.idle, delivering.reading,
        delivering.emitting⟩
  | put i name succeeds =>
      simp only [sourceStep, putStep] at taken
      split at taken
      · cases taken
      · obtain ⟨nextSeqNum, -, same⟩ := Option.map_eq_some_iff.mp taken
        cases succeeds <;> cases same <;>
          exact ⟨delivering.tracks, delivering.named, delivering.idle, delivering.reading,
            delivering.emitting⟩

end

/-! ## Positions on their way to the backend -/

/-- A marker read this position of the stream. -/
def ReadAt (stream : Stream) (log : List SourceObs) (epoch position : Nat) : Prop :=
  ∃ before positions after, log = before ++ .snapshot epoch positions :: after ∧
    positions stream.name = some position

structure Restartable (stream : Stream) (persisted : Option Nat) (log : List SourceObs)
    (s : SourceState) : Prop where
  delivering : Delivering stream (.of log) s
  marked : ∀ before epoch positions after, log = before ++ .snapshot epoch positions :: after →
    ∀ position, positions stream.name = some position →
      stream.Covers (SourceHistory.of before).delivered position
  read : s.checkpoints.All fun epoch positions =>
    ∀ position, positions stream.name = some position → ReadAt stream log epoch position
  taken : ∀ entry ∈ s.taken, ∀ position, entry.2 stream.name = some position →
    ReadAt stream log entry.1 position
  stored : ∀ position, s.readers.checkpoints stream.name = some position →
    persisted = some position ∨ ∃ epoch, ReadAt stream log epoch position

section

variable {stream : Stream} {config : S2SourceConfig} {batchSize : Nat} {persisted : Option Nat}
  {s s' : SourceState} {log out : List SourceObs} {event : SourceEvent}

theorem ReadAt.append {epoch position : Nat} (read : ReadAt stream log epoch position) :
    ReadAt stream (log ++ out) epoch position := by
  obtain ⟨before, positions, after, rfl, at_name⟩ := read
  exact ⟨before, positions, after ++ out, by simp, at_name⟩

/-- Only a marker reads the positions, and does nothing else. -/
theorem sourceStep_snapshot {epoch : Nat} {positions : Positions}
    (taken : sourceStep config batchSize s event = some (s', out))
    (read : .snapshot epoch positions ∈ out) :
    out = [.snapshot epoch positions] ∧ positions = s.readers.positions := by
  cases event with
  | ensure call name =>
      simp only [sourceStep, Option.ite_none_right_eq_some, Option.some.injEq] at taken
      rcases ensureStep_cases config s call name with stays | ⟨nextSeqNum, -, -, starts⟩
      · rw [stays] at taken
        cases taken.2
        cases read
      · rw [starts] at taken
        cases taken.2
        simp at read
  | prune call listed =>
      simp only [sourceStep, Option.ite_none_right_eq_some, Option.some.injEq] at taken
      cases taken.2
      cases read
  | opened name | failed name | batch name records =>
      simp only [sourceStep] at taken
      split at taken <;> cases taken
      cases read
  | send name =>
      simp only [sourceStep] at taken
      split at taken
      · obtain ⟨c, -, same⟩ := Option.map_eq_some_iff.mp taken
        cases same
        simp at read
      · cases taken
  | terminate | finalizer epoch =>
      cases taken
      cases read
  | call =>
      obtain ⟨called, -, same⟩ := Option.map_eq_some_iff.mp taken
      cases same
      simp at read
  | withdraw | tryRecv =>
      simp only [sourceStep, Option.ite_none_right_eq_some] at taken
      obtain ⟨c, -, same⟩ := Option.map_eq_some_iff.mp taken.2
      cases same
      cases read
  | emitted | receive | expire | abandon | record i | retain i =>
      obtain ⟨c, -, same⟩ := Option.map_eq_some_iff.mp taken
      cases same
      cases read
  | finish built =>
      obtain ⟨⟨c, result⟩, -, same⟩ := Option.map_eq_some_iff.mp taken
      cases same
      simp at read
  | marker epoch =>
      cases taken
      cases List.mem_singleton.mp read
      exact ⟨rfl, rfl⟩
  | put i name succeeds =>
      simp only [sourceStep, putStep] at taken
      split at taken
      · cases taken
      · obtain ⟨nextSeqNum, -, same⟩ := Option.map_eq_some_iff.mp taken
        cases succeeds <;> cases same <;> simp at read
  | restart =>
      cases taken
      simp at read

/-- A marker reads a position that covers what was not delivered before it. -/
theorem Delivering.covers_snapshot {h : SourceHistory} {position : Nat}
    (delivering : Delivering stream h s)
    (at_name : s.readers.positions stream.name = some position) :
    stream.Covers h.delivered position := by
  cases started : h.starts stream.name with
  | none =>
      obtain ⟨-, no_position, -⟩ := delivering.idle started
      rw [no_position] at at_name
      cases at_name
  | some start =>
      obtain ⟨-, current, at_current, reads⟩ := delivering.reading start started
      obtain rfl : current = position := Option.some.inj (at_current.symm.trans at_name)
      exact reads.covers delivering.tracks.settled_prefix

theorem Restartable.marked_step (restartable : Restartable stream persisted log s)
    (taken : sourceStep config batchSize s event = some (s', out)) {before after : List SourceObs}
    {epoch : Nat} {positions : Positions}
    (splits : log ++ out = before ++ .snapshot epoch positions :: after) {position : Nat}
    (at_name : positions stream.name = some position) :
    stream.Covers (SourceHistory.of before).delivered position := by
  rcases Machine.split_of_alone (fun read => (sourceStep_snapshot taken read).1) splits with
    ⟨rest, earlier⟩ | ⟨rfl, read⟩
  · exact restartable.marked before epoch positions rest earlier position at_name
  · obtain ⟨-, rfl⟩ := sourceStep_snapshot taken read
    exact restartable.delivering.covers_snapshot at_name

theorem Restartable.covers (restartable : Restartable stream persisted log s)
    (from_start : ∀ position ∈ persisted, position ≤ stream.since) (position : Nat)
    (stored : s.readers.checkpoints stream.name = some position) :
    stream.Covers (SourceHistory.of log).delivered position := by
  rcases restartable.stored position stored with
    first | ⟨epoch, before, positions, after, rfl, read⟩
  · intro record kept wanted below
    have le := from_start position first
    omega
  · refine (restartable.marked before epoch positions after rfl position read).mono ?_
    exact SourceHistory.delivered_subset _ _

/-- Steps that neither read, keep nor store a position leave all of them where they are. -/
theorem Restartable.quiet (restartable : Restartable stream persisted log s)
    (delivering : Delivering stream (.of (log ++ out)) s')
    (marked : ∀ before epoch positions after,
      log ++ out = before ++ .snapshot epoch positions :: after →
        ∀ position, positions stream.name = some position →
          stream.Covers (SourceHistory.of before).delivered position)
    (checkpoints : s'.checkpoints = s.checkpoints) (taken : s'.taken = s.taken)
    (stored : s'.readers.checkpoints stream.name = s.readers.checkpoints stream.name) :
    Restartable stream persisted (log ++ out) s' := by
  refine ⟨delivering, marked, ?_, fun entry member position at_name => ?_,
    fun position held => ?_⟩
  · rw [checkpoints]
    exact restartable.read.mono fun epoch positions read position at_name =>
      (read position at_name).append
  · rw [taken] at member
    exact (restartable.taken entry member position at_name).append
  · rw [stored] at held
    refine (restartable.stored position held).imp_right fun read => ?_
    obtain ⟨epoch, read⟩ := read
    exact ⟨epoch, read.append⟩

theorem Restartable.step (restartable : Restartable stream persisted log s)
    (conforms : stream.Conforms config s event)
    (from_start : ∀ position ∈ persisted, position ≤ stream.since)
    (taken : sourceStep config batchSize s event = some (s', out)) :
    Restartable stream persisted (log ++ out) s' := by
  have marked (before : List SourceObs) (epoch : Nat) (positions : Positions)
      (after : List SourceObs) (splits : log ++ out = before ++ .snapshot epoch positions :: after)
      (position : Nat) (at_name : positions stream.name = some position) :=
    restartable.marked_step taken splits at_name
  have read := restartable.read.mono fun epoch positions read position at_name =>
    (ReadAt.append (read position at_name) : ReadAt stream (log ++ out) epoch position)
  have kept (entry : Nat × Positions) (member : entry ∈ s.taken) (position : Nat)
      (at_name : entry.2 stream.name = some position) :
      ReadAt stream (log ++ out) entry.1 position :=
    (restartable.taken entry member position at_name).append
  have stored (position : Nat) (held : s.readers.checkpoints stream.name = some position) :
      persisted = some position ∨ ∃ epoch, ReadAt stream (log ++ out) epoch position := by
    refine (restartable.stored position held).imp_right fun read => ?_
    obtain ⟨epoch, read⟩ := read
    exact ⟨epoch, read.append⟩
  by_cases restarts : event = .restart
  · subst restarts
    cases taken
    refine ⟨?_, marked, Checkpointing.all_restored _, nofun, stored⟩
    simp only [List.foldl_append]
    exact delivering_initial _ _
  have delivering :=
    restartable.delivering.step conforms restarts (restartable.covers from_start) taken
  rw [← List.foldl_append] at delivering
  cases event with
  | restart => exact absurd rfl restarts
  | ensure call name =>
      simp only [sourceStep, Option.ite_none_right_eq_some, Option.some.injEq] at taken
      rcases ensureStep_cases config s call name with stays | ⟨nextSeqNum, -, -, starts⟩
      · rw [stays] at taken
        cases taken.2
        exact restartable.quiet delivering marked rfl rfl rfl
      · rw [starts] at taken
        cases taken.2
        exact restartable.quiet delivering marked rfl rfl rfl
  | prune call listed =>
      simp only [sourceStep, Option.ite_none_right_eq_some, Option.some.injEq] at taken
      cases taken.2
      exact restartable.quiet delivering marked rfl rfl (pruneUnlistedStreams_kept conforms).2.2
  | opened name | failed name | batch name records =>
      simp only [sourceStep] at taken
      split at taken <;> cases taken
      exact restartable.quiet delivering marked rfl rfl rfl
  | send name =>
      simp only [sourceStep] at taken
      split at taken
      · obtain ⟨c, -, same⟩ := Option.map_eq_some_iff.mp taken
        cases same
        exact restartable.quiet delivering marked rfl rfl rfl
      · cases taken
  | terminate =>
      cases taken
      exact restartable.quiet delivering marked rfl rfl rfl
  | withdraw | tryRecv =>
      simp only [sourceStep, Option.ite_none_right_eq_some] at taken
      obtain ⟨c, -, same⟩ := Option.map_eq_some_iff.mp taken.2
      cases same
      exact restartable.quiet delivering marked rfl rfl rfl
  | call | emitted | receive | expire | abandon =>
      obtain ⟨c, -, same⟩ := Option.map_eq_some_iff.mp taken
      cases same
      exact restartable.quiet delivering marked rfl rfl rfl
  | finish built =>
      obtain ⟨⟨c, result⟩, -, same⟩ := Option.map_eq_some_iff.mp taken
      cases same
      exact restartable.quiet delivering marked rfl rfl rfl
  | marker epoch =>
      cases taken
      refine ⟨delivering, marked, read.load fun position at_name => ?_, kept, stored⟩
      exact ⟨log, s.readers.positions, [], rfl, at_name⟩
  | record i =>
      obtain ⟨checkpoints, recorded, same⟩ := Option.map_eq_some_iff.mp taken
      cases same
      exact ⟨delivering, marked, read.record recorded, kept, stored⟩
  | finalizer epoch =>
      cases taken
      have finalized : Checkpointing.All _ (s.checkpoints.finalize epoch) := read.finalize
      refine ⟨delivering, marked, ⟨read.loaded, finalized.pending, read.storing⟩,
        fun entry member => ?_, stored⟩
      rcases List.mem_append.mp member with before | new
      · exact kept entry before
      · obtain ⟨positions, recorded, rfl⟩ := Option.map_eq_some_iff.mp (Option.mem_toList.mp new)
        exact read.pending epoch positions recorded
  | retain i =>
      simp only [sourceStep] at taken
      obtain ⟨retained, retains, same⟩ := Option.map_eq_some_iff.mp taken
      cases same
      obtain ⟨entry, at_i, rfl⟩ := Option.map_eq_some_iff.mp retains
      refine ⟨delivering, marked, ⟨read.loaded, read.pending, fun other member => ?_⟩,
        fun other member => kept other (List.mem_of_mem_eraseIdx member), stored⟩
      rcases List.mem_append.mp member with before | new
      · exact read.storing other before
      · obtain rfl := List.mem_singleton.mp new
        intro position at_name
        simp only [Positions.retain, Option.ite_none_right_eq_some] at at_name
        exact kept entry (List.mem_of_getElem? at_i) position at_name.2
  | put i name succeeds =>
      simp only [sourceStep, putStep] at taken
      split at taken
      · cases taken
      rename_i epoch positions at_i
      obtain ⟨nextSeqNum, at_put, same⟩ := Option.map_eq_some_iff.mp taken
      have among := List.mem_of_getElem? at_i
      have rest :
          ∀ entry ∈ s.checkpoints.storing.set i (epoch, Function.update positions name none),
            ∀ position, entry.2 stream.name = some position →
              ReadAt stream (log ++ out) entry.1 position := by
        intro entry member position at_name
        rcases List.mem_or_eq_of_mem_set member with before | rfl
        · exact read.storing entry before position at_name
        · by_cases put : stream.name = name
          · simp [put] at at_name
          · exact read.storing _ among position (by simpa [put] using at_name)
      cases succeeds with
      | false =>
          cases same
          exact ⟨delivering, marked, ⟨read.loaded, read.pending, rest⟩, kept, stored⟩
      | true =>
          cases same
          refine ⟨delivering, marked, ⟨read.loaded, read.pending, rest⟩, kept, fun position held => ?_⟩
          by_cases put : stream.name = name
          · subst put
            obtain rfl : nextSeqNum = position := by simpa [putCheckpoint] using held
            exact .inr ⟨epoch, read.storing _ among nextSeqNum at_put⟩
          · exact stored position (by simpa [putCheckpoint, put] using held)

end

/-! ## Run after run -/

/-- The runs of a source that starts with what the backend holds, crashed at any point and
restarted, in which a stream is answered for. -/
abbrev RunsFrom (stream : Stream) (config : S2SourceConfig) (batchSize : Nat)
    (persisted : Positions) : SourceState → List SourceObs → Prop :=
  (sourceMachine config batchSize).ReachesWhere (stream.Conforms config) (.initial persisted)

/-- The rows of batches that the source returned in this run. -/
def SourceHistory.returned (h : SourceHistory) : List SourceRecord :=
  h.conveyor.settled ++ h.conveyor.last

section

variable {stream : Stream} {config : S2SourceConfig} {batchSize : Nat} {persisted : Positions}
  {s : SourceState} {log : List SourceObs}

theorem restartable_of_runsFrom
    (from_start : ∀ position ∈ persisted stream.name, position ≤ stream.since)
    (reached : RunsFrom stream config batchSize persisted s log) :
    Restartable stream (persisted stream.name) log s := by
  refine reached.invariant
    (P := fun s log => Restartable stream (persisted stream.name) log s) ?_ ?_
  · exact ⟨delivering_initial persisted [], by simp, Checkpointing.all_restored _, nofun,
      fun position held => .inl held⟩
  · exact fun restartable conforms taken => restartable.step conforms from_start taken

/-- **A persisted position is past delivered records only.**  A marker read it, and every record
wanted before it was delivered by then, in this run or in one that crashed. -/
theorem persisted_delivered
    (from_start : ∀ position ∈ persisted stream.name, position ≤ stream.since)
    (reached : RunsFrom stream config batchSize persisted s log) {position : Nat}
    (stored : s.readers.checkpoints stream.name = some position) :
    persisted stream.name = some position ∨
      ∃ before epoch positions after, log = before ++ .snapshot epoch positions :: after ∧
        positions stream.name = some position ∧
        stream.Covers (SourceHistory.of before).delivered position := by
  have restartable := restartable_of_runsFrom from_start reached
  refine (restartable.stored position stored).imp_right fun read => ?_
  obtain ⟨epoch, before, positions, after, splits, at_name⟩ := read
  exact ⟨before, epoch, positions, after, splits, at_name,
    restartable.marked before epoch positions after splits position at_name⟩

/-- **A run returns the records of a stream in order, once, and leaves none out**: every wanted
record was delivered in an earlier run, was returned in this one, is on its way, or is still
ahead of the reader. -/
theorem returned_in_order
    (from_start : ∀ position ∈ persisted stream.name, position ≤ stream.since)
    (reached : RunsFrom stream config batchSize persisted s log) {start : Nat}
    (started : (SourceHistory.of log).starts stream.name = some start) :
    stream.InOrder start (stream.of (SourceHistory.of log).returned) ∧
      ∀ record ∈ stream.kept, stream.since ≤ record.position →
        record ∈ (SourceHistory.of log).earlier ∨ record ∈ (SourceHistory.of log).returned ∨
          record ∈ s.conveyor.carry ++ s.conveyor.channel.flatten ++
            inFlight (s.tasks stream.name) ∨
          ∀ task ∈ s.tasks stream.name, task.nextSeqNum ≤ record.position := by
  have delivering := (restartable_of_runsFrom from_start reached).delivering
  obtain ⟨-, position, -, reads⟩ := delivering.reading start started
  have flow := delivering.tracks.sent
  rw [List.append_assoc, ← SourceHistory.returned] at flow
  constructor
  · refine reads.inOrder.of_prefix ?_
    rw [flow, Stream.of_append, List.append_assoc]
    exact List.prefix_append _ _
  · intro record kept wanted
    by_cases early : record.position < start
    · exact .inl (reads.covered record kept wanted early)
    cases current : s.tasks stream.name with
    | none => exact .inr (.inr (.inr nofun))
    | some task =>
        by_cases ahead : task.nextSeqNum ≤ record.position
        · refine .inr (.inr (.inr ?_))
          rintro other ⟨⟩
          exact ahead
        · have read := (reads.upTo task current).complete record kept (Nat.not_lt.mp early)
            (Nat.not_le.mp ahead)
          rw [current, List.mem_append] at read
          rcases read with sent | unsent
          · have among := (Stream.mem_of.mp sent).1
            rw [flow, List.mem_append] at among
            rcases among with returned | carried
            · exact .inr (.inl returned)
            · exact .inr (.inr (.inl (List.mem_append_left _ carried)))
          · exact .inr (.inr (.inl (List.mem_append_right _ unsent)))

end

/-! ### Two records, and a crash between them -/

def demoRecord (seqNum : UInt64) : SourceRecord := ⟨"a", seqNum, 0, [], []⟩

def demoStream : Stream where
  name := "a"
  kept := {demoRecord 0, demoRecord 1}
  since := 0
  named := by
    rintro record (rfl | rfl) <;> rfl

def demoSourceConfig : S2SourceConfig := ⟨["a"], "", .earliest⟩

def demoCall : Call := .onePage [] .nil

/-- One of the records is delivered when a marker comes, and the other when the source crashed. -/
def demoEvents : List SourceEvent :=
  [.send "a", .call, .tryRecv, .tryRecv, .finish true, .call, .emitted, .marker 7, .record 0,
    .finalizer 7, .retain 0, .put 0 "a" true, .restart, .ensure demoCall "a", .opened "a"]

/-- The run after it returns what it read. -/
def demoReturn : List SourceEvent :=
  [.send "a", .call, .tryRecv, .tryRecv, .finish true]

theorem demoStream_answers : demoStream.Answers 0 [demoRecord 0, demoRecord 1] := by
  refine ⟨by decide, fun _ _ => Nat.zero_le _, fun record kept _ _ _ _ => ?_, by decide⟩
  rcases kept with rfl | rfl
  · exact List.mem_cons_self
  · exact List.mem_cons_of_mem _ List.mem_cons_self

theorem demoStream_answers_rest : demoStream.Answers 1 [demoRecord 1] := by
  refine ⟨by decide, by decide, fun record kept from_start _ _ _ => ?_, by decide⟩
  rcases kept with rfl | rfl
  · exact absurd from_start (by decide)
  · exact List.mem_cons_self

theorem demoStream_ensure (s : SourceState) :
    demoStream.Conforms demoSourceConfig s (.ensure demoCall "a") := by
  rintro - - tail ⟨⟩
  exact le_rfl

theorem demo_runsFrom : ∃ s log, RunsFrom demoStream demoSourceConfig 1 (fun _ => none) s log ∧
    s.readers.checkpoints "a" = some 1 ∧ (SourceHistory.of log).starts "a" = some 1 ∧
    (SourceHistory.of log).earlier = [demoRecord 0] ∧
    (SourceHistory.of log).returned = [demoRecord 1] := by
  have start : ∀ e ∈ [.ensure demoCall "a", .opened "a"],
      ∀ s, demoStream.Conforms demoSourceConfig s e :=
    List.forall_mem_cons.mpr ⟨demoStream_ensure, by simp [Stream.Conforms]⟩
  have crash : ∀ e ∈ demoEvents, ∀ s, demoStream.Conforms demoSourceConfig s e := by
    simp only [demoEvents, List.forall_mem_cons]
    simpa [Stream.Conforms] using demoStream_ensure
  have rest : ∀ e ∈ demoReturn, ∀ s, demoStream.Conforms demoSourceConfig s e := by
    simp [demoReturn, Stream.Conforms]
  have opened := (.refl : RunsFrom demoStream demoSourceConfig 1 (fun _ => none) _ _).run start rfl
  have read := opened.step (e := .batch "a" [demoRecord 0, demoRecord 1]) (by
    rintro - task ⟨⟩
    exact demoStream_answers) rfl
  have again := (read.run crash rfl).step (e := .batch "a" [demoRecord 1]) (by
    rintro - task ⟨⟩
    exact demoStream_answers_rest) rfl
  exact ⟨_, _, again.run rest rfl, rfl, rfl, rfl, rfl⟩

/-- The position that is stored is past the first record, which was delivered. -/
theorem persisted_delivered_demo : ∃ s log,
    RunsFrom demoStream demoSourceConfig 1 (fun _ => none) s log ∧
      ∃ before epoch positions after, log = before ++ .snapshot epoch positions :: after ∧
        demoRecord 0 ∈ (SourceHistory.of before).delivered := by
  obtain ⟨s, log, reached, stored, -⟩ := demo_runsFrom
  refine ⟨s, log, reached, ?_⟩
  rcases persisted_delivered (by simp) reached stored with
    first | ⟨before, epoch, positions, after, splits, -, covers⟩
  · cases first
  · exact ⟨before, epoch, positions, after, splits,
      covers (demoRecord 0) (.inl rfl) (Nat.zero_le _) Nat.zero_lt_one⟩

/-- The reader after the crash starts at the second record, which is returned; the first one
was delivered before. -/
theorem returned_in_order_demo : ∃ s log,
    RunsFrom demoStream demoSourceConfig 1 (fun _ => none) s log ∧
      (SourceHistory.of log).earlier = [demoRecord 0] ∧
      (SourceHistory.of log).returned = [demoRecord 1] ∧
      demoStream.InOrder 1 (demoStream.of (SourceHistory.of log).returned) ∧
      ∀ record ∈ demoStream.kept, 0 ≤ record.position →
        record ∈ (SourceHistory.of log).earlier ∨ record ∈ (SourceHistory.of log).returned ∨
          record ∈ s.conveyor.carry ++ s.conveyor.channel.flatten ++ inFlight (s.tasks "a") ∨
          ∀ task ∈ s.tasks "a", task.nextSeqNum ≤ record.position := by
  obtain ⟨s, log, reached, -, started, earlier, returned⟩ := demo_runsFrom
  obtain ⟨inOrder, accounted⟩ := returned_in_order (by simp) reached started
  exact ⟨s, log, reached, earlier, returned, inOrder, accounted⟩

end StreamlingPlugins.S2Source
