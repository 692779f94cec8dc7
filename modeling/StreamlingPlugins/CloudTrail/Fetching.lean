import StreamlingPlugins.CloudTrail.Windows

/-!
# What a cycle queues

A fetch accepts the first record of every id that was not emitted before, and skips only events
without a record.  `Fetched` is its loop invariant.  A successful cycle queues the accepted
records in the order of their times and remembers their ids.
-/

namespace StreamlingPlugins.CloudTrail

/-! ## Fetching -/

section

variable {parsers : Parsers} {config : CloudTrailSourceConfig} {window : Window}
  {deduped : DedupedEventIds}

/-- What is fetched after the first events of a window. -/
structure Fetched (parsers : Parsers) (deduped : DedupedEventIds) (events : List Event)
    (fetched : FetchedWindow) : Prop where
  seen : fetched.windowSeen = (fetched.records.map CloudTrailRecord.eventId).reverse
  distinct : (fetched.records.map CloudTrailRecord.eventId).Nodup
  fresh : ∀ record ∈ fetched.records, deduped.contains record.eventId = false
  accepted : ∀ record ∈ fetched.records,
    ∃ event ∈ events, CloudTrailRecord.fromSdkEvent parsers event = .ok record
  complete : ∀ event ∈ events, ∀ record,
    CloudTrailRecord.fromSdkEvent parsers event = .ok record →
      deduped.contains record.eventId ∨ record.eventId ∈ fetched.records.map CloudTrailRecord.eventId
  skipped : ∀ entry ∈ fetched.skipped, ∃ event ∈ events, event.eventId = some entry.1 ∧
    ∃ e, CloudTrailRecord.fromSdkEvent parsers event = .error e

theorem fetched_nil : Fetched parsers deduped [] ⟨[], [], []⟩ :=
  ⟨rfl, .nil, nofun, nofun, nofun, nofun⟩

/-- An event that adds no record. -/
theorem Fetched.pass {events : List Event} {fetched : FetchedWindow} {event : Event}
    (before : Fetched parsers deduped events fetched) (skipped : List (String × Int64))
    (known : ∀ record, CloudTrailRecord.fromSdkEvent parsers event = .ok record →
      deduped.contains record.eventId ∨ record.eventId ∈ fetched.windowSeen)
    (skips : ∀ entry ∈ skipped, event.eventId = some entry.1 ∧
      ∃ e, CloudTrailRecord.fromSdkEvent parsers event = .error e) :
    Fetched parsers deduped (events ++ [event])
      { fetched with skipped := fetched.skipped ++ skipped } := by
  refine ⟨before.seen, before.distinct, before.fresh, fun record member => ?_,
    fun other member record converted => ?_, fun entry member => ?_⟩
  · obtain ⟨source, among, converted⟩ := before.accepted record member
    exact ⟨source, List.mem_append_left _ among, converted⟩
  · rcases List.mem_append.mp member with earlier | this
    · exact before.complete other earlier record converted
    · obtain rfl := List.mem_singleton.mp this
      have seen := known record converted
      rwa [before.seen, List.mem_reverse] at seen
  · rcases List.mem_append.mp member with earlier | new
    · obtain ⟨source, among, skip⟩ := before.skipped entry earlier
      exact ⟨source, List.mem_append_left _ among, skip⟩
    · exact ⟨event, List.mem_append_right _ (List.mem_singleton_self event), skips entry new⟩

/-- An event whose record is new. -/
theorem Fetched.accept {events : List Event} {fetched : FetchedWindow} {event : Event}
    {record : CloudTrailRecord} (before : Fetched parsers deduped events fetched)
    (converted : CloudTrailRecord.fromSdkEvent parsers event = .ok record)
    (new : deduped.contains record.eventId = false) (unseen : record.eventId ∉ fetched.windowSeen) :
    Fetched parsers deduped (events ++ [event]) { fetched with
      records := fetched.records ++ [record]
      windowSeen := record.eventId :: fetched.windowSeen } := by
  have first : record.eventId ∉ fetched.records.map CloudTrailRecord.eventId := by
    rwa [before.seen, List.mem_reverse] at unseen
  refine ⟨?_, ?_, fun other member => ?_, fun other member => ?_,
    fun source member other other_converted => ?_, fun entry member => ?_⟩
  · simp [before.seen]
  · rw [List.map_append, List.map_singleton]
    exact before.distinct.append (List.nodup_singleton _) (List.disjoint_singleton.mpr first)
  · rcases List.mem_append.mp member with earlier | this
    · exact before.fresh other earlier
    · obtain rfl := List.mem_singleton.mp this
      exact new
  · rcases List.mem_append.mp member with earlier | this
    · obtain ⟨source, among, other_converted⟩ := before.accepted other earlier
      exact ⟨source, List.mem_append_left _ among, other_converted⟩
    · obtain rfl := List.mem_singleton.mp this
      exact ⟨event, List.mem_append_right _ (List.mem_singleton_self event), converted⟩
  · rw [List.map_append, List.mem_append]
    rcases List.mem_append.mp member with earlier | this
    · exact (before.complete source earlier other other_converted).imp_right .inl
    · obtain rfl := List.mem_singleton.mp this
      obtain rfl : record = other := Except.ok.inj (converted.symm.trans other_converted)
      exact .inr (.inr (List.mem_singleton_self _))
  · obtain ⟨source, among, skip⟩ := before.skipped entry member
    exact ⟨source, List.mem_append_left _ among, skip⟩

theorem takeEvent_fetched {events : List Event} {fetched fetched' : FetchedWindow} {event : Event}
    (before : Fetched parsers deduped events fetched)
    (taken : takeEvent parsers config window deduped fetched event = .ok fetched') :
    Fetched parsers deduped (events ++ [event]) fetched' := by
  unfold takeEvent at taken
  split at taken
  · rename_i record converted
    split at taken
    · rename_i known
      cases taken
      have passed := before.pass [] (fun other other_converted => by
        obtain rfl : record = other := Except.ok.inj (converted.symm.trans other_converted)
        simpa using known) nofun
      simpa using passed
    · rename_i new
      cases taken
      simp only [Bool.or_eq_true, not_or, Bool.not_eq_true, List.contains_eq_mem,
        decide_eq_false_iff_not] at new
      exact before.accept converted new.1 new.2
  · rename_i e malformed
    have no_record (record : CloudTrailRecord) :
        ¬ CloudTrailRecord.fromSdkEvent parsers event = .ok record := by
      intro converted
      rw [malformed] at converted
      cases converted
    split at taken
    · cases taken
    · split at taken
      · rename_i id named
        cases taken
        refine before.pass [_] (fun record converted => absurd converted (no_record record)) ?_
        intro entry member
        obtain rfl := List.mem_singleton.mp member
        exact ⟨named, e, malformed⟩
      · cases taken
        have passed := before.pass [] (fun record converted => absurd converted (no_record record))
          nofun
        simpa using passed

theorem foldlM_takeEvent {rest events : List Event} {fetched fetched' : FetchedWindow}
    (before : Fetched parsers deduped events fetched)
    (taken : rest.foldlM (takeEvent parsers config window deduped) fetched = .ok fetched') :
    Fetched parsers deduped (events ++ rest) fetched' := by
  induction rest generalizing events fetched with
  | nil =>
      cases taken
      simpa using before
  | cons event rest ih =>
      rw [List.foldlM_cons] at taken
      obtain ⟨next, first, taken⟩ := bind_eq_ok taken
      simpa using ih (takeEvent_fetched before first) taken

/-- A window that was fetched whole. -/
theorem fetchWindow_fetched {response : Response} {fetched : FetchedWindow}
    (done : fetchWindow parsers config window deduped response = .ok fetched) :
    response.failure = none ∧ Fetched parsers deduped response.pages.flatten fetched := by
  unfold fetchWindow at done
  obtain ⟨taken, pages, done⟩ := bind_eq_ok done
  split at done
  · cases done
  · rename_i complete
    cases done
    exact ⟨complete, by simpa using foldlM_takeEvent fetched_nil pages⟩

end

/-! ## Batches -/

theorem splitOff_flatten {size : Nat} {positive : 0 < size} (records : List CloudTrailRecord) :
    (splitOff size positive records).flatten = records := by
  fun_induction splitOff size positive records with
  | case1 records longer ih => rw [List.flatten_cons, ih, List.take_append_drop]
  | case2 longer => rfl
  | case3 records longer some_record => simp

/-- Batches hold every record once, in the order of their times. -/
theorem sortIntoBatches_perm {size : Nat} {positive : 0 < size}
    (records : List CloudTrailRecord) :
    (sortIntoBatches records size positive).flatten.Perm records := by
  rw [sortIntoBatches, splitOff_flatten]
  exact List.mergeSort_perm _ _

theorem sortIntoBatches_sorted {size : Nat} {positive : 0 < size}
    (records : List CloudTrailRecord) :
    (sortIntoBatches records size positive).flatten.Pairwise fun a b =>
      a.eventTimeMs.toInt ≤ b.eventTimeMs.toInt := by
  rw [sortIntoBatches, splitOff_flatten]
  have sorted : (records.mergeSort fun a b => a.eventTimeMs ≤ b.eventTimeMs).Pairwise fun a b =>
      decide (a.eventTimeMs ≤ b.eventTimeMs) = true :=
    List.pairwise_mergeSort
      (fun a b c ab bc => by
        simp only [decide_eq_true_eq, Int64.le_iff_toInt_le] at ab bc ⊢
        omega)
      (fun a b => by
        simp only [Bool.or_eq_true, decide_eq_true_eq, Int64.le_iff_toInt_le]
        omega) records
  refine sorted.imp fun le => ?_
  simpa only [decide_eq_true_eq, Int64.le_iff_toInt_le] using le

/-- The largest time is the time of a record, and no smaller than any other. -/
theorem maxEventTime_eq_some {records : List CloudTrailRecord} {time : Int64}
    (largest : maxEventTime records = some time) :
    (∃ record ∈ records, record.eventTimeMs = time) ∧
      ∀ record ∈ records, record.eventTimeMs.toInt ≤ time.toInt := by
  rw [maxEventTime, List.max?_eq_some_iff] at largest
  refine ⟨List.mem_map.mp largest.1, fun record member => ?_⟩
  exact Int64.le_iff_toInt_le.mp (largest.2 _ (List.mem_map_of_mem member))

theorem maxEventTime_eq_none {records : List CloudTrailRecord} :
    maxEventTime records = none ↔ records = [] := by
  rw [maxEventTime, List.max?_eq_none_iff, List.map_eq_nil_iff]

/-! ## Ids -/

section

variable {α : Type} {deduped : DedupedEventIds} {id : String} {key : α → String}
  {time : α → Int64}

theorem foldl_insert_of_not_mem {entries : List α} (other : id ∉ entries.map key) :
    entries.foldl (fun deduped a => deduped.insert (key a) (time a)) deduped id = deduped id := by
  induction entries generalizing deduped with
  | nil => rfl
  | cons a entries ih =>
      rw [List.map_cons, List.mem_cons, not_or] at other
      rw [List.foldl_cons, ih other.2]
      exact Function.update_of_ne other.1 _ _

theorem foldl_insert_of_mem {entries : List α} {a : α} (distinct : (entries.map key).Nodup)
    (member : a ∈ entries) :
    entries.foldl (fun deduped a => deduped.insert (key a) (time a)) deduped (key a) =
      some (time a) := by
  induction entries generalizing deduped with
  | nil => cases member
  | cons b entries ih =>
      rw [List.map_cons, List.nodup_cons] at distinct
      rcases List.mem_cons.mp member with rfl | later
      · rw [List.foldl_cons, foldl_insert_of_not_mem distinct.1]
        exact Function.update_self _ _ _
      · exact ih distinct.2 later

end

/-- The ids of a window, with those known before. -/
def FetchedWindow.remember (fetched : FetchedWindow) (deduped : DedupedEventIds) :
    DedupedEventIds :=
  fetched.skipped.foldl (fun deduped entry => deduped.insert entry.1 entry.2)
    (fetched.records.foldl
      (fun deduped record => deduped.insert record.eventId record.eventTimeMs) deduped)

section

variable {fetched : FetchedWindow} {deduped : DedupedEventIds} {id : String}

theorem FetchedWindow.remember_isSome (known : (fetched.remember deduped id).isSome) :
    id ∈ fetched.skipped.map Prod.fst ∨ id ∈ fetched.records.map CloudTrailRecord.eventId ∨
      (deduped id).isSome := by
  by_cases skipped : id ∈ fetched.skipped.map Prod.fst
  · exact .inl skipped
  · by_cases recorded : id ∈ fetched.records.map CloudTrailRecord.eventId
    · exact .inr (.inl recorded)
    · rw [remember, foldl_insert_of_not_mem skipped, foldl_insert_of_not_mem recorded] at known
      exact .inr (.inr known)

theorem FetchedWindow.remember_record {record : CloudTrailRecord}
    (distinct : (fetched.records.map CloudTrailRecord.eventId).Nodup)
    (member : record ∈ fetched.records) (unskipped : record.eventId ∉ fetched.skipped.map Prod.fst) :
    fetched.remember deduped record.eventId = some record.eventTimeMs := by
  rw [remember, foldl_insert_of_not_mem unskipped]
  exact foldl_insert_of_mem distinct member

theorem FetchedWindow.remember_of_not_mem
    (unrecorded : id ∉ fetched.records.map CloudTrailRecord.eventId)
    (unskipped : id ∉ fetched.skipped.map Prod.fst) :
    fetched.remember deduped id = deduped id := by
  rw [remember, foldl_insert_of_not_mem unskipped, foldl_insert_of_not_mem unrecorded]

end

/-! ## Cycles -/

section

variable (parsers : Parsers) (config : CloudTrailSourceConfig) (floor now : Int64)
  (state : PollState) (response : Response)

/-- The ids that a cycle still knows: those of events that its window may list. -/
def CloudTrailSourceConfig.known (config : CloudTrailSourceConfig) (floor now : Int64)
    (state : PollState) : DedupedEventIds :=
  state.deduped.evictBefore (config.plan state.watermarkMs floor now).startMs

/-- A failed cycle only forgets ids that slid out of its window; a successful one also queues
what it fetched, remembers it, and advances the watermark. -/
theorem pollCycle_cases :
    ((∃ e, (pollCycle parsers config floor state now response).2.outcome = .error e) ∧
        (pollCycle parsers config floor state now response).1 =
          ⟨state.watermarkMs, config.known floor now state⟩) ∨
      ∃ fetched, response.failure = none ∧
        Fetched parsers (config.known floor now state) response.pages.flatten fetched ∧
        (pollCycle parsers config floor state now response).2.outcome =
          .ok (sortIntoBatches fetched.records config.batchSize config.batchSize_pos) ∧
        (pollCycle parsers config floor state now response).1 =
          ⟨advanceWatermark state.watermarkMs (maxEventTime fetched.records)
            (config.plan state.watermarkMs floor now).endMs,
            fetched.remember (config.known floor now state)⟩ := by
  unfold pollCycle CloudTrailSourceConfig.known CloudTrailSourceConfig.plan
  dsimp only
  split
  · exact .inl ⟨⟨_, rfl⟩, rfl⟩
  · rename_i fetched done
    obtain ⟨whole, fetched_all⟩ := fetchWindow_fetched done
    exact .inr ⟨fetched, whole, fetched_all, rfl, rfl⟩

end

end StreamlingPlugins.CloudTrail
