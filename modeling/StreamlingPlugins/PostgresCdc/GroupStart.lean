import StreamlingPlugins.PostgresCdc.RegistrySafety

/-!
# Starting a group

The first `ensure_started` of a group starts its pipeline with the tables that have
registered by then; a later one only finds the group's flag set.  When a later call
is made after the start succeeded, by a source that registered in time, `Ok` means
that rows of its table arrive.
-/

namespace StreamlingPlugins.PostgresCdc

/-! ## Calls that start a group -/

/-- The group that a first `ensure_started` call is about to start. -/
def Call.starting : Call → Option Nat
  | .takeConfig g _ _ | .ensurePublication g _ _ | .startPipeline g _ _ => some g
  | _ => none

/-- The group whose start failed. -/
def RegistryObs.failedStart : RegistryObs → Option Nat
  | .ensureStarted _ g (.error _) => some g
  | _ => none

/-- What the start of a group depends on. -/
def SharedPipeline.startTag (group : SharedPipeline) :
    SourceId × List PendingSub × Bool × Option (List Subscriber) :=
  (group.nextSourceId, group.subs, group.started, group.pipeline)

/-- What stays of a source. -/
def PostgresCdcSource.startTag (source : PostgresCdcSource) : Nat × SourceId × TableSpec :=
  (source.shared, source.sourceId, source.table)

namespace Registry

/-- When an `ensure_started` call is made in order: it is the first one of its group,
or the pipeline has been started and the source is among the first registrants,
as many as the pipeline fans out to. -/
def startsInOrder (s : Registry) : RegistryEvent → Bool
  | .advance c _ =>
    match s.calls[c]? with
    | some (.ensureStarted g x) =>
      match s.groups[g]?, s.sources[x]? with
      | some group, some source =>
        !group.started || group.pipeline.any fun subs => source.sourceId < subs.length
      | _, _ => true
    | _ => true
  | _ => true

/-- The group's pipeline was started and fans out to the source. -/
def FansOut (s : Registry) (g x : Nat) : Prop :=
  ∃ group source subscribers, s.groups[g]? = some group ∧ s.sources[x]? = some source ∧
    source.shared = g ∧ group.pipeline = some subscribers ∧
    (PendingSub.mk source.sourceId source.table).subscriber ∈ subscribers

/-- An `Ok` of `ensure_started` means a pipeline that fans out to the source; after a
failed one no initialized member is running without a pipeline. -/
structure StartsReported (s : Registry) (log : List RegistryObs) : Prop where
  started : ∀ {x g : Nat}, .ensureStarted x g (.ok ()) ∈ log → s.FansOut g x
  failed : ∀ {y g : Nat} {e : String}, .ensureStarted y g (.error e) ∈ log →
    ∀ {x : Nat} {source : PostgresCdcSource}, s.sources[x]? = some source → source.shared = g →
      .initialized x (.ok ()) ∈ log → s.isRunning x →
      ∃ group, s.groups[g]? = some group ∧ group.pipelineRuns

/-! ## The invariant -/

/-- The subscribers chosen for the source's group, the source among them. -/
def Chosen (s : Registry) (g x : Nat) (subscribers : List Subscriber) : Prop :=
  ∃ group source n, s.groups[g]? = some group ∧ s.sources[x]? = some source ∧ source.shared = g ∧
    source.sourceId < n ∧ n ≤ group.subs.length ∧
    subscribers = (group.subs.take n).map PendingSub.subscriber

def MemberOf (s : Registry) (g x : Nat) : Prop :=
  s.sources[x]?.map PostgresCdcSource.shared = some g

/-- What holds of a call in flight. -/
def CallHolds (s : Registry) (log : List RegistryObs) : Call → Prop
  | .ensureStarted g x => s.MemberOf g x
  | .takeConfig g x subs | .ensurePublication g x subs | .startPipeline g x subs =>
    s.Chosen g x subs
  | .storeShutdown g x => s.FansOut g x
  | .setState g x => .ensureStarted x g (.ok ()) ∈ log
  | _ => True

/-- What holds of an observation. -/
def ObsHolds (s : Registry) (log : List RegistryObs) : RegistryObs → Prop
  | .ensureStarted x g (.ok ()) => s.FansOut g x
  | .initialized x (.ok ()) => ∃ g, .ensureStarted x g (.ok ()) ∈ log
  | _ => True

/-- The calls that are starting a group. -/
def starts (s : Registry) (g : Nat) : Nat := s.calls.countP fun call => call.starting = some g

/-- The failed starts of a group. -/
def failures (log : List RegistryObs) (g : Nat) : Nat :=
  log.countP fun obs => obs.failedStart = some g

def decided (s : Registry) (g : Nat) : Nat :=
  if s.groups[g]?.any (·.pipeline.isSome) then 1 else 0

def begun (s : Registry) (g : Nat) : Nat := if s.groups[g]?.any (·.started) then 1 else 0

/-- Every source is listed in its group; a group that begun is being started by one
call, was started, or failed to start, once. -/
structure StartInv (s : Registry) (log : List RegistryObs) : Prop where
  listed : ∀ {x : Nat} {source : PostgresCdcSource}, s.sources[x]? = some source →
    ∃ group, s.groups[source.shared]? = some group ∧
      group.subs[source.sourceId]? = some ⟨source.sourceId, source.table⟩
  fanned : ∀ {g : Nat} {group : SharedPipeline}, s.groups[g]? = some group →
    group.nextSourceId = group.subs.length ∧ ∀ subscribers, group.pipeline = some subscribers →
      ∃ n ≤ group.subs.length, subscribers = (group.subs.take n).map PendingSub.subscriber
  calls : ∀ call ∈ s.calls, s.CallHolds log call
  observed : ∀ obs ∈ log, s.ObsHolds log obs
  once : ∀ g, s.starts g + s.decided g + failures log g = s.begun g

/-! ## What a step keeps -/

/-- Sources stay, groups only gain tables, and a started pipeline stays as it is. -/
structure Grows (s s' : Registry) : Prop where
  sources : ∀ {x : Nat} {source : PostgresCdcSource}, s.sources[x]? = some source →
    ∃ source', s'.sources[x]? = some source' ∧ source'.startTag = source.startTag
  groups : ∀ {g : Nat} {group : SharedPipeline}, s.groups[g]? = some group →
    ∃ group', s'.groups[g]? = some group' ∧ group.subs <+: group'.subs ∧
      ∀ subscribers, group.pipeline = some subscribers → group'.pipeline = some subscribers

section Steps

variable {s s' : Registry} {log out : List RegistryObs}

theorem FansOut.grows {g x : Nat} (fans : s.FansOut g x) (grows : Grows s s') :
    s'.FansOut g x := by
  obtain ⟨group, source, subs, inGroup, isSource, shared, started, member⟩ := fans
  obtain ⟨group', inGroup', _, keeps⟩ := grows.groups inGroup
  obtain ⟨source', isSource', same⟩ := grows.sources isSource
  obtain ⟨sharedEq, idEq, tableEq⟩ : source'.shared = source.shared ∧
      source'.sourceId = source.sourceId ∧ source'.table = source.table := by
    simpa [PostgresCdcSource.startTag] using same
  exact ⟨group', source', subs, inGroup', isSource', sharedEq.trans shared, keeps subs started,
    by rwa [idEq, tableEq]⟩

theorem Chosen.grows {g x : Nat} {subs : List Subscriber} (chosen : s.Chosen g x subs)
    (grows : Grows s s') : s'.Chosen g x subs := by
  obtain ⟨group, source, n, inGroup, isSource, shared, early, bound, rfl⟩ := chosen
  obtain ⟨group', inGroup', ⟨more, appended⟩, _⟩ := grows.groups inGroup
  obtain ⟨source', isSource', same⟩ := grows.sources isSource
  obtain ⟨sharedEq, idEq, _⟩ : source'.shared = source.shared ∧
      source'.sourceId = source.sourceId ∧ source'.table = source.table := by
    simpa [PostgresCdcSource.startTag] using same
  refine ⟨group', source', n, inGroup', isSource', sharedEq.trans shared, idEq ▸ early, ?_, ?_⟩
  · rw [← appended, List.length_append]
    exact Nat.le_add_right_of_le bound
  · rw [← appended, List.take_append_of_le_length bound]

theorem MemberOf.grows {g x : Nat} (member : s.MemberOf g x) (grows : Grows s s') :
    s'.MemberOf g x := by
  obtain ⟨source, isSource, shared⟩ := Option.map_eq_some_iff.mp member
  obtain ⟨source', isSource', same⟩ := grows.sources isSource
  rw [MemberOf, isSource', Option.map_some, ← shared]
  exact congrArg (fun tag => some tag.1) same

theorem CallHolds.grows {call : Call} (holds : s.CallHolds log call) (grows : Grows s s') :
    s'.CallHolds (log ++ out) call := by
  cases call with
  | ensureStarted g x => exact MemberOf.grows holds grows
  | takeConfig | ensurePublication | startPipeline => exact Chosen.grows holds grows
  | storeShutdown g x => exact FansOut.grows holds grows
  | setState g x => exact List.mem_append_left _ holds
  | _ => trivial

theorem ObsHolds.grows {obs : RegistryObs} (holds : s.ObsHolds log obs) (grows : Grows s s') :
    s'.ObsHolds (log ++ out) obs := by
  cases obs with
  | ensureStarted x g result =>
      cases result with
      | ok => exact FansOut.grows holds grows
      | error e => trivial
  | initialized x result =>
      cases result with
      | ok =>
          obtain ⟨g, member⟩ := holds
          exact ⟨g, List.mem_append_left _ member⟩
      | error e => trivial
  | _ => trivial

/-- What is left to check of a step that grows the system. -/
theorem StartInv.next (inv : StartInv s log) (grows : Grows s s')
    (listed : ∀ {x : Nat} {source : PostgresCdcSource}, s'.sources[x]? = some source →
      ∃ group, s'.groups[source.shared]? = some group ∧
        group.subs[source.sourceId]? = some ⟨source.sourceId, source.table⟩)
    (fanned : ∀ {g : Nat} {group : SharedPipeline}, s'.groups[g]? = some group →
      group.nextSourceId = group.subs.length ∧ ∀ subscribers, group.pipeline = some subscribers →
        ∃ n ≤ group.subs.length, subscribers = (group.subs.take n).map PendingSub.subscriber)
    (calls : ∀ call ∈ s'.calls, call ∈ s.calls ∨ s'.CallHolds (log ++ out) call)
    (observed : ∀ obs ∈ out, s'.ObsHolds (log ++ out) obs)
    (once : ∀ g, s'.starts g + s'.decided g + failures out g + s.begun g =
      s.starts g + s.decided g + s'.begun g) : StartInv s' (log ++ out) where
  listed := listed
  fanned := fanned
  calls call member := (calls call member).elim (fun old => (inv.calls call old).grows grows) id
  observed obs member := by
    rcases List.mem_append.mp member with old | new
    · exact (inv.observed obs old).grows grows
    · exact observed obs new
  once g := by
    have before := inv.once g
    have step := once g
    rw [failures, List.countP_append, ← failures, ← failures]
    omega

theorem grows_of_tags
    (groups : s'.groups.map SharedPipeline.startTag = s.groups.map SharedPipeline.startTag)
    (sources : s'.sources.map PostgresCdcSource.startTag =
      s.sources.map PostgresCdcSource.startTag) : Grows s s' where
  sources {x source} found := by
    have same := congrArg (·[x]?) sources
    simp only [List.getElem?_map, found, Option.map_some] at same
    exact Option.map_eq_some_iff.mp same
  groups {g group} found := by
    have same := congrArg (·[g]?) groups
    simp only [List.getElem?_map, found, Option.map_some] at same
    obtain ⟨group', found', same⟩ := Option.map_eq_some_iff.mp same
    simp only [SharedPipeline.startTag, Prod.mk.injEq] at same
    obtain ⟨_, subs, _, pipeline⟩ := same
    exact ⟨group', found', subs ▸ List.prefix_rfl, fun subscribers started => pipeline ▸ started⟩

/-- A step that only moves calls and flags. -/
theorem StartInv.flags (inv : StartInv s log)
    (groups : s'.groups.map SharedPipeline.startTag = s.groups.map SharedPipeline.startTag)
    (sources : s'.sources.map PostgresCdcSource.startTag =
      s.sources.map PostgresCdcSource.startTag)
    (calls : ∀ call ∈ s'.calls, call ∈ s.calls ∨ s'.CallHolds (log ++ out) call)
    (observed : ∀ obs ∈ out, s'.ObsHolds (log ++ out) obs)
    (once : ∀ g, s'.starts g + failures out g = s.starts g) : StartInv s' (log ++ out) := by
  have back := grows_of_tags groups.symm sources.symm
  have tags : ∀ g, s'.decided g = s.decided g ∧ s'.begun g = s.begun g := by
    intro g
    have same := congrArg (fun tags => tags[g]?.any fun tag => tag.2.2.2.isSome) groups
    have same' := congrArg (fun tags => tags[g]?.any fun tag => tag.2.2.1) groups
    simp only [List.getElem?_map, Option.any_map, SharedPipeline.startTag] at same same'
    rw [decided, decided, begun, begun, same, same']
    exact ⟨rfl, rfl⟩
  refine inv.next (grows_of_tags groups sources) ?_ ?_ calls observed fun g => ?_
  · intro x source found
    obtain ⟨source', found', same⟩ := back.sources found
    obtain ⟨group, inGroup, listed⟩ := inv.listed found'
    have same' := congrArg (·[source'.shared]?) groups
    simp only [List.getElem?_map, inGroup, Option.map_some] at same'
    obtain ⟨group', inGroup', tag⟩ := Option.map_eq_some_iff.mp same'
    simp only [SharedPipeline.startTag, PostgresCdcSource.startTag, Prod.mk.injEq] at tag same
    obtain ⟨shared, id, table⟩ := same
    exact ⟨group', shared ▸ inGroup', by rw [tag.2.1, ← id, ← table]; exact listed⟩
  · intro g group found
    have same' := congrArg (·[g]?) groups
    simp only [List.getElem?_map, found, Option.map_some] at same'
    obtain ⟨group', inGroup', tag⟩ := Option.map_eq_some_iff.mp same'.symm
    simp only [SharedPipeline.startTag, Prod.mk.injEq] at tag
    obtain ⟨next, subs, _, pipeline⟩ := tag
    rw [← next, ← subs, ← pipeline]
    exact inv.fanned inGroup'
  · rw [(tags g).1, (tags g).2]
    have := once g
    omega

/-! ### One section of a call -/

theorem mem_setCall {c : Nat} {new : Call} (holds : s'.CallHolds (log ++ out) new) :
    ∀ call ∈ s.calls.set c new, call ∈ s.calls ∨ s'.CallHolds (log ++ out) call := by
  intro call member
  rcases List.mem_or_eq_of_mem_set member with member | rfl
  · exact .inl member
  · exact .inr holds

theorem mem_startCall {new : Call} (holds : s'.CallHolds (log ++ out) new) :
    ∀ call ∈ s.calls ++ [new], call ∈ s.calls ∨ s'.CallHolds (log ++ out) call := by
  intro call member
  rcases List.mem_append.mp member with member | member
  · exact .inl member
  · exact .inr (List.mem_singleton.mp member ▸ holds)

/-- Replacing a call changes the starting calls by what the two contribute. -/
theorem starts_set {c : Nat} {call new : Call} (old : s.calls[c]? = some call)
    (calls : s'.calls = s.calls.set c new) (g : Nat) :
    s'.starts g + (if call.starting = some g then 1 else 0) =
      s.starts g + if new.starting = some g then 1 else 0 := by
  obtain ⟨bound, rfl⟩ := List.getElem?_eq_some_iff.mp old
  rw [starts, starts, calls, List.countP_set bound]
  have counted : (if s.calls[c].starting = some g then 1 else 0) ≤
      s.calls.countP fun call => call.starting = some g := by
    split
    · exact List.countP_pos_iff.mpr ⟨_, List.getElem_mem bound, by simpa using ‹_›⟩
    · exact Nat.zero_le _
  simp only [decide_eq_true_eq]
  omega

theorem starts_append {new : Call} (calls : s'.calls = s.calls ++ [new])
    (plain : new.starting = none) (g : Nat) : s'.starts g = s.starts g := by
  rw [starts, starts, calls, List.countP_append]
  simp [plain]

/-- A section that replaces a call and moves flags. -/
theorem StartInv.section (inv : StartInv s log) {c : Nat} {call new : Call}
    (old : s.calls[c]? = some call) (calls : s'.calls = s.calls.set c new)
    (groups : s'.groups.map SharedPipeline.startTag = s.groups.map SharedPipeline.startTag)
    (sources : s'.sources.map PostgresCdcSource.startTag =
      s.sources.map PostgresCdcSource.startTag)
    (holds : s.CallHolds log call → s'.CallHolds (log ++ out) new)
    (observed : s.CallHolds log call → ∀ obs ∈ out, s'.ObsHolds (log ++ out) obs)
    (starting : ∀ g, (if new.starting = some g then 1 else 0) + failures out g =
      if call.starting = some g then 1 else 0) : StartInv s' (log ++ out) := by
  have known := inv.calls call (List.mem_of_getElem? old)
  refine inv.flags groups sources (calls ▸ mem_setCall (holds known)) (observed known) fun g => ?_
  have moved := starts_set old calls g
  have balance := starting g
  omega

/-- `initialize` fails. -/
theorem StartInv.failStart (inv : StartInv s log) {c g x : Nat} {call : Call} {error : String}
    (old : s.calls[c]? = some call) (starting : call.starting = some g)
    (failed : s.failStart c g x error = (s', out)) : StartInv s' (log ++ out) := by
  cases failed
  refine inv.section old rfl rfl rfl (fun _ => trivial) ?_ fun g' => ?_
  · intro _ obs member
    rcases List.mem_pair.mp member with rfl | rfl
    · trivial
    · trivial
  · rw [starting]
    simp [failures, List.countP_cons, RegistryObs.failedStart, Call.starting]

/-- An `ensure_started` call that finds the group started. -/
theorem StartInv.found (inv : StartInv s log) {c g x : Nat} {group : SharedPipeline}
    (old : s.calls[c]? = some (.ensureStarted g x)) (inGroup : s.groups[g]? = some group)
    (begun : group.started) {outcome : Except String Unit}
    (inOrder : s.startsInOrder (.advance c outcome)) :
    StartInv (s.setCall c (.setState g x)) (log ++ [.ensureStarted x g (.ok ())]) := by
  have member : s.MemberOf g x := inv.calls _ (List.mem_of_getElem? old)
  obtain ⟨source, isSource, shared⟩ := Option.map_eq_some_iff.mp member
  have fans : s.FansOut g x := by
    simp only [startsInOrder, old, inGroup, isSource, begun, Bool.not_true, Bool.false_or,
      Option.any_eq_true, decide_eq_true_eq] at inOrder
    obtain ⟨subs, started, early⟩ := inOrder
    obtain ⟨group', inGroup', listed⟩ := inv.listed isSource
    rw [shared, inGroup] at inGroup'
    cases inGroup'
    obtain ⟨n, bound, rfl⟩ := (inv.fanned inGroup).2 subs started
    refine ⟨group, source, _, inGroup, isSource, shared, started, List.mem_map_of_mem ?_⟩
    rw [List.length_map, List.length_take] at early
    refine List.mem_of_getElem? (i := source.sourceId) ?_
    rw [List.getElem?_take_of_lt (lt_of_lt_of_le early (Nat.min_le_left _ _)), listed]
  refine inv.section old rfl rfl rfl (fun _ => by simp [CallHolds]) ?_ fun g' => ?_
  · intro _ obs single
    rw [List.mem_singleton.mp single]
    exact fans.grows (grows_of_tags rfl rfl)
  · simp [failures, RegistryObs.failedStart, Call.starting]

theorem decided_setGroup {c g : Nat} {call : Call} {group new : SharedPipeline}
    (inGroup : s.groups[g]? = some group) (g' : Nat) :
    ((s.setCall c call).setGroup g new).decided g' =
      if g = g' then (if new.pipeline.isSome then 1 else 0) else s.decided g' := by
  obtain ⟨bound, _⟩ := List.getElem?_eq_some_iff.mp inGroup
  simp only [decided, setGroup, setCall, List.getElem?_set]
  split
  · simp
  · rfl

theorem begun_setGroup {c g : Nat} {call : Call} {group new : SharedPipeline}
    (inGroup : s.groups[g]? = some group) (g' : Nat) :
    ((s.setCall c call).setGroup g new).begun g' =
      if g = g' then (if new.started then 1 else 0) else s.begun g' := by
  obtain ⟨bound, _⟩ := List.getElem?_eq_some_iff.mp inGroup
  simp only [begun, setGroup, setCall, List.getElem?_set]
  split
  · simp
  · rfl

theorem decided_eq {g : Nat} {group : SharedPipeline} (inGroup : s.groups[g]? = some group) :
    s.decided g = if group.pipeline.isSome then 1 else 0 := by
  simp [decided, inGroup]

theorem begun_eq {g : Nat} {group : SharedPipeline} (inGroup : s.groups[g]? = some group) :
    s.begun g = if group.started then 1 else 0 := by
  simp [begun, inGroup]

/-- A group that keeps its flag and its pipeline keeps its outcome. -/
theorem outcome_setGroup {c g : Nat} {call : Call} {group new : SharedPipeline}
    (inGroup : s.groups[g]? = some group) (pipeline : new.pipeline = group.pipeline)
    (started : new.started = group.started) (g' : Nat) :
    ((s.setCall c call).setGroup g new).decided g' = s.decided g' ∧
      ((s.setCall c call).setGroup g new).begun g' = s.begun g' := by
  rw [decided_setGroup inGroup, begun_setGroup inGroup, pipeline, started]
  split
  · subst g'
    rw [decided_eq inGroup, begun_eq inGroup]
    exact ⟨rfl, rfl⟩
  · exact ⟨rfl, rfl⟩

/-- Replacing a group by one with at least its tables and its pipeline. -/
theorem grows_setGroup {c g : Nat} {call : Call} {group new : SharedPipeline}
    (inGroup : s.groups[g]? = some group) (subs : group.subs <+: new.subs)
    (pipeline : ∀ subscribers, group.pipeline = some subscribers →
      new.pipeline = some subscribers) : Grows s ((s.setCall c call).setGroup g new) where
  sources found := ⟨_, found, rfl⟩
  groups {g' group'} found := by
    obtain ⟨bound, _⟩ := List.getElem?_eq_some_iff.mp inGroup
    simp only [setGroup, setCall, List.getElem?_set]
    by_cases same : g = g'
    · subst same
      rw [inGroup] at found
      cases found
      exact ⟨new, by simp [bound], subs, pipeline⟩
    · exact ⟨group', by simp [same, found], List.prefix_rfl, fun _ started => started⟩

/-- A section that starts the group or its pipeline. -/
theorem StartInv.replace (inv : StartInv s log) {c g : Nat} {call next : Call}
    {group new : SharedPipeline} (old : s.calls[c]? = some call)
    (inGroup : s.groups[g]? = some group)
    (tables : new.nextSourceId = group.nextSourceId ∧ new.subs = group.subs)
    (pipeline : ∀ subscribers, group.pipeline = some subscribers →
      new.pipeline = some subscribers)
    (fans : ∀ subscribers, new.pipeline = some subscribers →
      ∃ n ≤ group.subs.length, subscribers = (group.subs.take n).map PendingSub.subscriber)
    (holds : ((s.setCall c next).setGroup g new).CallHolds (log ++ []) next)
    (balance : ∀ g', (if next.starting = some g' then 1 else 0) +
        (if g = g' then (if new.pipeline.isSome then 1 else 0) +
          (if group.started then 1 else 0) else 0) =
      (if call.starting = some g' then 1 else 0) +
        if g = g' then (if group.pipeline.isSome then 1 else 0) +
          (if new.started then 1 else 0) else 0) :
    StartInv ((s.setCall c next).setGroup g new) (log ++ []) := by
  have grows : Grows s ((s.setCall c next).setGroup g new) :=
    grows_setGroup inGroup (tables.2 ▸ List.prefix_rfl) pipeline
  have bound := (List.getElem?_eq_some_iff.mp inGroup).1
  refine inv.next grows ?_ ?_ (mem_setCall holds) (by simp) fun g' => ?_
  · intro x source found
    obtain ⟨group', inGroup', listed⟩ := inv.listed found
    obtain ⟨group'', inGroup'', ⟨_, appended⟩, _⟩ := grows.groups inGroup'
    refine ⟨group'', inGroup'', ?_⟩
    rw [← appended, List.getElem?_append_left (List.getElem?_eq_some_iff.mp listed).1, listed]
  · intro g' group' found
    simp only [setGroup, setCall, List.getElem?_set, bound, if_true] at found
    split at found
    · cases found
      rw [tables.1, tables.2]
      exact ⟨(inv.fanned inGroup).1, fans⟩
    · exact inv.fanned found
  · have moved : ((s.setCall c next).setGroup g new).starts g' + _ = s.starts g' + _ :=
      starts_set old rfl g'
    have balanced := balance g'
    rw [decided_setGroup inGroup, begun_setGroup inGroup, failures, List.countP_nil]
    by_cases same : g = g'
    · subst same
      simp only [if_true] at balanced ⊢
      rw [decided_eq inGroup, begun_eq inGroup]
      omega
    · simp only [same, if_false] at balanced ⊢
      omega

/-- The first `ensure_started` call copies the registered tables. -/
theorem StartInv.begin (inv : StartInv s log) {c g x : Nat} {group : SharedPipeline}
    (old : s.calls[c]? = some (.ensureStarted g x)) (inGroup : s.groups[g]? = some group)
    (fresh : group.started = false) :
    StartInv ((s.setCall c (.takeConfig g x (group.subs.map PendingSub.subscriber))).setGroup g
      { group with started := true }) (log ++ []) := by
  have member : s.MemberOf g x := inv.calls _ (List.mem_of_getElem? old)
  obtain ⟨source, isSource, shared⟩ := Option.map_eq_some_iff.mp member
  have chosen : s.Chosen g x (group.subs.map PendingSub.subscriber) := by
    obtain ⟨group', inGroup', listed⟩ := inv.listed isSource
    rw [shared, inGroup] at inGroup'
    cases inGroup'
    exact ⟨group, source, group.subs.length, inGroup, isSource, shared,
      (List.getElem?_eq_some_iff.mp listed).1, le_rfl, by rw [List.take_length]⟩
  have grows : Grows s ((s.setCall c (.takeConfig g x
      (group.subs.map PendingSub.subscriber))).setGroup g { group with started := true }) :=
    grows_setGroup inGroup List.prefix_rfl fun _ started => started
  refine inv.replace old inGroup ⟨rfl, rfl⟩ (fun _ started => started) (inv.fanned inGroup).2
    (chosen.grows grows) fun g' => ?_
  simp only [Call.starting, fresh, Option.some.injEq]
  split
  · simp [Nat.add_comm]
  · simp

/-- The pipeline starts with the chosen subscribers. -/
theorem StartInv.start (inv : StartInv s log) {c g x : Nat} {group : SharedPipeline}
    {subs : List Subscriber} (old : s.calls[c]? = some (.startPipeline g x subs))
    (inGroup : s.groups[g]? = some group) :
    StartInv ((s.setCall c (.storeShutdown g x)).setGroup g
      { group with pipeline := some subs, pipelineRuns := true }) (log ++ []) := by
  have chosen : s.Chosen g x subs := inv.calls _ (List.mem_of_getElem? old)
  obtain ⟨group', source, n, inGroup', isSource, shared, early, bound, rfl⟩ := chosen
  rw [inGroup] at inGroup'
  cases inGroup'
  -- A start in flight means that the group was begun and not yet decided.
  have unstarted : group.pipeline = none := by
    have once := inv.once g
    have inFlight : 0 < s.starts g := List.countP_pos_iff.mpr
      ⟨_, List.mem_of_getElem? old, by simp [Call.starting]⟩
    rw [decided_eq inGroup, begun_eq inGroup] at once
    cases started : group.pipeline with
    | none => rfl
    | some _ =>
        simp only [started, Option.isSome_some, if_true] at once
        split at once
        · omega
        · omega
  have listed : (PendingSub.mk source.sourceId source.table).subscriber ∈
      (group.subs.take n).map PendingSub.subscriber := by
    obtain ⟨group', inGroup', listed⟩ := inv.listed isSource
    rw [shared, inGroup] at inGroup'
    cases inGroup'
    refine List.mem_map_of_mem (List.mem_of_getElem? (i := source.sourceId) ?_)
    rw [List.getElem?_take_of_lt early, listed]
  refine inv.replace old inGroup ⟨rfl, rfl⟩ (by simp [unstarted])
    (fun subscribers same => ⟨n, bound, (Option.some.inj same).symm⟩) ?_ fun g' => ?_
  · have inBounds := (List.getElem?_eq_some_iff.mp inGroup).1
    exact ⟨{ group with
        pipeline := some ((group.subs.take n).map PendingSub.subscriber), pipelineRuns := true },
      source, _, by simp [setGroup, setCall, inBounds], isSource, shared, rfl, listed⟩
  · simp only [Call.starting, unstarted, Option.some.injEq]
    by_cases same : g = g'
    · simp [same]
    · simp [same]

/-! ### New groups and sources -/

theorem StartInv.create (inv : StartInv s log) {slotName : String} {identity : GroupIdentity}
    {auto : Bool} {table : TableSpec} :
    StartInv { s.startCall (.register s.groups.length table) with
      groups := s.groups ++ [.new slotName identity auto]
      registry := Function.update s.registry slotName (some s.groups.length) } (log ++ []) := by
  have old : ∀ {g : Nat} {group : SharedPipeline}, s.groups[g]? = some group →
      (s.groups ++ [SharedPipeline.new slotName identity auto])[g]? = some group := by
    intro g group found
    rw [List.getElem?_append_left (List.getElem?_eq_some_iff.mp found).1, found]
  refine inv.next ⟨fun found => ⟨_, found, rfl⟩, fun found => ⟨_, old found, List.prefix_rfl,
    fun _ started => started⟩⟩ ?_ ?_ (mem_startCall trivial) (by simp) fun g => ?_
  · intro x source found
    obtain ⟨group, inGroup, listed⟩ := inv.listed found
    exact ⟨group, old inGroup, listed⟩
  · intro g group found
    rcases List.mem_append.mp (List.mem_of_getElem? found) with member | member
    · obtain ⟨i, found⟩ := List.mem_iff_getElem?.mp member
      exact inv.fanned found
    · rw [List.mem_singleton.mp member]
      exact ⟨rfl, nofun⟩
  · rw [starts_append (s := s) rfl rfl, failures, List.countP_nil]
    by_cases bound : g < s.groups.length
    · simp only [decided, begun, List.getElem?_append_left bound]
      omega
    · have none : s.groups[g]? = none := List.getElem?_eq_none (by omega)
      have both : s.decided g = 0 ∧ s.begun g = 0 := by simp [decided, begun, none]
      rw [both.1, both.2]
      simp only [decided, begun, List.getElem?_append_right (Nat.not_lt.mp bound)]
      cases g - s.groups.length with
      | zero => simp [SharedPipeline.new]
      | succ n => simp

theorem StartInv.enlist (inv : StartInv s log) {c g : Nat} {table : TableSpec}
    {group : SharedPipeline} (old : s.calls[c]? = some (.register g table))
    (inGroup : s.groups[g]? = some group) :
    StartInv { (s.setCall c .done).setGroup g { group with
        nextSourceId := group.nextSourceId + 1
        refcount := group.refcount + 1
        subs := group.subs ++ [⟨group.nextSourceId, table⟩] } with
      sources := s.sources ++ [⟨g, group.nextSourceId, table, true, false, true, false⟩] }
      (log ++ [.registered s.sources.length g]) := by
  obtain ⟨next, fans⟩ := inv.fanned inGroup
  have bound := (List.getElem?_eq_some_iff.mp inGroup).1
  have kept : Grows s ((s.setCall c .done).setGroup g { group with
      nextSourceId := group.nextSourceId + 1
      refcount := group.refcount + 1
      subs := group.subs ++ [⟨group.nextSourceId, table⟩] }) :=
    grows_setGroup inGroup (List.prefix_append _ _) fun _ started => started
  have stays : ∀ {x : Nat} {source : PostgresCdcSource}, s.sources[x]? = some source →
      (s.sources ++ [⟨g, group.nextSourceId, table, true, false, true, false⟩])[x]? =
        some source := by
    intro x source found
    rw [List.getElem?_append_left (List.getElem?_eq_some_iff.mp found).1, found]
  refine inv.next ⟨fun found => ⟨_, stays found, rfl⟩, kept.groups⟩ ?_ ?_
    (mem_setCall trivial) ?_ fun g' => ?_
  · intro x source found
    rcases List.mem_append.mp (List.mem_of_getElem? found) with member | member
    · obtain ⟨i, found⟩ := List.mem_iff_getElem?.mp member
      obtain ⟨group', inGroup', listed⟩ := inv.listed found
      obtain ⟨group'', inGroup'', ⟨_, appended⟩, _⟩ := kept.groups inGroup'
      refine ⟨group'', inGroup'', ?_⟩
      rw [← appended, List.getElem?_append_left (List.getElem?_eq_some_iff.mp listed).1, listed]
    · rw [List.mem_singleton.mp member]
      exact ⟨_, by simp only [setGroup, setCall, List.getElem?_set_self bound]; rfl,
        by simp [next]⟩
  · intro g' group' found
    simp only [setGroup, setCall, List.getElem?_set, bound, if_true] at found
    split at found
    · cases found
      refine ⟨by simp [next], fun subs started => ?_⟩
      obtain ⟨n, within, rfl⟩ := fans subs started
      refine ⟨n, by simp; omega, ?_⟩
      simp only [List.take_append_of_le_length within]
    · exact inv.fanned found
  · intro obs single
    rw [List.mem_singleton.mp single]
    trivial
  · have moved : (s.setCall c .done).starts g' + _ = s.starts g' + _ := starts_set old rfl g'
    simp only [Call.starting, reduceCtorEq, if_false, Nat.add_zero] at moved
    have unchanged : ((s.setCall c .done).setGroup g { group with
          nextSourceId := group.nextSourceId + 1
          refcount := group.refcount + 1
          subs := group.subs ++ [⟨group.nextSourceId, table⟩] }).decided g' = s.decided g' ∧
        ((s.setCall c .done).setGroup g { group with
          nextSourceId := group.nextSourceId + 1
          refcount := group.refcount + 1
          subs := group.subs ++ [⟨group.nextSourceId, table⟩] }).begun g' = s.begun g' :=
      outcome_setGroup inGroup (by rfl) (by rfl) g'
    have counted : failures [.registered s.sources.length g] g' = 0 := rfl
    rw [counted, Nat.add_zero]
    refine (congrArg (· + _ + _) moved).trans ?_
    exact congrArg₂ (· + ·) (congrArg _ unchanged.1) unchanged.2.symm

/-! ## Every run in order -/

theorem StartInv.advance (inv : StartInv s log) {c : Nat} {outcome : Except String Unit}
    {call : Call} (old : s.calls[c]? = some call)
    (inOrder : s.startsInOrder (.advance c outcome))
    (taken : s.advance c outcome call = some (s', out)) : StartInv s' (log ++ out) := by
  cases call with
  | register g table =>
      simp only [Registry.advance] at taken
      split at taken
      · cases taken
      · rename_i inGroup
        split at taken
        · split at taken
          · cases taken
            exact inv.section old rfl rfl rfl (fun _ => trivial)
              (fun _ => List.forall_mem_singleton.mpr trivial) fun g' => rfl
          · cases taken
            exact inv.enlist old inGroup
        · cases taken
  | ensureStarted g x =>
      simp only [Registry.advance] at taken
      split at taken
      · cases taken
      · rename_i inGroup
        split at taken
        · split at taken
          · rename_i begun
            cases taken
            exact inv.found old inGroup begun inOrder
          · rename_i fresh
            cases taken
            exact inv.begin old inGroup (by simpa using fresh)
        · cases taken
  | takeConfig g x subscribers =>
      simp only [Registry.advance] at taken
      split at taken
      · cases taken
      · rename_i group inGroup
        split at taken
        · cases taken
          refine inv.section old rfl (map_set_eq inGroup rfl) rfl (fun known => ?_) (by simp)
            fun g' => ?_
          · have grows : ∀ call, Grows s ((s.setCall c call).setGroup g
                { group with pipelineConfig := false }) :=
              fun _ => grows_of_tags (map_set_eq inGroup rfl) rfl
            split
            · exact Chosen.grows known (grows _)
            · exact Chosen.grows known (grows _)
          · split
            · rfl
            · rfl
        · exact inv.failStart old rfl (Option.some.inj taken)
  | ensurePublication g x subscribers =>
      cases outcome with
      | ok =>
          cases taken
          exact inv.section old rfl rfl rfl (fun known => Chosen.grows known (grows_of_tags rfl rfl))
            (by simp) fun g' => rfl
      | error e => exact inv.failStart old rfl (Option.some.inj taken)
  | startPipeline g x subscribers =>
      simp only [Registry.advance] at taken
      split at taken
      · cases taken
      · rename_i inGroup
        cases taken
        exact inv.start old inGroup
      · exact inv.failStart old rfl (Option.some.inj taken)
  | storeShutdown g x =>
      simp only [Registry.advance] at taken
      split at taken
      · cases taken
      · rename_i group inGroup
        split at taken
        · cases taken
          have grows : Grows s ((s.setCall c (.setState g x)).setGroup g
              { group with shutdown := true, watched := true }) :=
            grows_of_tags (map_set_eq inGroup rfl) rfl
          exact inv.section old rfl (map_set_eq inGroup rfl) rfl (fun _ => by simp [CallHolds])
            (fun known => List.forall_mem_singleton.mpr (FansOut.grows known grows))
            fun g' => rfl
        · cases taken
  | setState g x =>
      simp only [Registry.advance] at taken
      split at taken
      · cases taken
      · rename_i isSource
        split at taken
        · cases taken
          exact inv.section old rfl rfl rfl (fun _ => trivial)
            (fun _ => List.forall_mem_singleton.mpr trivial) fun g' => rfl
        · cases taken
          exact inv.section old rfl rfl (map_set_eq isSource rfl) (fun _ => trivial)
            (fun known => List.forall_mem_singleton.mpr ⟨g, List.mem_append_left _ known⟩) fun g' => rfl
  | deregister g x =>
      simp only [Registry.advance] at taken
      split at taken
      · rename_i group source inGroup isSource
        split at taken
        · cases taken
          refine inv.section old rfl (map_set_eq inGroup rfl) (map_set_eq isSource rfl)
            (fun _ => ?_) (by simp) fun g' => ?_
          · split
            · trivial
            · trivial
          · split
            · rfl
            · rfl
        · cases taken
      · cases taken
  | shutDown g x =>
      simp only [Registry.advance] at taken
      split at taken
      · cases taken
      · rename_i group inGroup
        split at taken
        · cases taken
          cases group.shutdown with
          | true =>
              exact inv.section old rfl (map_set_eq inGroup rfl) rfl (fun _ => trivial)
                (fun _ => List.forall_mem_singleton.mpr trivial) fun g' => rfl
          | false =>
              exact inv.section old rfl (map_set_eq inGroup rfl) rfl (fun _ => trivial) (by simp)
                fun g' => rfl
        · cases taken
  | removeEntry g x =>
      simp only [Registry.advance] at taken
      split at taken
      · cases taken
      · cases taken
        exact inv.section old rfl rfl rfl (fun _ => trivial)
          (fun _ => List.forall_mem_singleton.mpr trivial) fun g' => rfl
  | stopSource x =>
      simp only [Registry.advance] at taken
      split at taken
      · cases taken
      · rename_i isSource
        cases taken
        exact inv.section old rfl rfl (map_set_eq isSource rfl) (fun _ => trivial)
          (fun _ => List.forall_mem_singleton.mpr trivial) fun g' => rfl
  | done => cases taken

/-- A step in order keeps the invariant. -/
theorem StartInv.step (inv : StartInv s log) {e : RegistryEvent} (inOrder : s.startsInOrder e)
    (taken : s.step e = some (s', out)) : StartInv s' (log ++ out) := by
  cases e with
  | register slotName identity auto table =>
      simp only [Registry.step] at taken
      split at taken
      · split at taken
        · cases taken
        · split at taken
          · cases taken
            exact inv.flags rfl rfl (mem_startCall trivial) (by simp)
              fun g' => starts_append (s := s) rfl rfl g'
          · cases taken
            exact inv.flags rfl rfl (fun _ member => .inl member)
              (List.forall_mem_singleton.mpr trivial) fun g' => rfl
      · cases taken
        exact inv.create
  | initializeSource x =>
      simp only [Registry.step] at taken
      split at taken
      · cases taken
      · rename_i source isSource
        split at taken
        · cases taken
          have tags : (s.sources.set x { source with pending := false }).map
              PostgresCdcSource.startTag = s.sources.map PostgresCdcSource.startTag :=
            map_set_eq isSource rfl
          have member : s.MemberOf source.shared x := by simp [MemberOf, isSource]
          exact inv.flags rfl tags (mem_startCall (member.grows (grows_of_tags rfl tags)))
            (by simp) fun g' => starts_append (s := s) rfl rfl g'
        · cases taken
          exact inv.flags rfl rfl (fun _ member => .inl member)
            (List.forall_mem_singleton.mpr trivial) fun g' => rfl
  | terminate x =>
      simp only [Registry.step] at taken
      split at taken
      · cases taken
      · rename_i isSource
        split at taken
        · cases taken
          exact inv.flags rfl rfl (mem_startCall trivial) (by simp)
            fun g' => starts_append (s := s) rfl rfl g'
        · cases taken
          exact inv.flags rfl (map_set_eq isSource rfl) (fun _ member => .inl member)
            (List.forall_mem_singleton.mpr trivial) fun g' => rfl
  | advance c outcome =>
      simp only [Registry.step] at taken
      split at taken
      · cases taken
      · rename_i old
        exact inv.advance old inOrder taken
  | pipelineEnds g | observeEnd g =>
      simp only [Registry.step] at taken
      split at taken
      · cases taken
      · rename_i inGroup
        split at taken
        · cases taken
          exact inv.flags (map_set_eq inGroup rfl) rfl (fun _ member => .inl member) (by simp)
            fun g' => rfl
        · cases taken

theorem startInv_initial : StartInv initial [] where
  listed := by simp [initial]
  fanned := by simp [initial]
  calls := by simp [initial]
  observed := by simp
  once g := by simp [initial, starts, decided, begun, failures]

theorem StartInv.reports (inv : StartInv s log) : StartsReported s log where
  started member := inv.observed _ member
  failed {y g e} failed {x source} isSource shared ok running := by
    obtain ⟨g', started⟩ := inv.observed _ ok
    obtain ⟨group, source', subs, inGroup, isSource', shared', pipeline, _⟩ :=
      inv.observed _ started
    rw [isSource] at isSource'
    cases isSource'
    -- The group would have been started and have failed to start.
    have same : g' = g := shared'.symm.trans shared
    subst same
    have once := inv.once g'
    have failure : 0 < failures log g' :=
      List.countP_pos_iff.mpr ⟨_, failed, by simp [RegistryObs.failedStart]⟩
    rw [decided_eq inGroup, begun_eq inGroup, pipeline] at once
    simp only [Option.isSome_some, if_true] at once
    split at once
    · omega
    · omega

end Steps

/-- In every run whose `ensure_started` calls are made in order, `Ok` means that the
group's pipeline was started with the source's table, and a failed start leaves no
member running without a pipeline. -/
theorem startsReported {s : Registry} {log : List RegistryObs}
    (reached : machine.ReachesWhere (fun s e => s.startsInOrder e) initial s log) :
    StartsReported s log := by
  have inv : StartInv s log :=
    reached.invariant (P := StartInv) startInv_initial fun inv inOrder taken =>
      inv.step inOrder taken
  exact inv.reports

/-! ## Two sources on one slot -/

section Demo

/-- The publication of the first source's group cannot be created, and the second
source initializes nevertheless. -/
def publicationFails : List RegistryEvent :=
  [.register "slot" demoIdentity true ⟨"public.a", ["id"], false⟩, .advance 0 (.ok ()),
    .register "slot" demoIdentity true ⟨"public.b", ["id"], false⟩, .advance 1 (.ok ()),
    .initializeSource 0, .advance 2 (.ok ()), .advance 2 (.ok ()),
    .advance 2 (.error "auto-publication create failed"), .initializeSource 1,
    .advance 3 (.ok ()), .advance 3 (.ok ())]

/-- After a failed start another source of the group reports `Ok` and runs, without
a pipeline. -/
theorem second_start_hides_failure :
    ∃ s log, machine.Reaches initial s log ∧ ¬ StartsReported s log := by
  refine ⟨_, _, .of_run publicationFails rfl, fun reported => ?_⟩
  obtain ⟨group, source, subs, inGroup, _, _, started, _⟩ :=
    reported.started (x := 1) (g := 0) (by decide)
  cases inGroup
  cases started

/-- After the pipeline started, both sources report `Ok` and are fanned out to. -/
theorem startsReported_initializeTwo :
    ∃ s log, machine.Reaches initial s log ∧ s.FansOut 0 0 ∧ s.FansOut 0 1 := by
  have ran : ∃ s log, machine.ReachesWhere (fun s e => s.startsInOrder e) initial s log ∧
      .ensureStarted 0 0 (.ok ()) ∈ log ∧ .ensureStarted 1 0 (.ok ()) ∈ log :=
    ⟨_, _, .of_runWhere (constructTwo ++ initializeTwo) rfl, by decide, by decide⟩
  obtain ⟨s, log, reached, first, second⟩ := ran
  exact ⟨s, log, reached.reaches, (startsReported reached).started first,
    (startsReported reached).started second⟩

end Demo

end Registry

end StreamlingPlugins.PostgresCdc
