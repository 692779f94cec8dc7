import StreamlingPlugins.PostgresCdc.Registry

/-!
# One registry entry per group in use

The reference count of a group is the number of its sources that were not yet
terminated, as long as calls come in order: `orderly` says when.  Then a slot is
registered exactly while a source of its group is in use, up to the call that
enters or leaves it, and no group is shut down early.
-/

namespace StreamlingPlugins.PostgresCdc

/-! ## Calls that enter and leave a group -/

/-- The group that a `register` call is about to join. -/
def Call.joins : Call → Option Nat
  | .register g _ => some g
  | _ => none

/-- The group that a last-out `deregister` call is about to take down. -/
def Call.takesDown : Call → Option Nat
  | .shutDown g _ | .removeEntry g _ => some g
  | _ => none

/-- The tracked data of a group: its slot, its reference count and its tables. -/
def SharedPipeline.tag (group : SharedPipeline) : String × Nat × List PendingSub :=
  (group.slotName, group.refcount, group.subs)

/-- The tracked data of a source: its group, and whether it left it. -/
def PostgresCdcSource.tag (source : PostgresCdcSource) : Nat × Bool :=
  (source.shared, source.terminated)

namespace Registry

/-- The sources of a group that registered and were not yet terminated. -/
def liveCount (s : Registry) (g : Nat) : Nat :=
  s.sources.countP fun source => source.shared = g && !source.terminated

def Joining (s : Registry) (g : Nat) : Prop := ∃ call ∈ s.calls, call.joins = some g

def TakenDown (s : Registry) (g : Nat) : Prop := ∃ call ∈ s.calls, call.takesDown = some g

def slotName (s : Registry) (g : Nat) : Option String := s.groups[g]?.map SharedPipeline.slotName

/-- When a step keeps the calls of a slot in order.  `register` does not start while
the slot is taken down; a source is terminated once it is initialized, and again only
when everyone has left its group and no newer group has its slot; the last one out
does not leave while another source joins. -/
def orderly (s : Registry) : RegistryEvent → Bool
  | .register slotName _ _ _ =>
    s.calls.all fun call => call.takesDown.all fun g => s.slotName g ≠ some slotName
  | .terminate x => s.sources[x]?.all (·.state)
  | .advance c _ =>
    match s.calls[c]? with
    | some (.deregister g x) =>
      match s.groups[g]?, s.sources[x]? with
      | some group, some source =>
        (!source.terminated ||
          (group.refcount = 0 && (s.registry group.slotName).all (· = g))) &&
        (1 < group.refcount || s.calls.all fun call => call.joins ≠ some g)
      | _, _ => true
    | _ => true
  | _ => true

/-- The registry holds a slot's entry exactly while a source of its group is in use or
a call is entering or leaving it; a group is shut down when all its sources are
terminated; a call removes no entry but its own group's. -/
structure SlotsTracked (s : Registry) (log : List RegistryObs) : Prop where
  registered : ∀ source ∈ s.sources, source.terminated = false →
    ∃ group, s.groups[source.shared]? = some group ∧
      s.registry group.slotName = some source.shared
  used : ∀ {slotName : String} {g : Nat}, s.registry slotName = some g →
    s.slotName g = some slotName ∧
      ((∃ source ∈ s.sources, source.shared = g ∧ source.terminated = false) ∨
        s.Joining g ∨ s.TakenDown g)
  shutdown : ∀ {g : Nat}, .shutdownSent g ∈ log →
    ∀ source ∈ s.sources, source.shared = g → source.terminated
  removed : ∀ {g entry : Nat}, .removed g (some entry) ∈ log → entry = g

/-! ## What a step does to the tracked part -/

/-- A step that moves no tracked data. -/
structure Quiet (s s' : Registry) : Prop where
  registry : s'.registry = s.registry
  groups : s'.groups.map SharedPipeline.tag = s.groups.map SharedPipeline.tag
  sources : s'.sources.map PostgresCdcSource.tag = s.sources.map PostgresCdcSource.tag
  joining : ∀ {g : Nat}, s'.Joining g ↔ s.Joining g
  takenDown : ∀ {g : Nat}, s'.TakenDown g ↔ s.TakenDown g
  leaving : ∀ {g x : Nat}, .deregister g x ∈ s'.calls →
    .deregister g x ∈ s.calls ∨ s.sources[x]?.map PostgresCdcSource.shared = some g

/-- The tracked part of every step. -/
inductive Tracked (s : Registry) : Registry → List RegistryObs → Prop
  | quiet {s' : Registry} {out : List RegistryObs} : Quiet s s' →
    (∀ {g : Nat}, .shutdownSent g ∉ out) → (∀ {g : Nat} {entry : Option Nat},
      .removed g entry ∉ out) → Tracked s s' out
  | join {slotName : String} {g : Nat} (table : TableSpec) : s.registry slotName = some g →
    (∀ {g' : Nat}, s.TakenDown g' → s.slotName g' ≠ some slotName) →
    Tracked s (s.startCall (.register g table)) []
  | create {slotName : String} (identity : GroupIdentity) (auto : Bool) (table : TableSpec) :
    s.registry slotName = none →
    (∀ {g' : Nat}, s.TakenDown g' → s.slotName g' ≠ some slotName) →
    Tracked s { s.startCall (.register s.groups.length table) with
      groups := s.groups ++ [.new slotName identity auto]
      registry := Function.update s.registry slotName (some s.groups.length) } []
  | refuse {c g : Nat} {table : TableSpec} {group : SharedPipeline} {sub : PendingSub}
      (error : String) :
    s.calls[c]? = some (.register g table) → s.groups[g]? = some group → sub ∈ group.subs →
    Tracked s (s.setCall c .done) [.registerFailed error]
  | enlist {c g : Nat} {table : TableSpec} {group : SharedPipeline} :
    s.calls[c]? = some (.register g table) → s.groups[g]? = some group →
    Tracked s { (s.setCall c .done).setGroup g { group with
        nextSourceId := group.nextSourceId + 1
        refcount := group.refcount + 1
        subs := group.subs ++ [⟨group.nextSourceId, table⟩] } with
      sources := s.sources ++ [⟨g, group.nextSourceId, table, true, false, true, false⟩] }
      [.registered s.sources.length g]
  | leave {c g x : Nat} {group : SharedPipeline} {source : PostgresCdcSource} :
    s.calls[c]? = some (.deregister g x) → s.groups[g]? = some group →
    s.sources[x]? = some source →
    (source.terminated → group.refcount = 0 ∧
      ∀ entry, s.registry group.slotName = some entry → entry = g) →
    (group.refcount ≤ 1 → ¬ s.Joining g) →
    Tracked s (((s.setCall c
      (if group.refcount - 1 = 0 then .shutDown g x else .stopSource x)).setGroup g
        { group with refcount := group.refcount - 1 }).setSource x
          { source with terminated := true }) []
  | send {c g x : Nat} {group : SharedPipeline} {out : List RegistryObs} :
    s.calls[c]? = some (.shutDown g x) → s.groups[g]? = some group →
    (∀ obs ∈ out, obs = .shutdownSent g) →
    Tracked s ((s.setCall c (.removeEntry g x)).setGroup g { group with shutdown := false }) out
  | remove {c g x : Nat} {group : SharedPipeline} :
    s.calls[c]? = some (.removeEntry g x) → s.groups[g]? = some group →
    Tracked s { s.setCall c (.stopSource x) with
        registry := Function.update s.registry group.slotName none }
      [.removed g (s.registry group.slotName)]

section Steps

variable {s s' : Registry} {out : List RegistryObs}

theorem exists_mem_set_iff {α : Type} {p : α → Prop} {l : List α} {c : Nat} {a b : α}
    (old : l[c]? = some a) (oldOut : ¬ p a) (newOut : ¬ p b) :
    (∃ z ∈ l.set c b, p z) ↔ ∃ z ∈ l, p z := by
  constructor
  · rintro ⟨z, member, holds⟩
    rcases List.mem_or_eq_of_mem_set member with member | rfl
    · exact ⟨z, member, holds⟩
    · exact absurd holds newOut
  · rintro ⟨z, member, holds⟩
    obtain ⟨i, found⟩ := List.mem_iff_getElem?.mp member
    have other : c ≠ i := by
      rintro rfl
      rw [old] at found
      cases found
      exact oldOut holds
    exact ⟨z, List.mem_iff_getElem?.mpr ⟨i, by rwa [List.getElem?_set_ne other]⟩, holds⟩

theorem map_set_eq {α β : Type} {f : α → β} {l : List α} {i : Nat} {a b : α}
    (old : l[i]? = some a) (same : f b = f a) : (l.set i b).map f = l.map f := by
  obtain ⟨bound, rfl⟩ := List.getElem?_eq_some_iff.mp old
  rw [List.map_set, same, ← List.getElem_map f (h := by simpa using bound), List.set_getElem_self]

/-- A step that replaces an untracked call is quiet. -/
theorem quiet_of_set {c : Nat} {call new : Call} (old : s.calls[c]? = some call)
    (oldPlain : call.joins = none ∧ call.takesDown = none)
    (newPlain : new.joins = none ∧ new.takesDown = none)
    (stays : ∀ g x : Nat, new ≠ .deregister g x) (calls : s'.calls = s.calls.set c new)
    (registry : s'.registry = s.registry)
    (groups : s'.groups.map SharedPipeline.tag = s.groups.map SharedPipeline.tag)
    (sources : s'.sources.map PostgresCdcSource.tag = s.sources.map PostgresCdcSource.tag) : Quiet s s' where
  registry := registry
  groups := groups
  sources := sources
  joining := by
    simp only [Joining, calls]
    exact exists_mem_set_iff old (by simp [oldPlain.1]) (by simp [newPlain.1])
  takenDown := by
    simp only [TakenDown, calls]
    exact exists_mem_set_iff old (by simp [oldPlain.2]) (by simp [newPlain.2])
  leaving member := by
    rw [calls] at member
    rcases List.mem_or_eq_of_mem_set member with member | same
    · exact .inl member
    · exact absurd same.symm (stays _ _)

/-- A step that starts an untracked call is quiet. -/
theorem quiet_of_start {new : Call} (plain : new.joins = none ∧ new.takesDown = none)
    (leaves : ∀ {g x : Nat}, new = .deregister g x →
      s.sources[x]?.map PostgresCdcSource.shared = some g)
    (calls : s'.calls = s.calls ++ [new]) (registry : s'.registry = s.registry)
    (groups : s'.groups = s.groups)
    (sources : s'.sources.map PostgresCdcSource.tag = s.sources.map PostgresCdcSource.tag) : Quiet s s' where
  registry := registry
  groups := by rw [groups]
  sources := sources
  joining := by simp [Joining, calls, or_and_right, exists_or, plain.1]
  takenDown := by simp [TakenDown, calls, or_and_right, exists_or, plain.2]
  leaving member := by
    rw [calls, List.mem_append, List.mem_singleton] at member
    exact member.imp_right fun same => leaves same.symm

/-- A step that touches no call is quiet. -/
theorem quiet_of_calls_eq (calls : s'.calls = s.calls) (registry : s'.registry = s.registry)
    (groups : s'.groups.map SharedPipeline.tag = s.groups.map SharedPipeline.tag)
    (sources : s'.sources = s.sources) : Quiet s s' where
  registry := registry
  groups := groups
  sources := by rw [sources]
  joining {g} := by simp only [Joining, calls]
  takenDown {g} := by simp only [TakenDown, calls]
  leaving member := .inl (calls ▸ member)

/-- Failing to start is quiet. -/
theorem tracked_failStart {c g x : Nat} {call : Call} {error : String}
    (old : s.calls[c]? = some call) (plain : call.joins = none ∧ call.takesDown = none)
    (failed : s.failStart c g x error = (s', out)) : Tracked s s' out := by
  cases failed
  exact .quiet (quiet_of_set old plain ⟨rfl, rfl⟩ (by simp) rfl rfl rfl rfl) (by simp) (by simp)

theorem not_joining_of_all {g : Nat} (none : s.calls.all fun call => call.joins ≠ some g) :
    ¬ s.Joining g := by
  rintro ⟨call, member, joins⟩
  simpa [joins] using List.all_eq_true.mp none call member

/-- One section of a call moves the tracked part as `Tracked` says. -/
theorem advance_tracked {c : Nat} {outcome : Except String Unit} {call : Call}
    (old : s.calls[c]? = some call) (ordered : s.orderly (.advance c outcome))
    (taken : s.advance c outcome call = some (s', out)) : Tracked s s' out := by
  cases call with
  | register g table =>
      simp only [advance] at taken
      split at taken
      · cases taken
      · rename_i group known
        split at taken
        · split at taken
          · rename_i duplicate
            obtain ⟨sub, member, _⟩ := List.any_eq_true.mp duplicate
            cases taken
            exact .refuse _ old known member
          · cases taken
            exact .enlist old known
        · cases taken
  | ensureStarted g x =>
      simp only [advance] at taken
      split at taken
      · cases taken
      · rename_i group known
        split at taken
        · split at taken
          · cases taken
            exact .quiet (quiet_of_set old ⟨rfl, rfl⟩ ⟨rfl, rfl⟩ (by simp) rfl rfl rfl rfl)
              (by simp) (by simp)
          · cases taken
            exact .quiet (quiet_of_set old ⟨rfl, rfl⟩ ⟨rfl, rfl⟩ (by simp) rfl rfl
              (map_set_eq known rfl) rfl) (by simp) (by simp)
        · cases taken
  | takeConfig g x subscribers =>
      simp only [advance] at taken
      split at taken
      · cases taken
      · rename_i group known
        split at taken
        · cases taken
          refine .quiet (quiet_of_set old ⟨rfl, rfl⟩ ?_ ?_ rfl rfl (map_set_eq known rfl) rfl)
            (by simp) (by simp)
          · split
            · exact ⟨rfl, rfl⟩
            · exact ⟨rfl, rfl⟩
          · split
            · nofun
            · nofun
        · exact tracked_failStart old ⟨rfl, rfl⟩ (Option.some.inj taken)
  | ensurePublication g x subscribers =>
      cases outcome with
      | ok =>
          cases taken
          exact .quiet (quiet_of_set old ⟨rfl, rfl⟩ ⟨rfl, rfl⟩ (by simp) rfl rfl rfl rfl)
            (by simp) (by simp)
      | error e => exact tracked_failStart old ⟨rfl, rfl⟩ (Option.some.inj taken)
  | startPipeline g x subscribers =>
      simp only [advance] at taken
      split at taken
      · cases taken
      · rename_i known
        cases taken
        exact .quiet (quiet_of_set old ⟨rfl, rfl⟩ ⟨rfl, rfl⟩ (by simp) rfl rfl
          (map_set_eq known rfl) rfl) (by simp) (by simp)
      · exact tracked_failStart old ⟨rfl, rfl⟩ (Option.some.inj taken)
  | storeShutdown g x =>
      simp only [advance] at taken
      split at taken
      · cases taken
      · rename_i known
        split at taken
        · cases taken
          exact .quiet (quiet_of_set old ⟨rfl, rfl⟩ ⟨rfl, rfl⟩ (by simp) rfl rfl
            (map_set_eq known rfl) rfl) (by simp) (by simp)
        · cases taken
  | setState g x =>
      simp only [advance] at taken
      split at taken
      · cases taken
      · rename_i known
        split at taken
        · cases taken
          exact .quiet (quiet_of_set old ⟨rfl, rfl⟩ ⟨rfl, rfl⟩ (by simp) rfl rfl rfl rfl)
            (by simp) (by simp)
        · cases taken
          exact .quiet (quiet_of_set old ⟨rfl, rfl⟩ ⟨rfl, rfl⟩ (by simp) rfl rfl rfl
            (map_set_eq known rfl)) (by simp) (by simp)
  | deregister g x =>
      simp only [advance] at taken
      split at taken
      · rename_i group source knownGroup knownSource
        split at taken
        · cases taken
          simp only [orderly, old, knownGroup, knownSource, Bool.and_eq_true, Bool.or_eq_true,
            Bool.not_eq_true', decide_eq_true_eq] at ordered
          refine .leave old knownGroup knownSource (fun again => ?_) (fun last => ?_)
          · obtain ⟨empty, entry⟩ := ordered.1.resolve_left (by simp [again])
            exact ⟨empty, fun e known => by simpa [known] using entry⟩
          · exact not_joining_of_all (ordered.2.resolve_left (by omega))
        · cases taken
      · cases taken
  | shutDown g x =>
      simp only [advance] at taken
      split at taken
      · cases taken
      · rename_i known
        split at taken
        · cases taken
          refine .send old known fun obs member => ?_
          split at member
          · exact List.mem_singleton.mp member
          · cases member
        · cases taken
  | removeEntry g x =>
      simp only [advance] at taken
      split at taken
      · cases taken
      · rename_i known
        cases taken
        exact .remove old known
  | stopSource x =>
      simp only [advance] at taken
      split at taken
      · cases taken
      · rename_i known
        cases taken
        exact .quiet (quiet_of_set old ⟨rfl, rfl⟩ ⟨rfl, rfl⟩ (by simp) rfl rfl rfl
          (map_set_eq known rfl)) (by simp) (by simp)
  | done => cases taken

theorem takenDown_of_all {slotName : String}
    (none : s.calls.all fun call => call.takesDown.all fun g => s.slotName g ≠ some slotName)
    {g : Nat} (down : s.TakenDown g) : s.slotName g ≠ some slotName := by
  obtain ⟨call, member, takes⟩ := down
  simpa [takes] using List.all_eq_true.mp none call member

/-- Every orderly step moves the tracked part as `Tracked` says. -/
theorem step_tracked {e : RegistryEvent} (ordered : s.orderly e)
    (taken : s.step e = some (s', out)) : Tracked s s' out := by
  cases e with
  | register slotName identity auto table =>
      simp only [step] at taken
      split at taken
      · rename_i g entry
        split at taken
        · cases taken
        · split at taken
          · cases taken
            exact .join table entry (takenDown_of_all ordered)
          · cases taken
            exact .quiet (quiet_of_calls_eq rfl rfl rfl rfl) (by simp) (by simp)
      · rename_i free
        cases taken
        exact .create identity auto table free (takenDown_of_all ordered)
  | initializeSource x =>
      simp only [step] at taken
      split at taken
      · cases taken
      · rename_i known
        split at taken
        · cases taken
          exact .quiet (quiet_of_start ⟨rfl, rfl⟩ (by simp) rfl rfl rfl (map_set_eq known rfl))
            (by simp) (by simp)
        · cases taken
          exact .quiet (quiet_of_calls_eq rfl rfl rfl rfl) (by simp) (by simp)
  | terminate x =>
      simp only [step] at taken
      split at taken
      · cases taken
      · rename_i source known
        split at taken
        · cases taken
          refine .quiet (quiet_of_start ⟨rfl, rfl⟩ ?_ rfl rfl rfl rfl) (by simp) (by simp)
          intro g y same
          cases same
          simp [known]
        · rename_i unset
          simp [orderly, known, unset] at ordered
  | advance c outcome =>
      simp only [step] at taken
      split at taken
      · cases taken
      · rename_i old
        exact advance_tracked old ordered taken
  | pipelineEnds g | observeEnd g =>
      simp only [step] at taken
      split at taken
      · cases taken
      · rename_i known
        split at taken
        · cases taken
          exact .quiet (quiet_of_calls_eq rfl rfl (map_set_eq known rfl) rfl) (by simp) (by simp)
        · cases taken

end Steps

/-! ## The invariant -/

/-- The slot, reference count and tables of a group. -/
def Holds (s : Registry) (g : Nat) (slotName : String) (refcount : Nat) (subs : List PendingSub) :
    Prop :=
  (s.groups.map SharedPipeline.tag)[g]? = some (slotName, refcount, subs)

/-- The reference count counts the live sources; a group in use is registered, and an
entry's group is in use, joined for the first time or taken down; a group that is
taken down or was shut down is out of use. -/
structure RegistryInv (s : Registry) (log : List RegistryObs) : Prop where
  member : ∀ source ∈ s.sources, ∃ slotName refcount subs,
    s.Holds source.shared slotName refcount subs
  leaving : ∀ {g x : Nat}, .deregister g x ∈ s.calls →
    s.sources[x]?.map PostgresCdcSource.shared = some g
  joined : ∀ {g : Nat}, s.Joining g → ∃ slotName refcount subs, s.Holds g slotName refcount subs
  count : ∀ {g : Nat} {slotName : String} {refcount : Nat} {subs : List PendingSub},
    s.Holds g slotName refcount subs → refcount = s.liveCount g
  held : ∀ {g : Nat} {slotName : String} {refcount : Nat} {subs : List PendingSub},
    s.Holds g slotName refcount subs → 0 < s.liveCount g ∨ s.Joining g →
    s.registry slotName = some g
  kept : ∀ {g : Nat} {slotName : String}, s.registry slotName = some g →
    ∃ refcount subs, s.Holds g slotName refcount subs ∧
      (0 < s.liveCount g ∨ s.TakenDown g ∨ (subs = [] ∧ s.Joining g))
  down : ∀ {g : Nat}, s.TakenDown g → ∃ slotName refcount subs,
    s.Holds g slotName refcount subs ∧ s.liveCount g = 0 ∧ ¬ s.Joining g ∧
      ∀ entry, s.registry slotName = some entry → entry = g
  sent : ∀ {g : Nat}, .shutdownSent g ∈ log → ∃ slotName refcount subs,
    s.Holds g slotName refcount subs ∧ s.liveCount g = 0 ∧ ¬ s.Joining g ∧
      (s.registry slotName = some g → s.TakenDown g)
  removed : ∀ {g entry : Nat}, .removed g (some entry) ∈ log → entry = g

section Invariant

variable {s s' : Registry} {log out : List RegistryObs}

theorem Holds.of_group {g : Nat} {group : SharedPipeline} (known : s.groups[g]? = some group) :
    s.Holds g group.slotName group.refcount group.subs := by
  rw [Holds, List.getElem?_map, known]
  rfl

theorem Holds.slotName {g refcount : Nat} {slotName : String} {subs : List PendingSub}
    (holds : s.Holds g slotName refcount subs) : s.slotName g = some slotName := by
  rw [Holds, List.getElem?_map, Option.map_eq_some_iff] at holds
  obtain ⟨group, known, same⟩ := holds
  cases same
  simp [Registry.slotName, known]

/-- The slot, count and tables of a group are unique. -/
theorem Holds.unique {g r r' : Nat} {n n' : String} {subs subs' : List PendingSub}
    (left : s.Holds g n r subs) (right : s.Holds g n' r' subs') :
    n = n' ∧ r = r' ∧ subs = subs' := by
  rw [Holds] at left right
  rw [left] at right
  cases right
  exact ⟨rfl, rfl, rfl⟩

theorem liveCount_eq_of_tags
    (sources : s'.sources.map PostgresCdcSource.tag = s.sources.map PostgresCdcSource.tag)
    {g : Nat} : s'.liveCount g = s.liveCount g := by
  have counts : ∀ t : Registry, t.liveCount g =
      (t.sources.map PostgresCdcSource.tag).countP fun tag => tag.1 = g && !tag.2 := by
    intro t
    rw [List.countP_map]
    rfl
  rw [counts, counts, sources]

theorem RegistryInv.quiet (inv : RegistryInv s log) (moved : Quiet s s')
    (silent : ∀ {g : Nat}, .shutdownSent g ∉ out)
    (kept : ∀ {g : Nat} {entry : Option Nat}, .removed g entry ∉ out) :
    RegistryInv s' (log ++ out) := by
  have holds : ∀ {g r n subs}, s'.Holds g n r subs ↔ s.Holds g n r subs := by
    intro g r n subs
    rw [Holds, Holds, moved.groups]
  have live : ∀ {g}, s'.liveCount g = s.liveCount g := liveCount_eq_of_tags moved.sources
  have shared : ∀ x : Nat, s'.sources[x]?.map PostgresCdcSource.shared =
      s.sources[x]?.map PostgresCdcSource.shared := by
    intro x
    have same := congrArg (fun tags => tags[x]?.map Prod.fst) moved.sources
    simpa [PostgresCdcSource.tag, Function.comp_def] using same
  constructor
  · intro source member
    obtain ⟨x, found⟩ := List.mem_iff_getElem?.mp member
    have same := shared x
    rw [found, Option.map_some] at same
    obtain ⟨source', found', same⟩ := Option.map_eq_some_iff.mp same.symm
    simp only [holds, ← same]
    exact inv.member source' (List.mem_iff_getElem?.mpr ⟨x, found'⟩)
  · intro g x member
    rw [shared]
    exact (moved.leaving member).elim inv.leaving id
  · simpa only [moved.joining, holds] using @inv.joined
  · simpa only [holds, live] using @inv.count
  · simpa only [holds, live, moved.joining, moved.registry] using @inv.held
  · simpa only [holds, live, moved.joining, moved.takenDown, moved.registry] using @inv.kept
  · simpa only [holds, live, moved.joining, moved.takenDown, moved.registry] using @inv.down
  · intro g member
    have earlier := inv.sent ((List.mem_append.mp member).resolve_right silent)
    simpa only [holds, live, moved.joining, moved.takenDown, moved.registry] using earlier
  · intro g entry member
    exact inv.removed ((List.mem_append.mp member).resolve_right kept)

/-! ### Joining a group -/

theorem joining_startCall {g g' : Nat} {table : TableSpec} :
    (s.startCall (.register g table)).Joining g' ↔ s.Joining g' ∨ g = g' := by
  simp [Joining, startCall, or_and_right, exists_or, Call.joins]

theorem takenDown_startCall {g g' : Nat} {table : TableSpec} :
    (s.startCall (.register g table)).TakenDown g' ↔ s.TakenDown g' := by
  simp [TakenDown, startCall, or_and_right, exists_or, Call.takesDown]

theorem leaving_startCall {g g' x : Nat} {table : TableSpec}
    (member : .deregister g' x ∈ (s.startCall (.register g table)).calls) :
    .deregister g' x ∈ s.calls := by
  simpa [startCall] using member

theorem RegistryInv.join (inv : RegistryInv s log) {slotName : String} {g : Nat}
    {table : TableSpec} (entry : s.registry slotName = some g)
    (apart : ∀ {g' : Nat}, s.TakenDown g' → s.slotName g' ≠ some slotName) :
    RegistryInv (s.startCall (.register g table)) log := by
  obtain ⟨refcount, subs, holds, used⟩ := inv.kept entry
  have idle : ∀ {g'}, s.TakenDown g' → g ≠ g' := fun down same =>
    apart down (same ▸ holds.slotName)
  constructor
  · exact inv.member
  · exact fun member => inv.leaving (leaving_startCall member)
  · intro g' joining
    rcases joining_startCall.mp joining with joining | rfl
    · exact inv.joined joining
    · exact ⟨_, _, _, holds⟩
  · exact inv.count
  · intro g' n r ss holds' inUse
    rcases inUse with live | joining
    · exact inv.held holds' (.inl live)
    · rcases joining_startCall.mp joining with joining | rfl
      · exact inv.held holds' (.inr joining)
      · rw [← (holds.unique holds').1]
        exact entry
  · intro g' n entry'
    obtain ⟨r, ss, holds', used'⟩ := inv.kept entry'
    refine ⟨r, ss, holds', ?_⟩
    rcases used' with live | down | ⟨fresh, joining⟩
    · exact .inl live
    · exact .inr (.inl (takenDown_startCall.mpr down))
    · exact .inr (.inr ⟨fresh, joining_startCall.mpr (.inl joining)⟩)
  · intro g' down'
    have down := takenDown_startCall.mp down'
    obtain ⟨n, r, ss, holds', unused, none, own⟩ := inv.down down
    exact ⟨n, r, ss, holds', unused,
      fun joining => (joining_startCall.mp joining).elim none (idle down), own⟩
  · intro g' member
    obtain ⟨n, r, ss, holds', unused, none, gone⟩ := inv.sent member
    refine ⟨n, r, ss, holds', unused, fun joining => ?_,
      fun entry' => takenDown_startCall.mpr (gone entry')⟩
    rcases joining_startCall.mp joining with joining | rfl
    · exact none joining
    · rw [← (holds.unique holds').1] at gone
      exact idle (gone entry) rfl
  · exact inv.removed

theorem holds_append {g r : Nat} {n : String} {ss : List PendingSub} {group : SharedPipeline}
    {t : Registry} (groups : t.groups = s.groups ++ [group]) :
    t.Holds g n r ss ↔ s.Holds g n r ss ∨ (g = s.groups.length ∧ group.tag = (n, r, ss)) := by
  rw [Holds, Holds, groups, List.map_append]
  by_cases old : g < s.groups.length
  · rw [List.getElem?_append_left (by simpa using old)]
    simp [Nat.ne_of_lt old]
  · rw [List.getElem?_append_right (by simpa using old),
      List.getElem?_eq_none (l := s.groups.map _) (by simpa using old)]
    by_cases new : g = s.groups.length
    · simp [new]
    · have : g - s.groups.length ≠ 0 := by omega
      simp [new, this]

theorem Holds.lt_length {g r : Nat} {n : String} {ss : List PendingSub}
    (holds : s.Holds g n r ss) : g < s.groups.length := by
  obtain ⟨bound, _⟩ := List.getElem?_eq_some_iff.mp holds
  simpa using bound

theorem RegistryInv.create (inv : RegistryInv s log) {slotName : String}
    {identity : GroupIdentity} {auto : Bool} {table : TableSpec}
    (free : s.registry slotName = none)
    (apart : ∀ {g' : Nat}, s.TakenDown g' → s.slotName g' ≠ some slotName) :
    RegistryInv { s.startCall (.register s.groups.length table) with
      groups := s.groups ++ [.new slotName identity auto]
      registry := Function.update s.registry slotName (some s.groups.length) } log := by
  generalize after : Registry.mk _ _ _ _ = t
  have holds : ∀ {g r n ss}, t.Holds g n r ss ↔ s.Holds g n r ss ∨
      (g = s.groups.length ∧ slotName = n ∧ 0 = r ∧ [] = ss) := by
    intro g r n ss
    rw [← after, holds_append rfl]
    simp [SharedPipeline.tag, SharedPipeline.new]
  have joining : ∀ {g}, t.Joining g ↔ s.Joining g ∨ s.groups.length = g := by
    intro g
    rw [← after]
    exact joining_startCall
  have takenDown : ∀ {g}, t.TakenDown g ↔ s.TakenDown g := by
    intro g
    rw [← after]
    exact takenDown_startCall
  have unused : s.liveCount s.groups.length = 0 := by
    rw [liveCount, List.countP_eq_zero]
    intro source member
    obtain ⟨n, r, ss, known⟩ := inv.member source member
    simp [Nat.ne_of_lt known.lt_length]
  have fresh : ∀ {g r n ss}, s.Holds g n r ss → g ≠ s.groups.length :=
    fun known => Nat.ne_of_lt known.lt_length
  have registry : t.registry = Function.update s.registry slotName (some s.groups.length) := by
    rw [← after]
  have live : ∀ {g}, t.liveCount g = s.liveCount g := by
    intro g
    rw [← after]
    rfl
  have sources : t.sources = s.sources := by
    rw [← after]
    rfl
  constructor
  · intro source member
    rw [sources] at member
    obtain ⟨n, r, ss, known⟩ := inv.member source member
    exact ⟨n, r, ss, holds.mpr (.inl known)⟩
  · intro g x member
    rw [sources]
    rw [← after] at member
    exact inv.leaving (leaving_startCall member)
  · intro g joins
    rcases joining.mp joins with joins | rfl
    · obtain ⟨n, r, ss, known⟩ := inv.joined joins
      exact ⟨n, r, ss, holds.mpr (.inl known)⟩
    · exact ⟨_, _, _, holds.mpr (.inr ⟨rfl, rfl, rfl, rfl⟩)⟩
  · intro g n r ss known
    rw [live]
    rcases holds.mp known with known | ⟨rfl, rfl, rfl, rfl⟩
    · exact inv.count known
    · exact unused.symm
  · intro g n r ss known inUse
    rw [registry]
    rcases holds.mp known with known | ⟨rfl, rfl, rfl, rfl⟩
    · have entry : s.registry n = some g := by
        refine inv.held known (inUse.imp (live ▸ ·) fun joins => ?_)
        exact (joining.mp joins).resolve_right (fresh known).symm
      rw [Function.update_of_ne (by rintro rfl; simp [free] at entry), entry]
    · rw [Function.update_self]
  · intro g n entry
    rw [registry, Function.update_apply] at entry
    split at entry
    · rename_i same
      cases entry
      exact ⟨0, [], holds.mpr (.inr ⟨rfl, same.symm, rfl, rfl⟩),
        .inr (.inr ⟨rfl, joining.mpr (.inr rfl)⟩)⟩
    · obtain ⟨r, ss, known, used⟩ := inv.kept entry
      rw [live, takenDown]
      exact ⟨r, ss, holds.mpr (.inl known), used.imp_right fun used => used.imp_right
        fun first => ⟨first.1, joining.mpr (.inl first.2)⟩⟩
  · intro g down
    obtain ⟨n, r, ss, known, idle, none, own⟩ := inv.down (takenDown.mp down)
    refine ⟨n, r, ss, holds.mpr (.inl known), live ▸ idle,
      fun joins => (joining.mp joins).elim none (fresh known).symm, fun entry found => ?_⟩
    have other : n ≠ slotName := fun same =>
      apart (takenDown.mp down) (same ▸ known.slotName)
    rw [registry, Function.update_of_ne other] at found
    exact own entry found
  · intro g member
    obtain ⟨n, r, ss, known, idle, none, gone⟩ := inv.sent member
    refine ⟨n, r, ss, holds.mpr (.inl known), live ▸ idle,
      fun joins => (joining.mp joins).elim none (fresh known).symm, fun found => ?_⟩
    rw [registry, Function.update_apply] at found
    split at found
    · exact absurd (Option.some.inj found).symm (fresh known)
    · exact takenDown.mpr (gone found)
  · exact inv.removed

/-! ### Ending a `register` call -/

/-- Ending a call that joins one group keeps the calls that join another. -/
theorem joining_setCall {c g g' : Nat} {call new : Call} (old : s.calls[c]? = some call)
    (joins : call.joins = some g) (ends : new.joins = none) (other : g' ≠ g) :
    (s.setCall c new).Joining g' ↔ s.Joining g' :=
  exists_mem_set_iff old (by simp [joins, other.symm]) (by simp [ends])

theorem joining_of_setCall {c g : Nat} {new : Call} (ends : new.joins = none)
    (joining : (s.setCall c new).Joining g) : s.Joining g := by
  obtain ⟨call, member, joins⟩ := joining
  rcases List.mem_or_eq_of_mem_set member with member | rfl
  · exact ⟨call, member, joins⟩
  · simp [ends] at joins

theorem takenDown_setCall_done {c g : Nat} {call : Call} (old : s.calls[c]? = some call)
    (plain : call.takesDown = none) : (s.setCall c .done).TakenDown g ↔ s.TakenDown g :=
  exists_mem_set_iff old (by simp [plain]) (by simp [Call.takesDown])

theorem leaving_setCall {c g x : Nat} {new : Call} (stays : ∀ g x : Nat, new ≠ .deregister g x)
    (member : .deregister g x ∈ (s.setCall c new).calls) : .deregister g x ∈ s.calls :=
  (List.mem_or_eq_of_mem_set member).resolve_right (stays g x).symm

theorem RegistryInv.refuse (inv : RegistryInv s log) {c g : Nat} {table : TableSpec}
    {group : SharedPipeline} {sub : PendingSub} {error : String}
    (old : s.calls[c]? = some (.register g table)) (known : s.groups[g]? = some group)
    (taken : sub ∈ group.subs) :
    RegistryInv (s.setCall c .done) (log ++ [.registerFailed error]) := by
  have sub : ∀ {g'}, (s.setCall c .done).Joining g' → s.Joining g' := joining_of_setCall rfl
  have down : ∀ {g'}, (s.setCall c .done).TakenDown g' ↔ s.TakenDown g' :=
    takenDown_setCall_done old rfl
  constructor
  · exact inv.member
  · exact fun member => inv.leaving (leaving_setCall (fun _ _ => by simp) member)
  · exact fun joins => inv.joined (sub joins)
  · exact inv.count
  · exact fun holds inUse => inv.held holds (inUse.imp_right sub)
  · intro g' n entry
    obtain ⟨r, ss, holds, used⟩ := inv.kept entry
    refine ⟨r, ss, holds, used.imp_right fun used => used.imp down.mpr ?_⟩
    rintro ⟨rfl, joins⟩
    refine ⟨rfl, (joining_setCall old rfl rfl ?_).mpr joins⟩
    rintro rfl
    obtain ⟨_, _, none⟩ := holds.unique (.of_group known)
    rw [← none] at taken
    cases taken
  · intro g' downs
    obtain ⟨n, r, ss, holds, idle, none, own⟩ := inv.down (down.mp downs)
    exact ⟨n, r, ss, holds, idle, fun joins => none (sub joins), own⟩
  · intro g' member
    obtain ⟨n, r, ss, holds, idle, none, gone⟩ := inv.sent (by simpa using member)
    exact ⟨n, r, ss, holds, idle, fun joins => none (sub joins), fun entry => down.mpr (gone entry)⟩
  · exact fun member => inv.removed (by simpa using member)

/-! ### Changing a group -/

/-- Replacing a group changes its own data only. -/
theorem holds_setGroup {t : Registry} {g g' r : Nat} {n : String} {ss : List PendingSub}
    {group new : SharedPipeline} (known : s.groups[g]? = some group)
    (groups : t.groups = s.groups.set g new) :
    t.Holds g' n r ss ↔ (g' = g ∧ new.tag = (n, r, ss)) ∨ (g' ≠ g ∧ s.Holds g' n r ss) := by
  obtain ⟨bound, _⟩ := List.getElem?_eq_some_iff.mp known
  rw [Holds, Holds, groups, List.map_set]
  by_cases same : g = g'
  · subst same
    simp [bound]
  · rw [List.getElem?_set_ne same]
    simp [Ne.symm same]

theorem RegistryInv.enlist (inv : RegistryInv s log) {c g : Nat} {table : TableSpec}
    {group : SharedPipeline} (old : s.calls[c]? = some (.register g table))
    (known : s.groups[g]? = some group) :
    RegistryInv { (s.setCall c .done).setGroup g { group with
        nextSourceId := group.nextSourceId + 1
        refcount := group.refcount + 1
        subs := group.subs ++ [⟨group.nextSourceId, table⟩] } with
      sources := s.sources ++ [⟨g, group.nextSourceId, table, true, false, true, false⟩] }
      (log ++ [.registered s.sources.length g]) := by
  generalize after : Registry.mk _ _ _ _ = t
  have joins : s.Joining g := ⟨_, List.mem_of_getElem? old, rfl⟩
  have holds : ∀ {g' r n ss}, t.Holds g' n r ss ↔
      (g' = g ∧ group.slotName = n ∧ group.refcount + 1 = r ∧
        group.subs ++ [⟨group.nextSourceId, table⟩] = ss) ∨ (g' ≠ g ∧ s.Holds g' n r ss) := by
    intro g' r n ss
    rw [← after, holds_setGroup known rfl]
    simp [SharedPipeline.tag]
  have sub : ∀ {g'}, t.Joining g' → s.Joining g' := by
    intro g'
    rw [← after]
    exact joining_of_setCall rfl
  have keep : ∀ {g'}, g' ≠ g → (t.Joining g' ↔ s.Joining g') := by
    intro g' other
    rw [← after]
    exact joining_setCall old rfl rfl other
  have down : ∀ {g'}, t.TakenDown g' ↔ s.TakenDown g' := by
    intro g'
    rw [← after]
    exact takenDown_setCall_done old rfl
  have live : ∀ {g'}, t.liveCount g' = s.liveCount g' + if g = g' then 1 else 0 := by
    intro g'
    rw [← after, liveCount, liveCount, List.countP_append]
    simp [List.countP_singleton]
  have registry : t.registry = s.registry := by
    rw [← after]
    rfl
  have sources : t.sources = s.sources ++ [⟨g, group.nextSourceId, table, true, false, true, false⟩] := by
    rw [← after]
  have busy : ∀ {g'}, ¬ s.Joining g' → g' ≠ g := fun none same => none (same ▸ joins)
  have carry : ∀ {g' n r ss}, g' ≠ g → s.Holds g' n r ss → t.Holds g' n r ss ∧
      t.liveCount g' = s.liveCount g' := by
    intro g' n r ss other same
    exact ⟨holds.mpr (.inr ⟨other, same⟩), by rw [live, if_neg other.symm, Nat.add_zero]⟩
  constructor
  · intro source member
    rw [sources, List.mem_append, List.mem_singleton] at member
    by_cases same : source.shared = g
    · exact ⟨_, _, _, holds.mpr (.inl ⟨same, rfl, rfl, rfl⟩)⟩
    · rcases member with member | rfl
      · obtain ⟨n, r, ss, found⟩ := inv.member source member
        exact ⟨n, r, ss, holds.mpr (.inr ⟨same, found⟩)⟩
      · exact absurd rfl same
  · intro g' x member
    rw [← after] at member
    have found := inv.leaving (leaving_setCall (s := s) (fun _ _ => by simp) member)
    obtain ⟨source, at_x, _⟩ := Option.map_eq_some_iff.mp found
    rw [sources, List.getElem?_append_left (List.getElem?_eq_some_iff.mp at_x).1, found]
  · intro g' joining
    by_cases same : g' = g
    · exact ⟨_, _, _, holds.mpr (.inl ⟨same, rfl, rfl, rfl⟩)⟩
    · obtain ⟨n, r, ss, found⟩ := inv.joined (sub joining)
      exact ⟨n, r, ss, holds.mpr (.inr ⟨same, found⟩)⟩
  · intro g' n r ss found
    rw [live]
    rcases holds.mp found with ⟨rfl, rfl, rfl, rfl⟩ | ⟨other, found⟩
    · simp [inv.count (.of_group known)]
    · simp [inv.count found, other.symm]
  · intro g' n r ss found inUse
    rw [registry]
    rcases holds.mp found with ⟨rfl, rfl, rfl, rfl⟩ | ⟨other, found⟩
    · exact inv.held (.of_group known) (.inr joins)
    · refine inv.held found (inUse.imp (fun used => ?_) sub)
      rwa [live, if_neg other.symm, Nat.add_zero] at used
  · intro g' n entry
    rw [registry] at entry
    obtain ⟨r, ss, found, used⟩ := inv.kept entry
    by_cases same : g' = g
    · subst same
      obtain ⟨slot, _, _⟩ := found.unique (.of_group known)
      exact ⟨_, _, holds.mpr (.inl ⟨rfl, slot.symm, rfl, rfl⟩), .inl (by simp [live])⟩
    · obtain ⟨found', count⟩ := carry same found
      rw [count, down, keep same]
      exact ⟨r, ss, found', used⟩
  · intro g' downs
    obtain ⟨n, r, ss, found, idle, none, own⟩ := inv.down (down.mp downs)
    obtain ⟨found', count⟩ := carry (busy none) found
    rw [registry, count]
    exact ⟨n, r, ss, found', idle, fun joining => none (sub joining), own⟩
  · intro g' member
    obtain ⟨n, r, ss, found, idle, none, gone⟩ := inv.sent (by simpa using member)
    obtain ⟨found', count⟩ := carry (busy none) found
    rw [registry, count, down]
    exact ⟨n, r, ss, found', idle, fun joining => none (sub joining), gone⟩
  · exact fun member => inv.removed (by simpa using member)

/-! ### Leaving a group -/

/-- Replacing a source changes the count of its own group by what it contributes. -/
theorem liveCount_setSource {t : Registry} {g x : Nat} {source : PostgresCdcSource}
    (found : s.sources[x]? = some source)
    (sources : t.sources = s.sources.set x { source with terminated := true }) :
    t.liveCount g = s.liveCount g -
      if source.shared = g ∧ source.terminated = false then 1 else 0 := by
  obtain ⟨bound, rfl⟩ := List.getElem?_eq_some_iff.mp found
  rw [liveCount, liveCount, sources, List.countP_set bound]
  simp

theorem liveCount_pos {g : Nat} {source : PostgresCdcSource} (member : source ∈ s.sources)
    (shared : source.shared = g) (live : source.terminated = false) : 0 < s.liveCount g :=
  List.countP_pos_iff.mpr ⟨source, member, by simp [shared, live]⟩

theorem RegistryInv.leave (inv : RegistryInv s log) {c g x : Nat} {group : SharedPipeline}
    {source : PostgresCdcSource} (old : s.calls[c]? = some (.deregister g x))
    (known : s.groups[g]? = some group) (found : s.sources[x]? = some source)
    (again : source.terminated → group.refcount = 0 ∧
      ∀ entry, s.registry group.slotName = some entry → entry = g)
    (last : group.refcount ≤ 1 → ¬ s.Joining g) :
    RegistryInv (((s.setCall c
      (if group.refcount - 1 = 0 then .shutDown g x else .stopSource x)).setGroup g
        { group with refcount := group.refcount - 1 }).setSource x
          { source with terminated := true }) log := by
  generalize after : setSource _ _ _ = t
  have shared : source.shared = g := by
    have same := inv.leaving (List.mem_of_getElem? old)
    rw [found] at same
    exact Option.some.inj same
  have counted := inv.count (.of_group known)
  have holds : ∀ {g' r n ss}, t.Holds g' n r ss ↔
      (g' = g ∧ group.slotName = n ∧ group.refcount - 1 = r ∧ group.subs = ss) ∨
        (g' ≠ g ∧ s.Holds g' n r ss) := by
    intro g' r n ss
    rw [← after, holds_setGroup known rfl]
    simp [SharedPipeline.tag]
  have joining : ∀ {g'}, t.Joining g' ↔ s.Joining g' := by
    intro g'
    rw [← after]
    refine exists_mem_set_iff old (by simp [Call.joins]) ?_
    split
    · simp [Call.joins]
    · simp [Call.joins]
  have downs : ∀ {g'}, t.TakenDown g' ↔ s.TakenDown g' ∨ (g' = g ∧ group.refcount - 1 = 0) := by
    intro g'
    rw [← after]
    by_cases zero : group.refcount - 1 = 0
    · simp only [zero, if_true, and_true]
      constructor
      · rintro ⟨call, member, takes⟩
        rcases List.mem_or_eq_of_mem_set member with member | rfl
        · exact .inl ⟨call, member, takes⟩
        · exact .inr (Option.some.inj takes).symm
      · rintro (⟨call, member, takes⟩ | rfl)
        · obtain ⟨i, at_i⟩ := List.mem_iff_getElem?.mp member
          refine ⟨call, List.mem_iff_getElem?.mpr ⟨i, ?_⟩, takes⟩
          rw [← at_i]
          refine List.getElem?_set_ne ?_
          rintro rfl
          rw [old] at at_i
          cases at_i
          cases takes
        · exact ⟨.shutDown g' x, List.mem_set (List.getElem?_eq_some_iff.mp old).1 _, rfl⟩
    · simp only [zero, if_false, and_false, or_false]
      exact exists_mem_set_iff old (by simp [Call.takesDown]) (by simp [Call.takesDown])
  have live : ∀ {g'}, t.liveCount g' = s.liveCount g' -
      if source.shared = g' ∧ source.terminated = false then 1 else 0 := by
    intro g'
    rw [← after]
    exact liveCount_setSource found rfl
  have elsewhere : ∀ {g'}, g' ≠ g → t.liveCount g' = s.liveCount g' := by
    intro g' other
    rw [live, if_neg (fun same => other (same.1.symm.trans shared)), Nat.sub_zero]
  -- The count goes down by one, or the group was empty before.
  have here : t.liveCount g = group.refcount - 1 := by
    rw [live, ← counted]
    by_cases gone : source.terminated
    · rw [(again gone).1]
      simp
    · simp [shared, gone]
  have registry : t.registry = s.registry := by
    rw [← after]
    rfl
  have shareds : ∀ y : Nat, t.sources[y]?.map PostgresCdcSource.shared =
      s.sources[y]?.map PostgresCdcSource.shared := by
    intro y
    have same := map_set_eq (f := PostgresCdcSource.shared)
      (b := { source with terminated := true }) found rfl
    rw [← after, ← List.getElem?_map, ← List.getElem?_map]
    exact congrArg (·[y]?) same
  have atMost : ∀ {g'}, t.liveCount g' ≤ s.liveCount g' := by
    intro g'
    rw [live]
    exact Nat.sub_le _ _
  have carry : ∀ {g' n r ss}, s.Holds g' n r ss → ∃ r', t.Holds g' n r' ss := by
    intro g' n r ss same
    by_cases here : g' = g
    · subst here
      obtain ⟨slot, _, tables⟩ := same.unique (.of_group known)
      exact ⟨_, holds.mpr (.inl ⟨rfl, slot.symm, rfl, tables.symm⟩)⟩
    · exact ⟨r, holds.mpr (.inr ⟨here, same⟩)⟩
  have back : ∀ {g' n r ss}, t.Holds g' n r ss → ∃ r', s.Holds g' n r' ss := by
    intro g' n r ss same
    rcases holds.mp same with ⟨rfl, rfl, _, rfl⟩ | ⟨_, same⟩
    · exact ⟨_, .of_group known⟩
    · exact ⟨r, same⟩
  -- Out of use and not registered for another group, if this was the last one out.
  have empty : group.refcount - 1 = 0 → t.liveCount g = 0 ∧ ¬ s.Joining g ∧
      ∀ entry, s.registry group.slotName = some entry → entry = g := by
    intro zero
    refine ⟨here.trans zero, last (by omega), fun entry registered => ?_⟩
    by_cases gone : source.terminated
    · exact (again gone).2 entry registered
    · have entered := inv.held (.of_group known)
        (.inl (liveCount_pos (List.mem_of_getElem? found) shared (by simpa using gone)))
      rw [entered] at registered
      exact (Option.some.inj registered).symm
  constructor
  · intro y member
    obtain ⟨i, at_i⟩ := List.mem_iff_getElem?.mp member
    have same := shareds i
    rw [at_i, Option.map_some] at same
    obtain ⟨y', at_i', same⟩ := Option.map_eq_some_iff.mp same.symm
    obtain ⟨n, r, ss, holds'⟩ := inv.member y' (List.mem_of_getElem? at_i')
    rw [← same]
    exact ⟨n, _, ss, (carry holds').choose_spec⟩
  · intro g' y member
    rw [shareds]
    rw [← after] at member
    refine inv.leaving (leaving_setCall (c := c) (fun g x => ?_) member)
    split
    · nofun
    · nofun
  · intro g' joins
    obtain ⟨n, r, ss, holds'⟩ := inv.joined (joining.mp joins)
    exact ⟨n, _, ss, (carry holds').choose_spec⟩
  · intro g' n r ss holds'
    rcases holds.mp holds' with ⟨rfl, _, rfl, _⟩ | ⟨other, holds'⟩
    · exact here.symm
    · rw [elsewhere other]
      exact inv.count holds'
  · intro g' n r ss holds' inUse
    obtain ⟨r', before⟩ := back holds'
    rw [registry]
    exact inv.held before (inUse.imp (fun used => Nat.lt_of_lt_of_le used atMost) joining.mp)
  · intro g' n entry
    rw [registry] at entry
    obtain ⟨r, ss, before, used⟩ := inv.kept entry
    obtain ⟨r', holds'⟩ := carry before
    refine ⟨r', ss, holds', ?_⟩
    rcases used with used | down | ⟨fresh, joins⟩
    · by_cases same : g' = g
      · subst same
        by_cases zero : group.refcount - 1 = 0
        · exact .inr (.inl (downs.mpr (.inr ⟨rfl, zero⟩)))
        · exact .inl (by omega)
      · exact .inl (elsewhere same ▸ used)
    · exact .inr (.inl (downs.mpr (.inl down)))
    · exact .inr (.inr ⟨fresh, joining.mpr joins⟩)
  · intro g' down
    rw [joining, registry]
    rcases downs.mp down with down | ⟨rfl, zero⟩
    · obtain ⟨n, r, ss, before, idle, none, own⟩ := inv.down down
      obtain ⟨r', holds'⟩ := carry before
      exact ⟨n, r', ss, holds', Nat.le_zero.mp (idle ▸ atMost), none, own⟩
    · exact ⟨_, _, _, holds.mpr (.inl ⟨rfl, rfl, rfl, rfl⟩), empty zero⟩
  · intro g' member
    obtain ⟨n, r, ss, before, idle, none, gone⟩ := inv.sent member
    obtain ⟨r', holds'⟩ := carry before
    rw [joining, registry]
    exact ⟨n, r', ss, holds', Nat.le_zero.mp (idle ▸ atMost), none,
      fun entry => downs.mpr (.inl (gone entry))⟩
  · exact inv.removed

/-! ### Taking a group down -/

theorem RegistryInv.send (inv : RegistryInv s log) {c g x : Nat} {group : SharedPipeline}
    (old : s.calls[c]? = some (.shutDown g x)) (known : s.groups[g]? = some group)
    (sends : ∀ obs ∈ out, obs = .shutdownSent g) :
    RegistryInv ((s.setCall c (.removeEntry g x)).setGroup g { group with shutdown := false })
      (log ++ out) := by
  generalize after : setGroup _ _ _ = t
  have tags : t.groups.map SharedPipeline.tag = s.groups.map SharedPipeline.tag := by
    rw [← after]
    exact map_set_eq known rfl
  have holds : ∀ {g' r n ss}, t.Holds g' n r ss ↔ s.Holds g' n r ss := by
    intro g' r n ss
    rw [Holds, Holds, tags]
  have joining : ∀ {g'}, t.Joining g' ↔ s.Joining g' := by
    intro g'
    rw [← after]
    exact exists_mem_set_iff old (by simp [Call.joins]) (by simp [Call.joins])
  have down : s.TakenDown g := ⟨_, List.mem_of_getElem? old, rfl⟩
  have downs : ∀ {g'}, t.TakenDown g' ↔ s.TakenDown g' := by
    intro g'
    rw [← after]
    by_cases same : g' = g
    · subst same
      exact ⟨fun _ => down,
        fun _ => ⟨.removeEntry g' x, List.mem_set (List.getElem?_eq_some_iff.mp old).1 _, rfl⟩⟩
    · exact exists_mem_set_iff old (by simp [Call.takesDown, Ne.symm same])
        (by simp [Call.takesDown, Ne.symm same])
  have sources : t.sources = s.sources := by
    rw [← after]
    rfl
  have registry : t.registry = s.registry := by
    rw [← after]
    rfl
  have live : ∀ {g'}, t.liveCount g' = s.liveCount g' := liveCount_eq_of_tags (by rw [sources])
  constructor
  · simpa only [sources, holds] using inv.member
  · intro g' y member
    rw [sources]
    rw [← after] at member
    exact inv.leaving (leaving_setCall (s := s) (fun _ _ => by simp) member)
  · simpa only [joining, holds] using @inv.joined
  · simpa only [holds, live] using @inv.count
  · simpa only [holds, live, joining, registry] using @inv.held
  · simpa only [holds, live, joining, downs, registry] using @inv.kept
  · simpa only [holds, live, joining, downs, registry] using @inv.down
  · intro g' member
    simp only [holds, live, joining, downs, registry]
    rcases List.mem_append.mp member with member | member
    · exact inv.sent member
    · cases sends _ member
      obtain ⟨n, r, ss, holds', idle, none, _⟩ := inv.down down
      exact ⟨n, r, ss, holds', idle, none, fun _ => down⟩
  · intro g' entry member
    rcases List.mem_append.mp member with member | member
    · exact inv.removed member
    · cases sends _ member

theorem RegistryInv.remove (inv : RegistryInv s log) {c g x : Nat} {group : SharedPipeline}
    (old : s.calls[c]? = some (.removeEntry g x)) (known : s.groups[g]? = some group) :
    RegistryInv { s.setCall c (.stopSource x) with
        registry := Function.update s.registry group.slotName none }
      (log ++ [.removed g (s.registry group.slotName)]) := by
  generalize after : Registry.mk _ _ _ _ = t
  have down : s.TakenDown g := ⟨_, List.mem_of_getElem? old, rfl⟩
  obtain ⟨slot, _, _, here, idle, none, own⟩ := inv.down down
  obtain ⟨rfl, _, _⟩ := here.unique (.of_group known)
  have holds : ∀ {g' r n ss}, t.Holds g' n r ss ↔ s.Holds g' n r ss := by
    intro g' r n ss
    rw [← after]
    rfl
  have joining : ∀ {g'}, t.Joining g' ↔ s.Joining g' := by
    intro g'
    rw [← after]
    exact exists_mem_set_iff old (by simp [Call.joins]) (by simp [Call.joins])
  have still : ∀ {g'}, t.TakenDown g' → s.TakenDown g' := by
    rintro g' ⟨call, member, takes⟩
    rw [← after] at member
    rcases List.mem_or_eq_of_mem_set member with member | rfl
    · exact ⟨call, member, takes⟩
    · cases takes
  have downs : ∀ {g'}, g' ≠ g → s.TakenDown g' → t.TakenDown g' := by
    intro g' other
    rw [← after]
    exact (exists_mem_set_iff old (by simp [Call.takesDown, other.symm])
      (by simp [Call.takesDown])).mpr
  have sources : t.sources = s.sources := by
    rw [← after]
    rfl
  have live : ∀ {g'}, t.liveCount g' = s.liveCount g' := liveCount_eq_of_tags (by rw [sources])
  have registry : t.registry = Function.update s.registry group.slotName Option.none := by
    rw [← after]
  have registered : ∀ {n g'}, t.registry n = some g' →
      s.registry n = some g' ∧ n ≠ group.slotName := by
    intro n g' entry
    rw [registry, Function.update_apply] at entry
    split at entry
    · cases entry
    · exact ⟨entry, ‹_›⟩
  have apart : ∀ {n g' r ss}, s.Holds g' n r ss → n ≠ group.slotName → g' ≠ g := by
    rintro n g' r ss found other rfl
    exact other (found.unique here).1
  constructor
  · simpa only [sources, holds] using inv.member
  · intro g' y member
    rw [sources]
    rw [← after] at member
    exact inv.leaving (leaving_setCall (s := s) (fun _ _ => by simp) member)
  · simpa only [joining, holds] using @inv.joined
  · simpa only [holds, live] using @inv.count
  · intro g' n r ss found inUse
    rw [live, joining] at inUse
    have entry := inv.held (holds.mp found) inUse
    have other : n ≠ group.slotName := by
      rintro rfl
      cases own _ entry
      exact inUse.elim (by omega) none
    rw [registry, Function.update_of_ne other, entry]
  · intro g' n entry
    obtain ⟨entry, other⟩ := registered entry
    obtain ⟨r, ss, found, used⟩ := inv.kept entry
    rw [live, joining]
    exact ⟨r, ss, holds.mpr found, used.imp_right fun used => used.imp_left
      (downs (apart found other))⟩
  · intro g' down'
    obtain ⟨n, r, ss, found, idle', none', own'⟩ := inv.down (still down')
    rw [live, joining]
    exact ⟨n, r, ss, holds.mpr found, idle', none', fun e entry => own' e (registered entry).1⟩
  · intro g' member
    obtain ⟨n, r, ss, found, idle', none', gone⟩ := inv.sent (by simpa using member)
    rw [live, joining]
    refine ⟨n, r, ss, holds.mpr found, idle', none', fun entry => ?_⟩
    obtain ⟨entry, other⟩ := registered entry
    exact downs (apart found other) (gone entry)
  · intro g' entry member
    rcases List.mem_append.mp member with member | member
    · exact inv.removed member
    · rw [List.mem_singleton] at member
      injection member with same registered
      subst same
      exact own entry registered.symm

/-! ## Every orderly run -/

/-- The tracked part of a step keeps the invariant. -/
theorem RegistryInv.tracked (inv : RegistryInv s log) (moved : Tracked s s' out) :
    RegistryInv s' (log ++ out) := by
  cases moved with
  | quiet quiet silent keeps => exact inv.quiet quiet silent keeps
  | join table entry apart =>
      rw [List.append_nil]
      exact inv.join entry apart
  | create identity auto table free apart =>
      rw [List.append_nil]
      exact inv.create free apart
  | refuse error old known taken => exact inv.refuse old known taken
  | enlist old known => exact inv.enlist old known
  | leave old known found again last =>
      rw [List.append_nil]
      exact inv.leave old known found again last
  | send old known sends => exact inv.send old known sends
  | remove old known => exact inv.remove old known

theorem registryInv_initial : RegistryInv initial [] where
  member := by simp [initial]
  leaving := by simp [initial]
  joined := by simp [initial, Joining]
  count := by simp [initial, Holds]
  held := by simp [initial, Holds]
  kept := by simp [initial]
  down := by simp [initial, TakenDown]
  sent := by simp
  removed := by simp

theorem RegistryInv.tracks (inv : RegistryInv s log) : SlotsTracked s log where
  registered source member live := by
    obtain ⟨n, r, ss, found⟩ := inv.member source member
    have entry := inv.held found (.inl (liveCount_pos member rfl live))
    rw [Holds, List.getElem?_map, Option.map_eq_some_iff] at found
    obtain ⟨group, known, same⟩ := found
    cases same
    exact ⟨group, known, entry⟩
  used entry := by
    obtain ⟨r, ss, found, used⟩ := inv.kept entry
    refine ⟨found.slotName, ?_⟩
    rcases used with live | down | ⟨_, joining⟩
    · obtain ⟨source, member, here⟩ := List.countP_pos_iff.mp live
      exact .inl ⟨source, member, by simpa using here⟩
    · exact .inr (.inr down)
    · exact .inr (.inl joining)
  shutdown member source listed shared := by
    obtain ⟨n, r, ss, _, idle, _⟩ := inv.sent member
    by_contra live
    have := liveCount_pos listed shared (by simpa using live)
    omega
  removed := inv.removed

end Invariant

/-- In every run of orderly steps a slot is registered exactly while its group is in
use, groups are shut down when all their sources are terminated, and calls remove
their own entries only. -/
theorem slotsTracked {s : Registry} {log : List RegistryObs}
    (reached : machine.ReachesWhere (fun s e => s.orderly e) initial s log) :
    SlotsTracked s log := by
  have inv : RegistryInv s log :=
    reached.invariant (P := RegistryInv) registryInv_initial fun inv ordered taken =>
      inv.tracked (step_tracked ordered taken)
  exact inv.tracks

/-! ## Two sources on one slot -/

section Demo

def demoIdentity : GroupIdentity := ⟨"db", 5432, "app", "replicator", "pub"⟩

/-- The constructors of two sources. -/
def constructTwo : List RegistryEvent :=
  [.register "slot" demoIdentity false ⟨"public.a", ["id"], false⟩, .advance 0 (.ok ()),
    .register "slot" demoIdentity false ⟨"public.b", ["id"], false⟩, .advance 1 (.ok ())]

/-- The first source starts the pipeline, the second finds it started. -/
def initializeTwo : List RegistryEvent :=
  [.initializeSource 0, .advance 2 (.ok ()), .advance 2 (.ok ()), .advance 2 (.ok ()),
    .advance 2 (.ok ()), .advance 2 (.ok ()), .initializeSource 1, .advance 3 (.ok ()),
    .advance 3 (.ok ())]

/-- The first source is terminated twice, the second one never. -/
def terminateFirstTwice : List RegistryEvent :=
  constructTwo ++ initializeTwo ++ [.terminate 0, .advance 4 (.ok ()), .advance 4 (.ok ()),
    .terminate 0, .advance 5 (.ok ()), .advance 5 (.ok ()), .advance 5 (.ok ())]

/-- Terminating a source twice shuts the group down under its other source. -/
theorem second_terminate_shuts_down_live_group :
    ∃ s log, machine.Reaches initial s log ∧ ¬ SlotsTracked s log := by
  refine ⟨_, _, .of_run terminateFirstTwice rfl, fun tracked => ?_⟩
  have early := tracked.shutdown (g := 0) (by decide) ⟨0, 1, ⟨"public.b", ["id"], false⟩, false,
    true, true, false⟩ (.tail _ (.head _)) rfl
  cases early

/-- Each source is terminated once. -/
def terminateEachOnce : List RegistryEvent :=
  constructTwo ++ initializeTwo ++ [.terminate 0, .advance 4 (.ok ()), .advance 4 (.ok ()),
    .terminate 1, .advance 5 (.ok ()), .advance 5 (.ok ()), .advance 5 (.ok ()),
    .advance 5 (.ok ())]

/-- After `terminateEachOnce` the group is shut down and both sources are terminated. -/
theorem slotsTracked_terminateEachOnce :
    ∃ s log, machine.Reaches initial s log ∧ .shutdownSent 0 ∈ log ∧
      ∀ source ∈ s.sources, source.shared = 0 → source.terminated := by
  have ran : ∃ s log, machine.ReachesWhere (fun s e => s.orderly e) initial s log ∧
      .shutdownSent 0 ∈ log := ⟨_, _, .of_runWhere terminateEachOnce rfl, by decide⟩
  obtain ⟨s, log, reached, sent⟩ := ran
  exact ⟨s, log, reached.reaches, sent, (slotsTracked reached).shutdown sent⟩

end Demo

end Registry

end StreamlingPlugins.PostgresCdc
