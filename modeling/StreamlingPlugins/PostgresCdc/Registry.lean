import StreamlingPlugins.Machine
import StreamlingPlugins.PostgresCdc.Bridge

/-!
# Groups of sources and their registry

Sources that share a slot share one `SharedPipeline`, found through the registry
by slot name.  `register`, `initialize` and `terminate` are calls in flight: an
event starts a call or runs its next section, so that any two calls interleave
between their lock sections and awaits.  etl's pipeline is what it was started
with and whether it still runs.
-/

namespace StreamlingPlugins.PostgresCdc

/-- What all sources of a slot must agree on. -/
structure GroupIdentity where
  host : String
  port : Nat
  database : String
  username : String
  publicationName : String
  deriving DecidableEq

/-- The table a source contributes to its group, and how its rows are shaped. -/
structure TableSpec where
  label : String
  dataColumns : List String
  emitUpdateBeforeRow : Bool
  deriving DecidableEq

/-- A table registered into a group. -/
structure PendingSub where
  sourceId : SourceId
  table : TableSpec
  deriving DecidableEq

/-- A subscriber of the fan-out destination. -/
structure Subscriber where
  sourceId : SourceId
  tableLabel : String
  converter : RowConverter

def PendingSub.subscriber (sub : PendingSub) : Subscriber where
  sourceId := sub.sourceId
  tableLabel := sub.table.label
  converter := .new sub.table.label sub.table.dataColumns sub.table.emitUpdateBeforeRow

/-- A group.  `pipeline` is what its etl pipeline fans out to, once started;
`watched` says that a task waits for its end. -/
structure SharedPipeline where
  slotName : String
  identity : GroupIdentity
  pipelineConfig : Bool
  autoCreatePublication : Bool
  nextSourceId : SourceId
  refcount : Nat
  subs : List PendingSub
  started : Bool
  shutdown : Bool
  running : Bool
  pipeline : Option (List Subscriber)
  pipelineRuns : Bool
  watched : Bool

def SharedPipeline.new (slotName : String) (identity : GroupIdentity)
    (autoCreatePublication : Bool) : SharedPipeline where
  slotName := slotName
  identity := identity
  pipelineConfig := true
  autoCreatePublication := autoCreatePublication
  nextSourceId := 0
  refcount := 0
  subs := []
  started := false
  shutdown := false
  running := true
  pipeline := none
  pipelineRuns := false
  watched := false

/-- A constructed source.  `terminated` records that a `terminate` call left the
group for it, or found nothing to leave. -/
structure PostgresCdcSource where
  shared : Nat
  sourceId : SourceId
  table : TableSpec
  pending : Bool
  state : Bool
  running : Bool
  terminated : Bool

/-- A call in flight, named by the section it runs next.  `group` is the shared
pipeline and `source` the source it works on. -/
inductive Call
  /-- `register`, holding its group. -/
  | register (group : Nat) (table : TableSpec)
  | ensureStarted (group source : Nat)
  | takeConfig (group source : Nat) (subscribers : List Subscriber)
  | ensurePublication (group source : Nat) (subscribers : List Subscriber)
  | startPipeline (group source : Nat) (subscribers : List Subscriber)
  | storeShutdown (group source : Nat)
  | setState (group source : Nat)
  | deregister (group source : Nat)
  /-- `deregister`, decided to be the last one out. -/
  | shutDown (group source : Nat)
  /-- `deregister`, still holding the group's lock. -/
  | removeEntry (group source : Nat)
  | stopSource (source : Nat)
  | done

/-- Groups, sources and calls by index, and the registry of groups by slot. -/
structure Registry where
  registry : String → Option Nat
  groups : List SharedPipeline
  sources : List PostgresCdcSource
  calls : List Call

inductive RegistryEvent
  | register (slotName : String) (identity : GroupIdentity) (autoCreatePublication : Bool)
      (table : TableSpec)
  | initializeSource (source : Nat)
  | terminate (source : Nat)
  /-- The next section of a call; a fallible one ends with the given outcome. -/
  | advance (call : Nat) (outcome : Except String Unit)
  | pipelineEnds (group : Nat)
  /-- The task that waits for the pipeline notices its end. -/
  | observeEnd (group : Nat)

inductive RegistryObs
  | registered (source : Nat) (group : Nat)
  | registerFailed (error : String)
  | ensureStarted (source group : Nat) (result : Except String Unit)
  | initialized (source : Nat) (result : Except String Unit)
  | shutdownSent (group : Nat)
  /-- A call on `group` removed the registry's entry of its slot. -/
  | removed (group : Nat) (entry : Option Nat)
  | terminated (source : Nat)
  deriving DecidableEq

namespace Registry

def initial : Registry := ⟨fun _ => none, [], [], []⟩

/-- No call holds the group's lock between two sections. -/
def unlocked (s : Registry) (group : Nat) : Bool :=
  s.calls.all fun
    | .removeEntry g _ => g ≠ group
    | _ => true

def setGroup (s : Registry) (g : Nat) (group : SharedPipeline) : Registry :=
  { s with groups := s.groups.set g group }

def setSource (s : Registry) (x : Nat) (source : PostgresCdcSource) : Registry :=
  { s with sources := s.sources.set x source }

def setCall (s : Registry) (c : Nat) (call : Call) : Registry :=
  { s with calls := s.calls.set c call }

def startCall (s : Registry) (call : Call) : Registry :=
  { s with calls := s.calls ++ [call] }

/-- `is_running` of a source. -/
def isRunning (s : Registry) (x : Nat) : Bool :=
  match s.sources[x]? with
  | none => false
  | some source =>
    if source.state then
      match s.groups[source.shared]? with
      | none => false
      | some group => group.running
    else source.running

/-- `initialize` fails with what `ensure_started` returned. -/
def failStart (s : Registry) (c g x : Nat) (error : String) : Registry × List RegistryObs :=
  (s.setCall c .done, [.ensureStarted x g (.error error), .initialized x (.error error)])

/-- One section of a call. -/
def advance (s : Registry) (c : Nat) (outcome : Except String Unit) :
    Call → Option (Registry × List RegistryObs)
  | .register g table =>
    match s.groups[g]? with
    | none => none
    | some group =>
      if s.unlocked g then
        if group.subs.any fun sub => sub.table.label = table.label then
          some (s.setCall c .done, [.registerFailed ("postgres_cdc_source: table '" ++
            table.label ++ "' is already registered in slot_name '" ++ group.slotName ++ "'")])
        else
          let id := group.nextSourceId
          some ({ (s.setCall c .done).setGroup g { group with
                    nextSourceId := id + 1
                    refcount := group.refcount + 1
                    subs := group.subs ++ [⟨id, table⟩] } with
                  sources := s.sources ++ [⟨g, id, table, true, false, true, false⟩] },
            [.registered s.sources.length g])
      else none
  | .ensureStarted g x =>
    match s.groups[g]? with
    | none => none
    | some group =>
      if s.unlocked g then
        if group.started then some (s.setCall c (.setState g x), [.ensureStarted x g (.ok ())])
        else
          some ((s.setCall c (.takeConfig g x (group.subs.map PendingSub.subscriber))).setGroup g
            { group with started := true }, [])
      else none
  | .takeConfig g x subscribers =>
    match s.groups[g]? with
    | none => none
    | some group =>
      if group.pipelineConfig then
        some ((s.setCall c (if group.autoCreatePublication then .ensurePublication g x subscribers
          else .startPipeline g x subscribers)).setGroup g { group with pipelineConfig := false },
          [])
      else some (s.failStart c g x "shared pipeline already consumed its config")
  | .ensurePublication g x subscribers =>
    match outcome with
    | .ok () => some (s.setCall c (.startPipeline g x subscribers), [])
    | .error e => some (s.failStart c g x e)
  | .startPipeline g x subscribers =>
    match s.groups[g]?, outcome with
    | none, _ => none
    | some group, .ok () =>
      some ((s.setCall c (.storeShutdown g x)).setGroup g
        { group with pipeline := some subscribers, pipelineRuns := true }, [])
    | some _, .error e => some (s.failStart c g x ("etl pipeline start: " ++ e))
  | .storeShutdown g x =>
    match s.groups[g]? with
    | none => none
    | some group =>
      if s.unlocked g then
        some ((s.setCall c (.setState g x)).setGroup g
          { group with shutdown := true, watched := true }, [.ensureStarted x g (.ok ())])
      else none
  | .setState _ x =>
    match s.sources[x]? with
    | none => none
    | some source =>
      if source.state then
        some (s.setCall c .done, [.initialized x (.error "source already initialized")])
      else
        some ((s.setCall c .done).setSource x { source with state := true },
          [.initialized x (.ok ())])
  | .deregister g x =>
    match s.groups[g]?, s.sources[x]? with
    | some group, some source =>
      if s.unlocked g then
        some (((s.setCall c (if group.refcount - 1 = 0 then .shutDown g x else .stopSource x)).setGroup
          g { group with refcount := group.refcount - 1 }).setSource x
            { source with terminated := true }, [])
      else none
    | _, _ => none
  | .shutDown g x =>
    match s.groups[g]? with
    | none => none
    | some group =>
      if s.unlocked g then
        some ((s.setCall c (.removeEntry g x)).setGroup g { group with shutdown := false },
          if group.shutdown then [.shutdownSent g] else [])
      else none
  | .removeEntry g x =>
    match s.groups[g]? with
    | none => none
    | some group =>
      some ({ s.setCall c (.stopSource x) with
          registry := Function.update s.registry group.slotName none },
        [.removed g (s.registry group.slotName)])
  | .stopSource x =>
    match s.sources[x]? with
    | none => none
    | some source =>
      some ((s.setCall c .done).setSource x { source with running := false }, [.terminated x])
  | .done => none

def step (s : Registry) : RegistryEvent → Option (Registry × List RegistryObs)
  | .register slotName identity autoCreatePublication table =>
    match s.registry slotName with
    | some g =>
      match s.groups[g]? with
      | none => none
      | some existing =>
        if existing.identity = identity then some (s.startCall (.register g table), [])
        else some (s, [.registerFailed ("postgres_cdc_source: slot_name '" ++ slotName ++
          "' is shared by sources with different connection/publication; all must match")])
    | none =>
      some ({ s.startCall (.register s.groups.length table) with
          groups := s.groups ++ [.new slotName identity autoCreatePublication]
          registry := Function.update s.registry slotName (some s.groups.length) }, [])
  | .initializeSource x =>
    match s.sources[x]? with
    | none => none
    | some source =>
      if source.pending then
        some ((s.startCall (.ensureStarted source.shared x)).setSource x
          { source with pending := false }, [])
      else some (s, [.initialized x
        (.error "source already initialized (or a previous initialize failed)")])
  | .terminate x =>
    match s.sources[x]? with
    | none => none
    | some source =>
      if source.state then some (s.startCall (.deregister source.shared x), [])
      else some (s.setSource x { source with running := false, terminated := true },
        [.terminated x])
  | .advance c outcome =>
    match s.calls[c]? with
    | none => none
    | some call => s.advance c outcome call
  | .pipelineEnds g =>
    match s.groups[g]? with
    | none => none
    | some group =>
      if group.pipelineRuns then some (s.setGroup g { group with pipelineRuns := false }, [])
      else none
  | .observeEnd g =>
    match s.groups[g]? with
    | none => none
    | some group =>
      if group.watched && !group.pipelineRuns then
        some (s.setGroup g { group with running := false }, [])
      else none

def machine : Machine Registry RegistryEvent RegistryObs := ⟨step⟩

end Registry

end StreamlingPlugins.PostgresCdc
