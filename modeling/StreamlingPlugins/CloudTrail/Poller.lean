import StreamlingPlugins.CloudTrail.Config
import StreamlingPlugins.Saturating

/-!
# The CloudTrail poller

A cycle plans a window, fetches all of its pages and queues the events that are new.
Requests, sleeping between them, metrics and logging are left out: what LookupEvents
answers is part of a `Response`.
-/

namespace StreamlingPlugins.CloudTrail

/-! ## Records -/

structure CloudTrailRecord where
  eventId : String
  eventTimeMs : Int64
  deriving DecidableEq

/-- An event of the SDK. -/
structure Event where
  eventId : Option String
  eventTime : Option (Except String Int64)
  cloudTrailEvent : Option String

inductive JsonValue
  | object (fields : List (String × JsonValue))
  | string (text : String)
  | bool (value : Bool)
  | number (text : String)
  | other

/-- A scalar field as a string. -/
def stringField (fields : List (String × JsonValue)) (key : String) : Option String :=
  match fields.lookup key with
  | some (.string text) => some text
  | some (.bool value) => some (toString value)
  | some (.number text) => some text
  | _ => none

/-- What serde_json and chrono read. -/
structure Parsers where
  json : String → Except String JsonValue
  rfc3339 : String → Except String Int64

def okOr {α : Type} (value : Option α) (message : String) : Except String α :=
  match value with
  | some a => .ok a
  | none => .error message

def CloudTrailRecord.fromSdkEvent (parsers : Parsers) (event : Event) :
    Except String CloudTrailRecord := do
  let payload ← okOr event.cloudTrailEvent "event has no CloudTrailEvent payload"
  let json ← (parsers.json payload).mapError ("invalid CloudTrailEvent JSON: " ++ ·)
  match json with
  | .object fields => do
    let eventId ← okOr (stringField fields "eventID" <|> event.eventId) "event has no eventID"
    let eventTimeMs ←
      match stringField fields "eventTime" with
      | some s => (parsers.rfc3339 s).mapError fun e => "invalid eventTime '" ++ s ++ "': " ++ e
      | none =>
        match event.eventTime with
        | some time => time.mapError ("event time out of range: " ++ ·)
        | none => .error "event has no eventTime"
    .ok ⟨eventId, eventTimeMs⟩
  | _ => .error "CloudTrailEvent JSON is not an object"

/-! ## Windows -/

def lookupRetentionMs : Int64 := 90 * 24 * 3600 * 1000

def secsToMs (secs : Nat) : Int64 :=
  saturatingMul (saturate secs) 1000

/-- The watermark and the floor to start with. -/
def resolveStart (checkpointMs : Option Int64) (startTime : StartTime) (nowMs : Int64) :
    Int64 × Int64 :=
  let floor :=
    match startTime with
    | .at t => t
    | .now | .earliest => 0
  match checkpointMs with
  | some watermark => (watermark, floor)
  | none =>
    match startTime with
    | .now => (nowMs, nowMs)
    | .earliest =>
      let horizon := max (nowMs - lookupRetentionMs) 0
      (horizon, horizon)
    | .at t => (t, t)

/-- Without an end the window reaches the time of the request. -/
structure Window where
  startMs : Int64
  endMs : Option Int64
  deriving DecidableEq

def planWindow (watermarkMs floorMs lookbackMs maxWindowMs nowMs : Int64) : Window :=
  let startMs := max (max (saturatingSub watermarkMs lookbackMs) floorMs) 0
  let endMs := saturatingAdd startMs maxWindowMs
  ⟨startMs, if endMs < nowMs then some endMs else none⟩

/-- The watermark after a window that was fetched whole. -/
def advanceWatermark (currentMs : Int64) (maxFetchedMs cappedEndMs : Option Int64) : Int64 :=
  (maxFetchedMs.toList ++ cappedEndMs.toList).foldl max currentMs

/-! ## Events already emitted -/

/-- The time of each event that was emitted. -/
abbrev DedupedEventIds := String → Option Int64

namespace DedupedEventIds

def empty : DedupedEventIds := fun _ => none

def contains (deduped : DedupedEventIds) (eventId : String) : Bool :=
  (deduped eventId).isSome

def insert (deduped : DedupedEventIds) (eventId : String) (eventTimeMs : Int64) :
    DedupedEventIds :=
  Function.update deduped eventId (some eventTimeMs)

def evictBefore (deduped : DedupedEventIds) (cutoffMs : Int64) : DedupedEventIds :=
  fun eventId => (deduped eventId).filter (cutoffMs ≤ ·)

end DedupedEventIds

/-- Consecutive pieces of a size, and a shorter last one. -/
def splitOff (size : Nat) (positive : 0 < size) (records : List CloudTrailRecord) :
    List (List CloudTrailRecord) :=
  if size < records.length then
    records.take size :: splitOff size positive (records.drop size)
  else if records = [] then [] else [records]
termination_by records.length
decreasing_by
  rw [List.length_drop]
  omega

def sortIntoBatches (records : List CloudTrailRecord) (batchSize : Nat)
    (positive : 0 < batchSize) : List (List CloudTrailRecord) :=
  splitOff batchSize positive (records.mergeSort fun a b => a.eventTimeMs ≤ b.eventTimeMs)

/-! ## Fetching a window -/

inductive CycleError
  | request (message : String)
  | malformed (eventId : Option String) (message : String)

/-- What the requests for a window are answered: pages, until the last one or a failure. -/
structure Response where
  pages : List (List Event)
  failure : Option String

structure FetchedWindow where
  records : List CloudTrailRecord
  skipped : List (String × Int64)
  windowSeen : List String

section

variable (parsers : Parsers) (config : CloudTrailSourceConfig)

def takeEvent (window : Window) (deduped : DedupedEventIds) (fetched : FetchedWindow)
    (event : Event) : Except CycleError FetchedWindow :=
  match CloudTrailRecord.fromSdkEvent parsers event with
  | .ok record =>
    if deduped.contains record.eventId || fetched.windowSeen.contains record.eventId then
      .ok fetched
    else
      .ok { fetched with
        records := fetched.records ++ [record]
        windowSeen := record.eventId :: fetched.windowSeen }
  | .error e =>
    match config.onMalformed with
    | .error => .error (.malformed event.eventId e)
    | .skip =>
      match event.eventId with
      | some id =>
        let timeMs := (event.eventTime.bind Except.toOption).getD window.startMs
        .ok { fetched with skipped := fetched.skipped ++ [(id, timeMs)] }
      | none => .ok fetched

def fetchWindow (window : Window) (deduped : DedupedEventIds) (response : Response) :
    Except CycleError FetchedWindow := do
  let fetched ← response.pages.flatten.foldlM (takeEvent parsers config window deduped) ⟨[], [], []⟩
  match response.failure with
  | some e => .error (.request e)
  | none => .ok fetched

/-! ## Cycles -/

/-- The state of the poll loop. -/
structure PollState where
  watermarkMs : Int64
  deduped : DedupedEventIds

/-- A cycle's window, and the batches that it queued. -/
structure Cycle where
  window : Window
  outcome : Except CycleError (List (List CloudTrailRecord))

def maxEventTime (records : List CloudTrailRecord) : Option Int64 :=
  (records.map CloudTrailRecord.eventTimeMs).max?

def pollCycle (floorMs : Int64) (state : PollState) (nowMs : Int64) (response : Response) :
    PollState × Cycle :=
  let window := planWindow state.watermarkMs floorMs (secsToMs config.lookbackSecs)
    (secsToMs config.maxWindowSecs) nowMs
  let deduped := state.deduped.evictBefore window.startMs
  match fetchWindow parsers config window deduped response with
  | .error e => ({ state with deduped }, ⟨window, .error e⟩)
  | .ok fetched =>
    let deduped := fetched.records.foldl
      (fun deduped record => deduped.insert record.eventId record.eventTimeMs) deduped
    let deduped := fetched.skipped.foldl
      (fun deduped (eventId, eventTimeMs) => deduped.insert eventId eventTimeMs) deduped
    let maxFetchedMs := maxEventTime fetched.records
    ({ watermarkMs := advanceWatermark state.watermarkMs maxFetchedMs window.endMs, deduped },
      ⟨window, .ok (sortIntoBatches fetched.records config.batchSize config.batchSize_pos)⟩)

end

end StreamlingPlugins.CloudTrail
