import StreamlingPlugins.Fallible
import StreamlingPlugins.Text

/-!
# Options of the CloudTrail source

`parseConfig` reads the options.  What it checks about the windows and the batch size is a
field of the configuration it returns.
-/

namespace StreamlingPlugins.CloudTrail

/-! ## Options -/

/-- The values of the options, the environment's before the configured ones. -/
structure PluginOptions where
  lookup : String → Option String

namespace PluginOptions

def lookupNonEmpty (opts : PluginOptions) (key : String) : Option String :=
  (opts.lookup key).filter (· ≠ "")

def getOr (opts : PluginOptions) (key default : String) : String :=
  (opts.lookup key).getD default

end PluginOptions

/-- `str::parse::<NonZeroU64>`. -/
def parseNonZeroU64 (text : String) : Except String {n : Nat // 0 < n} := do
  let n ← parseU64 text
  if positive : 0 < n then .ok ⟨n, positive⟩
  else .error "number would be zero for non-zero type"

/-- `get_parsed`, of a type that is parsed by `parse`. -/
def PluginOptions.getParsed {α : Type} (opts : PluginOptions) (parse : String → Except String α)
    (key default : String) : Except String α :=
  let value := opts.getOr key default
  (parse value).mapError fun e =>
    "cloudtrail_source: invalid " ++ key ++ " '" ++ value ++ "': " ++ e

/-! ## The configuration -/

inductive StartTime
  | now | earliest | at (ms : Int64)
  deriving DecidableEq

inductive OnMalformed
  | error | skip
  deriving DecidableEq

structure CloudTrailSourceConfig where
  region : Option String
  endpointUrl : Option String
  startTime : StartTime
  pollIntervalSecs : Nat
  lookbackSecs : Nat
  maxWindowSecs : Nat
  batchSize : Nat
  lookupAttribute : Option (String × String)
  onMalformed : OnMalformed
  lookback_lt : lookbackSecs < maxWindowSecs
  batchSize_pos : 0 < batchSize

def lookupAttributeKeys : List String :=
  ["AccessKeyId", "EventId", "EventName", "EventSource", "ReadOnly", "ResourceName",
    "ResourceType", "Username"]

/-- `rfc3339` is the timestamp's milliseconds as chrono reads them. -/
def parseStartTime (rfc3339 : String → Except String Int64) (opts : PluginOptions) :
    Except String StartTime :=
  let value := opts.getOr "start_time" "now"
  if value.toLower = "now" then .ok .now
  else if value.toLower = "earliest" then .ok .earliest
  else
    match rfc3339 value with
    | .ok ms => .ok (.at ms)
    | .error e => .error ("cloudtrail_source: start_time must be 'now', 'earliest', or an " ++
        "RFC 3339 timestamp, got '" ++ value ++ "': " ++ e)

def parseLookupAttribute (debug : List String → String) (opts : PluginOptions) :
    Except String (Option (String × String)) :=
  let key := String.ofList (trim (opts.getOr "lookup_attribute_key" "").toList)
  let value := opts.getOr "lookup_attribute_value" ""
  if key = "" ∧ value = "" then .ok none
  else if key = "" ∨ value = "" then
    .error ("cloudtrail_source: lookup_attribute_key and lookup_attribute_value " ++
      "must be set together")
  else
    match lookupAttributeKeys.find? fun candidate => candidate.toLower = key.toLower with
    | some canonical => .ok (some (canonical, value))
    | none => .error ("cloudtrail_source: invalid lookup_attribute_key '" ++ key ++
        "'; must be one of " ++ debug lookupAttributeKeys)

def parseOnMalformed (opts : PluginOptions) : Except String OnMalformed :=
  let value := (opts.getOr "on_malformed" "error").toLower
  if value = "error" then .ok .error
  else if value = "skip" then .ok .skip
  else .error ("cloudtrail_source: on_malformed must be 'error' or 'skip', got '" ++ value ++ "'")

/-- `debug` is how a list of names is shown. -/
def parseConfig (rfc3339 : String → Except String Int64) (debug : List String → String)
    (opts : PluginOptions) : Except String CloudTrailSourceConfig :=
  if (opts.lookupNonEmpty "access_key_id").isSome ≠
      (opts.lookupNonEmpty "secret_access_key").isSome then
    .error ("cloudtrail_source: access_key_id and secret_access_key must be set " ++
      "together (omit both to use the default AWS credential chain)")
  else do
    let lookbackSecs ← opts.getParsed parseU64 "lookback_secs" "1800"
    let maxWindowSecs ← opts.getParsed parseNonZeroU64 "max_window_secs" "3600"
    if overlap : lookbackSecs < maxWindowSecs then
      let startTime ← parseStartTime rfc3339 opts
      let pollIntervalSecs ← opts.getParsed parseNonZeroU64 "poll_interval_secs" "60"
      let batchSize ← opts.getParsed parseNonZeroU64 "batch_size" "1024"
      let lookupAttribute ← parseLookupAttribute debug opts
      let onMalformed ← parseOnMalformed opts
      .ok {
        region := opts.lookupNonEmpty "region"
        endpointUrl := opts.lookupNonEmpty "endpoint_url"
        startTime
        pollIntervalSecs
        lookbackSecs
        maxWindowSecs
        batchSize
        lookupAttribute
        onMalformed
        lookback_lt := overlap
        batchSize_pos := batchSize.property }
    else
      .error ("cloudtrail_source: max_window_secs (" ++ toString maxWindowSecs.val ++
        ") must be greater than lookback_secs (" ++ toString lookbackSecs ++ ")")

end StreamlingPlugins.CloudTrail
