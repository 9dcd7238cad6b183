import PasswordHook.Go.Errors
import PasswordHook.Go.Runes
import PasswordHook.Go.TimeFormat
import PasswordHook.Lib.Grouping
import PasswordHook.Lib.Prog

/-!
# The metric recorder

Package `azuremonitor`: samples are added to points, one for each key made of a name and its labels,
and `Flush` posts the points in payloads, one for each name and set of label names.  Go strings are
byte lists here, since callers choose names and label values.  Values are exact.

A map is a `KeyMap`, whose entries are in the order of an iteration; nothing is assumed about that
order, and `Flush` may see the points in any other one.
-/

namespace PasswordHook

/-- `observability.Labels` -/
abbrev Labels := KeyMap Bytes Bytes

/-- `labels[key]` -/
def Labels.get (labels : Labels) (key : Bytes) : Bytes := (labels.lookup key).getD []

structure MetricPoint where
  name : Bytes
  labels : Labels
  min : ℚ
  max : ℚ
  sum : ℚ
  count : ℕ
  observed : Bool
  deriving DecidableEq

/-- The zero value, for a key that is not in the map. -/
def MetricPoint.zero : MetricPoint := ⟨[], ∅, 0, 0, 0, 0, false⟩

/-- A `MetricRecorderOptions` without the client and the clock; `tokenSource` says whether it is
set. -/
structure MetricRecorderOptions where
  endpointBaseURL : String
  resourceID : String
  metricsNamespace : String
  tokenSource : Bool

/-- The options `NewMetricRecorder` keeps. -/
def newMetricRecorder (options : MetricRecorderOptions) : MetricRecorderOptions :=
  { options with
    endpointBaseURL := trimSpace options.endpointBaseURL
    resourceID := trimSpace options.resourceID
    metricsNamespace := trimSpace options.metricsNamespace }

/-! ## Labels and keys -/

/-- `sort.Strings` -/
def sortStrings (keys : List Bytes) : List Bytes := keys.insertionSort (· ≤ ·)

def sortedLabelNames (labels : Labels) : List Bytes := sortStrings labels.keys

def metricKey (name : Bytes) (labels : Labels) : Bytes :=
  let parts := name :: (sortedLabelNames labels).flatMap fun key => [key, labels.get key]
  [0].intercalate parts

/-- The label names that are kept. -/
def allowedNames : List Bytes :=
  ["attempts", "eventType", "identityType", "kind", "middleware", "outcome", "queue", "reason",
    "status"].map bytesOf

/-- The loop of `allowedLabels`, over the entries that are left. -/
def allowedLabelsLoop : List (Σ _ : Bytes, Bytes) → Labels → Labels
  | [], out => out
  | ⟨key, value⟩ :: rest, out =>
    if key ∉ allowedNames then allowedLabelsLoop rest out
    else
      let value := trimSpaceBytes value
      if value = [] then allowedLabelsLoop rest out
      else
        let out := out.insert key value
        if out.keys.length = 9 then out else allowedLabelsLoop rest out

def allowedLabels (labels : Labels) : Labels := allowedLabelsLoop labels.entries ∅

/-- What is kept of the value of a label: what the loop is for, label by label. -/
def keptValue (key : Bytes) (value : Option Bytes) : Option Bytes :=
  if key ∈ allowedNames then (value.filter fun value =>
    trimSpaceBytes value ≠ []).map trimSpaceBytes
  else none

/-! ## Recording -/

/-- The calls of a `Recorder`. -/
inductive Recording where
  | inc (name : Bytes) (labels : Labels)
  | observeDuration (name : Bytes) (duration : ℤ) (labels : Labels)
  | setGauge (name : Bytes) (value : ℤ) (labels : Labels)

def Recording.name : Recording → Bytes
  | .inc name _ => name
  | .observeDuration name _ _ => name
  | .setGauge name _ _ => name

def Recording.labels : Recording → Labels
  | .inc _ labels => labels
  | .observeDuration _ _ labels => labels
  | .setGauge _ _ labels => labels

/-- The value that is added; a duration is in nanoseconds and is added in seconds. -/
def Recording.value : Recording → ℚ
  | .inc _ _ => 1
  | .observeDuration _ duration _ => duration / 10 ^ 9
  | .setGauge _ value _ => value

/-- A sample with its name trimmed and its labels cut down. -/
structure Sample where
  name : Bytes
  labels : Labels
  value : ℚ

/-- The point of the sample's key with the sample. -/
def MetricPoint.add (point : MetricPoint) (s : Sample) : MetricPoint :=
  let point :=
    if !point.observed then
      { MetricPoint.zero with
        name := s.name, labels := s.labels, min := s.value, max := s.value, observed := true }
    else point
  let point := if s.value < point.min then { point with min := s.value } else point
  let point := if point.max < s.value then { point with max := s.value } else point
  { point with sum := point.sum + s.value, count := point.count + 1 }

/-- `r.points` -/
abbrev Points := KeyMap Bytes MetricPoint

/-- What `add` does while it holds the lock. -/
def Points.add (points : Points) (s : Sample) : Points :=
  let key := metricKey s.name s.labels
  let point := (points.lookup key).getD .zero
  points.insert key (point.add s)

/-- The one call that recording makes: the section under the lock. -/
def recordInterface : Interface := ⟨Sample, fun _ => Unit⟩

abbrev RecordProg := Prog recordInterface

/-- `add` -/
def record (r : Recording) : RecordProg Unit :=
  let name := trimSpaceBytes r.name
  if name = [] then return ()
  else Prog.perform (I := recordInterface) ⟨name, allowedLabels r.labels, r.value⟩

/-- The points after a recording. -/
def Points.record (points : Points) (r : Recording) : Points :=
  ((PasswordHook.record r).runWith (I := recordInterface) (fun s points =>
    (Points.add points s, ()))
    points).1

/-! ## Payloads -/

/-- `azureMonitorSeries`, with strings in `S`: Go strings, or those of a JSON document. -/
structure AzureMonitorSeries (S : Type) where
  dimValues : List S
  min : ℚ
  max : ℚ
  sum : ℚ
  count : ℕ
  deriving DecidableEq

structure AzureMonitorBaseData (S : Type) where
  metric : S
  metricsNamespace : String
  dimNames : List S
  series : List (AzureMonitorSeries S)
  deriving DecidableEq

structure AzureMonitorPayload (S : Type) where
  time : String
  baseData : AzureMonitorBaseData S
  deriving DecidableEq

/-- The document that `json.Marshal` writes; an omitted list is empty. -/
def AzureMonitorPayload.document (payload : AzureMonitorPayload Bytes) :
    AzureMonitorPayload String where
  time := payload.time
  baseData :=
    { metric := jsonText payload.baseData.metric
      metricsNamespace := payload.baseData.metricsNamespace
      dimNames := payload.baseData.dimNames.map jsonText
      series := payload.baseData.series.map fun s =>
        { s with dimValues := s.dimValues.map jsonText } }

structure MetricsRequest where
  endpoint : String
  authorization : String
  contentType : String
  /-- The value whose JSON is the body. -/
  payload : AzureMonitorPayload Bytes

/-! ## Flushing -/

inductive FlushCall where
  /-- The section under the lock: the points are taken out of the recorder. -/
  | takePoints
  | token
  | now
  /-- `json.Marshal` -/
  | marshal (payload : AzureMonitorPayload Bytes)
  /-- `http.NewRequestWithContext` -/
  | newRequest (endpoint : String)
  /-- `HTTPClient.Do` -/
  | doRequest (req : MetricsRequest)

def FlushCall.Resp : FlushCall → Type
  | .takePoints => List MetricPoint
  | .token => Except Err String
  | .now => Time
  | .marshal _ => Option Err
  | .newRequest _ => Option Err
  | .doRequest _ => Except Err ℤ

def flushInterface : Interface := ⟨FlushCall, FlushCall.Resp⟩

abbrev FlushProg := Prog flushInterface

abbrev FlushEvent := Event flushInterface

def FlushCall.perform (c : FlushCall) : FlushProg c.Resp := Prog.perform (I := flushInterface) c

/-- The key under which a point is grouped. -/
def MetricPoint.groupKey (point : MetricPoint) : Bytes :=
  let dimNames := sortedLabelNames point.labels
  point.name ++ 0 :: [0].intercalate dimNames

/-- The order of the points of a group.  Points of one map have different keys. -/
def sortGroup (group : List MetricPoint) : List MetricPoint :=
  group.insertionSort fun p q => metricKey p.name p.labels ≤ metricKey q.name q.labels

/-- The groups in the order of their keys, each in its order. -/
def sortedGroups (points : List MetricPoint) : List (List MetricPoint) :=
  let grouped := groups MetricPoint.groupKey points
  (sortStrings grouped.keys).map fun key => sortGroup ((grouped.lookup key).getD [])

variable (r : MetricRecorderOptions)

/-- The data of a group; a group has a first point. -/
def baseDataOf (points : List MetricPoint) : AzureMonitorBaseData Bytes :=
  let first := points.headD .zero
  let dimNames := sortedLabelNames first.labels
  { metric := first.name
    metricsNamespace := r.metricsNamespace
    dimNames := dimNames
    series := points.map fun point =>
      { dimValues := dimNames.map point.labels.get
        min := point.min
        max := point.max
        sum := point.sum
        count := point.count } }

def azureMonitorPayload (points : List MetricPoint) : FlushProg (AzureMonitorPayload Bytes) := do
  let now ← FlushCall.now.perform
  return { time := now.utc.formatRFC3339, baseData := baseDataOf r points }

/-- The payloads of the groups that are left. -/
def payloadsOf : List (List MetricPoint) → FlushProg (List (AzureMonitorPayload Bytes))
  | [] => return []
  | group :: rest => do
    let payload ← azureMonitorPayload r group
    let payloads ← payloadsOf rest
    return payload :: payloads

def azureMonitorPayloads (points : List MetricPoint) :
    FlushProg (List (AzureMonitorPayload Bytes)) :=
  payloadsOf r (sortedGroups points)

def metricsEndpoint : String :=
  String.ofList (r.endpointBaseURL.toList.rdropWhile (· == '/')) ++ "/" ++
    pathEscape r.resourceID ++
    "/metrics"

def metricsRequest (token : String) (payload : AzureMonitorPayload Bytes) : MetricsRequest where
  endpoint := metricsEndpoint r
  authorization := "Bearer " ++ token
  contentType := "application/json"
  payload := payload

def postPayload (token : String) (payload : AzureMonitorPayload Bytes) :
    FlushProg (Option Err) := do
  match ← (FlushCall.marshal payload).perform with
  | some err => return some (.wrap "marshal azure monitor metrics" err)
  | none =>
    match ← (FlushCall.newRequest (metricsEndpoint r)).perform with
    | some err => return some err
    | none =>
      match ← (FlushCall.doRequest (metricsRequest r token payload)).perform with
      | .error err => return some (.wrap "send azure monitor metrics" err)
      | .ok status =>
        return if status < 200 ∨ 300 ≤ status then
          some (.new ("send azure monitor metrics: status " ++ toString status))
        else none

/-- The loop of `Flush` over the payloads that are left. -/
def postPayloads (token : String) : List (AzureMonitorPayload Bytes) → FlushProg (Option Err)
  | [] => return none
  | payload :: rest => do
    match ← postPayload r token payload with
    | some err => return some err
    | none => postPayloads token rest

/-- `Flush`, and so `Close`. -/
def flush : FlushProg (Option Err) := do
  let points ← FlushCall.takePoints.perform
  if points.length = 0 then return none
  else if !r.tokenSource then return some (.new "azure monitor token source is required")
  else
    match ← FlushCall.token.perform with
    | .error err => return some (.wrap "get azure monitor token" err)
    | .ok token =>
      let payloads ← azureMonitorPayloads r points
      postPayloads r token payloads

end PasswordHook
