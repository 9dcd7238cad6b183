import PasswordHook.Handler.Serve
import PasswordHook.Http.Problem
import PasswordHook.Lib.Panic
import PasswordHook.Middleware.HMAC
import PasswordHook.Middleware.RateLimit

/-!
# The handlers of a hook request

The chain that `App` builds for `POST /api/v1/hook/password`: `requestid.Middleware`, `AccessLog`,
`Recovery`, `RateLimiter.Wrap`, `HMAC.Wrap` and `Hook.ServeHTTP`, with what each writes, counts and
logs.

The collaborators of the hook, the recorder and the logger may panic.  The response writer, the
clocks and the stores of the middleware do not.
-/

namespace PasswordHook

/-- The value of a panic. -/
structure Panic where
  value : String
  deriving DecidableEq

/-- The value of a log attribute. -/
inductive LogField where
  | string (s : String)
  | int (n : ℤ)
  | bool (b : Bool)
  deriving DecidableEq

/-- A buffer that holds the password of a request, plain or as JSON. -/
inductive PasswordBuffer where
  /-- The body that `HMAC.Wrap` read. -/
  | body
  /-- The body that the hook read. -/
  | rawBody
  /-- The field of the decoded request; `Submit` is given the same bytes. -/
  | password
  deriving DecidableEq

inductive ServeCall where
  /-- `rand.Read` of 16 bytes -/
  | rand
  /-- The clock of `AccessLog` before the request. -/
  | start
  /-- The clock of `AccessLog` after it. -/
  | since
  /-- The clock of the rate limiter. -/
  | limiterNow
  | allow (key : String) (now : Time)
  | hmac (c : HmacCall)
  | hook (c : HookCall)
  | inc (name : String) (labels : List (String × String))
  | logAttrs (action : String) (attrs : List (String × LogField))
  /-- `log.Info("request", …)` -/
  | logRequest (attrs : List (String × LogField))
  /-- `w.Header().Set` -/
  | setHeader (name value : String)
  | writeHeader (status : ℕ)
  /-- `json.NewEncoder(w).Encode` -/
  | encode (p : Problem)
  | zero (buffer : PasswordBuffer)
  deriving DecidableEq

def ServeCall.Resp : ServeCall → Type
  | .rand => Except Err (Fin 16 → UInt8)
  | .start => Time
  | .since => Time
  | .limiterNow => Time
  | .allow _ _ => Bool
  | .hmac c => c.Resp
  | .hook c => Except Panic c.Resp
  | .inc _ _ => Except Panic Unit
  | .logAttrs _ _ => Except Panic Unit
  | .logRequest _ => Except Panic Unit
  | .setHeader _ _ => Unit
  | .writeHeader _ => Unit
  | .encode _ => Unit
  | .zero _ => Unit

def serveInterface : Interface := ⟨ServeCall, ServeCall.Resp⟩

abbrev ServeProg := Risky serveInterface Panic

abbrev ServeEvent := Event serveInterface

theorem serve_resp_nonempty (c : serveInterface.Call) : Nonempty (serveInterface.Resp c) := by
  cases c with
  | rand => exact ⟨(.error .nil : Except Err (Fin 16 → UInt8))⟩
  | start => exact ⟨Time.zero⟩
  | since => exact ⟨Time.zero⟩
  | limiterNow => exact ⟨Time.zero⟩
  | allow key now => exact ⟨true⟩
  | hmac c => cases c <;> first | exact ⟨Time.zero⟩ | exact ⟨true⟩
  | hook c => exact ⟨(.error ⟨""⟩ : Except Panic c.Resp)⟩
  | inc name labels => exact ⟨(.ok () : Except Panic Unit)⟩
  | logAttrs action attrs => exact ⟨(.ok () : Except Panic Unit)⟩
  | logRequest attrs => exact ⟨(.ok () : Except Panic Unit)⟩
  | _ => exact ⟨()⟩

def ServeCall.perform (c : ServeCall) :
    Prog serveInterface c.Resp := Prog.perform (I := serveInterface) c

namespace Serve

open Risky

def inc (name : String) (labels : List (String × String)) : ServeProg Unit :=
  risk (ServeCall.inc name labels).perform

def logAttrs (action : String) (attrs : List (String × LogField)) : ServeProg Unit :=
  risk (ServeCall.logAttrs action attrs).perform

def writeHeader (status : ℕ) : ServeProg Unit := safely (ServeCall.writeHeader status).perform

/-- `problem.Write` -/
def writeProblem (p : Problem) : ServeProg Unit := safely do
  (ServeCall.setHeader "Content-Type" "application/problem+json").perform
  (ServeCall.writeHeader p.status).perform
  (ServeCall.encode p).perform

def zero (buffer : PasswordBuffer) : Prog serveInterface Unit := (ServeCall.zero buffer).perform

/-! ## Outcomes -/

def metricHookRequestsTotal : String := "hook_requests_total"

def metricMigrationSkippedTotal : String := "migration_skipped_total"

def metricMiddlewareRequestsTotal : String := "middleware_requests_total"

def actionHookAccepted : String := "hook_password_sync_accepted"

def actionHookSkipped : String := "hook_password_sync_skipped"

def actionHookRejected : String := "hook_password_sync_rejected"

def actionMiddlewareRejected : String := "middleware_request_rejected"

def actionMiddlewareRecovered : String := "middleware_panic_recovered"

/-- A member of a map or of a list of attributes that is left out if the value is empty. -/
def ifSet {α : Type} (name value : String) (f : String → α) : List (String × α) :=
  if value ≠ "" then [(name, f value)] else []

/-- `SafeIdentityAttrs` -/
def safeIdentity (traceID cn upn eventType identityType : String) : List (String × LogField) :=
  ifSet "traceId" traceID .string ++ ifSet "cn" cn .string ++ ifSet "upn" upn .string ++
    ifSet "eventType" eventType .string ++ ifSet "identityType" identityType .string

section Outcomes

variable (traceID : String)

def recordMiddlewareOutcome (middlewareName : String) (status : ℕ) (outcome reason : String)
    (extra : List (String × LogField)) : ServeProg Unit := do
  inc metricMiddlewareRequestsTotal
    ([("middleware", middlewareName), ("status", toString status), ("outcome", outcome)] ++
      ifSet "reason" reason id)
  let action := if outcome = "panic_recovered" then actionMiddlewareRecovered
    else actionMiddlewareRejected
  logAttrs action
    ([("action", .string action), ("traceId", .string traceID),
      ("middleware", .string middlewareName),
      ("status", .int status), ("outcome", .string outcome)] ++ ifSet "reason" reason .string ++
        extra)

/-- `recordRejected` of the hook. -/
def recordRejected (status : ℕ) (outcome : String) (eventType : EventType) : ServeProg Unit := do
  inc metricHookRequestsTotal
    ([("status", toString status), ("outcome", outcome)] ++ ifSet "eventType" eventType.text id)
  logAttrs actionHookRejected
    ([("action", .string actionHookRejected), ("status", .int status),
      ("outcome", .string outcome)] ++
      safeIdentity traceID "" "" eventType.text "")

/-- `string(decision.IdentityType)` -/
def identityText : Option IdentityType → String
  | none => ""
  | some .unknown => "unknown"
  | some .studentID => "student_id"
  | some .employeeID => "employee_id"
  | some .externalEmail => "external_email"

def outcomeText (decision : Decision) : String :=
  if decision.skipped then "skipped" else if decision.enqueued then "enqueued" else "accepted"

/-- The labels of `recordDecision`. -/
def decisionLabels (status : ℕ) (eventType : EventType) (decision : Decision) :
    List (String × String) :=
  [("status", toString status), ("outcome", outcomeText decision), ("eventType", eventType.text),
    ("identityType", identityText decision.identityType)] ++ ifSet "reason" decision.reason id

def recordDecision (status : ℕ) (eventType : EventType) (decision : Decision) : ServeProg Unit := do
  let labels := decisionLabels status eventType decision
  inc metricHookRequestsTotal labels
  if decision.skipped then inc metricMigrationSkippedTotal labels
  let action := if decision.skipped then actionHookSkipped else actionHookAccepted
  logAttrs action
    ([("action", .string action), ("outcome", .string (outcomeText decision)),
      ("status", .int status)] ++
      safeIdentity traceID "" decision.upn eventType.text (identityText decision.identityType) ++
      ifSet "reason" decision.reason .string)

end Outcomes

end Serve

/-- `err.Error()` -/
def Err.text : Err → String
  | .nil => ""
  | .new msg => msg
  | .canceled => "context canceled"
  | .wrap msg err => msg ++ ": " ++ err.text
  | .join err₁ err₂ => err₁.text ++ "\n" ++ err₂.text
  | .permanent reason err =>
    if err = .nil then reason else if trimSpace reason = "" then err.text
      else reason ++ ": " ++ err.text
  | .graphPermanent statusCode operation err =>
    graphErrorString "permanent graph error" statusCode operation err err.text
  | .graphTransient statusCode operation err =>
    graphErrorString "transient graph error" statusCode operation err err.text
where
  /-- `graphErrorString`, with the text of the error. -/
  graphErrorString (prefixText : String) (statusCode : ℤ) (operation : String) (err : Err)
      (errText : String) : String :=
    prefixText ++ (if operation ≠ "" then " during " ++ operation else "") ++
      (if statusCode ≠ 0 then ": status " ++ toString statusCode else "") ++
      (if err ≠ .nil then ": " ++ errText else "")

namespace Serve

open Risky

/-! ## The hook -/

/-- A call of a collaborator of the hook. -/
def hookCall (c : HookCall) : ServeProg c.Resp := risk (ServeCall.hook c).perform

section Hook

variable (grow : ℕ → ℕ → ℕ) (heap : Heap) (U : Unicode) (svc : Service)
  (problemBaseURL traceID path : String)

/-- `Service.Submit`; the password is zeroed on the way out. -/
def submit (req : Request) : ServeProg (Decision × Option Err) :=
  deferring (zero .password) (lift hookCall (submitBody U svc traceID req))

/-- The hook after `Submit`. -/
def serveResult (eventType : EventType) (result : Decision × Option Err) : ServeProg Unit :=
  match result.2 with
  | some err =>
    if err.is errUnknownIdentity || err.is errExternalIdentity then do
      recordRejected traceID 400 "validation_error" eventType
      writeProblem (.validation problemBaseURL path traceID err.text)
    else do
      recordRejected traceID 500 "accept_error" eventType
      writeProblem (.internal problemBaseURL path traceID "failed to accept password sync request")
  | none => do
    recordDecision traceID 202 eventType result.1
    writeHeader 202

/-- The password that decoding the request leaves in its field. -/
def decodedPassword (r : HookPost) : Bytes :=
  passwordOf (r.passwordValues.foldl (unmarshalPasswordTo grow) (heap, none))

def requestOf (r : HookPost) : Request where
  cn := r.cn
  eventType := r.eventType
  password := decodedPassword grow heap r
  displayName := r.displayName
  mail := r.mail

/-- The hook from the unmarshalling on. -/
def serveBody (r : HookPost) : ServeProg Unit :=
  if r.unmarshalErr ≠ none then do
    recordRejected traceID 400 "validation_error" ⟨""⟩
    writeProblem (.validation problemBaseURL path traceID "request body must be valid json")
  else
    let detail := r.validate (decodedPassword grow heap r).length
    if detail ≠ "" then do
      recordRejected traceID 400 "validation_error" r.eventType
      writeProblem (.validation problemBaseURL path traceID detail)
    else do
      let result ← submit U svc traceID (requestOf grow heap r)
      serveResult problemBaseURL traceID path r.eventType result

/-- `Hook.ServeHTTP`, with `problemBaseURL` as `NewHook` keeps it. -/
def serveHTTP (r : HookPost) : ServeProg Unit :=
  if r.method ≠ "POST" then do
    recordRejected traceID 405 "method_not_allowed" ⟨""⟩
    writeHeader 405
  else deferring (zero .rawBody) <|
    if r.readErr ≠ none then do
      recordRejected traceID 400 "validation_error" ⟨""⟩
      writeProblem (.validation problemBaseURL path traceID "request body must be readable")
    else deferring (zero .password)
      (serveBody grow heap U svc problemBaseURL traceID path r)

end Hook

/-! ## The middleware -/

/-- The base URL of the middleware that have a default for it. -/
def orDefaultBase (problemBase : String) : String :=
  if trimSpace problemBase = "" then Problem.defaultBaseURL else problemBase

section Middleware

variable (problemBase traceID path : String)

/-- The answer of `HMAC.Wrap` to a request that is not forwarded. -/
def rejectUnauthentic (why : Rejection) : ServeProg Unit :=
  match why with
  | .tooLarge => do
    recordMiddlewareOutcome traceID "hmac" 413 "payload_too_large" "request_body_too_large" []
    writeProblem
      (.payloadTooLarge (orDefaultBase problemBase) path traceID "request body is too large")
  | why => do
    recordMiddlewareOutcome traceID "hmac" 401 "unauthorized" why.reason []
    writeProblem
      (.unauthorized (orDefaultBase problemBase) path traceID "request authentication failed")

def authenticated (next : Bytes → ServeProg Unit) : Verdict → ServeProg Unit
  | .forwarded body => next body
  | .rejected why => rejectUnauthentic problemBase traceID path why

/-- A call of `HMAC.Wrap`. -/
def hmacCall (c : HmacCall) : ServeProg c.Resp := safely (ServeCall.hmac c).perform

/-- `HMAC.Wrap` -/
def authenticate (m : HMAC) (mac : Bytes → Bytes → Bytes) (r : HookRequest)
    (next : Bytes → ServeProg Unit) :
    ServeProg Unit :=
  deferring (zero .body) do
    let verdict ← lift hmacCall (m.wrap mac r)
    authenticated problemBase traceID path next verdict

def sourceIPResolutionAttrs (resolution : SourceIPResolution) : List (String × LogField) :=
  [("peerTrusted", .bool resolution.peerTrusted),
    ("forwardedHeaderCount", .int resolution.forwardedHeaderCount),
    ("forwardedHopCount", .int resolution.forwardedHopCount),
    ("sourceResolution", .string resolution.sourceResolution.text)] ++
    (if resolution.peerIP ≠ [] then [("peerIp", .string (ipString resolution.peerIP))] else []) ++
    if resolution.resolvedClientIP ≠ [] then
      [("resolvedClientIp", .string (ipString resolution.resolvedClientIP))] else []

/-- `RateLimiter.Wrap` -/
def limitRate (l : RateLimiter) (r : SourceRequest) (next : ServeProg Unit) : ServeProg Unit :=
  let resolution := l.resolveSourceIP r
  if !l.sourceAllowed resolution.resolvedClientIP then do
    recordMiddlewareOutcome traceID "ratelimit" 401 "unauthorized" "source_ip_not_allowed"
      (sourceIPResolutionAttrs resolution)
    writeProblem (.unauthorized problemBase path traceID "source ip is not allowed")
  else do
    let now : Time ← safely ServeCall.limiterNow.perform
    let allowed : Bool ← safely
      (ServeCall.allow (RateLimiter.rateKey resolution.resolvedClientIP) now).perform
    if !allowed then do
      recordMiddlewareOutcome traceID "ratelimit" 429 "rate_limited" "request_rate_exceeded" []
      writeProblem (.tooManyRequests problemBase path traceID "request rate exceeded")
    else next

/-- `RecoveryWithOptions` -/
def recovery (next : ServeProg Unit) : ServeProg Unit :=
  recovering (fun _ => do
    recordMiddlewareOutcome traceID "recovery" 500 "panic_recovered" "panic" []
    writeProblem (.internal (orDefaultBase problemBase) path traceID "unexpected server error"))
      next

/-- The field `status` of `statusRecorder`. -/
def recordStatus (status : ℕ) (e : ServeEvent) : ℕ :=
  match e.call with
  | .writeHeader status => status
  | .encode _ => if status = 0 then 200 else status
  | _ => status

/-- The record of `AccessLog`. -/
def logRequest (method : String) (start : Time) (recorded : ℕ) : ServeProg Unit := do
  let now : Time ← safely ServeCall.since.perform
  risk (ServeCall.logRequest
    [("traceId", .string traceID), ("method", .string method), ("path", .string path),
      ("status", .int (if recorded = 0 then 200 else recorded)),
      ("durationMs", .int ((now.sub start).tdiv millisecond))]).perform

def accessLog (method : String) (next : ServeProg Unit) : ServeProg Unit := do
  let start : Time ← safely ServeCall.start.perform
  let recorded ← watching recordStatus 0 next
  logRequest traceID path method start recorded

end Middleware

/-- `requestid.New`, from the random bytes. -/
def newRequestID : Except Err (Fin 16 → UInt8) → String
  | .ok bytes => String.ofList (hexEncode (List.ofFn bytes))
  | .error _ => "unknown"

/-- The request ID: the one of the header or a new one. -/
def requestIDOf (header : String) : ServeProg String :=
  if trimSpace header = "" then do
    let bytes : Except Err (Fin 16 → UInt8) ← safely ServeCall.rand.perform
    return newRequestID bytes
  else return trimSpace header

/-- `requestid.Middleware` -/
def withRequestID (header : String) (next : String → ServeProg Unit) : ServeProg Unit := do
  let id ← requestIDOf header
  safely (ServeCall.setHeader "X-Request-ID" id).perform
  next id

end Serve

/-! ## The chain -/

/-- A request to the hook; the header with the request ID and the path are valid UTF-8. -/
structure IncomingRequest where
  method : String
  path : String
  requestID : String
  source : SourceRequest
  signed : HookRequest

/-- What `newWithQueueWithRecorder` wires. -/
structure HookServer where
  problemBaseURL : String
  service : Service
  hmac : HMAC
  rateLimiter : RateLimiter

namespace HookServer

open Serve

variable (a : HookServer) (mac : Bytes → Bytes → Bytes) (unmarshal : Bytes → HookPost)
  (grow : ℕ → ℕ → ℕ) (heap : Heap) (U : Unicode)

/-- What the hook sees: the body that was checked is read to its end, and unmarshalled. -/
def postOf (r : IncomingRequest) (body : Bytes) : HookPost :=
  { unmarshal body with method := r.method, readErr := none }

def hook (r : IncomingRequest) (traceID : String) (body : Bytes) : ServeProg Unit :=
  serveHTTP grow heap U a.service (Problem.trimRightSlash a.problemBaseURL) traceID r.path
    (postOf unmarshal r body)

/-- The chain inside of `AccessLog`. -/
def recovered (r : IncomingRequest) (traceID : String) : ServeProg Unit :=
  recovery a.problemBaseURL traceID r.path <|
    limitRate a.problemBaseURL traceID r.path a.rateLimiter r.source <|
      authenticate a.problemBaseURL traceID r.path a.hmac mac r.signed <|
        a.hook unmarshal grow heap U r traceID

/-- The handler of `POST /api/v1/hook/password`. -/
def handle (r : IncomingRequest) : ServeProg Unit :=
  withRequestID r.requestID fun traceID =>
    accessLog traceID r.path r.method (a.recovered mac unmarshal grow heap U r traceID)

end HookServer

end PasswordHook
