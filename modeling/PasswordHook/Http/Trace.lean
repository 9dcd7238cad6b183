import PasswordHook.Delivery.Agreement
import PasswordHook.Http.Chain
import PasswordHook.Middleware.Freshness

/-!
# One request ID

The response header, the problem document, every log record and the message on the queue carry the
same request ID (`one_request_id`), if the header of the request is valid UTF-8: JSON replaces other
bytes.
-/

namespace PasswordHook

open Prog Serve

/-- The record has this request ID and no other. -/
structure ShowsID (traceID : String) (attrs : List (String × LogField)) : Prop where
  shown : ("traceId", LogField.string traceID) ∈ attrs
  unique : ∀ value, ("traceId", value) ∈ attrs → value = .string traceID

/-- A call that shows the request ID shows this one; every log record does. -/
def Traced (traceID : String) : ServeCall → Prop
  | .logAttrs _ attrs => ShowsID traceID attrs
  | .logRequest attrs => ShowsID traceID attrs
  | .encode p => p.traceID = traceID
  | .setHeader name value => name = "X-Request-ID" → value = traceID
  | .hook (.enqueuePasswordSync msg) => msg.traceID = traceID
  | _ => True

section

variable {traceID : String}

/-! ## `Submit` -/

/-- A message of the hook has the request ID. -/
def MessageTraced (traceID : String) : HookCall → Prop
  | .enqueuePasswordSync msg => msg.traceID = traceID
  | _ => True

theorem only_submitStamped {svc : Service} {req : Request} {decision : Decision} {upn : String}
    {enqueuedAt : Time} :
    (submitStamped svc traceID req decision upn enqueuedAt).Only (MessageTraced traceID) := by
  refine ⟨True.intro, fun (r : Except Err Envelope) => ?_⟩
  cases r with
  | error err => exact True.intro
  | ok env =>
    refine ⟨rfl, fun (err : Option Err) => ?_⟩
    cases err with
    | some err => exact True.intro
    | none =>
      show Prog.Only _ (if svc.syncStatusStore = true then _ else _)
      split_ifs
      · exact ⟨True.intro, fun _ => True.intro⟩
      · exact True.intro

theorem only_submitEnqueue {svc : Service} {req : Request} {decision : Decision} {upn : String} :
    (submitEnqueue svc traceID req decision upn).Only (MessageTraced traceID) := by
  unfold submitEnqueue
  split_ifs
  · exact True.intro
  · exact True.intro
  · exact ⟨True.intro, fun _ => only_submitStamped⟩

theorem only_skipLoginBootstrap {svc : Service} {upn : String} :
    (skipLoginBootstrap svc upn).Only (MessageTraced traceID) := by
  refine ⟨True.intro, fun (r : Except Err Record) => ?_⟩
  cases r with
  | error err => exact True.intro
  | ok record =>
    obtain ⟨status, _, _⟩ := record
    cases status with
    | pending =>
      refine ⟨True.intro, fun now => ?_⟩
      show Prog.Only _ (if _ then _ else if _ then _ else _)
      split_ifs <;> exact True.intro
    | _ => exact True.intro

theorem only_submitAccount {svc : Service} {req : Request} {decision : Decision} {upn : String} :
    (submitAccount svc traceID req decision upn).Only (MessageTraced traceID) := by
  unfold submitAccount
  split_ifs
  · refine only_skipLoginBootstrap.bind fun reason => ?_
    cases reason with
    | none => exact only_submitEnqueue
    | some reason => exact True.intro
  · exact only_submitEnqueue

theorem only_submitBody {U : Unicode} {svc : Service} {req : Request} :
    (submitBody U svc traceID req).Only (MessageTraced traceID) := by
  unfold submitBody
  generalize classifyCN U req.cn = identityType
  dsimp only
  split_ifs
  · exact True.intro
  · exact True.intro
  · exact True.intro
  cases buildUPN U req.cn svc.primaryDomain with
  | error err => exact True.intro
  | ok upn => exact only_submitAccount

/-! ## The hook -/

open Risky

theorem only_inc {name : String} {labels : List (String × String)} :
    (inc name labels).Only (Traced traceID) :=
  only_perform True.intro

/-- Attributes without a request ID. -/
def Silent (attrs : List (String × LogField)) : Prop := ∀ value, ("traceId", value) ∉ attrs

theorem Silent.cons {attrs : List (String × LogField)} (h : Silent attrs) {name : String}
    (hname : "traceId" ≠ name) (value : LogField) : Silent ((name, value) :: attrs) := by
  intro value' hmem
  rcases List.mem_cons.1 hmem with heq | hmem
  · exact hname (Prod.mk.inj heq).1
  · exact h value' hmem

theorem silent_nil : Silent [] := fun _ => List.not_mem_nil

theorem Silent.append {xs ys : List (String × LogField)} (hx : Silent xs) (hy : Silent ys) :
    Silent (xs ++ ys) := fun value hmem => (List.mem_append.1 hmem).elim (hx value) (hy value)

theorem silent_ifSet {name : String} (hname : "traceId" ≠ name) (value : String)
    (f : String → LogField) : Silent (ifSet name value f) := by
  unfold ifSet
  split_ifs
  · exact silent_nil.cons hname _
  · exact silent_nil

/-- The request ID between attributes without one. -/
theorem showsID_between {before after : List (String × LogField)} (hbefore : Silent before)
    (hafter : Silent after) :
    ShowsID traceID (before ++ ("traceId", .string traceID) :: after) := by
  refine ⟨by simp, fun value hmem => ?_⟩
  rcases List.mem_append.1 hmem with hmem | hmem
  · exact absurd hmem (hbefore value)
  · rcases List.mem_cons.1 hmem with heq | hmem
    · exact (Prod.mk.inj heq).2
    · exact absurd hmem (hafter value)

theorem only_logAttrs {action : String} {attrs : List (String × LogField)}
    (h : ShowsID traceID attrs) : (logAttrs action attrs).Only (Traced traceID) :=
  only_perform h

theorem only_writeHeader {status : ℕ} : (writeHeader status).Only (Traced traceID) :=
  only_safely (only_perform True.intro)

theorem only_writeProblem {p : Problem} (h : p.traceID = traceID) :
    (writeProblem p).Only (Traced traceID) :=
  only_safely ⟨fun h => absurd h (by decide), fun _ => ⟨True.intro, fun _ => only_perform h⟩⟩

theorem only_zero {buffer : PasswordBuffer} : (zero buffer).Only (Traced traceID) :=
  only_perform True.intro

theorem only_recordMiddlewareOutcome {name outcome reason : String} {status : ℕ}
    {extra : List (String × LogField)} (hextra : Silent extra) :
    (recordMiddlewareOutcome traceID name status outcome reason extra).Only (Traced traceID) := by
  refine only_inc.bind fun _ => only_logAttrs ?_
  have hrest : Silent ([("middleware", .string name), ("status", .int status),
      ("outcome", .string outcome)] ++ ifSet "reason" reason .string ++ extra) :=
    ((((silent_nil.cons (by decide) _).cons (by decide) _).cons (by decide) _).append
      (silent_ifSet (by decide) _ _)).append hextra
  have hbefore : ∀ action, Silent [("action", .string action)] := fun _ =>
    silent_nil.cons (by decide) _
  exact showsID_between (hbefore _) hrest

/-- The attributes of an identity have the request ID only if it is not empty. -/
theorem showsID_safeIdentity (htrace : traceID ≠ "") (cn upn eventType identityType : String)
    {before after : List (String × LogField)} (hbefore : Silent before) (hafter : Silent after) :
    ShowsID traceID (before ++ safeIdentity traceID cn upn eventType identityType ++ after) := by
  have hid : ifSet "traceId" traceID LogField.string = [("traceId", .string traceID)] :=
    if_pos htrace
  have hrest : Silent (ifSet "cn" cn .string ++ ifSet "upn" upn .string ++
      ifSet "eventType" eventType .string ++ ifSet "identityType" identityType .string ++ after) :=
    ((((silent_ifSet (by decide) _ _).append (silent_ifSet (by decide) _ _)).append
      (silent_ifSet (by decide) _ _)).append (silent_ifSet (by decide) _ _)).append hafter
  have hshown : ShowsID traceID _ := showsID_between hbefore hrest
  simpa only [safeIdentity, hid, List.append_assoc, List.cons_append, List.nil_append] using hshown

variable (htrace : traceID ≠ "")
include htrace

theorem only_recordRejected {status : ℕ} {outcome : String} {eventType : EventType} :
    (recordRejected traceID status outcome eventType).Only (Traced traceID) :=
  only_inc.bind fun _ => only_logAttrs <| by
    have hbefore : Silent [("action", .string actionHookRejected), ("status", .int status),
        ("outcome", .string outcome)] :=
      ((silent_nil.cons (by decide) _).cons (by decide) _).cons (by decide) _
    simpa using showsID_safeIdentity htrace "" "" eventType.text "" hbefore silent_nil

theorem only_recordDecision {status : ℕ} {eventType : EventType} {decision : Decision} :
    (recordDecision traceID status eventType decision).Only (Traced traceID) := by
  have hlog : ∀ action, (logAttrs action
      ([("action", .string action), ("outcome", .string (outcomeText decision)),
        ("status", .int status)] ++
        safeIdentity traceID "" decision.upn eventType.text (identityText decision.identityType) ++
        ifSet "reason" decision.reason .string)).Only (Traced traceID) := fun action =>
    only_logAttrs <| showsID_safeIdentity htrace _ _ _ _
      (((silent_nil.cons (by decide) _).cons (by decide) _).cons (by decide) _)
      (silent_ifSet (by decide) _ _)
  unfold recordDecision
  refine only_inc.bind fun _ => ?_
  split_ifs
  · exact only_inc.bind fun _ => hlog _
  · exact (only_pure ()).bind fun _ => hlog _

omit htrace in
theorem only_hookCall {c : HookCall} (h : MessageTraced traceID c) :
    (hookCall c).Only (Traced traceID) := by
  cases c <;> exact only_perform h

omit htrace in
theorem only_submit {U : Unicode} {svc : Service} {req : Request} :
    (Serve.submit U svc traceID req).Only (Traced traceID) :=
  (only_lift (fun _ => only_hookCall) only_submitBody).deferring only_zero

theorem only_serveResult {problemBaseURL path : String} {eventType : EventType}
    {result : Decision × Option Err} :
    (serveResult problemBaseURL traceID path eventType result).Only (Traced traceID) := by
  obtain ⟨decision, err⟩ := result
  cases err with
  | none => exact (only_recordDecision htrace).bind fun _ => only_writeHeader
  | some err =>
    show Risky.Only _ (if _ then _ else _)
    split_ifs
    · exact (only_recordRejected htrace).bind fun _ => only_writeProblem rfl
    · exact (only_recordRejected htrace).bind fun _ => only_writeProblem rfl

theorem only_serveBody {grow : ℕ → ℕ → ℕ} {heap : Heap} {U : Unicode} {svc : Service}
    {problemBaseURL path : String} {r : HookPost} :
    (serveBody grow heap U svc problemBaseURL traceID path r).Only (Traced traceID) := by
  unfold serveBody
  generalize r.validate (decodedPassword grow heap r).length = detail
  dsimp only
  split_ifs
  · exact (only_recordRejected htrace).bind fun _ => only_writeProblem rfl
  · exact (only_recordRejected htrace).bind fun _ => only_writeProblem rfl
  · exact only_submit.bind fun _ => only_serveResult htrace

theorem only_serveHTTP {grow : ℕ → ℕ → ℕ} {heap : Heap} {U : Unicode} {svc : Service}
    {problemBaseURL path : String} {r : HookPost} :
    (serveHTTP grow heap U svc problemBaseURL traceID path r).Only (Traced traceID) := by
  unfold serveHTTP
  split_ifs
  · exact (only_recordRejected htrace).bind fun _ => only_writeHeader
  · exact ((only_recordRejected htrace).bind fun _ => only_writeProblem rfl).deferring only_zero
  · exact ((only_serveBody htrace).deferring only_zero).deferring only_zero

/-! ## The middleware -/

omit htrace in
theorem only_rejectUnauthentic {problemBase path : String} {why : Rejection} :
    (rejectUnauthentic problemBase traceID path why).Only (Traced traceID) := by
  cases why <;> exact (only_recordMiddlewareOutcome silent_nil).bind fun _ => only_writeProblem rfl

omit htrace in
theorem only_hmacCall {c : HmacCall} : (hmacCall c).Only (Traced traceID) :=
  only_safely (only_perform True.intro)

omit htrace in
theorem only_authenticate {problemBase path : String} {m : HMAC} {mac : Bytes → Bytes → Bytes}
    {r : HookRequest} {next : Bytes → ServeProg Unit}
    (hnext : ∀ body, (next body).Only (Traced traceID)) :
    (authenticate problemBase traceID path m mac r next).Only (Traced traceID) := by
  have hwrap : (Risky.lift hmacCall (m.wrap mac r)).Only (Traced traceID) :=
    only_lift (fun _ _ => only_hmacCall) (only_true _)
  refine (hwrap.bind fun verdict => ?_).deferring only_zero
  cases verdict with
  | forwarded body => exact hnext body
  | rejected why => exact only_rejectUnauthentic

omit htrace in
theorem silent_sourceIPResolutionAttrs (resolution : SourceIPResolution) :
    Silent (sourceIPResolutionAttrs resolution) := by
  intro value hmem
  unfold sourceIPResolutionAttrs at hmem
  split_ifs at hmem <;> simp at hmem

omit htrace in
theorem only_limitRate {problemBase path : String} {l : RateLimiter} {r : SourceRequest}
    {next : ServeProg Unit} (hnext : next.Only (Traced traceID)) :
    (limitRate problemBase traceID path l r next).Only (Traced traceID) := by
  unfold limitRate
  dsimp only
  split_ifs
  · exact (only_recordMiddlewareOutcome (silent_sourceIPResolutionAttrs _)).bind fun _ =>
      only_writeProblem rfl
  · refine (only_safely (only_perform True.intro)).bind fun now => ?_
    refine (only_safely (only_perform True.intro)).bind fun allowed => ?_
    split_ifs
    · exact (only_recordMiddlewareOutcome silent_nil).bind fun _ => only_writeProblem rfl
    · exact hnext

omit htrace in
theorem only_recovery {problemBase path : String} {next : ServeProg Unit}
    (hnext : next.Only (Traced traceID)) :
    (recovery problemBase traceID path next).Only (Traced traceID) :=
  hnext.recovering fun _ =>
    (only_recordMiddlewareOutcome silent_nil).bind fun _ => only_writeProblem rfl

omit htrace in
theorem only_accessLog {path method : String} {next : ServeProg Unit}
    (hnext : next.Only (Traced traceID)) :
    (accessLog traceID path method next).Only (Traced traceID) := by
  refine (only_safely (only_perform True.intro)).bind fun _ => ?_
  refine (hnext.watching recordStatus 0).bind fun _ => ?_
  refine (only_safely (only_perform True.intro)).bind fun _ => ?_
  have hrest : ∀ status duration, Silent [("method", .string method), ("path", .string path),
      ("status", .int status), ("durationMs", .int duration)] := fun _ _ =>
    (((silent_nil.cons (by decide) _).cons (by decide) _).cons (by decide) _).cons (by decide) _
  exact only_perform (showsID_between silent_nil (hrest _ _))

end

/-! ## The chain -/

section

variable {a : HookServer} {mac : Bytes → Bytes → Bytes} {unmarshal : Bytes → HookPost}
  {grow : ℕ → ℕ → ℕ} {heap : Heap} {U : Unicode} {r : IncomingRequest} {traceID : String}

theorem only_recovered (htrace : traceID ≠ "") :
    (a.recovered mac unmarshal grow heap U r traceID).Only (Traced traceID) :=
  only_recovery (only_limitRate (only_authenticate fun _ => only_serveHTTP htrace))

theorem newRequestID_ne (bytes : Except Err (Fin 16 → UInt8)) : newRequestID bytes ≠ "" := by
  cases bytes with
  | error err =>
    show "unknown" ≠ ""
    decide
  | ok bytes =>
    intro h
    have hnil : hexEncode (List.ofFn bytes) = hexEncode [] := by
      have hlist := congrArg String.toList h
      rwa [newRequestID, String.toList_ofList] at hlist
    exact absurd (congrArg List.length (hexEncode_inj hnil)) (by simp)

/-- Which request ID a request gets, and what is called for it. -/
inductive Identifies (header : String) : List ServeEvent → String → Prop
  | given (h : trimSpace header ≠ "") : Identifies header [] (trimSpace header)
  | fresh (h : trimSpace header = "") (bytes : Except Err (Fin 16 → UInt8)) :
    Identifies header [⟨ServeCall.rand, bytes⟩] (newRequestID bytes)

theorem Identifies.ne {header : String} {lead : List ServeEvent}
    (h : Identifies header lead traceID) :
    traceID ≠ "" := by
  cases h with
  | given h => exact h
  | fresh h bytes => exact newRequestID_ne bytes

theorem Identifies.traced {header : String} {lead : List ServeEvent}
    (h : Identifies header lead traceID) :
    ∀ e ∈ lead, Traced traceID e.call := by
  cases h with
  | given h => exact fun e he => absurd he List.not_mem_nil
  | fresh h bytes =>
    rintro e he
    obtain rfl := List.mem_singleton.1 he
    exact True.intro

/-- The request ID is set in the response header. -/
def identified (traceID : String) : ServeEvent := ⟨ServeCall.setHeader "X-Request-ID" traceID, ()⟩

theorem runs_handle {τ : List ServeEvent} {result : Except Panic Unit}
    (run : (a.handle mac unmarshal grow heap U r).Runs τ result) :
    ∃ lead traceID rest, Identifies r.requestID lead traceID ∧
      τ = lead ++ identified traceID :: rest ∧
      (accessLog traceID r.path r.method (a.recovered mac unmarshal grow heap U r traceID)).Runs
        rest result := by
  by_cases hheader : trimSpace r.requestID = ""
  · rw [HookServer.handle, withRequestID, requestIDOf, if_pos hheader] at run
    obtain ⟨bytes, τ', rfl, hset⟩ := exec_call_iff.1 run
    obtain ⟨_, rest, rfl, hrest⟩ := exec_call_iff.1 hset
    exact ⟨_, _, rest, .fresh hheader bytes, rfl, hrest⟩
  · rw [HookServer.handle, withRequestID, requestIDOf, if_neg hheader] at run
    obtain ⟨_, rest, rfl, hrest⟩ := exec_call_iff.1 run
    exact ⟨_, _, rest, .given hheader, rfl, hrest⟩

/-- The response header, the problem document, the log records and the message on the queue show one
request ID, which is not empty and is set before anything else is done but to read random bytes for
it.  The header of the request is a string here, hence valid UTF-8. -/
theorem one_request_id {τ : List ServeEvent} {q : Prog serveInterface (Except Panic Unit)}
    (steps : Steps (a.handle mac unmarshal grow heap U r) τ q) :
    ∃ lead traceID, Identifies r.requestID lead traceID ∧ traceID ≠ "" ∧
      (∀ e ∈ τ, Traced traceID e.call) ∧ (τ <+: lead ∨ lead ++ [identified traceID] <+: τ) := by
  obtain ⟨τ', result, run⟩ := steps.exists_exec serve_resp_nonempty
  obtain ⟨lead, traceID, rest, hid, hτ, hrest⟩ := runs_handle run
  have htraced : ∀ e ∈ τ ++ τ', Traced traceID e.call := by
    rw [hτ]
    refine List.forall_mem_append.2 ⟨hid.traced, List.forall_mem_cons.2 ⟨fun _ => rfl, ?_⟩⟩
    exact (only_accessLog (only_recovered hid.ne)).runs hrest
  refine ⟨lead, traceID, hid, hid.ne, fun e he => htraced e (List.mem_append_left _ he), ?_⟩
  -- both are prefixes of the complete run
  have hlead : lead ++ [identified traceID] <+: τ ++ τ' := ⟨rest, by rw [hτ]; simp⟩
  rcases List.prefix_or_prefix_of_prefix (List.prefix_append τ τ') hlead with h | h
  · rcases List.prefix_concat_iff.1 h with h | h
    · exact .inr (h ▸ List.prefix_rfl)
    · exact .inl h
  · exact .inr h

end

/-! ## A request -/

theorem minute_le_maxInt64 : 60 * second ≤ maxInt64 := by decide

def HookServer.sample : HookServer where
  problemBaseURL := "https://nycu.edu.tw/problems/"
  service := sampleService
  hmac := HMAC.sample
  rateLimiter := newRateLimiter
    { allowedCIDRs := [bytesOf "10.0.0.0/8"]
      trustedProxyCIDRs := []
      limitPerIP := 60
      window := 60 * second } minute_le_maxInt64

/-- A password change, signed and from an allowed source. -/
def IncomingRequest.sample : IncomingRequest where
  method := "POST"
  path := "/api/v1/hook/password"
  requestID := ""
  source := ⟨bytesOf "10.1.2.3:4000", []⟩
  signed :=
    HMAC.sample.portalRequest HMAC.sampleMac (bytesOf "1764403200") (bytesOf "n1") (bytesOf "body")

def sampleUnmarshal (_ : Bytes) : HookPost where
  method := ""
  readErr := none
  passwordValues := [bytesOf "\"pw\""]
  unmarshalErr := none
  cn := "b11001"
  eventType := ⟨"password_change"⟩
  displayName := "Name"
  mail := "b11001@nycu.edu.tw"

/-- Everything goes well, but for the answers of the queue, the recorder and the logger. -/
def sampleServe (queue recorder logger : Except Panic Unit) : (c : ServeCall) → c.Resp
  | .rand => .ok fun _ => 7
  | .start => HMAC.sampleClock
  | .since => HMAC.sampleClock
  | .limiterNow => HMAC.sampleClock
  | .allow _ _ => true
  | .hmac .since => HMAC.sampleClock
  | .hmac .useNow => HMAC.sampleClock
  | .hmac (.useLocked _ _ _) => true
  | .hook (.get _) => .ok (.error .nil)
  | .hook (.now _) => .ok HMAC.sampleClock
  | .hook (.encrypt _ _) => .ok (.ok sampleEnvelope)
  | .hook (.enqueuePasswordSync _) => queue.map fun _ => none
  | .hook (.markPending _ _) => .ok none
  | .hook .zeroPassword => .ok ()
  | .inc _ _ => recorder
  | .logAttrs _ _ => logger
  | .logRequest _ => logger
  | .setHeader _ _ => ()
  | .writeHeader _ => ()
  | .encode _ => ()
  | .zero _ => ()

/-- The handling of the request. -/
def sampleHandling (r : IncomingRequest) : ServeProg Unit :=
  HookServer.sample.handle HMAC.sampleMac sampleUnmarshal (fun _ n => n) ⟨0, fun _ => []⟩ .ascii r

def sampleTrace (r : IncomingRequest) (queue recorder logger : Except Panic Unit) :
    List ServeEvent :=
  traceWith (fun c (u : Unit) => (u, sampleServe queue recorder logger c)) (sampleHandling r) ()

def sampleResult (r : IncomingRequest) (queue recorder logger : Except Panic Unit) :
    Except Panic Unit :=
  (runWith (fun c (u : Unit) => (u, sampleServe queue recorder logger c)) (sampleHandling r) ()).2

theorem runs_sampleHandling (r : IncomingRequest) (queue recorder logger : Except Panic Unit) :
    (sampleHandling r).Runs (sampleTrace r queue recorder logger)
      (sampleResult r queue recorder logger) :=
  exec_runWith _ _ _

/-- The request of the sample has no ID. -/
theorem one_request_id_sample :
    sampleResult .sample (.ok ()) (.ok ()) (.ok ()) = .ok () ∧
      ∃ traceID ≠ "", ∀ e ∈ sampleTrace .sample (.ok ()) (.ok ()) (.ok ()),
        Traced traceID e.call := by
  refine ⟨by decide +kernel, ?_⟩
  obtain ⟨lead, traceID, -, hne, htraced, -⟩ :=
    one_request_id (runs_sampleHandling .sample (.ok ()) (.ok ()) (.ok ()))
  exact ⟨traceID, hne, htraced⟩

end PasswordHook
