import PasswordHook.Http.Trace
import PasswordHook.Lib.Observe

/-!
# One reply

What the caller and the operators see of a request: a count of the request by status, the status of
the response, the problem document, and the record of the access log.  Every request gets one reply,
whose status is counted, documented and logged, and a panic before it gives a 500; only a second
panic, of the recorder or the logger while `Recovery` reports the first, leaves a request without
(`one_reply`).
-/

namespace PasswordHook

open Prog Serve Risky

/-! ## What is seen -/

inductive Note where
  /-- A request counter, with its label of the status. -/
  | counted (status : Option String)
  | header (status : ℕ)
  | document (p : Problem)
  /-- The record of the access log, with its attribute of the status. -/
  | logged (status : Option LogField)
  | panicked
  deriving DecidableEq

def callNotes : ServeCall → List Note
  | .inc name labels =>
    if name = metricHookRequestsTotal ∨ name = metricMiddlewareRequestsTotal then
      [.counted (labels.lookup "status")] else []
  | .writeHeader status => [.header status]
  | .encode p => [.document p]
  | .logRequest attrs => [.logged (attrs.lookup "status")]
  | _ => []

def panics : (c : ServeCall) → c.Resp → Bool
  | .hook _, r => !Except.isOk r
  | .inc _ _, r => !Except.isOk r
  | .logAttrs _ _, r => !Except.isOk r
  | .logRequest _, r => !Except.isOk r
  | _, _ => false

def notesOf (e : ServeEvent) : List Note :=
  callNotes e.call ++ if panics e.call e.resp then [.panicked] else []

/-- A reply: the count, the status and the document, if there is one. -/
def reply (status : ℕ) (doc : Option Problem) : List Note :=
  .counted (some (toString status)) :: .header status :: (doc.map Note.document).toList

/-- The document is about the reply; an accepted request and a wrong method have none. -/
def Documented (traceID path : String) (status : ℕ) : Option Problem → Prop
  | none => status = 202 ∨ status = 405
  | some p => p.status = status ∧ p.traceID = traceID ∧ p.instancePath = path ∧
    status ∈ [400, 401, 413, 429, 500]

/-- What is seen of a handler that panics: at most a count. -/
inductive Broken : List Note → Prop
  | uncounted : Broken [.panicked]
  | counted (status : Option String) : Broken [.counted status, .panicked]

/-- What a program that may panic at its end shows. -/
def Risks (o₀ : List Note) (r : Except Panic Unit) (o : List Note) : Prop :=
  (r = .ok () ∧ o = o₀) ∨ ∃ e, r = .error e ∧ o = o₀ ++ [.panicked]

theorem Risks.of_ok {o₀ o : List Note} {u : Unit} (h : Risks o₀ (.ok u) o) : o = o₀ := by
  rcases h with ⟨-, ho⟩ | ⟨e, he, -⟩
  · exact ho
  · cases he

theorem Risks.of_error {o₀ o : List Note} {e : Panic} (h : Risks o₀ (.error e) o) :
    o = o₀ ++ [.panicked] := by
  rcases h with ⟨he, -⟩ | ⟨e', -, ho⟩
  · cases he
  · exact ho

/-- What a handler shows that records, and then replies unless recording panics. -/
def Replies (status : ℕ) (doc : Option Problem) (r : Except Panic Unit) (o : List Note) : Prop :=
  (r = .ok () ∧ o = reply status doc) ∨ ∃ e, r = .error e ∧ Broken o

/-- What a handler inside of `Recovery` shows. -/
def Answered (traceID path : String) (r : Except Panic Unit) (o : List Note) : Prop :=
  (∃ status doc, r = .ok () ∧ o = reply status doc ∧ Documented traceID path status doc) ∨
    ∃ e, r = .error e ∧ Broken o

/-! ## Recording and writing -/

theorem sees_inc {name : String} {labels : List (String × String)} :
    Sees notesOf (inc name labels) (Risks (callNotes (.inc name labels))) :=
  sees_call fun (r : Except Panic Unit) => by
    cases r with
    | ok u => exact .inl ⟨rfl, List.append_nil _⟩
    | error e => exact .inr ⟨e, rfl, rfl⟩

theorem sees_logAttrs {action : String} {attrs : List (String × LogField)} :
    Sees notesOf (logAttrs action attrs) (Risks []) :=
  sees_call fun (r : Except Panic Unit) => by
    cases r with
    | ok u => exact .inl ⟨rfl, rfl⟩
    | error e => exact .inr ⟨e, rfl, rfl⟩

theorem sees_writeHeader {status : ℕ} :
    Sees notesOf (writeHeader status) fun r o => r = .ok () ∧ o = [.header status] :=
  sees_call fun _ => ⟨rfl, rfl⟩

theorem sees_writeProblem {p : Problem} :
    Sees notesOf (writeProblem p) fun r o => r = .ok () ∧ o = [.header p.status, .document p] := by
  intro τ r run
  obtain ⟨_, τ₁, rfl, run₁⟩ := exec_call_iff.1 run
  obtain ⟨_, τ₂, rfl, run₂⟩ := exec_call_iff.1 run₁
  obtain ⟨_, τ₃, rfl, run₃⟩ := exec_call_iff.1 run₂
  obtain ⟨rfl, rfl⟩ := exec_ret_iff.1 run₃
  exact ⟨rfl, rfl⟩

/-- A second program shows nothing but its panic. -/
theorem sees_quietly {p : ServeProg Unit} {f : Unit → ServeProg Unit} {o : List Note}
    (hp : Sees notesOf p (Risks o)) (hf : Sees notesOf (f ()) (Risks [])) :
    Sees notesOf (p >>= f) (Risks o) := by
  refine hp.bind (fun e o' h => ?_) fun _ o' h => ?_
  · exact h
  · obtain rfl := h.of_ok
    refine hf.mono fun r o' h => ?_
    rcases h with ⟨rfl, rfl⟩ | ⟨e, rfl, rfl⟩
    · exact .inl ⟨rfl, List.append_nil _⟩
    · exact .inr ⟨e, rfl, rfl⟩

/-- The note of a counter. -/
def count (status : ℕ) : List Note := [.counted (some (toString status))]

theorem sees_recordMiddlewareOutcome {traceID name outcome reason : String} {status : ℕ}
    {extra : List (String × LogField)} :
    Sees notesOf (recordMiddlewareOutcome traceID name status outcome reason extra)
      (Risks (count status)) := by
  have hcount : callNotes (.inc metricMiddlewareRequestsTotal
      ([("middleware", name), ("status", toString status), ("outcome", outcome)] ++
        ifSet "reason" reason id)) =
      count status := by
    simp [callNotes, count, List.lookup]
  exact sees_quietly (hcount ▸ sees_inc) sees_logAttrs

theorem sees_recordRejected {traceID outcome : String} {status : ℕ} {eventType : EventType} :
    Sees notesOf (recordRejected traceID status outcome eventType) (Risks (count status)) := by
  have hcount : callNotes (.inc metricHookRequestsTotal
      ([("status", toString status), ("outcome", outcome)] ++
        ifSet "eventType" eventType.text id)) =
      count status := by
    simp [callNotes, count]
  exact sees_quietly (hcount ▸ sees_inc) sees_logAttrs

theorem sees_recordDecision {traceID : String} {status : ℕ} {eventType : EventType}
    {decision : Decision} :
    Sees notesOf (recordDecision traceID status eventType decision) (Risks (count status)) := by
  have hcount :
      callNotes (.inc metricHookRequestsTotal (decisionLabels status eventType decision)) =
      count status := by
    simp [callNotes, count, decisionLabels]
  have hskipped :
      callNotes (.inc metricMigrationSkippedTotal (decisionLabels status eventType decision)) =
      [] := by
    simp [callNotes, metricMigrationSkippedTotal, metricHookRequestsTotal,
      metricMiddlewareRequestsTotal]
  unfold recordDecision
  refine sees_quietly (hcount ▸ sees_inc) ?_
  split_ifs
  · exact sees_quietly (hskipped ▸ sees_inc) sees_logAttrs
  · exact sees_logAttrs

theorem Replies.answered {traceID path : String} {status : ℕ} {doc : Option Problem}
    {r : Except Panic Unit} {o : List Note} (h : Replies status doc r o)
    (hdoc : Documented traceID path status doc) : Answered traceID path r o := by
  rcases h with ⟨hr, ho⟩ | hbroken
  · exact .inl ⟨status, doc, hr, ho, hdoc⟩
  · exact .inr hbroken

/-- A handler records, and then writes. -/
theorem sees_recorded {status : ℕ} {doc : Option Problem} {record : ServeProg Unit}
    {write : Unit → ServeProg Unit} (hrecord : Sees notesOf record (Risks (count status)))
    (hwrite : Sees notesOf (write ()) fun r o => r = .ok () ∧
      count status ++ o = reply status doc) :
    Sees notesOf (record >>= write) (Replies status doc) := by
  refine hrecord.bind (fun e o h => ?_) fun _ o h => ?_
  · obtain rfl := h.of_error
    exact .inr ⟨e, rfl, .counted _⟩
  · obtain rfl := h.of_ok
    exact hwrite.mono fun r o h => .inl h

theorem sees_recorded_problem {p : Problem} {record : ServeProg Unit}
    (hrecord : Sees notesOf record (Risks (count p.status))) :
    Sees notesOf (record >>= fun _ => writeProblem p) (Replies p.status (some p)) :=
  sees_recorded hrecord (sees_writeProblem.mono fun r o h => ⟨h.1, by rw [h.2]; rfl⟩)

theorem sees_recorded_header {status : ℕ} {record : ServeProg Unit}
    (hrecord : Sees notesOf record (Risks (count status))) :
    Sees notesOf (record >>= fun _ => writeHeader status) (Replies status none) :=
  sees_recorded hrecord (sees_writeHeader.mono fun r o h => ⟨h.1, by rw [h.2]; rfl⟩)

theorem answered_problem {traceID path : String} {p : Problem} {record : ServeProg Unit}
    (hrecord : Sees notesOf record (Risks (count p.status)))
    (hdoc : Documented traceID path p.status (some p)) :
    Sees notesOf (record >>= fun _ => writeProblem p) (Answered traceID path) :=
  (sees_recorded_problem hrecord).mono fun _ _ h => h.answered hdoc

/-! ## The hook -/

section

variable {traceID path : String}

/-- Zeroing shows nothing. -/
theorem only_zero_silent {buffer : PasswordBuffer} :
    (zero buffer).Only fun c => ∀ r, notesOf ⟨c, r⟩ = [] :=
  only_perform fun _ => rfl

theorem sees_hookCall (c : HookCall) : Sees notesOf (hookCall c) fun r o =>
    (∃ a, r = .ok a ∧ o = []) ∨ ∃ e, r = .error e ∧ o = [.panicked] :=
  sees_call fun (r : Except Panic c.Resp) => by
    cases r with
    | ok a => exact .inl ⟨a, rfl, rfl⟩
    | error e => exact .inr ⟨e, rfl, rfl⟩

theorem sees_submit {U : Unicode} {svc : Service} {req : Request} :
    Sees notesOf (Serve.submit U svc traceID req) fun r o =>
      (∃ a, r = .ok a ∧ o = []) ∨ ∃ e, r = .error e ∧ o = [.panicked] :=
  Sees.deferring (sees_lift (B := fun o => o = [Note.panicked]) (fun c => sees_hookCall c) _)
    only_zero_silent

/-- The document of a response of the hook. -/
def HookResponse.document (problemBaseURL path traceID : String) : HookResponse → Option Problem
  | .methodNotAllowed => none
  | .validation detail => some (.validation problemBaseURL path traceID detail)
  | .identity err => some (.validation problemBaseURL path traceID err.text)
  | .internal detail => some (.internal problemBaseURL path traceID detail)
  | .accepted _ => none

/-- The hook replies with the response. -/
def RepliesWith (problemBaseURL path traceID : String) (response : HookResponse) :
    Except Panic Unit → List Note → Prop :=
  Replies response.status (response.document problemBaseURL path traceID)

theorem RepliesWith.answered {problemBaseURL : String} {response : HookResponse}
    {r : Except Panic Unit} {o : List Note}
    (h : RepliesWith problemBaseURL path traceID response r o) : Answered traceID path r o := by
  refine Replies.answered h ?_
  cases response with
  | methodNotAllowed => exact .inr rfl
  | accepted decision => exact .inl rfl
  | _ => exact ⟨rfl, rfl, rfl, by simp [HookResponse.status]⟩

theorem sees_serveResult {problemBaseURL : String} {eventType : EventType}
    {result : Decision × Option Err} :
    Sees notesOf (serveResult problemBaseURL traceID path eventType result)
      (RepliesWith problemBaseURL path traceID (submitResponse result)) := by
  obtain ⟨decision, err⟩ := result
  cases err with
  | none => exact sees_recorded_header sees_recordDecision
  | some err =>
    show Sees _ (if _ then _ else _) (RepliesWith _ _ _ (if _ then _ else _))
    split_ifs
    · exact sees_recorded_problem sees_recordRejected
    · exact sees_recorded_problem sees_recordRejected

theorem sees_serveBody {grow : ℕ → ℕ → ℕ} {heap : Heap} {U : Unicode} {svc : Service}
    {problemBaseURL : String} {r : HookPost} :
    Sees notesOf (serveBody grow heap U svc problemBaseURL traceID path r)
      (Answered traceID path) := by
  unfold serveBody
  dsimp only
  split_ifs
  · exact answered_problem sees_recordRejected ⟨rfl, rfl, rfl, by simp⟩
  · exact answered_problem sees_recordRejected ⟨rfl, rfl, rfl, by simp⟩
  · refine sees_submit.bind (fun e o h => ?_) fun result o h => ?_
    · rcases h with ⟨a, ha, -⟩ | ⟨e, he, rfl⟩
      · cases ha
      · exact .inr ⟨_, rfl, .uncounted⟩
    · rcases h with ⟨a, -, rfl⟩ | ⟨e, he, -⟩
      · exact sees_serveResult.mono fun r o h => h.answered
      · cases he

theorem sees_serveHTTP {grow : ℕ → ℕ → ℕ} {heap : Heap} {U : Unicode} {svc : Service}
    {problemBaseURL : String} {r : HookPost} :
    Sees notesOf (serveHTTP grow heap U svc problemBaseURL traceID path r)
      (Answered traceID path) := by
  unfold serveHTTP
  split_ifs
  · exact (sees_recorded_header sees_recordRejected).mono fun r o h => h.answered (.inr rfl)
  · refine Sees.deferring (answered_problem sees_recordRejected ?_) only_zero_silent
    exact ⟨rfl, rfl, rfl, by simp⟩
  · exact (sees_serveBody.deferring only_zero_silent).deferring only_zero_silent

/-! ## The middleware -/

theorem sees_rejectUnauthentic {problemBase : String} {why : Rejection} :
    Sees notesOf (rejectUnauthentic problemBase traceID path why) (Answered traceID path) := by
  cases why with
  | tooLarge =>
    exact answered_problem sees_recordMiddlewareOutcome
      ⟨rfl, rfl, rfl, by simp⟩
  | _ =>
    exact answered_problem sees_recordMiddlewareOutcome
      ⟨rfl, rfl, rfl, by simp⟩

theorem sees_hmacCall (c : HmacCall) : Sees notesOf (hmacCall c) fun r o =>
    (∃ a, r = .ok a ∧ o = []) ∨ ∃ e, r = .error e ∧ False :=
  sees_call fun r => .inl ⟨r, rfl, rfl⟩

theorem sees_authenticate {problemBase : String} {m : HMAC} {mac : Bytes → Bytes → Bytes}
    {r : HookRequest} {next : Bytes → ServeProg Unit}
    (hnext : ∀ body, Sees notesOf (next body) (Answered traceID path)) :
    Sees notesOf (authenticate problemBase traceID path m mac r next) (Answered traceID path) := by
  have hwrap := sees_lift (B := fun _ => False) (fun c => sees_hmacCall c) (m.wrap mac r)
  refine Sees.deferring (hwrap.bind (fun e o h => ?_) fun verdict o h => ?_) only_zero_silent
  · rcases h with ⟨a, ha, -⟩ | ⟨e, -, hfalse⟩
    · cases ha
    · exact hfalse.elim
  · rcases h with ⟨a, -, rfl⟩ | ⟨e, -, hfalse⟩
    · cases verdict with
      | forwarded body => exact hnext body
      | rejected why => exact sees_rejectUnauthentic
    · exact hfalse.elim

/-- A call that does not panic and shows nothing. -/
theorem sees_silent {c : ServeCall} (h : ∀ r, notesOf ⟨c, r⟩ = []) :
    Sees (P := Panic) notesOf (safely c.perform) fun r o => ∃ a, r = .ok a ∧ o = [] :=
  sees_call fun a => ⟨a, rfl, h a⟩

theorem Sees.after_silent {α : Type} {p : ServeProg α} {f : α → ServeProg Unit}
    {Q : Except Panic Unit → List Note → Prop}
    (hp : Sees notesOf p fun r o => ∃ a, r = .ok a ∧ o = []) (hf : ∀ a, Sees notesOf (f a) Q) :
    Sees notesOf (p >>= f) Q := by
  refine hp.bind (fun e o h => ?_) fun a o h => ?_
  · obtain ⟨a, ha, -⟩ := h
    cases ha
  · obtain ⟨-, -, rfl⟩ := h
    exact hf a

theorem sees_limitRate {problemBase : String} {l : RateLimiter} {r : SourceRequest}
    {next : ServeProg Unit} (hnext : Sees notesOf next (Answered traceID path)) :
    Sees notesOf (limitRate problemBase traceID path l r next) (Answered traceID path) := by
  unfold limitRate
  dsimp only
  split_ifs
  · exact answered_problem sees_recordMiddlewareOutcome
      ⟨rfl, rfl, rfl, by simp⟩
  · refine Sees.after_silent (sees_silent fun _ => rfl) fun now => ?_
    refine Sees.after_silent (sees_silent fun _ => rfl) fun allowed => ?_
    split_ifs
    · exact answered_problem sees_recordMiddlewareOutcome
        ⟨rfl, rfl, rfl, by simp⟩
    · exact hnext

/-- What is seen of a request so far: a panic that was recovered is answered with a 500. -/
def Replied (traceID path : String) (status : ℕ) (o : List Note) : Prop :=
  ∃ before doc, o = before ++ reply status doc ∧ Documented traceID path status doc ∧
    (before = [] ∨ Broken before ∧ status = 500)

/-- A second panic, when the first is reported. -/
def Unreported (o : List Note) :
    Prop := ∃ before, o = before ++ count 500 ++ [.panicked] ∧ Broken before

theorem sees_recovery {problemBase : String} {next : ServeProg Unit}
    (hnext : Sees notesOf next (Answered traceID path)) :
    Sees notesOf (recovery problemBase traceID path next) fun r o =>
      (∃ status, r = .ok () ∧ Replied traceID path status o) ∨ ∃ e, r = .error e ∧
        Unreported o := by
  refine hnext.recovering (fun _ o h => ?_) fun e o h => ?_
  · rcases h with ⟨status, doc, -, rfl, hdoc⟩ | ⟨e, he, -⟩
    · exact .inl ⟨status, rfl, [], doc, rfl, hdoc, .inl rfl⟩
    · cases he
  · rcases h with ⟨status, doc, he, -⟩ | ⟨e, -, hbroken⟩
    · cases he
    · refine sees_recordMiddlewareOutcome.bind (fun e o' h => ?_) fun _ o' h => ?_
      · obtain rfl := h.of_error
        exact .inr ⟨e, rfl, o, by rw [List.append_assoc], hbroken⟩
      · obtain rfl := h.of_ok
        have hdoc :
            Documented traceID path 500 (some (.internal (orDefaultBase problemBase) path traceID
            "unexpected server error")) := ⟨rfl, rfl, rfl, by simp⟩
        refine sees_writeProblem.mono fun r o' h =>
          .inl ⟨500, h.1, o, _, ?_, hdoc, .inr ⟨hbroken, rfl⟩⟩
        rw [h.2]
        rfl

/-- The status of `statusRecorder`, from what is seen. -/
def noteStatus (status : ℕ) : Note → ℕ
  | .header status => status
  | .document _ => if status = 0 then 200 else status
  | _ => status

theorem recordStatus_eq (status : ℕ) (e : ServeEvent) :
    recordStatus status e = (notesOf e).foldl noteStatus status := by
  obtain ⟨c, r⟩ := e
  have hpanic : ∀ (b : Bool) (s : ℕ),
      (if b then [Note.panicked] else []).foldl noteStatus s = s := by
    intro b s
    cases b <;> rfl
  show _ = (callNotes c ++ _).foldl noteStatus status
  rw [List.foldl_append, hpanic]
  cases c with
  | inc name labels =>
    show status = (if _ then [Note.counted _] else []).foldl noteStatus status
    split_ifs <;> rfl
  | _ => rfl

theorem Broken.noteStatus {o : List Note} (h : Broken o) (status : ℕ) :
    o.foldl noteStatus status = status := by
  cases h <;> rfl

theorem Replied.noteStatus {status : ℕ} {o : List Note} (h : Replied traceID path status o) :
    o.foldl noteStatus 0 = status ∧ status ≠ 0 := by
  obtain ⟨before, doc, rfl, hdoc, hbefore⟩ := h
  have hstart : before.foldl PasswordHook.noteStatus 0 = 0 := by
    rcases hbefore with rfl | ⟨hbroken, -⟩
    · rfl
    · exact hbroken.noteStatus 0
  have hne : status ≠ 0 := by
    cases doc with
    | none =>
      rcases hdoc with rfl | rfl <;> decide
    | some p =>
      obtain ⟨-, -, -, hmem⟩ := hdoc
      rintro rfl
      simp at hmem
  refine ⟨?_, hne⟩
  rw [List.foldl_append, hstart]
  cases doc with
  | none => rfl
  | some p => exact if_neg hne

/-- What is seen of a request: one reply, logged with its status, or a second panic. -/
def Handled (traceID path : String) (r : Except Panic Unit) (o : List Note) : Prop :=
  (∃ status seen, Replied traceID path status seen ∧
    Risks (seen ++ [.logged (some (.int status))]) r o) ∨
    ∃ e, r = .error e ∧ Unreported o

theorem sees_accessLog {method : String} {next : ServeProg Unit}
    (hnext : Sees notesOf next fun r o =>
      (∃ status, r = .ok () ∧ Replied traceID path status o) ∨ ∃ e, r = .error e ∧ Unreported o) :
    Sees notesOf (accessLog traceID path method next) (Handled traceID path) := by
  refine Sees.after_silent (sees_silent fun _ => rfl) fun start => ?_
  have hwatched : Sees notesOf (watching recordStatus 0 next) fun r o =>
      (∃ status, status ≠ 0 ∧ r = .ok status ∧ Replied traceID path status o) ∨
        ∃ e, r = .error e ∧ Unreported o := by
    refine Sees.watching recordStatus_eq 0 hnext (fun e o h => ?_) fun _ o h => ?_
    · rcases h with ⟨status, he, -⟩ | ⟨e, he, hunreported⟩
      · cases he
      · exact .inr ⟨_, rfl, hunreported⟩
    · rcases h with ⟨status, -, hreplied⟩ | ⟨e, he, -⟩
      · exact .inl ⟨status, hreplied.noteStatus.2, congrArg _ hreplied.noteStatus.1, hreplied⟩
      · cases he
  refine hwatched.bind (fun e o h => ?_) fun recorded o h => ?_
  · rcases h with ⟨status, -, he, -⟩ | ⟨e, he, hunreported⟩
    · cases he
    · exact .inr ⟨_, rfl, hunreported⟩
  · rcases h with ⟨status, hne, hok, hreplied⟩ | ⟨e, he, -⟩
    · obtain rfl : recorded = status := Except.ok.inj hok
      refine Sees.after_silent (sees_silent fun _ => rfl) fun now => ?_
      rw [if_neg hne]
      refine sees_call fun (r : Except Panic Unit) => .inl ⟨recorded, o, hreplied, ?_⟩
      cases r with
      | ok u => exact .inl ⟨rfl, rfl⟩
      | error e => exact .inr ⟨e, rfl, by rw [List.append_assoc]; rfl⟩
    · cases he

end

/-! ## The chain -/

section

variable {a : HookServer} {mac : Bytes → Bytes → Bytes} {unmarshal : Bytes → HookPost}
  {grow : ℕ → ℕ → ℕ} {heap : Heap} {U : Unicode} {r : IncomingRequest} {traceID : String}

theorem Identifies.silent {header : String} {lead : List ServeEvent}
    (h : Identifies header lead traceID) :
    lead.flatMap notesOf = [] := by
  cases h <;> rfl

/-- Every request gets one reply, whose status is counted, documented and logged.  A panic before
the reply gives a 500, beside which a count from before the panic may stand.  A request has no reply
only if there is a second panic while the first is reported. -/
theorem one_reply {τ : List ServeEvent} {result : Except Panic Unit}
    (run : (a.handle mac unmarshal grow heap U r).Runs τ result) :
    ∃ lead traceID, Identifies r.requestID lead traceID ∧ lead <+: τ ∧
      Handled traceID r.path result (τ.flatMap notesOf) := by
  obtain ⟨lead, traceID, rest, hid, rfl, hrest⟩ := runs_handle run
  refine ⟨lead, traceID, hid, List.prefix_append _ _, ?_⟩
  have hnotes : (lead ++ identified traceID :: rest).flatMap notesOf = rest.flatMap notesOf := by
    rw [List.flatMap_append, hid.silent, List.nil_append]
    rfl
  rw [hnotes]
  exact sees_accessLog (sees_recovery (sees_limitRate (sees_authenticate fun _ => sees_serveHTTP)))
    rest result hrest

end

/-- The queue panics: the request is answered with a 500, and the access log has it. -/
theorem one_reply_panic :
    let τ := sampleTrace .sample (.error ⟨"closed"⟩) (.ok ()) (.ok ())
    (τ.flatMap notesOf).filter (fun note => note matches .header _ | .logged _ | .panicked) =
        [.panicked, .header 500, .logged (some (.int 500))] ∧
      ∃ traceID, Handled traceID "/api/v1/hook/password" (.ok ()) (τ.flatMap notesOf) := by
  refine ⟨by decide +kernel, ?_⟩
  have hresult : sampleResult .sample (.error ⟨"closed"⟩) (.ok ()) (.ok ()) = .ok () := by
    decide +kernel
  obtain ⟨lead, traceID, -, -, handled⟩ :=
    one_reply (runs_sampleHandling .sample (.error ⟨"closed"⟩) (.ok ()) (.ok ()))
  exact ⟨traceID, hresult ▸ handled⟩

end PasswordHook
