import PasswordHook.Graph.Client
import PasswordHook.Worker.Process

/-!
# The processor

Package `graphprocessor`: a password sync command becomes an upsert of the Graph user, with its
duration and outcome reported.  Whatever Graph answers, a request that carries the password goes to
the user the command names.
-/

namespace PasswordHook

open Prog

/-! ## Requests of the client -/

/-- A request that sets the password of the user: a patch of the user, or the creation of one with
that name. -/
def SetsPasswordOf (c : GraphClient) (upn : String) (password : Bytes) (req : GraphRequest) :
    Prop :=
  (req.method = .patch ∧ req.url = graphURL c (userPath upn) ∧
      req.body = some (buildPatchBody password)) ∨
    ∃ user : User, user.upn = upn ∧ req.method = .post ∧ req.url = graphURL c "/v1.0/users" ∧
      req.body = some (buildCreateBody user password)

section Requests

variable {c : GraphClient} {τ : List GraphEvent}

theorem doRequest_doGraphRequest {operation : String} {method : GraphMethod} {path : String}
    {body : Option Bytes} {answer : Except Err ℤ}
    (h : Exec (doGraphRequest c operation method path body) τ answer) {e : GraphEvent} (he : e ∈ τ)
    {req : GraphRequest} (hreq : e.call = .doRequest req) :
    req.method = method ∧ req.url = graphURL c path ∧ req.body = body := by
  obtain ⟨token, τ₁, rfl, h₁⟩ := exec_call_iff.1 h
  rcases List.mem_cons.1 he with rfl | he₁
  · exact absurd hreq (by simp)
  cases token with
  | error err =>
    obtain ⟨rfl, -⟩ := exec_ret_iff.1 h₁
    exact absurd he₁ List.not_mem_nil
  | ok token =>
    obtain ⟨built, τ₂, rfl, h₂⟩ := exec_call_iff.1 h₁
    rcases List.mem_cons.1 he₁ with rfl | he₂
    · exact absurd hreq (by simp)
    cases built with
    | some err =>
      obtain ⟨rfl, -⟩ := exec_ret_iff.1 h₂
      exact absurd he₂ List.not_mem_nil
    | none =>
      obtain ⟨status, τ₃, rfl, h₃⟩ := exec_call_iff.1 h₂
      rcases List.mem_cons.1 he₂ with rfl | he₃
      · obtain rfl := GraphCall.doRequest.inj hreq
        exact ⟨rfl, rfl, rfl⟩
      · cases status <;> obtain ⟨rfl, -⟩ := exec_ret_iff.1 h₃ <;> exact absurd he₃ List.not_mem_nil

theorem doRequest_writePassword {operation : String} {method : GraphMethod} {path : String}
    {body : Bytes} {r : Option Err} (h : Exec (writePassword c operation method path body) τ r)
    {e : GraphEvent} (he : e ∈ τ) {req : GraphRequest} (hreq : e.call = .doRequest req) :
    req.method = method ∧ req.url = graphURL c path ∧ req.body = some body := by
  obtain ⟨answer, τ₁, τ₂, rfl, h₁, h₂⟩ := exec_bind_iff.1 h
  rcases List.mem_append.1 he with he | he
  · exact doRequest_doGraphRequest h₁ he hreq
  · obtain ⟨⟨⟩, τ₃, rfl, h₃⟩ := exec_call_iff.1 h₂
    rcases List.mem_cons.1 he with rfl | he
    · exact absurd hreq (by simp)
    · cases answer with
      | error err =>
        obtain ⟨rfl, -⟩ := exec_ret_iff.1 h₃
        exact absurd he List.not_mem_nil
      | ok status =>
        change Exec (if status < 200 ∨ 299 < status then _ else _) τ₃ r at h₃
        split_ifs at h₃ <;> obtain ⟨rfl, -⟩ := exec_ret_iff.1 h₃ <;>
          exact absurd he List.not_mem_nil

/-- A request with a body sets the password of the trimmed name. -/
theorem setsPasswordOf_upsertUserPassword {user : User} {password : Bytes} {r : Option Err}
    (h : Exec (upsertUserPassword c user password) τ r) {e : GraphEvent} (he : e ∈ τ)
    {req : GraphRequest} (hreq : e.call = .doRequest req) (body : req.body ≠ none) :
    SetsPasswordOf c (trimSpace user.upn) password req := by
  unfold upsertUserPassword at h
  dsimp only at h
  split_ifs at h
  · obtain ⟨rfl, -⟩ := exec_ret_iff.1 h
    exact absurd he List.not_mem_nil
  · obtain ⟨rfl, -⟩ := exec_ret_iff.1 h
    exact absurd he List.not_mem_nil
  obtain ⟨answer, τ₁, τ₂, rfl, h₁, h₂⟩ := exec_bind_iff.1 h
  rcases List.mem_append.1 he with he | he
  · exact absurd (doRequest_doGraphRequest h₁ he hreq).2.2 body
  cases answer with
  | error err =>
    obtain ⟨rfl, -⟩ := exec_ret_iff.1 h₂
    exact absurd he List.not_mem_nil
  | ok status =>
    change Exec (upsertLookedUp c user (trimSpace user.upn) password status) τ₂ r at h₂
    unfold upsertLookedUp at h₂
    split_ifs at h₂
    · exact .inl (doRequest_writePassword h₂ he hreq)
    · exact .inr ⟨{ user with upn := trimSpace user.upn }, rfl, doRequest_writePassword h₂ he hreq⟩
    · obtain ⟨rfl, -⟩ := exec_ret_iff.1 h₂
      exact absurd he List.not_mem_nil

end Requests

/-! ## `ProcessPasswordSync` -/

/-- The calls of a `Processor`; those of its client are among them. -/
inductive ProcessorCall where
  | graph (c : GraphCall)
  | now
  | observeDuration (name : String) (duration : ℤ) (labels : List (String × String))
  | logAttrs (action : String) (attrs : List (String × AttrValue))
  deriving DecidableEq

def ProcessorCall.Resp : ProcessorCall → Type
  | .graph c => c.Resp
  | .now => Time
  | .observeDuration _ _ _ => Unit
  | .logAttrs _ _ => Unit

def processorInterface : Interface := ⟨ProcessorCall, ProcessorCall.Resp⟩

abbrev ProcessorProg := Prog processorInterface

abbrev ProcessorEvent := Event processorInterface

def ProcessorCall.perform (c : ProcessorCall) : ProcessorProg c.Resp :=
  Prog.perform (I := processorInterface) c

namespace Processor

def metricGraphUpsertDuration : String := "graph_upsert_duration_seconds"

def actionGraphUpsert : String := "graph_password_upsert"

/-- The outcome of an upsert, as it is reported. -/
def outcomeOf : Option Err → String
  | none => "success"
  | some err => if err.asGraphPermanent.isSome then "permanent_error" else "transient_error"

/-- The outcome of an upsert, as the worker gets it. -/
def resultOf : Option Err → Option Err
  | none => none
  | some err =>
    match err.asGraphPermanent with
    | some permanent => some (.permanent deadLetterReasonPermanentProcessor permanent)
    | none => some err

/-- A program of the client as part of the processor. -/
def ofClient {α : Type} (p : GraphProg α) : ProcessorProg α :=
  p.interp fun c => ProcessorCall.perform (.graph c)

/-- `ProcessPasswordSync` after the upsert. -/
def reportUpsert (msg : PasswordSyncCommand) (start : Time) (err : Option Err) :
    ProcessorProg (Option Err) := do
  let duration := (← ProcessorCall.perform .now).sub start
  ProcessorCall.perform
    (.observeDuration metricGraphUpsertDuration duration [("outcome", outcomeOf err)])
  ProcessorCall.perform (.logAttrs actionGraphUpsert
    ([("action", .string actionGraphUpsert), ("outcome", .string (outcomeOf err)),
      ("durationMs", .int (duration.tdiv millisecond))] ++
      ([("traceId", msg.traceID), ("upn", msg.upn)].filter fun a => a.2 ≠ "").map fun a =>
        (a.1, .string a.2)))
  return resultOf err

def processPasswordSync (client : GraphClient) (msg : PasswordSyncCommand) :
    ProcessorProg (Option Err) := do
  let start ← ProcessorCall.perform .now
  let err ← ofClient (upsertUserPassword client ⟨msg.upn, msg.displayName, msg.mail⟩ msg.password)
  reportUpsert msg start err

/-- The calls of a client program are calls to Graph, each with the answer Graph gives. -/
theorem exec_ofClient {α : Type} {p : GraphProg α} {τ : List ProcessorEvent} {a : α}
    (h : Exec (ofClient p) τ a) :
    ∃ σ, Exec p σ a ∧ ∀ e ∈ τ, ∃ e' ∈ σ, e.call = .graph e'.call := by
  obtain ⟨σ, hσ, himpl⟩ := exec_interp h
  refine ⟨σ, hσ, fun e he => ?_⟩
  obtain ⟨e', he', σ', hrun, hmem⟩ := himpl.exists_run he
  obtain ⟨r, τ', rfl, hret⟩ := exec_call_iff.1 hrun
  obtain ⟨rfl, -⟩ := exec_ret_iff.1 hret
  obtain rfl := List.mem_singleton.1 hmem
  exact ⟨e', he', rfl⟩

/-- Every request with a body that is sent for a command sets the password of the user it names. -/
theorem setsPasswordOf_processPasswordSync {client : GraphClient} {msg : PasswordSyncCommand}
    {τ : List ProcessorEvent} {r : Option Err} (h : Exec (processPasswordSync client msg) τ r)
    {e : ProcessorEvent} (he : e ∈ τ) {req : GraphRequest}
    (hreq : e.call = .graph (.doRequest req)) (body : req.body ≠ none) :
    SetsPasswordOf client (trimSpace msg.upn) msg.password req := by
  obtain ⟨start, τ₁, rfl, h₁⟩ := exec_call_iff.1 h
  rcases List.mem_cons.1 he with rfl | he₁
  · exact absurd hreq (by simp)
  obtain ⟨err, τ₂, τ₃, rfl, h₂, h₃⟩ := (exec_bind_iff (p := ofClient _)).1 h₁
  rcases List.mem_append.1 he₁ with he₂ | he₃
  · obtain ⟨σ, hσ, hcalls⟩ := exec_ofClient h₂
    obtain ⟨e', he', hcall⟩ := hcalls e he₂
    rw [hreq] at hcall
    exact setsPasswordOf_upsertUserPassword hσ he' (ProcessorCall.graph.inj hcall).symm body
  · obtain ⟨stop, τ₄, rfl, h₄⟩ := exec_call_iff.1 h₃
    obtain ⟨⟨⟩, τ₅, rfl, h₅⟩ := exec_call_iff.1 h₄
    obtain ⟨⟨⟩, τ₆, rfl, h₆⟩ := exec_call_iff.1 h₅
    obtain ⟨rfl, -⟩ := exec_ret_iff.1 h₆
    simp only [List.mem_cons, List.not_mem_nil, or_false] at he₃
    rcases he₃ with rfl | rfl | rfl <;> exact absurd hreq (by simp)

end Processor

end PasswordHook
