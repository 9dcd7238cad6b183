import PasswordHook.Graph.Processor

/-!
# A worker against a script

The worker with the Graph processor in its place, run against answers that follow a script: for each
attempt what the lookup and the write come to.  Every password decrypts and no backoff is cut short;
all other answers are arbitrary.  The bench keeps a log of the calls, each with the number of the
attempt it belongs to.
-/

namespace PasswordHook

open Prog

/-! ## The worker and the processor -/

inductive SyncCall where
  | worker (c : WorkerCall)
  | processor (c : ProcessorCall)
  deriving DecidableEq

def SyncCall.Resp : SyncCall → Type
  | .worker c => c.Resp
  | .processor c => c.Resp

def syncInterface : Interface := ⟨SyncCall, SyncCall.Resp⟩

abbrev SyncProg := Prog syncInterface

def SyncCall.perform (c : SyncCall) : SyncProg c.Resp := Prog.perform (I := syncInterface) c

/-- The calls of the worker; its processor is the one of Graph. -/
def onGraph (client : GraphClient) : (c : WorkerCall) → SyncProg c.Resp
  | .processPasswordSync cmd =>
    (Processor.processPasswordSync client cmd).interp fun c => SyncCall.perform (.processor c)
  | c => SyncCall.perform (.worker c)

/-- `processMessage` of a worker whose processor is the one of Graph. -/
def processMessageOnGraph (J : Json) (w : Worker) (client : GraphClient) (msg : Option MessagePtr) :
    SyncProg (Option Err) :=
  (processMessage J w msg).interp (onGraph client)

/-! ## Scripts -/

/-- What a request to Graph comes to. -/
inductive GraphOutcome where
  | tokenError (err : Err)
  | buildError (err : Err)
  | networkError (err : Err)
  | status (code : ℤ)
  deriving DecidableEq

/-- The errors of the token, the request and the network are not of the types of the service. -/
def GraphOutcome.Foreign : GraphOutcome → Prop
  | .tokenError err => err.asPermanent = none ∧ err.asGraphPermanent = none
  | .buildError err => err.asPermanent = none ∧ err.asGraphPermanent = none
  | .networkError err => err.asPermanent = none ∧ err.asGraphPermanent = none
  | .status _ => True

/-- The request is sent. -/
def GraphOutcome.sends : GraphOutcome → Bool
  | .networkError _ => true
  | .status _ => true
  | _ => false

/-- What the lookup and the write of an attempt come to. -/
structure AttemptScript where
  lookup : GraphOutcome
  write : GraphOutcome
  lookup_foreign : lookup.Foreign
  write_foreign : write.Foreign

/-! ## The bench -/

/-- The attempt under way, whether its lookup has been sent, and the calls with their attempts. -/
structure Bench where
  attempt : ℕ
  writing : Bool
  log : List (ℕ × SyncCall)

def Bench.start : Bench := ⟨0, false, []⟩

/-- The attempt a call belongs to; each one starts with the decryption of the password. -/
def Bench.attemptOf (s : Bench) : SyncCall → ℕ
  | .worker (.decrypt _ _) => s.attempt + 1
  | _ => s.attempt

/-- Whether the next request of the attempt is the write. -/
def Bench.writingAfter (s : Bench) : SyncCall → Bool
  | .worker (.decrypt _ _) => false
  | .processor (.graph (.doRequest _)) => true
  | _ => s.writing

def Bench.after (s : Bench) (c : SyncCall) : Bench :=
  ⟨s.attemptOf c, s.writingAfter c, s.log ++ [(s.attemptOf c, c)]⟩

/-- The answers that are not in the script, each of them free to depend on all that came before. -/
structure Surroundings where
  token : Bench → String
  time : Bench → Time
  worker : Bench → (c : WorkerCall) → c.Resp

section Answers

variable (script : ℕ → AttemptScript) (password : Bytes) (E : Surroundings)

def Bench.outcome (s : Bench) : GraphOutcome :=
  if s.writing then (script s.attempt).write else (script s.attempt).lookup

def scriptedGraph (s : Bench) : (c : GraphCall) → c.Resp
  | .getToken _ =>
    match s.outcome script with
    | .tokenError err => .error err
    | _ => .ok (E.token s)
  | .newRequest _ _ =>
    match s.outcome script with
    | .buildError err => some err
    | _ => none
  | .doRequest _ =>
    match s.outcome script with
    | .networkError err => .error err
    | .status code => .ok code
    -- without a token or a request nothing is sent
    | .tokenError err => .error err
    | .buildError err => .error err
  | .zeroBody _ => ()

def scriptedProcessor (s : Bench) : (c : ProcessorCall) → c.Resp
  | .graph c => scriptedGraph script E s c
  | .now => E.time s
  | .observeDuration _ _ _ => ()
  | .logAttrs _ _ => ()

def scriptedWorker (s : Bench) : (c : WorkerCall) → c.Resp
  | .decrypt _ _ => .ok password
  | .sleep _ => none
  | c => E.worker s c

def scripted (c : SyncCall) (s : Bench) : Bench × c.Resp :=
  (s.after c,
    match c with
    | .worker c => scriptedWorker password E s c
    | .processor c => scriptedProcessor script E s c)

/-- The bench after the worker has processed a message. -/
def benchRun (J : Json) (w : Worker) (client : GraphClient) (msg : Option MessagePtr) : Bench :=
  ((processMessageOnGraph J w client msg).runWith (scripted script password E) .start).1

end Answers

/-! ## Reading the log -/

/-- The values that a function finds in the calls. -/
def Bench.view {β : Type} (f : ℕ → SyncCall → Option β) (s : Bench) : List β :=
  s.log.filterMap fun e => f e.1 e.2

theorem Bench.view_after {β : Type} (f : ℕ → SyncCall → Option β) (s : Bench) (c : SyncCall) :
    (s.after c).view f = s.view f ++ (f (s.attemptOf c) c).toList := by
  rw [view, after, List.filterMap_append]
  cases h : f (s.attemptOf c) c <;> simp [h, view]

/-- A view that finds nothing in the calls of the processor. -/
def ReadsWorker {β : Type} (f : ℕ → SyncCall → Option β) : Prop := ∀ n c, f n (.processor c) = none

section Run

variable {script : ℕ → AttemptScript} {password : Bytes} {E : Surroundings} {α : Type}

/-- A program of the processor on the bench. -/
def runProcessor (script : ℕ → AttemptScript) (E : Surroundings) (p : ProcessorProg α)
    (s : Bench) : Bench × α :=
  p.runWith (fun c s => (s.after (.processor c), scriptedProcessor script E s c)) s

theorem runWith_processor (p : ProcessorProg α) (s : Bench) :
    (p.interp fun c => SyncCall.perform (.processor c)).runWith (scripted script password E) s =
      runProcessor script E p s :=
  runWith_interp _ _ p s

variable (script E) in
/-- The processor stays in the attempt, and only a view that reads its calls sees it. -/
theorem runProcessor_frame (p : ProcessorProg α) (s : Bench) :
    (runProcessor script E p s).1.attempt = s.attempt ∧
      ∀ {β : Type} {f : ℕ → SyncCall → Option β}, ReadsWorker f →
        (runProcessor script E p s).1.view f = s.view f := by
  induction p generalizing s with
  | ret a => exact ⟨rfl, fun _ => rfl⟩
  | call c k ih =>
    obtain ⟨hattempt, hview⟩ := ih (scriptedProcessor script E s c) (s.after (.processor c))
    refine ⟨hattempt, fun {β f} hf => (hview hf).trans ?_⟩
    have hnone : f (s.attemptOf (.processor c)) (.processor c) = none := hf _ c
    exact (s.view_after f _).trans (by rw [hnone]; exact List.append_nil _)

/-- A program of the client on the bench. -/
def runGraph (script : ℕ → AttemptScript) (E : Surroundings) (p : GraphProg α) (s : Bench) :
    Bench × α :=
  p.runWith (fun c s => (s.after (.processor (.graph c)), scriptedGraph script E s c)) s

theorem runProcessor_ofClient (p : GraphProg α) (s : Bench) :
    runProcessor script E (Processor.ofClient p) s = runGraph script E p s :=
  runWith_interp _ _ p s

end Run

/-! ## Requests with the password -/

/-- Method, URL and body of a request that has a body. -/
def SyncCall.passwordRequest? : SyncCall → Option (GraphMethod × String × Bytes)
  | .processor (.graph (.doRequest req)) => req.body.map fun body => (req.method, req.url, body)
  | _ => none

/-- The requests of an attempt that have a body. -/
def requestsIn (i n : ℕ) (c : SyncCall) : Option (GraphMethod × String × Bytes) :=
  if n = i then c.passwordRequest? else none

/-- What `doGraphRequest` makes of an outcome. -/
def GraphOutcome.result (operation : String) : GraphOutcome → Except Err ℤ
  | .tokenError err => .error (.graphTransient 0 operation (.wrap "get graph token" err))
  | .buildError err => .error (.graphTransient 0 operation (.wrap "build graph request" err))
  | .networkError err => .error (.graphTransient 0 operation err)
  | .status code => .ok code

section Requests

variable {script : ℕ → AttemptScript} {E : Surroundings} {client : GraphClient}

/-- What a request leaves on the bench. -/
structure Requested (s s' : Bench) (sends : Bool)
    (request : Option (GraphMethod × String × Bytes)) : Prop where
  attempt : s'.attempt = s.attempt
  writing : s'.writing = (s.writing || sends)
  requests : ∀ i, s'.view (requestsIn i) = s.view (requestsIn i) ++
    if sends = true ∧ s.attempt = i then request.toList else []

theorem runGraph_call {α : Type} {c : GraphCall} {k : c.Resp → GraphProg α} {r : c.Resp} {s : Bench}
    (h : scriptedGraph script E s c = r) :
    runGraph script E (.call c k) s =
      runGraph script E (k r) (s.after (.processor (.graph c))) := by
  subst h
  rfl

theorem view_requestsIn_after {c : SyncCall} (h : c.passwordRequest? = none) (i : ℕ) (s : Bench) :
    (s.after c).view (requestsIn i) = s.view (requestsIn i) := by
  have hnone : requestsIn i (s.attemptOf c) c = none := by
    rw [requestsIn, h]
    exact ite_self none
  rw [Bench.view_after, hnone]
  exact List.append_nil _

/-- Before the request itself. -/
def Bench.built (s : Bench) (client : GraphClient) (method : GraphMethod) (path : String) : Bench :=
  (s.after (.processor (.graph (.getToken client.scope)))).after
    (.processor (.graph (.newRequest method (graphURL client path))))

theorem requested_after {c : ProcessorCall} (h : (SyncCall.processor c).passwordRequest? = none)
    (s : Bench) (hwriting : s.writingAfter (.processor c) = s.writing)
    (request : Option (GraphMethod × String × Bytes)) :
    Requested s (s.after (.processor c)) false request where
  attempt := rfl
  writing := hwriting.trans (Bool.or_false _).symm
  requests i := by
    rw [view_requestsIn_after h, if_neg (fun hsends => Bool.false_ne_true hsends.1),
      List.append_nil]

theorem requested_built (client : GraphClient) (method : GraphMethod) (path : String) (s : Bench)
    (request : Option (GraphMethod × String × Bytes)) :
    Requested s (s.built client method path) false request where
  attempt := rfl
  writing := (Bool.or_false _).symm
  requests i := by
    rw [Bench.built, view_requestsIn_after rfl, view_requestsIn_after rfl,
      if_neg (fun hsends => Bool.false_ne_true hsends.1), List.append_nil]

/-- The request is sent. -/
theorem requested_sent (client : GraphClient) (method : GraphMethod) (path : String) (s : Bench)
    (req : GraphRequest) :
    Requested s ((s.built client method path).after (.processor (.graph (.doRequest req)))) true
      (req.body.map fun body => (req.method, req.url, body)) where
  attempt := rfl
  writing := (Bool.or_true _).symm
  requests i := by
    rw [Bench.view_after, (requested_built client method path s none).requests i,
      if_neg (fun hsends => Bool.false_ne_true hsends.1), List.append_nil]
    by_cases hi : s.attempt = i
    · rw [if_pos ⟨rfl, hi⟩]
      exact congrArg (fun r => s.view (requestsIn i) ++ Option.toList r) (if_pos hi)
    · rw [if_neg (fun hsends => hi hsends.2)]
      exact congrArg (fun r => s.view (requestsIn i) ++ Option.toList r) (if_neg hi)

/-- The request of `doGraphRequest` with a token. -/
def graphRequest (client : GraphClient) (token : String) (method : GraphMethod) (path : String)
    (body : Option Bytes) : GraphRequest where
  method := method
  url := graphURL client path
  accept := "application/json"
  authorization := "Bearer " ++ token
  contentType := body.map fun _ => "application/json"
  body := body

theorem outcome_token (s : Bench) (scope : String) :
    (s.after (.processor (.graph (.getToken scope)))).outcome script = s.outcome script := rfl

theorem outcome_built (s : Bench) (method : GraphMethod) (path : String) :
    (s.built client method path).outcome script = s.outcome script := rfl

theorem scripted_of_sends {s : Bench} (hsends : (s.outcome script).sends = true)
    (method : GraphMethod) (path : String) :
    scriptedGraph script E s (.getToken client.scope) = Except.ok (E.token s) ∧
      scriptedGraph script E (s.after (.processor (.graph (.getToken client.scope))))
        (.newRequest method (graphURL client path)) = none := by
  rw [scriptedGraph, scriptedGraph, outcome_token]
  cases houtcome : s.outcome script with
  | tokenError err =>
    rw [houtcome] at hsends
    exact absurd hsends Bool.false_ne_true
  | buildError err =>
    rw [houtcome] at hsends
    exact absurd hsends Bool.false_ne_true
  | networkError err => exact ⟨rfl, rfl⟩
  | status code => exact ⟨rfl, rfl⟩

/-- The run of a request that is sent. -/
theorem runGraph_sent {s : Bench} (hsends : (s.outcome script).sends = true) (operation : String)
    (method : GraphMethod) (path : String) (body : Option Bytes) :
    runGraph script E (doGraphRequest client operation method path body) s =
      ((s.built client method path).after
          (.processor (.graph (.doRequest (graphRequest client (E.token s) method path body)))),
        (s.outcome script).result operation) := by
  have hanswers : scriptedGraph script E s (.getToken client.scope) = Except.ok (E.token s) ∧
      scriptedGraph script E (s.after (.processor (.graph (.getToken client.scope))))
        (.newRequest method (graphURL client path)) = none := scripted_of_sends hsends method path
  obtain ⟨htoken, hbuilt⟩ := hanswers
  cases houtcome : s.outcome script with
  | tokenError err =>
    rw [houtcome] at hsends
    exact absurd hsends Bool.false_ne_true
  | buildError err =>
    rw [houtcome] at hsends
    exact absurd hsends Bool.false_ne_true
  | networkError err =>
    have hdone : scriptedGraph script E (s.built client method path)
        (.doRequest (graphRequest client (E.token s) method path body)) = Except.error err := by
      rw [scriptedGraph, outcome_built, houtcome]
    exact (runGraph_call htoken).trans
      ((runGraph_call hbuilt).trans ((runGraph_call hdone).trans rfl))
  | status code =>
    have hdone : scriptedGraph script E (s.built client method path)
        (.doRequest (graphRequest client (E.token s) method path body)) = Except.ok code := by
      rw [scriptedGraph, outcome_built, houtcome]
    exact (runGraph_call htoken).trans
      ((runGraph_call hbuilt).trans ((runGraph_call hdone).trans rfl))

variable (script E client) in
theorem runGraph_doGraphRequest (operation : String) (method : GraphMethod) (path : String)
    (body : Option Bytes) (s : Bench) :
    (runGraph script E (doGraphRequest client operation method path body) s).2 =
        (s.outcome script).result operation ∧
      Requested s (runGraph script E (doGraphRequest client operation method path body) s).1
        (s.outcome script).sends (body.map fun b => (method, graphURL client path, b)) := by
  by_cases hsends : (s.outcome script).sends = true
  · rw [runGraph_sent hsends, hsends]
    exact ⟨rfl, requested_sent client method path s _⟩
  · cases houtcome : s.outcome script with
    | tokenError err =>
      have htoken : scriptedGraph script E s (.getToken client.scope) = Except.error err := by
        rw [scriptedGraph, houtcome]
      have hrun : runGraph script E (doGraphRequest client operation method path body) s =
          (s.after (.processor (.graph (.getToken client.scope))),
            (GraphOutcome.tokenError err).result operation) :=
        (runGraph_call htoken).trans rfl
      rw [hrun]
      exact ⟨rfl, requested_after rfl s rfl _⟩
    | buildError err =>
      have htoken : scriptedGraph script E s (.getToken client.scope) = Except.ok (E.token s) := by
        rw [scriptedGraph, houtcome]
      have hbuilt : scriptedGraph script E (s.after (.processor (.graph (.getToken client.scope))))
          (.newRequest method (graphURL client path)) = some err := by
        rw [scriptedGraph, outcome_token, houtcome]
      have hrun : runGraph script E (doGraphRequest client operation method path body) s =
          (s.built client method path, (GraphOutcome.buildError err).result operation) :=
        (runGraph_call htoken).trans ((runGraph_call hbuilt).trans rfl)
      rw [hrun]
      exact ⟨rfl, requested_built client method path s _⟩
    | networkError err => exact absurd (by rw [houtcome]; rfl) hsends
    | status code => exact absurd (by rw [houtcome]; rfl) hsends

end Requests

end PasswordHook
