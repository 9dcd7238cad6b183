import PasswordHook.Delivery.Script

/-!
# One attempt against the script

What an attempt comes to is decided in three layers: the client classifies the answer of Graph, the
processor translates the errors of the client, and the worker looks for a permanent error.  An
attempt of the script comes to its verdict through all three, with at most one request that has the
password.
-/

namespace PasswordHook

open Prog

/-! ## What an attempt comes to -/

inductive AttemptVerdict where
  | synced
  | permanent
  | transient
  deriving DecidableEq

/-- A write that Graph accepted. -/
def GraphOutcome.succeeds : GraphOutcome → Bool
  | .status code => 200 ≤ code && code ≤ 299
  | _ => false

/-- A request that did not lead on. -/
def GraphOutcome.failure : GraphOutcome → AttemptVerdict
  | .status code => if code = 400 ∨ code = 403 then .permanent else .transient
  | _ => .transient

namespace AttemptScript

variable (a : AttemptScript)

def verdict (upn : String) (password : Bytes) : AttemptVerdict :=
  if trimSpace upn = "" ∨ password = [] then .permanent
  else if a.lookup = .status 200 ∨ a.lookup = .status 404 then
    if a.write.succeeds then .synced else a.write.failure
  else a.lookup.failure

/-- The requests with the password: a patch of a user that was found, a post for one that was not,
if the write gets as far as a request. -/
def requests (client : GraphClient) (user : User) (password : Bytes) :
    List (GraphMethod × String × Bytes) :=
  if trimSpace user.upn = "" ∨ password = [] then []
  else if a.lookup = .status 200 ∧ a.write.sends = true then
    [(.patch, graphURL client (userPath (trimSpace user.upn)), buildPatchBody password)]
  else if a.lookup = .status 404 ∧ a.write.sends = true then
    [(.post, graphURL client "/v1.0/users",
      buildCreateBody { user with upn := trimSpace user.upn } password)]
  else []

end AttemptScript

/-- What the worker makes of an answer of its processor. -/
def attemptVerdict : Option Err → AttemptVerdict
  | none => .synced
  | some err => if err.asPermanent.isSome then .permanent else .transient

/-- What `writePassword` makes of an outcome. -/
def GraphOutcome.writeResult (operation : String) (o : GraphOutcome) : Option Err :=
  match o.result operation with
  | .error err => some err
  | .ok code =>
    if code < 200 ∨ 299 < code then some (classifyGraphResponse operation code) else none

theorem result_eq_ok_iff {o : GraphOutcome} {operation : String} {code : ℤ} :
    o.result operation = .ok code ↔ o = .status code := by
  cases o <;> simp [GraphOutcome.result]

theorem attemptVerdict_classify (operation : String) (code : ℤ) :
    attemptVerdict (Processor.resultOf (some (classifyGraphResponse operation code))) =
      (GraphOutcome.status code).failure := by
  rw [GraphOutcome.failure, classifyGraphResponse]
  by_cases hcode : code = 400 ∨ code = 403
  · rw [if_pos hcode, if_pos hcode]
    rfl
  · rw [if_neg hcode, if_neg hcode]
    rfl

/-- An error of the token, the request or the network is transient. -/
theorem attemptVerdict_error {o : GraphOutcome} (h : o.Foreign) {operation : String} {err : Err}
    (herr : o.result operation = .error err) :
    attemptVerdict (Processor.resultOf (some err)) = o.failure := by
  cases o with
  | status code => exact absurd herr (by simp [GraphOutcome.result])
  | tokenError cause =>
    obtain rfl := Except.error.inj herr
    simp [Processor.resultOf, attemptVerdict, Err.asGraphPermanent, Err.asPermanent, h.1, h.2,
      GraphOutcome.failure]
  | buildError cause =>
    obtain rfl := Except.error.inj herr
    simp [Processor.resultOf, attemptVerdict, Err.asGraphPermanent, Err.asPermanent, h.1, h.2,
      GraphOutcome.failure]
  | networkError cause =>
    obtain rfl := Except.error.inj herr
    simp [Processor.resultOf, attemptVerdict, Err.asGraphPermanent, Err.asPermanent, h.1, h.2,
      GraphOutcome.failure]

theorem attemptVerdict_writeResult {o : GraphOutcome} (h : o.Foreign) (operation : String) :
    attemptVerdict (Processor.resultOf (o.writeResult operation)) =
      if o.succeeds then .synced else o.failure := by
  rw [GraphOutcome.writeResult]
  cases hresult : o.result operation with
  | error err =>
    have hsucceeds : o.succeeds = false := by
      cases o with
      | status code => exact absurd hresult (by simp [GraphOutcome.result])
      | _ => rfl
    rw [hsucceeds]
    exact attemptVerdict_error h hresult
  | ok status =>
    obtain rfl := result_eq_ok_iff.1 hresult
    have hsucceeds : (GraphOutcome.status status).succeeds = true ↔
        ¬ (status < 200 ∨ 299 < status) := by
      rw [GraphOutcome.succeeds, Bool.and_eq_true, decide_eq_true_iff, decide_eq_true_iff]
      omega
    by_cases hfailed : status < 200 ∨ 299 < status
    · have hnot : ¬ (GraphOutcome.status status).succeeds = true := fun hs => hsucceeds.1 hs hfailed
      simp only [if_pos hfailed, if_neg hnot]
      exact attemptVerdict_classify operation status
    · simp only [if_neg hfailed, if_pos (hsucceeds.2 hfailed)]
      rfl

/-! ## One attempt on the bench -/

section Attempt

variable {script : ℕ → AttemptScript} {E : Surroundings} {client : GraphClient}

theorem runGraph_bind {α β : Type} (p : GraphProg α) (f : α → GraphProg β) (s : Bench) :
    runGraph script E (p.bind f) s =
      runGraph script E (f (runGraph script E p s).2) (runGraph script E p s).1 :=
  runWith_bind _ p f s

variable (script E client) in
theorem runGraph_writePassword (operation : String) (method : GraphMethod) (path : String)
    (body : Bytes) (s : Bench) :
    (runGraph script E (writePassword client operation method path body) s).2 =
        (s.outcome script).writeResult operation ∧
      Requested s (runGraph script E (writePassword client operation method path body) s).1
        (s.outcome script).sends (some (method, graphURL client path, body)) := by
  obtain ⟨hresult, hrequested⟩ :=
    runGraph_doGraphRequest script E client operation method path (some body) s
  generalize hrun : runGraph script E (doGraphRequest client operation method path (some body)) s =
    r at hresult hrequested
  obtain ⟨s', answer⟩ := r
  have hwrite : runGraph script E (writePassword client operation method path body) s =
      (s'.after (.processor (.graph (.zeroBody body))),
        (s.outcome script).writeResult operation) := by
    refine (runGraph_bind (doGraphRequest client operation method path (some body)) _ s).trans ?_
    rw [hrun, GraphOutcome.writeResult, ← hresult]
    cases answer with
    | error err => rfl
    | ok code =>
      refine (runGraph_call (c := .zeroBody body) rfl).trans ?_
      by_cases hfailed : code < 200 ∨ 299 < code
      · simp only [if_pos hfailed]
        rfl
      · simp only [if_neg hfailed]
        rfl
  rw [hwrite]
  refine ⟨rfl, hrequested.attempt, hrequested.writing, fun i => ?_⟩
  rw [view_requestsIn_after rfl]
  exact hrequested.requests i

/-- What an upsert leaves on the bench. -/
structure Upserted (s s' : Bench) (requests : List (GraphMethod × String × Bytes)) : Prop where
  attempt : s'.attempt = s.attempt
  requests : ∀ i, s'.view (requestsIn i) = s.view (requestsIn i) ++
    if s.attempt = i then requests else []

theorem Upserted.refl (s : Bench) : Upserted s s [] where
  attempt := rfl
  requests i := by rw [ite_self, List.append_nil]

theorem Requested.upserted {s s' : Bench} {sends : Bool}
    {request : Option (GraphMethod × String × Bytes)} (h : Requested s s' sends request) :
    Upserted s s' (if sends then request.toList else []) where
  attempt := h.attempt
  requests i := by
    rw [h.requests i]
    by_cases hi : s.attempt = i
    · cases sends <;> simp [hi]
    · cases sends <;> simp [hi]

theorem Upserted.trans {s s' s'' : Bench} {rs rs' : List (GraphMethod × String × Bytes)}
    (h : Upserted s s' rs) (h' : Upserted s' s'' rs') : Upserted s s'' (rs ++ rs') where
  attempt := h'.attempt.trans h.attempt
  requests i := by
    rw [h'.requests i, h.requests i, h.attempt, List.append_assoc]
    by_cases hi : s.attempt = i
    · simp [hi]
    · simp [hi]

variable (script E client) in
/-- After the lookup. -/
theorem runGraph_upsertLookedUp (user : User) {password : Bytes} (hpassword : password ≠ [])
    (hupn : trimSpace user.upn ≠ "") {s : Bench} (hwriting : s.writing = true) {code : ℤ}
    (hlookup : (script s.attempt).lookup = .status code) :
    attemptVerdict (Processor.resultOf
        (runGraph script E (upsertLookedUp client user (trimSpace user.upn) password code) s).2) =
        (script s.attempt).verdict user.upn password ∧
      Upserted s
        (runGraph script E (upsertLookedUp client user (trimSpace user.upn) password code) s).1
        ((script s.attempt).requests client user password) := by
  have houtcome : s.outcome script = (script s.attempt).write := by
    rw [Bench.outcome, if_pos hwriting]
  have hvalid : ¬ (trimSpace user.upn = "" ∨ password = []) := fun h => h.elim hupn hpassword
  rw [AttemptScript.verdict, AttemptScript.requests, if_neg hvalid, if_neg hvalid, hlookup,
    upsertLookedUp]
  by_cases hfound : code = 200
  · subst hfound
    obtain ⟨hresult, hrequested⟩ := runGraph_writePassword script E client "patch user" .patch
      (userPath (trimSpace user.upn)) (buildPatchBody password) s
    rw [← patchUserPassword, houtcome] at hresult hrequested
    have hverdict := attemptVerdict_writeResult (script s.attempt).write_foreign "patch user"
    rw [← hresult] at hverdict
    refine ⟨hverdict, ?_⟩
    have hupserted := hrequested.upserted
    cases hsends : (script s.attempt).write.sends <;> simpa [hsends] using hupserted
  · by_cases habsent : code = 404
    · subst habsent
      obtain ⟨hresult, hrequested⟩ := runGraph_writePassword script E client "create user" .post
        "/v1.0/users" (buildCreateBody { user with upn := trimSpace user.upn } password) s
      rw [← createUser, houtcome] at hresult hrequested
      have hverdict := attemptVerdict_writeResult (script s.attempt).write_foreign "create user"
      rw [← hresult] at hverdict
      refine ⟨hverdict, ?_⟩
      have hupserted := hrequested.upserted
      cases hsends : (script s.attempt).write.sends <;> simpa [hsends] using hupserted
    · rw [if_neg hfound, if_neg habsent]
      have hother : ¬ (GraphOutcome.status code = .status 200 ∨
          GraphOutcome.status code = .status 404) := by
        simp [hfound, habsent]
      rw [if_neg hother, if_neg (fun h => hother (.inl h.1)), if_neg (fun h => hother (.inr h.1))]
      exact ⟨attemptVerdict_classify "lookup user" code, .refl s⟩

section Lookup

variable {user : User} {password : Bytes} {s s' : Bench}

theorem runGraph_upsert_of_error (hpassword : password ≠ []) (hupn : trimSpace user.upn ≠ "")
    {err : Err} (hrun : runGraph script E (doGraphRequest client "lookup user" .get
      (userPath (trimSpace user.upn)) none) s = (s', .error err)) :
    runGraph script E (upsertUserPassword client user password) s = (s', some err) := by
  rw [upsertUserPassword, if_neg hupn, if_neg hpassword]
  refine (runGraph_bind (doGraphRequest client "lookup user" .get
    (userPath (trimSpace user.upn)) none) _ s).trans ?_
  rw [hrun]
  rfl

theorem runGraph_upsert_of_found (hpassword : password ≠ []) (hupn : trimSpace user.upn ≠ "")
    {code : ℤ} (hrun : runGraph script E (doGraphRequest client "lookup user" .get
      (userPath (trimSpace user.upn)) none) s = (s', .ok code)) :
    runGraph script E (upsertUserPassword client user password) s =
      runGraph script E (upsertLookedUp client user (trimSpace user.upn) password code) s' := by
  rw [upsertUserPassword, if_neg hupn, if_neg hpassword]
  refine (runGraph_bind (doGraphRequest client "lookup user" .get
    (userPath (trimSpace user.upn)) none) _ s).trans ?_
  rw [hrun]

end Lookup

variable (script E client) in
/-- `UpsertUserPassword` in an attempt, from its lookup on. -/
theorem runGraph_upsertUserPassword (user : User) (password : Bytes) {s : Bench}
    (hstart : s.writing = false) :
    attemptVerdict (Processor.resultOf
        (runGraph script E (upsertUserPassword client user password) s).2) =
        (script s.attempt).verdict user.upn password ∧
      Upserted s (runGraph script E (upsertUserPassword client user password) s).1
        ((script s.attempt).requests client user password) := by
  by_cases hvalid : trimSpace user.upn = "" ∨ password = []
  · rw [AttemptScript.verdict, AttemptScript.requests, if_pos hvalid, if_pos hvalid,
      upsertUserPassword]
    by_cases hupn : trimSpace user.upn = ""
    · rw [if_pos hupn]
      exact ⟨rfl, .refl s⟩
    · rw [if_neg hupn, if_pos (hvalid.resolve_left hupn)]
      exact ⟨rfl, .refl s⟩
  · obtain ⟨hupn, hpassword⟩ := not_or.1 hvalid
    have houtcome : s.outcome script = (script s.attempt).lookup := by
      rw [Bench.outcome, hstart]
      rfl
    obtain ⟨hresult, hrequested⟩ := runGraph_doGraphRequest script E client "lookup user" .get
      (userPath (trimSpace user.upn)) none s
    rw [houtcome] at hresult hrequested
    generalize hrun : runGraph script E (doGraphRequest client "lookup user" .get
      (userPath (trimSpace user.upn)) none) s = r at hresult hrequested
    obtain ⟨s', found⟩ := r
    have hlookedUp : Upserted s s' [] := by simpa using hrequested.upserted
    cases found with
    | error err =>
      rw [runGraph_upsert_of_error hpassword hupn hrun]
      have herror : (script s.attempt).lookup.result "lookup user" = .error err := hresult.symm
      have hstatus : ∀ code, (script s.attempt).lookup ≠ .status code := by
        intro code hcode
        rw [hcode] at herror
        exact absurd herror (by simp [GraphOutcome.result])
      rw [AttemptScript.verdict, AttemptScript.requests, if_neg hvalid, if_neg hvalid,
        if_neg (fun h => h.elim (hstatus 200) (hstatus 404)), if_neg (fun h => hstatus 200 h.1),
        if_neg (fun h => hstatus 404 h.1)]
      exact ⟨attemptVerdict_error (script s.attempt).lookup_foreign herror, hlookedUp⟩
    | ok code =>
      rw [runGraph_upsert_of_found hpassword hupn hrun]
      have hstatus : (script s.attempt).lookup = .status code := result_eq_ok_iff.1 hresult.symm
      have hwriting : s'.writing = true := by
        rw [hrequested.writing, hstatus]
        exact Bool.or_true _
      have hattempt := hlookedUp.attempt
      rw [← hattempt] at hstatus
      obtain ⟨hverdict, hupserted⟩ :=
        runGraph_upsertLookedUp script E client user hpassword hupn hwriting hstatus
      rw [hattempt] at hverdict hupserted
      have hboth := hlookedUp.trans hupserted
      rw [List.nil_append] at hboth
      exact ⟨hverdict, hboth⟩

theorem Upserted.after {s s' : Bench} {rs : List (GraphMethod × String × Bytes)}
    (h : Upserted s s' rs) {c : ProcessorCall}
    (hc : (SyncCall.processor c).passwordRequest? = none) :
    Upserted s (s'.after (.processor c)) rs where
  attempt := h.attempt
  requests i := (view_requestsIn_after hc i s').trans (h.requests i)

theorem runProcessor_bind {α β : Type} (p : ProcessorProg α) (f : α → ProcessorProg β) (s : Bench) :
    runProcessor script E (p.bind f) s =
      runProcessor script E (f (runProcessor script E p s).2) (runProcessor script E p s).1 :=
  runWith_bind _ p f s

variable (script E) in
/-- Three more calls of the processor, which say how the upsert went. -/
theorem runProcessor_reportUpsert (msg : PasswordSyncCommand) (start : Time) (err : Option Err)
    {s s' : Bench} {rs : List (GraphMethod × String × Bytes)} (h : Upserted s s' rs) :
    (runProcessor script E (Processor.reportUpsert msg start err) s').2 = Processor.resultOf err ∧
      Upserted s (runProcessor script E (Processor.reportUpsert msg start err) s').1 rs :=
  ⟨rfl, ((h.after (c := .now) rfl).after (c := .observeDuration _ _ _) rfl).after
    (c := .logAttrs _ _) rfl⟩

variable (script E client) in
/-- `ProcessPasswordSync` in an attempt. -/
theorem runProcessor_processPasswordSync (cmd : PasswordSyncCommand) {s : Bench}
    (hstart : s.writing = false) :
    attemptVerdict (runProcessor script E (Processor.processPasswordSync client cmd) s).2 =
        (script s.attempt).verdict cmd.upn cmd.password ∧
      Upserted s (runProcessor script E (Processor.processPasswordSync client cmd) s).1
        ((script s.attempt).requests client ⟨cmd.upn, cmd.displayName, cmd.mail⟩ cmd.password) := by
  have hstarted : Upserted s (s.after (.processor .now)) [] := (Upserted.refl s).after rfl
  have hupsert := runGraph_upsertUserPassword script E client
    ⟨cmd.upn, cmd.displayName, cmd.mail⟩ cmd.password (s := s.after (.processor .now)) hstart
  rw [hstarted.attempt] at hupsert
  obtain ⟨hverdict, hupserted⟩ := hupsert
  generalize hrun : runGraph script E (upsertUserPassword client
    ⟨cmd.upn, cmd.displayName, cmd.mail⟩ cmd.password) (s.after (.processor .now)) = r
    at hverdict hupserted
  have hreport : runProcessor script E (Processor.processPasswordSync client cmd) s =
      runProcessor script E (Processor.reportUpsert cmd (E.time s) r.2) r.1 := by
    rw [← hrun, ← runProcessor_ofClient]
    refine (runProcessor_bind (ProcessorCall.perform .now) _ s).trans ?_
    exact runProcessor_bind _ (Processor.reportUpsert cmd (E.time s)) (s.after (.processor .now))
  have hboth := hstarted.trans hupserted
  rw [List.nil_append] at hboth
  obtain ⟨hresult, hreported⟩ := runProcessor_reportUpsert script E cmd (E.time s) r.2 hboth
  rw [hreport, hresult]
  exact ⟨hverdict, hreported⟩

end Attempt

end PasswordHook
