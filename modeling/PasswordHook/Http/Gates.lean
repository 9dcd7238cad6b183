import PasswordHook.Http.Responses
import PasswordHook.Migration.Outcome

/-!
# What a request goes through

A complete run of the chain either stays outside of `Submit`, or it has passed the rate limiter, the
signature check and the validation before, zeroes the password after, and answers by what `Submit`
came to (`runs_handle_cases`).  So no collaborator of the hook is called for a request that was not
vetted (`vetted_before_hook`), an answer 202 agrees with what the queue acknowledged
(`reply_agrees_with_queue`), and the buffers with the password are zeroed after the last call that
may read them (`zeroed_after_hook`).
-/

namespace PasswordHook

open Prog Serve Risky

/-! ## Outside of `Submit` -/

/-- A call that is none of the hook's and does not accept the request. -/
def Plain : ServeCall → Prop
  | .hook _ => False
  | .writeHeader status => status ≠ 202
  | _ => True

section Plain

variable {traceID path : String}

theorem plain_inc {name : String} {labels : List (String × String)} :
    (inc name labels).Only Plain :=
  only_perform True.intro

theorem plain_logAttrs {action : String} {attrs : List (String × LogField)} :
    (logAttrs action attrs).Only Plain :=
  only_perform True.intro

theorem plain_writeProblem {p : Problem} (h : p.status ≠ 202) : (writeProblem p).Only Plain :=
  only_safely ⟨True.intro, fun _ => ⟨h, fun _ => only_perform True.intro⟩⟩

theorem plain_writeHeader {status : ℕ} (h : status ≠ 202) : (writeHeader status).Only Plain :=
  only_safely (only_perform h)

theorem plain_hmacCall {c : HmacCall} :
    (hmacCall c).Only Plain := only_safely (only_perform True.intro)

theorem plain_recordRejected {status : ℕ} {outcome : String} {eventType : EventType} :
    (recordRejected traceID status outcome eventType).Only Plain :=
  plain_inc.bind fun _ => plain_logAttrs

theorem plain_recordDecision {status : ℕ} {eventType : EventType} {decision : Decision} :
    (recordDecision traceID status eventType decision).Only Plain := by
  unfold recordDecision
  refine plain_inc.bind fun _ => ?_
  split_ifs
  · exact plain_inc.bind fun _ => plain_logAttrs
  · exact (only_pure ()).bind fun _ => plain_logAttrs

theorem plain_recordMiddlewareOutcome {name outcome reason : String} {status : ℕ}
    {extra : List (String × LogField)} :
    (recordMiddlewareOutcome traceID name status outcome reason extra).Only Plain :=
  plain_inc.bind fun _ => plain_logAttrs

theorem plain_rejectUnauthentic {problemBase : String} {why : Rejection} :
    (rejectUnauthentic problemBase traceID path why).Only Plain := by
  cases why <;> exact plain_recordMiddlewareOutcome.bind fun _ => plain_writeProblem (by simp)

theorem plain_logRequest {method : String} {start : Time} {recorded : ℕ} :
    (logRequest traceID path method start recorded).Only Plain :=
  (only_safely (only_perform True.intro)).bind fun _ => only_perform True.intro

end Plain

/-! ## One layer after the other -/

section Layers

variable {traceID path : String} {τ : List ServeEvent} {result : Except Panic Unit}

def zeroed (buffer : PasswordBuffer) : ServeEvent := ⟨ServeCall.zero buffer, ()⟩

theorem runs_deferring_zero {α : Type} {buffer : PasswordBuffer} {p : ServeProg α}
    {result : Except Panic α} (run : (deferring (zero buffer) p).Runs τ result) :
    ∃ τ', τ = τ' ++ [zeroed buffer] ∧ p.Runs τ' result := by
  obtain ⟨τ₁, τ₂, rfl, hrun, hzero⟩ := runs_deferring run
  obtain ⟨_, τ₃, rfl, hdone⟩ := exec_call_iff.1 hzero
  obtain ⟨rfl, -⟩ := exec_ret_iff.1 hdone
  exact ⟨τ₁, rfl, hrun⟩

/-- The hook once the request is valid: what `Submit` calls, then the password is zeroed, then the
answer. -/
theorem runs_submitted {U : Unicode} {svc : Service} {problemBaseURL : String} {req : Request}
    {eventType : EventType}
    (run : (Serve.submit U svc traceID req >>=
      serveResult problemBaseURL traceID path eventType).Runs τ
      result) :
    ∃ hooks out, τ = hooks ++ zeroed .password :: out ∧
      ((∃ e, result = .error e ∧ out = [] ∧
        (lift hookCall (submitBody U svc traceID req)).Runs hooks (.error e)) ∨
        ∃ submitted, (lift hookCall (submitBody U svc traceID req)).Runs hooks (.ok submitted) ∧
          (serveResult problemBaseURL traceID path eventType submitted).Runs out result) := by
  rcases runs_bind run with ⟨e, rfl, hpanic⟩ | ⟨submitted, τ₁, out, rfl, hsubmit, hresult⟩
  · obtain ⟨hooks, rfl, hooked⟩ := runs_deferring_zero hpanic
    exact ⟨hooks, [], rfl, .inl ⟨e, rfl, rfl, hooked⟩⟩
  · obtain ⟨hooks, rfl, hooked⟩ := runs_deferring_zero hsubmit
    exact ⟨hooks, out, by simp, .inr ⟨submitted, hooked, hresult⟩⟩

/-- The hook submits the request. -/
structure HookPost.Valid (grow : ℕ → ℕ → ℕ) (heap : Heap) (r : HookPost) : Prop where
  method : r.method = "POST"
  read : r.readErr = none
  json : r.unmarshalErr = none
  fields : r.validate (decodedPassword grow heap r).length = ""

theorem plain_snoc_zeroed {buffer : PasswordBuffer} (h : ∀ e ∈ τ, Plain e.call) :
    ∀ e ∈ τ ++ [zeroed buffer], Plain e.call := by
  refine List.forall_mem_append.2 ⟨h, fun e he => ?_⟩
  obtain rfl := List.mem_singleton.1 he
  exact True.intro

theorem runs_serveHTTP {grow : ℕ → ℕ → ℕ} {heap : Heap} {U : Unicode} {svc : Service}
    {problemBaseURL : String} {r : HookPost}
    (run : (serveHTTP grow heap U svc problemBaseURL traceID path r).Runs τ result) :
    (∀ e ∈ τ, Plain e.call) ∨ r.Valid grow heap ∧
    ∃ mid, τ = mid ++ [zeroed .password, zeroed .rawBody] ∧
      (Serve.submit U svc traceID (requestOf grow heap r) >>=
        serveResult problemBaseURL traceID path r.eventType).Runs mid result := by
  have hreject :
      ∀ {status : ℕ} {outcome : String} {eventType : EventType} {p : Problem} {σ : List ServeEvent},
      p.status ≠ 202 →
      (recordRejected traceID status outcome eventType >>= fun _ => writeProblem p).Runs σ result →
      ∀ e ∈ σ, Plain e.call := fun hp run =>
    (plain_recordRejected.bind fun _ => plain_writeProblem hp).runs run
  unfold serveHTTP at run
  split_ifs at run with hmethod hread
  · exact .inl ((plain_recordRejected.bind fun _ => plain_writeHeader (by decide)).runs run)
  · obtain ⟨τ', rfl, run'⟩ := runs_deferring_zero run
    exact .inl (plain_snoc_zeroed (hreject (by simp) run'))
  · obtain ⟨τ₁, rfl, run₁⟩ := runs_deferring_zero run
    obtain ⟨mid, rfl, run₂⟩ := runs_deferring_zero run₁
    unfold serveBody at run₂
    dsimp only at run₂
    split_ifs at run₂ with hjson hfields
    · exact .inl (plain_snoc_zeroed (plain_snoc_zeroed (hreject (by simp) run₂)))
    · exact .inl (plain_snoc_zeroed (plain_snoc_zeroed (hreject (by simp) run₂)))
    · exact .inr ⟨⟨not_not.1 hmethod, not_not.1 hread, not_not.1 hjson, not_not.1 hfields⟩,
        mid, by simp, run₂⟩

/-- An event of `HMAC.Wrap`, in the chain. -/
def hmacEvent (e : HmacEvent) : ServeEvent := ⟨ServeCall.hmac e.call, e.resp⟩

theorem plain_hmacEvents (σ : List HmacEvent) : ∀ e ∈ σ.map hmacEvent, Plain e.call := by
  intro e he
  obtain ⟨e', -, rfl⟩ := List.mem_map.1 he
  exact True.intro

theorem lifts_hmacCall {σ : List HmacEvent} (h : Lifts hmacCall σ τ) : τ = σ.map hmacEvent := by
  induction h with
  | nil => rfl
  | cons run rest ih =>
    obtain ⟨_, hok, hexec⟩ := runs_safely run
    obtain ⟨_, τ', rfl, hret⟩ := exec_call_iff.1 hexec
    obtain ⟨rfl, rfl⟩ := exec_ret_iff.1 hret
    cases hok
    rw [ih]
    rfl

theorem runs_authenticate {problemBase : String} {m : HMAC} {mac : Bytes → Bytes → Bytes}
    {r : HookRequest} {next : Bytes → ServeProg Unit}
    (run : (authenticate problemBase traceID path m mac r next).Runs τ result) :
    ∃ τ', τ = τ' ++ [zeroed .body] ∧ ((∀ e ∈ τ', Plain e.call) ∨
      ∃ σ body rest, τ' = σ.map hmacEvent ++ rest ∧ Exec (m.wrap mac r) σ (.forwarded body) ∧
        (next body).Runs rest result) := by
  obtain ⟨τ', rfl, run'⟩ := runs_deferring_zero run
  refine ⟨τ', rfl, ?_⟩
  rcases runs_bind run' with ⟨e, rfl, hpanic⟩ | ⟨verdict, τ₁, rest, rfl, hwrap, hnext⟩
  · have hwrap : (lift hmacCall (m.wrap mac r)).Only Plain :=
      only_lift (fun _ _ => plain_hmacCall) (only_true _)
    exact .inl (hwrap.runs hpanic)
  · rcases runs_lift hwrap with ⟨_, σ, hok, hexec, hlifts⟩ | ⟨e, _, _, _, _, _, he, -⟩
    · cases hok
      obtain rfl := lifts_hmacCall hlifts
      cases verdict with
      | forwarded body => exact .inr ⟨σ, body, rest, rfl, hexec, hnext⟩
      | rejected why =>
        exact .inl
          (List.forall_mem_append.2 ⟨plain_hmacEvents σ, plain_rejectUnauthentic.runs hnext⟩)
    · cases he

theorem runs_limitRate {problemBase : String} {l : RateLimiter} {r : SourceRequest}
    {next : ServeProg Unit} (run : (limitRate problemBase traceID path l r next).Runs τ result) :
    (∀ e ∈ τ, Plain e.call) ∨ l.sourceAllowed (l.resolveSourceIP r).resolvedClientIP = true ∧
      ∃ now rest, τ = ⟨ServeCall.limiterNow, now⟩ ::
          ⟨ServeCall.allow (RateLimiter.rateKey (l.resolveSourceIP r).resolvedClientIP) now,
            true⟩ :: rest ∧
        next.Runs rest result := by
  unfold limitRate at run
  dsimp only at run
  split_ifs at run with hsource
  · exact .inl ((plain_recordMiddlewareOutcome.bind fun _ => plain_writeProblem (by simp)).runs run)
  · obtain ⟨now, τ₁, rfl, run₁⟩ := runs_safely_call run
    obtain ⟨(allowed : Bool), rest, rfl, run₂⟩ := runs_safely_call run₁
    cases allowed with
    | true => exact .inr ⟨by simpa using hsource, now, rest, rfl, run₂⟩
    | false =>
      refine .inl (List.forall_mem_cons.2 ⟨True.intro, List.forall_mem_cons.2 ⟨True.intro, ?_⟩⟩)
      exact (plain_recordMiddlewareOutcome.bind fun _ => plain_writeProblem (by simp)).runs run₂

theorem runs_recovery {problemBase : String} {next : ServeProg Unit}
    (run : (recovery problemBase traceID path next).Runs τ result) :
    ∃ result' τ₁ τ₂, τ = τ₁ ++ τ₂ ∧ next.Runs τ₁ result' ∧ ∀ e ∈ τ₂, Plain e.call := by
  rcases runs_recovering run with ⟨u, -, hrun⟩ | ⟨e, τ₁, τ₂, rfl, hrun, hhandler⟩
  · exact ⟨_, τ, [], by simp, hrun, fun e he => absurd he List.not_mem_nil⟩
  · exact ⟨_, τ₁, τ₂, rfl, hrun,
      (plain_recordMiddlewareOutcome.bind fun _ => plain_writeProblem (by simp)).runs hhandler⟩

theorem runs_accessLog {method : String} {next : ServeProg Unit}
    (run : (accessLog traceID path method next).Runs τ result) :
    ∃ result' start τ₁ τ₂, τ = ⟨ServeCall.start, start⟩ :: (τ₁ ++ τ₂) ∧ next.Runs τ₁ result' ∧
      ∀ e ∈ τ₂, Plain e.call := by
  obtain ⟨start, τ', rfl, run'⟩ := runs_safely_call run
  rcases runs_bind run' with ⟨e, rfl, hpanic⟩ | ⟨recorded, τ₁, τ₂, rfl, hnext, hlog⟩
  · rcases runs_watching hpanic with ⟨e, he, hrun⟩ | ⟨u, hok, -⟩
    · exact ⟨_, start, τ', [], by simp, hrun, fun e he => absurd he List.not_mem_nil⟩
    · cases hok
  · rcases runs_watching hnext with ⟨e, he, -⟩ | ⟨u, -, hrun⟩
    · cases he
    · exact ⟨_, start, τ₁, τ₂, rfl, hrun, plain_logRequest.runs hlog⟩

end Layers

/-! ## The chain -/

theorem HMAC.exec_wrap_passed {m : HMAC} {mac : Bytes → Bytes → Bytes} {r : HookRequest}
    {body : Bytes} {σ : List HmacEvent} (run : Exec (m.wrap mac r) σ (.forwarded body)) :
    ∃ timestamp now, m.Readable r body timestamp ∧ m.Passes mac r body timestamp now ∧
      .checked now ∈ σ ∧
      (m.nonces = true → ∃ t, .used r.nonce m.nonceTTL t true ∈ σ) := by
  rcases m.wrap_cases mac r with ⟨why, -, hwrap⟩ | ⟨body', timestamp, hreadable⟩
  · rw [hwrap] at run
    cases (exec_ret_iff.1 run).2
  · rw [hreadable.wrap_eq] at run
    obtain ⟨now, σ', rfl, h⟩ := exec_wrapParsed run
    rcases h with ⟨-, -, hv⟩ | ⟨-, -, -, hv⟩ | ⟨hpass, hnonces, rfl, hv⟩ |
      ⟨hpass, hnonces, t, ok, rfl, hv⟩
    · cases hv
    · cases hv
    · cases hv
      exact ⟨timestamp, now, hreadable, hpass, List.mem_cons_self, fun h =>
        absurd (hnonces ▸ h) (by decide)⟩
    · cases ok with
      | false => cases hv
      | true =>
        cases hv
        exact ⟨timestamp, now, hreadable, hpass, List.mem_cons_self, fun _ => ⟨t, by simp⟩⟩

/-- The checks that a request has passed, by what was called for them. -/
structure Vetted (a : HookServer) (mac : Bytes → Bytes → Bytes) (r : IncomingRequest) (body : Bytes)
    (τ : List ServeEvent) : Prop where
  source : a.rateLimiter.sourceAllowed (a.rateLimiter.resolveSourceIP r.source).resolvedClientIP =
    true
  allowed : ∃ now, ⟨ServeCall.allow
    (RateLimiter.rateKey (a.rateLimiter.resolveSourceIP r.source).resolvedClientIP) now, true⟩ ∈ τ
  authentic : ∃ timestamp now, a.hmac.Readable r.signed body timestamp ∧
    a.hmac.Passes mac r.signed body timestamp now ∧ hmacEvent (.checked now) ∈ τ
  unused : a.hmac.nonces = true →
    ∃ t, hmacEvent (.used r.signed.nonce a.hmac.nonceTTL t true) ∈ τ

theorem Vetted.mono {a : HookServer} {mac : Bytes → Bytes → Bytes} {r : IncomingRequest}
    {body : Bytes} {τ τ' : List ServeEvent} (h : Vetted a mac r body τ) (hsub : τ ⊆ τ') :
    Vetted a mac r body τ' where
  source := h.source
  allowed := h.allowed.imp fun _ hmem => hsub hmem
  authentic := by
    obtain ⟨timestamp, now, hreadable, hpass, hmem⟩ := h.authentic
    exact ⟨timestamp, now, hreadable, hpass, hsub hmem⟩
  unused hnonces := (h.unused hnonces).imp fun _ hmem => hsub hmem

theorem Identifies.plain {header traceID : String} {lead : List ServeEvent}
    (h : Identifies header lead traceID) : ∀ e ∈ lead, Plain e.call := by
  cases h with
  | given => exact fun e he => absurd he List.not_mem_nil
  | fresh h bytes =>
    intro e he
    obtain rfl := List.mem_singleton.1 he
    exact True.intro

section Chain

variable {a : HookServer} {mac : Bytes → Bytes → Bytes} {unmarshal : Bytes → HookPost}
  {grow : ℕ → ℕ → ℕ} {heap : Heap} {U : Unicode} {r : IncomingRequest} {τ : List ServeEvent}
  {result : Except Panic Unit}

/-- The body that the hook unmarshalled is submitted: `hooks` are the calls of `Submit`, and `out`
those of the answer, if `Submit` did not panic. -/
def Submitted (a : HookServer) (U : Unicode) (r : IncomingRequest) (traceID : String)
    (eventType : EventType) (req : Request) (hooks out : List ServeEvent) : Prop :=
  (∃ e, out = [] ∧ (lift hookCall (submitBody U a.service traceID req)).Runs hooks (.error e)) ∨
    ∃ submitted result, (lift hookCall (submitBody U a.service traceID req)).Runs hooks
      (.ok submitted) ∧
      (serveResult (Problem.trimRightSlash a.problemBaseURL) traceID r.path eventType
        submitted).Runs out result

/-- The chain inside of `Recovery`. -/
theorem runs_vetted {traceID : String}
    (run : (limitRate a.problemBaseURL traceID r.path a.rateLimiter r.source
      (authenticate a.problemBaseURL traceID r.path a.hmac mac r.signed
        (a.hook unmarshal grow heap U r traceID))).Runs τ result) :
    (∀ e ∈ τ, Plain e.call) ∨
      ∃ body pre hooks out,
        τ = pre ++ (hooks ++ zeroed .password ::
          (out ++ [zeroed .password, zeroed .rawBody, zeroed .body])) ∧
        Vetted a mac r body pre ∧ (HookServer.postOf unmarshal r body).Valid grow heap ∧
        (∀ e ∈ pre, Plain e.call) ∧
        Submitted a U r traceID (HookServer.postOf unmarshal r body).eventType
          (requestOf grow heap (HookServer.postOf unmarshal r body)) hooks out := by
  rcases runs_limitRate run with hplain | ⟨hsource, now, τ₁, rfl, run₁⟩
  · exact .inl hplain
  obtain ⟨τ₂, rfl, h⟩ := runs_authenticate run₁
  rcases h with hplain | ⟨σ, body, τ₃, rfl, hwrap, run₂⟩
  · exact .inl (List.forall_mem_cons.2 ⟨True.intro, List.forall_mem_cons.2 ⟨True.intro,
      plain_snoc_zeroed hplain⟩⟩)
  rcases runs_serveHTTP run₂ with hplain | ⟨hvalid, mid, rfl, run₃⟩
  · exact .inl (List.forall_mem_cons.2 ⟨True.intro, List.forall_mem_cons.2 ⟨True.intro,
      plain_snoc_zeroed (List.forall_mem_append.2 ⟨plain_hmacEvents σ, hplain⟩)⟩⟩)
  obtain ⟨hooks, out, rfl, hsubmitted⟩ := runs_submitted run₃
  obtain ⟨timestamp, now', hreadable, hpass, hchecked, hunused⟩ := HMAC.exec_wrap_passed hwrap
  refine .inr ⟨body, ⟨ServeCall.limiterNow, now⟩ ::
    ⟨ServeCall.allow (RateLimiter.rateKey (a.rateLimiter.resolveSourceIP r.source).resolvedClientIP)
      now, true⟩ ::
      σ.map hmacEvent, hooks, out, by simp, ?_, hvalid, ?_, ?_⟩
  · exact
      { source := hsource
        allowed := ⟨now, by simp⟩
        authentic :=
          ⟨timestamp, now', hreadable, hpass, by simpa using .inr (.inr ⟨_, hchecked, rfl⟩)⟩
        unused := fun hnonces => (hunused hnonces).imp fun t ht => by
          simpa using .inr (.inr ⟨_, ht, rfl⟩) }
  · exact List.forall_mem_cons.2 ⟨True.intro,
      List.forall_mem_cons.2 ⟨True.intro, plain_hmacEvents σ⟩⟩
  · rcases hsubmitted with ⟨e, -, hout, hpanic⟩ | ⟨submitted, hhooks, hresult⟩
    · exact .inl ⟨e, hout, hpanic⟩
    · exact .inr ⟨submitted, _, hhooks, hresult⟩

/-- A run stays outside of `Submit`; or the request was vetted before, and the buffers with the
password are zeroed after. -/
theorem runs_handle_cases (run : (a.handle mac unmarshal grow heap U r).Runs τ result) :
    (∀ e ∈ τ, Plain e.call) ∨
      ∃ traceID body pre hooks out post,
        τ = pre ++ (hooks ++ zeroed .password ::
          (out ++ [zeroed .password, zeroed .rawBody, zeroed .body] ++ post)) ∧
        Vetted a mac r body pre ∧ (HookServer.postOf unmarshal r body).Valid grow heap ∧
        (∀ e ∈ pre, Plain e.call) ∧ (∀ e ∈ post, Plain e.call) ∧
        Submitted a U r traceID (HookServer.postOf unmarshal r body).eventType
          (requestOf grow heap (HookServer.postOf unmarshal r body)) hooks out := by
  obtain ⟨lead, traceID, rest, hid, rfl, run₁⟩ := runs_handle run
  obtain ⟨result₁, start, τ₁, post₁, rfl, run₂, hpost₁⟩ := runs_accessLog run₁
  obtain ⟨result₂, τ₂, post₂, rfl, run₃, hpost₂⟩ := runs_recovery run₂
  have hlead : ∀ e ∈ lead ++ [identified traceID, ⟨ServeCall.start, start⟩], Plain e.call :=
    List.forall_mem_append.2 ⟨hid.plain,
      List.forall_mem_cons.2 ⟨True.intro, List.forall_mem_cons.2 ⟨True.intro, by simp⟩⟩⟩
  have hpost : ∀ e ∈ post₂ ++ post₁, Plain e.call := List.forall_mem_append.2 ⟨hpost₂, hpost₁⟩
  rcases runs_vetted run₃ with hplain |
    ⟨body, pre, hooks, out, rfl, hvetted, hvalid, hpre, hsubmitted⟩
  · have hall := List.forall_mem_append.2 ⟨hlead, List.forall_mem_append.2 ⟨hplain, hpost⟩⟩
    exact .inl (by simpa using hall)
  · exact .inr ⟨traceID, body, lead ++ [identified traceID, ⟨ServeCall.start, start⟩] ++ pre, hooks,
      out, post₂ ++ post₁, by simp, hvetted.mono (List.subset_append_right _ _), hvalid,
      List.forall_mem_append.2 ⟨hlead, hpre⟩, hpost, hsubmitted⟩

/-- No collaborator of the hook is called for a request before its source is known to be allowed,
the rate limiter has let it pass, its signature has been found valid and fresh and its nonce unused
if there is a store for them, and what was signed is a valid request. -/
theorem vetted_before_hook {q : Prog serveInterface (Except Panic Unit)} {τ₁ τ₂ : List ServeEvent}
    {e : ServeEvent} {c : HookCall} (steps : Steps (a.handle mac unmarshal grow heap U r) τ q)
    (split : τ = τ₁ ++ e :: τ₂) (hook : e.call = .hook c) :
    ∃ body, Vetted a mac r body τ₁ ∧ (HookServer.postOf unmarshal r body).Valid grow heap := by
  have hnot : ¬ Plain e.call := by
    rw [hook]
    exact not_false
  obtain ⟨τ', result, run⟩ := steps.exists_exec serve_resp_nonempty
  rcases runs_handle_cases run with hplain |
    ⟨traceID, body, pre, hooks, out, post, hτ, hvetted, hvalid, hpre, -⟩
  · exact absurd (hplain e (by simp [split])) hnot
  · rw [split, List.append_assoc, List.cons_append] at hτ
    exact ⟨body, hvetted.mono (prefix_of_forall hτ.symm hpre hnot).subset, hvalid⟩

/-! ## Zeroing -/

/-- The answer to an accepted request. -/
def accepted : ServeEvent := ⟨ServeCall.writeHeader 202, ()⟩

theorem plain_serveResult_some {problemBaseURL traceID path : String} {eventType : EventType}
    {decision : Decision} {err : Err} :
    (serveResult problemBaseURL traceID path eventType (decision, some err)).Only Plain := by
  show Risky.Only _ (if _ then _ else _)
  split_ifs
  · exact plain_recordRejected.bind fun _ => plain_writeProblem (by simp)
  · exact plain_recordRejected.bind fun _ => plain_writeProblem (by simp)

/-- Only a request that `Submit` took without an error is accepted, unless recording it panics. -/
theorem runs_serveResult {problemBaseURL traceID path : String} {eventType : EventType}
    {submitted : Decision × Option Err}
    (run : (serveResult problemBaseURL traceID path eventType submitted).Runs τ result) :
    (∀ e ∈ τ, Plain e.call) ∧
        (submitted.2 = none →
          ∃ e, (recordDecision traceID 202 eventType submitted.1).Runs τ (.error e)) ∨
      submitted.2 = none ∧ ∃ τ', τ = τ' ++ [accepted] ∧ (∀ e ∈ τ', Plain e.call) ∧
        (recordDecision traceID 202 eventType submitted.1).Runs τ' (.ok ()) := by
  obtain ⟨decision, err⟩ := submitted
  cases err with
  | some err => exact .inl ⟨plain_serveResult_some.runs run, nofun⟩
  | none =>
    rcases runs_bind run with ⟨e, rfl, hpanic⟩ | ⟨_, τ₁, τ₂, rfl, hrecord, hwrite⟩
    · exact .inl ⟨plain_recordDecision.runs hpanic, fun _ => ⟨e, hpanic⟩⟩
    · obtain ⟨_, τ₃, rfl, hret⟩ := exec_call_iff.1 hwrite
      obtain ⟨rfl, -⟩ := exec_ret_iff.1 hret
      exact .inr ⟨rfl, τ₁, rfl, plain_recordDecision.runs hrecord, hrecord⟩

/-- Whether or not there is a panic, the buffers that hold the password are zeroed after the last
call of a collaborator of the hook. -/
theorem zeroed_after_hook {τ₁ τ₂ : List ServeEvent} {e : ServeEvent} {c : HookCall}
    (run : (a.handle mac unmarshal grow heap U r).Runs τ result) (split : τ = τ₁ ++ e :: τ₂)
    (hook : e.call = .hook c) :
    List.Sublist [zeroed .password, zeroed .rawBody, zeroed .body] τ₂ := by
  have hnot : ¬ (Plain e.call ∨ e = accepted) := by
    rintro (hplain | rfl)
    · rw [hook] at hplain
      exact hplain
    · cases hook
  rcases runs_handle_cases run with hplain |
    ⟨traceID, body, pre, hooks, out, post, hτ, -, -, -, hpost, hsubmitted⟩
  · exact absurd (.inl (hplain e (by simp [split]))) hnot
  · have hout : ∀ e ∈ out, Plain e.call ∨ e = accepted := by
      rcases hsubmitted with ⟨_, rfl, -⟩ | ⟨submitted, _, -, hresult⟩
      · exact fun e he => absurd he List.not_mem_nil
      · rcases runs_serveResult hresult with ⟨hplain, -⟩ | ⟨-, out', rfl, hplain, -⟩
        · exact fun e he => .inl (hplain e he)
        · exact List.forall_mem_append.2 ⟨fun e he => .inl (hplain e he), by simp⟩
    have hafter :
        ∀ e ∈ zeroed .password ::
          (out ++ [zeroed .password, zeroed .rawBody, zeroed .body] ++ post),
        Plain e.call ∨ e = accepted := by
      refine List.forall_mem_cons.2 ⟨.inl True.intro,
        List.forall_mem_append.2 ⟨List.forall_mem_append.2
        ⟨hout, ?_⟩, fun e he => .inl (hpost e he)⟩⟩
      exact List.forall_mem_cons.2 ⟨.inl True.intro, List.forall_mem_cons.2 ⟨.inl True.intro,
        List.forall_mem_cons.2 ⟨.inl True.intro, by simp⟩⟩⟩
    rw [split, ← List.append_assoc] at hτ
    refine List.Sublist.trans ?_ (suffix_of_forall hτ.symm hafter hnot).sublist
    exact ((List.sublist_append_right _ _).trans (List.sublist_append_left _ _)).trans
      (List.sublist_cons_self _ _)

end Chain

def ServeCall.isHook : ServeCall → Bool
  | .hook _ => true
  | _ => false

theorem exists_hook_event {τ : List ServeEvent} (h : τ.any (fun e => e.call.isHook) = true) :
    ∃ τ₁ e τ₂ c, τ = τ₁ ++ e :: τ₂ ∧ e.call = .hook c := by
  obtain ⟨⟨c, resp⟩, he, hhook⟩ := List.any_eq_true.1 h
  obtain ⟨τ₁, τ₂, hτ⟩ := List.append_of_mem he
  cases c with
  | hook c => exact ⟨τ₁, _, τ₂, c, hτ, rfl⟩
  | _ => cases hhook

/-- The queue panics on the request of the sample. -/
theorem zeroed_after_hook_panic :
    ∃ τ₁ e τ₂ c, sampleTrace .sample (.error ⟨"closed"⟩) (.ok ()) (.ok ()) = τ₁ ++ e :: τ₂ ∧
      e.call = .hook c ∧ List.Sublist [zeroed .password, zeroed .rawBody, zeroed .body] τ₂ := by
  obtain ⟨τ₁, e, τ₂, c, hτ, hhook⟩ : ∃ τ₁ e τ₂ c,
      sampleTrace .sample (.error ⟨"closed"⟩) (.ok ()) (.ok ()) = τ₁ ++ e :: τ₂ ∧
      e.call = .hook c :=
    exists_hook_event (by decide +kernel)
  exact ⟨τ₁, e, τ₂, c, hτ, hhook,
    zeroed_after_hook (runs_sampleHandling .sample (.error ⟨"closed"⟩) (.ok ()) (.ok ())) hτ hhook⟩

theorem vetted_before_hook_sample :
    ∃ τ₁ e τ₂ c body, sampleTrace .sample (.ok ()) (.ok ()) (.ok ()) = τ₁ ++ e :: τ₂ ∧
      e.call = .hook c ∧
      Vetted .sample HMAC.sampleMac .sample body τ₁ := by
  obtain ⟨τ₁, e, τ₂, c, hτ, hhook⟩ : ∃ τ₁ e τ₂ c,
      sampleTrace .sample (.ok ()) (.ok ()) (.ok ()) = τ₁ ++ e :: τ₂ ∧ e.call = .hook c :=
    exists_hook_event (by decide +kernel)
  obtain ⟨body, hvetted, -⟩ :=
    vetted_before_hook (runs_sampleHandling .sample (.ok ()) (.ok ()) (.ok ())) hτ hhook
  exact ⟨τ₁, e, τ₂, c, body, hτ, hhook, hvetted⟩

end PasswordHook
