import PasswordHook.Http.Gates

/-!
# Accepted requests

The answer to a request and the queue agree: the queue acknowledges at most one message for a
request; a request that is accepted has its message acknowledged or was counted as skipped; and when
a message was acknowledged, the request is accepted, unless something panicked
(`reply_agrees_with_queue`).
-/

namespace PasswordHook

open Prog Serve Risky

/-! ## The calls of `Submit` in the chain -/

def hookEventOf : (c : ServeCall) → c.Resp → Option HookEvent
  | .hook c, .ok resp => some ⟨c, resp⟩
  | _, _ => none

/-- The calls of the hook that were answered. -/
def hookTrace (τ : List ServeEvent) :
    List HookEvent := τ.filterMap fun e => hookEventOf e.call e.resp

theorem hookTrace_append (τ τ' : List ServeEvent) :
    hookTrace (τ ++ τ') = hookTrace τ ++ hookTrace τ' :=
  List.filterMap_append

theorem hookTrace_plain {τ : List ServeEvent} (h : ∀ e ∈ τ, Plain e.call) : hookTrace τ = [] := by
  refine List.filterMap_eq_nil_iff.2 fun e he => ?_
  have hplain := h e he
  obtain ⟨c, resp⟩ := e
  cases c with
  | hook c => exact hplain.elim
  | _ => rfl

/-- An answered call of the hook. -/
def hookEvent (e : HookEvent) :
    ServeEvent := ⟨ServeCall.hook e.call, (.ok e.resp : Except Panic e.call.Resp)⟩

/-- A call of the hook that panicked. -/
def hookPanic (c : HookCall) (e : Panic) :
    ServeEvent := ⟨ServeCall.hook c, (.error e : Except Panic c.Resp)⟩

@[simp] theorem hookTrace_hookEvents (σ : List HookEvent) : hookTrace (σ.map hookEvent) = σ := by
  rw [hookTrace, List.filterMap_map]
  exact List.filterMap_some

theorem runs_hookCall {c : HookCall} {τ : List ServeEvent} {resp : Except Panic c.Resp}
    (run : (hookCall c).Runs τ resp) : τ = [⟨ServeCall.hook c, resp⟩] := by
  obtain ⟨resp', τ', rfl, hret⟩ := exec_call_iff.1 run
  obtain ⟨rfl, rfl⟩ := exec_ret_iff.1 hret
  rfl

theorem lifts_hookCall {σ : List HookEvent} {τ : List ServeEvent} (h : Lifts hookCall σ τ) :
    τ = σ.map hookEvent := by
  induction h with
  | nil => rfl
  | cons run rest ih =>
    rw [runs_hookCall run, ih]
    rfl

/-- `Submit` has returned, or one of its calls has panicked. -/
theorem runs_lift_submitBody {U : Unicode} {svc : Service} {traceID : String} {req : Request}
    {hooks : List ServeEvent} {r : Except Panic (Decision × Option Err)}
    (run : (lift hookCall (submitBody U svc traceID req)).Runs hooks r) :
    (∃ submitted σ, r = .ok submitted ∧ hooks = σ.map hookEvent ∧
        Exec (submitBody U svc traceID req) σ submitted) ∨
      ∃ e σ c k, r = .error e ∧ hooks = σ.map hookEvent ++ [hookPanic c e] ∧
        Steps (submitBody U svc traceID req) σ (.call c k) := by
  rcases runs_lift run with ⟨submitted, σ, rfl, hexec, hlifts⟩ |
    ⟨e, σ, c, k, τ₁, τ₂, rfl, rfl, hsteps, hlifts, hpanic⟩
  · exact .inl ⟨submitted, σ, rfl, lifts_hookCall hlifts, hexec⟩
  · refine .inr ⟨e, σ, c, k, rfl, ?_, hsteps⟩
    rw [lifts_hookCall hlifts, runs_hookCall hpanic]
    rfl

/-- After `Submit` the hook calls none of its collaborators. -/
theorem hookTrace_serveResult {problemBaseURL traceID path : String} {eventType : EventType}
    {submitted : Decision × Option Err} {out : List ServeEvent} {result : Except Panic Unit}
    (run : (serveResult problemBaseURL traceID path eventType submitted).Runs out result) :
    hookTrace out = [] := by
  rcases runs_serveResult run with ⟨hplain, -⟩ | ⟨-, out', rfl, hplain, -⟩
  · exact hookTrace_plain hplain
  · rw [hookTrace_append, hookTrace_plain hplain]
    rfl

/-! ## What the queue took -/

theorem submitOutcome_submitBody {U : Unicode} {svc : Service} {traceID : String} {req : Request}
    {σ : List HookEvent} {d : Decision} {err : Option Err}
    (h : Exec (submitBody U svc traceID req) σ (d, err)) :
    OneOutcome d err ∧ (takenMessages σ).length = if d.enqueued then 1 else 0 := by
  have hsubmit : Exec (submit U svc traceID req) (σ ++ [HookEvent.zeroed]) (d, err) :=
    exec_bind_iff.2 ⟨(d, err), σ, [HookEvent.zeroed], rfl, h, .call _ _ _ (.refl _)⟩
  have houtcome := submitOutcome_submit hsubmit
  have htaken := houtcome.taken
  have hzeroed : takenMessages [HookEvent.zeroed] = [] := rfl
  rw [takenMessages_append, hzeroed, List.append_nil] at htaken
  exact ⟨houtcome.one, htaken⟩

/-- Also before `Submit` returns. -/
theorem takenMessages_of_steps {U : Unicode} {svc : Service} {traceID : String} {req : Request}
    {σ : List HookEvent} {q : HookProg (Decision × Option Err)}
    (h : Steps (submitBody U svc traceID req) σ q) : (takenMessages σ).length ≤ 1 := by
  obtain ⟨σ', ⟨d, err⟩, hexec⟩ := h.exists_exec hook_resp_nonempty
  have htaken := (submitOutcome_submitBody hexec).2
  rw [takenMessages_append, List.length_append] at htaken
  split_ifs at htaken <;> omega

/-! ## The answer -/

/-- The request is counted as skipped. -/
def CountedSkipped (τ : List ServeEvent) : Prop :=
  ∃ e ∈ τ, ∃ labels, e.call = .inc metricMigrationSkippedTotal labels

theorem countedSkipped_of_recorded {traceID : String} {status : ℕ} {eventType : EventType}
    {decision : Decision} {τ : List ServeEvent} (skipped : decision.skipped = true)
    (run : (recordDecision traceID status eventType decision).Runs τ (.ok ())) :
    CountedSkipped τ := by
  unfold recordDecision at run
  rcases runs_bind run with ⟨e, he, -⟩ | ⟨_, τ₁, τ₂, rfl, -, run₂⟩
  · cases he
  simp only [if_pos skipped] at run₂
  rcases runs_bind run₂ with ⟨e, he, -⟩ | ⟨_, τ₃, τ₄, rfl, run₃, -⟩
  · cases he
  obtain ⟨resp, τ₅, rfl, -⟩ := exec_call_iff.1 run₃
  exact ⟨_, List.mem_append_right _ (List.mem_append_left _ List.mem_cons_self), _, rfl⟩

theorem panicked_of_recorded {traceID : String} {status : ℕ} {eventType : EventType}
    {decision : Decision} {τ : List ServeEvent} {e : Panic}
    (run : (recordDecision traceID status eventType decision).Runs τ (.error e)) :
    .panicked ∈ τ.flatMap notesOf := by
  rw [(sees_recordDecision τ _ run).of_error]
  simp

section

variable {a : HookServer} {mac : Bytes → Bytes → Bytes} {unmarshal : Bytes → HookPost}
  {grow : ℕ → ℕ → ℕ} {heap : Heap} {U : Unicode} {r : IncomingRequest} {τ : List ServeEvent}
  {result : Except Panic Unit}

/-- How the answer and the messages that the queue took go together. -/
structure Agrees (taken : List PasswordSyncMessage) (τ : List ServeEvent) : Prop where
  one : taken.length ≤ 1
  taken_or_skipped : accepted ∈ τ → taken ≠ [] ∨ CountedSkipped τ
  accepted_or_panicked : taken ≠ [] → accepted ∈ τ ∨ .panicked ∈ τ.flatMap notesOf

theorem not_accepted_of_plain (h : ∀ e ∈ τ, Plain e.call) : accepted ∉ τ := fun hmem =>
  h _ hmem rfl

theorem agrees_plain (h : ∀ e ∈ τ, Plain e.call) : Agrees [] τ where
  one := Nat.zero_le _
  taken_or_skipped hmem := absurd hmem (not_accepted_of_plain h)
  accepted_or_panicked hne := absurd rfl hne

/-- Other events do not matter. -/
theorem Agrees.mono {taken : List PasswordSyncMessage} {τ' : List ServeEvent} (h : Agrees taken τ)
    (hsub : τ ⊆ τ') (haccepted : accepted ∈ τ' → accepted ∈ τ) : Agrees taken τ' where
  one := h.one
  taken_or_skipped hmem := (h.taken_or_skipped (haccepted hmem)).imp_right fun ⟨e, he, hlabels⟩ =>
    ⟨e, hsub he, hlabels⟩
  accepted_or_panicked hne :=
    (h.accepted_or_panicked hne).imp (fun hmem => hsub hmem) fun hmem => by
    obtain ⟨e, he, hnote⟩ := List.mem_flatMap.1 hmem
    exact List.mem_flatMap.2 ⟨e, hsub he, hnote⟩

theorem accepted_not_mem_hookEvents (σ : List HookEvent) : accepted ∉ σ.map hookEvent := by
  intro hmem
  obtain ⟨e, -, he⟩ := List.mem_map.1 hmem
  cases congrArg Event.call he

theorem agrees_submitted {traceID : String} {eventType : EventType} {req : Request}
    {hooks out : List ServeEvent} (h : Submitted a U r traceID eventType req hooks out) :
    Agrees (takenMessages (hookTrace hooks)) (hooks ++ out) ∧ hookTrace out = [] := by
  rcases h with ⟨e, rfl, hpanic⟩ | ⟨⟨d, err⟩, result, hhooks, hresult⟩
  · refine ⟨?_, rfl⟩
    rcases runs_lift_submitBody hpanic with ⟨submitted, σ, hok, -⟩ | ⟨e', σ, c, k, -, rfl, hsteps⟩
    · cases hok
    have htrace : hookTrace (σ.map hookEvent ++ [hookPanic c e']) = σ := by
      rw [hookTrace_append, hookTrace_hookEvents]
      exact List.append_nil _
    rw [htrace, List.append_nil]
    refine ⟨takenMessages_of_steps hsteps, fun hmem => ?_, fun _ => .inr ?_⟩
    · rcases List.mem_append.1 hmem with hmem | hmem
      · exact absurd hmem (accepted_not_mem_hookEvents σ)
      · cases congrArg Event.call (List.mem_singleton.1 hmem)
    · rw [List.flatMap_append]
      exact List.mem_append_right _ List.mem_cons_self
  · rcases runs_lift_submitBody hhooks with ⟨submitted, σ, hok, rfl, hexec⟩ | ⟨e, _, _, _, he, -⟩
    · obtain rfl := Except.ok.inj hok
      rw [hookTrace_hookEvents]
      obtain ⟨hone, htaken⟩ := submitOutcome_submitBody hexec
      have hlength : (takenMessages σ).length ≤ 1 := by
        rw [htaken]
        split_ifs <;> decide
      refine ⟨?_, hookTrace_serveResult hresult⟩
      rcases runs_serveResult hresult with ⟨hplain, hrecord⟩ | ⟨rfl, out, rfl, hplain, hrecord⟩
      · refine ⟨hlength, fun hmem => ?_, fun hne => .inr ?_⟩
        · rcases List.mem_append.1 hmem with hmem | hmem
          · exact absurd hmem (accepted_not_mem_hookEvents σ)
          · exact absurd hmem (not_accepted_of_plain hplain)
        · -- a message was taken, so there was no error, and recording the decision has panicked
          have herr : err = none := by
            rcases hone with ⟨-, -, hnot⟩ | ⟨herr, -⟩ | ⟨herr, -⟩
            · rw [hnot] at htaken
              exact absurd (List.length_eq_zero_iff.1 htaken) hne
            · exact herr
            · exact herr
          obtain ⟨e, hpanic⟩ := hrecord herr
          rw [List.flatMap_append]
          exact List.mem_append_right _ (panicked_of_recorded hpanic)
      · refine ⟨hlength, fun _ => ?_, fun _ => .inl (by simp)⟩
        rcases hone with ⟨hnot, -⟩ | ⟨-, hskipped, -⟩ | ⟨-, -, henqueued⟩
        · exact absurd rfl hnot
        · obtain ⟨e, he, hlabels⟩ := countedSkipped_of_recorded hskipped hrecord
          exact .inr ⟨e, by simp [he], hlabels⟩
        · rw [henqueued] at htaken
          exact .inl fun hnil => by simp [hnil] at htaken
    · cases he

/-- The queue acknowledges at most one message for a request.  A request that is accepted has its
message acknowledged, or is counted as skipped.  When a message was acknowledged, the request is
accepted, unless something has panicked. -/
theorem reply_agrees_with_queue (run : (a.handle mac unmarshal grow heap U r).Runs τ result) :
    Agrees (takenMessages (hookTrace τ)) τ := by
  rcases runs_handle_cases run with hplain |
    ⟨traceID, body, pre, hooks, out, post, rfl, -, -, hpre, hpost, hsubmitted⟩
  · rw [hookTrace_plain hplain]
    exact agrees_plain hplain
  · obtain ⟨hagrees, hout⟩ := agrees_submitted hsubmitted
    have htrace : hookTrace (pre ++ (hooks ++ zeroed .password ::
        (out ++ [zeroed .password, zeroed .rawBody, zeroed .body] ++ post))) = hookTrace hooks := by
      rw [← List.singleton_append, hookTrace_append, hookTrace_append, hookTrace_append,
        hookTrace_append, hookTrace_append, hookTrace_plain hpre, hookTrace_plain hpost, hout]
      exact List.append_nil _
    rw [htrace]
    have hzeroed : ∀ buffer, accepted ≠ zeroed buffer := fun buffer h => by
      cases congrArg Event.call h
    refine hagrees.mono (fun e he => ?_) fun hmem => ?_
    · rcases List.mem_append.1 he with he | he <;> simp [he]
    · simpa [not_accepted_of_plain hpre, not_accepted_of_plain hpost, hzeroed] using hmem

end

/-- The logger panics after the message was taken: the request is answered with a 500. -/
theorem reply_agrees_with_queue_panic :
    let τ := sampleTrace .sample (.ok ()) (.ok ()) (.error ⟨"closed"⟩)
    (takenMessages (hookTrace τ)).length = 1 ∧ .panicked ∈ τ.flatMap notesOf ∧
      Agrees (takenMessages (hookTrace τ)) τ :=
  ⟨by decide +kernel, by decide +kernel,
    reply_agrees_with_queue (runs_sampleHandling .sample (.ok ()) (.ok ()) (.error ⟨"closed"⟩))⟩

end PasswordHook
