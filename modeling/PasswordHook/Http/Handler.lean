import PasswordHook.Http.Accepted

/-!
# The hook with its buffers

The hook is modelled with the heap that it leaves (`serveHTTPOn`) and in the chain, with what it
writes, counts and logs and with the panics of its collaborators (`serveHTTP`).  A run in the chain
makes the calls of `Submit` that a run over the heap makes.  When it returns it has replied with the
response of that run, and the buffers of the password are zero (`hook_follows`).
-/

namespace PasswordHook

open Prog Serve Risky

section

variable {grow : ℕ → ℕ → ℕ} {heap : Heap} {U : Unicode} {svc : Service}
  {problemBaseURL traceID path : String} {r : HookPost} {τ : List ServeEvent}
  {result : Except Panic Unit}

variable (grow heap U svc problemBaseURL traceID path r) in
/-- The calls are those of the hook over the heap, but for the zeroing of the password; it has
returned the response that was given, if there was no panic. -/
def Follows (τ : List ServeEvent) (result : Except Panic Unit) : Prop :=
  ∃ σ q, Steps (serveHTTPOn grow U svc traceID heap r) σ q ∧
    (σ = hookTrace τ ∨ σ = hookTrace τ ++ [.zeroed]) ∧
    (result = .ok () → ∃ h' response, q = .ret (h', response) ∧
      τ.flatMap notesOf = reply response.status (response.document problemBaseURL path traceID))

theorem Follows.snoc_zeroed {buffer : PasswordBuffer}
    (h : Follows grow heap U svc problemBaseURL traceID path r τ result) :
    Follows grow heap U svc problemBaseURL traceID path r (τ ++ [zeroed buffer]) result := by
  have htrace : hookTrace (τ ++ [zeroed buffer]) = hookTrace τ :=
    (hookTrace_append _ _).trans (List.append_nil _)
  have hnotes : (τ ++ [zeroed buffer]).flatMap notesOf = τ.flatMap notesOf :=
    List.flatMap_append.trans (List.append_nil _)
  unfold Follows
  rw [htrace, hnotes]
  exact h

theorem RepliesWith.of_ok {response : HookResponse} {o : List Note}
    (h : RepliesWith problemBaseURL path traceID response (.ok ()) o) :
    o = reply response.status (response.document problemBaseURL path traceID) := by
  rcases h with ⟨-, ho⟩ | ⟨e, he, -⟩
  · exact ho
  · cases he

/-- The hook answers before `Submit`. -/
theorem follows_of_replies {h' : Heap} {response : HookResponse}
    (returned : serveHTTPOn grow U svc traceID heap r = .ret (h', response))
    (plain : ∀ e ∈ τ, Plain e.call)
    (replies : RepliesWith problemBaseURL path traceID response result (τ.flatMap notesOf)) :
    Follows grow heap U svc problemBaseURL traceID path r τ result := by
  refine ⟨[], _, .refl _, .inl (hookTrace_plain plain).symm, ?_⟩
  rintro rfl
  exact ⟨h', response, returned, replies.of_ok⟩

theorem follows_rejected {outcome : String} {eventType : EventType} {h' : Heap}
    {response : HookResponse} {p : Problem}
    (returned : serveHTTPOn grow U svc traceID heap r = .ret (h', response))
    (status : p.status = response.status) (refused : p.status ≠ 202)
    (document : response.document problemBaseURL path traceID = some p)
    (run : (recordRejected traceID p.status outcome eventType >>= fun _ =>
      writeProblem p).Runs τ result) :
    Follows grow heap U svc problemBaseURL traceID path r τ result := by
  refine follows_of_replies returned
    ((plain_recordRejected.bind fun _ => plain_writeProblem refused).runs run) ?_
  have hreplies := sees_recorded_problem sees_recordRejected τ result run
  rwa [RepliesWith, document, ← status]

/-! ## A valid request -/

theorem notes_hookEvents (σ : List HookEvent) : (σ.map hookEvent).flatMap notesOf = [] := by
  refine List.flatMap_eq_nil_iff.2 fun e he => ?_
  obtain ⟨e', -, rfl⟩ := List.mem_map.1 he
  rfl

variable (U svc traceID) in
/-- The hook over the heap, for a valid request. -/
theorem serveHTTPOn_of_valid (valid : r.Valid grow heap) :
    ∃ h', serveHTTPOn grow U svc traceID heap r =
      Prog.bind (PasswordHook.submit U svc traceID (requestOf grow heap r)) fun submitted =>
        .ret (h', submitResponse submitted) := by
  let field := r.passwordValues.foldl (unmarshalPasswordTo grow) (heap, none)
  refine ⟨zeroPassword (zeroPassword field, field.2), ?_⟩
  unfold serveHTTPOn serveBodyOn
  rw [if_neg (not_not.2 valid.method), if_neg (not_not.2 valid.read), if_neg (not_not.2 valid.json)]
  exact if_neg (not_not.2 valid.fields)

theorem follows_submitted (valid : r.Valid grow heap)
    (run : (Serve.submit U svc traceID (requestOf grow heap r) >>=
      serveResult problemBaseURL traceID path r.eventType).Runs τ result) :
    Follows grow heap U svc problemBaseURL traceID path r τ result := by
  obtain ⟨h', hon⟩ := serveHTTPOn_of_valid U svc traceID valid
  obtain ⟨hooks, out, rfl, h⟩ := runs_submitted run
  have htrace : hookTrace (hooks ++ zeroed .password :: out) = hookTrace hooks ++ hookTrace out :=
    hookTrace_append _ _
  rcases h with ⟨e, rfl, rfl, hpanic⟩ | ⟨submitted, hhooks, hresult⟩
  · rcases runs_lift_submitBody hpanic with ⟨_, _, hok, -⟩ | ⟨e', σ, c, k, -, rfl, hsteps⟩
    · cases hok
    -- a call of `Submit` has panicked: the run over the heap is about to make it
    have hsubmit : Steps (PasswordHook.submit U svc traceID (requestOf grow heap r)) σ _ :=
      steps_bind_iff.2 (.inl ⟨_, hsteps, rfl⟩)
    refine ⟨σ, _, hon ▸ steps_bind_iff.2 (.inl ⟨_, hsubmit, rfl⟩), .inl ?_, nofun⟩
    rw [htrace, hookTrace_append, hookTrace_hookEvents, List.append_assoc]
    exact (List.append_nil σ).symm
  · rcases runs_lift_submitBody hhooks with ⟨_, σ, hok, rfl, hexec⟩ | ⟨e, _, _, _, he, -⟩
    · obtain rfl := Except.ok.inj hok
      refine ⟨σ ++ [HookEvent.zeroed], .ret (h', submitResponse submitted), ?_, .inr ?_, ?_⟩
      · rw [hon]
        refine exec_bind_iff.2 ⟨submitted, σ ++ [HookEvent.zeroed], [], by simp, ?_, .refl _⟩
        exact exec_bind_iff.2 ⟨submitted, σ, [HookEvent.zeroed], rfl, hexec, .call _ _ _ (.refl _)⟩
      · rw [htrace, hookTrace_hookEvents, hookTrace_serveResult hresult, List.append_nil]
      · rintro rfl
        refine ⟨h', _, rfl, ?_⟩
        rw [List.flatMap_append, notes_hookEvents, List.nil_append, List.flatMap_cons]
        exact RepliesWith.of_ok (sees_serveResult out _ hresult)
    · cases he

/-! ## Every request -/

theorem follows_serveHTTP
    (run : (serveHTTP grow heap U svc problemBaseURL traceID path r).Runs τ result) :
    Follows grow heap U svc problemBaseURL traceID path r τ result := by
  unfold serveHTTP at run
  split_ifs at run with hmethod hread
  · exact follows_of_replies (if_pos hmethod)
      ((plain_recordRejected.bind fun _ => plain_writeHeader (by decide)).runs run)
      (sees_recorded_header sees_recordRejected τ result run)
  · obtain ⟨τ', rfl, run'⟩ := runs_deferring_zero run
    have hon : serveHTTPOn grow U svc traceID heap r = _ := (if_neg hmethod).trans (if_pos hread)
    exact (follows_rejected hon rfl (by simp) rfl run').snoc_zeroed
  · obtain ⟨τ₁, rfl, run₁⟩ := runs_deferring_zero run
    obtain ⟨mid, rfl, run₂⟩ := runs_deferring_zero run₁
    refine Follows.snoc_zeroed (Follows.snoc_zeroed ?_)
    have hon : serveHTTPOn grow U svc traceID heap r = _ := (if_neg hmethod).trans (if_neg hread)
    unfold serveBody at run₂
    dsimp only at run₂
    split_ifs at run₂ with hjson hfields
    · exact follows_rejected (hon.trans (if_pos hjson)) rfl (by simp) rfl run₂
    · exact follows_rejected (hon.trans ((if_neg hjson).trans (if_pos hfields))) rfl
        (by simp) rfl run₂
    · exact follows_submitted
        ⟨not_not.1 hmethod, not_not.1 hread, not_not.1 hjson, not_not.1 hfields⟩ run₂

/-- The hook in the chain makes the calls of the hook over the heap.  When it returns, it has
replied with the response of the other, which leaves no password in a buffer it allocated. -/
theorem hook_follows
    (run : (serveHTTP grow heap U svc problemBaseURL traceID path r).Runs τ (.ok ())) :
    ∃ σ h' response, Exec (serveHTTPOn grow U svc traceID heap r) σ (h', response) ∧
      (σ = hookTrace τ ∨ σ = hookTrace τ ++ [.zeroed]) ∧ Cleared heap h' ∧
      τ.flatMap notesOf =
        reply response.status (response.document problemBaseURL path traceID) := by
  obtain ⟨σ, q, hsteps, hcalls, hreturned⟩ := follows_serveHTTP run
  obtain ⟨h', response, rfl, hnotes⟩ := hreturned rfl
  exact ⟨σ, h', response, hsteps, hcalls, cleared_serveHTTPOn hsteps, hnotes⟩

end

end PasswordHook
