import PasswordHook.Pipeline.System

/-!
# Runs in which every call succeeds

What a thread does when nothing fails: a submission is stamped, sealed and sent, and then marked; a
worker that is given a message processes it and comes to its `MarkSynced`.  The steps in between
write no status, so they meet every condition on status writes.
-/

namespace PasswordHook

open Prog

section Progress

variable {U : Unicode} {q : Queue} {J : Json} {B : Backend} {W : PipelineWorld B}
  {C : PipelineWorld B → PipelineLabel → Prop} (quiet : ∀ W ℓ, writeOf ℓ = none → C W ℓ)

/-! ## Submissions -/

/-- What is left of a submission when the queue has taken the message. -/
def takenRest (decision : Decision) (upn : String) (t : Time) : HookProg (Decision × Option Err) :=
  .call (.markPending upn t) fun _ => .call .zeroPassword fun _ =>
    .ret ({ decision with enqueued := true }, none)

/-- The calls of a submission, up to the one that marks the account. -/
def takenRun (req : Request) (msg : PasswordSyncMessage) (t : Time) (env : Envelope) :
    List HookEvent :=
  [.read (.enqueuedAt msg.upn) t,
    .encrypted req.password (passwordAAD (trimSpace req.cn) msg.upn t.utc) (.ok env),
    .sent msg none]

include quiet in
/-- A submission that is not skipped sends its message. -/
theorem reach_taken (h : Reach (pipeline U q J B) C W) {j : ℕ} (free : W.pool .hook j = none)
    {svc : Service} {traceID : String} {req : Request} {decision : Decision} {upn : String}
    {t : Time} {env : Envelope} {msg : PasswordSyncMessage} {bus : BusMessage}
    (body : submitBody U svc traceID req = submitEnqueue svc traceID req decision upn)
    (wired : svc.queue = true ∧ svc.encrypter = true ∧ svc.syncStatusStore = true)
    (names : ∀ upn, buildUPN U req.cn svc.primaryDomain = .ok upn → upn ∈ B.names)
    (stamped : stampedMessage traceID req upn t.utc env = msg) (reads : B.reads W.shared.store t)
    (sent : q.busMessage J msg = .ok bus) :
    ∃ W', Reach (pipeline U q J B) C W' ∧
      W'.shared = ⟨W.shared.store, ⟨msg, bus, t⟩ :: W.shared.accepted⟩ ∧
      W'.pool .hook j =
        some ⟨submit U svc traceID req, takenRun req msg t env, takenRest decision upn t.utc⟩ ∧
      W.SameBut W' .hook j := by
  have hsent : hookAnswer q J B (.enqueuePasswordSync msg) W.shared none
      ⟨W.shared.store, ⟨msg, bus, t⟩ :: W.shared.accepted⟩ :=
    ⟨⟨none, (Queue.enqueuePasswordSync_eq_none.2 ⟨rfl, bus, sent⟩).symm⟩,
      .inl ⟨bus, t, sent, reads, rfl⟩⟩
  have hrun : Answers (pipeline U q J B) .hook W.shared (submit U svc traceID req)
      (takenRun req msg t env) ⟨W.shared.store, ⟨msg, bus, t⟩ :: W.shared.accepted⟩
      (takenRest decision upn t.utc) := by
    rw [submit, body]
    obtain ⟨domain, queue, encrypter, syncStatusStore, ttl⟩ := svc
    obtain ⟨rfl, rfl, rfl⟩ := wired
    subst stamped
    exact .call ⟨reads, rfl⟩ <| .call rfl <| .call hsent <| .nil _ _
  apply h.spawn_answers free ⟨svc, traceID, req, wired.2.2, names, rfl⟩ hrun (quiet _ _ rfl)
  intro W e he
  apply quiet
  simp only [takenRun, List.mem_cons, List.not_mem_nil, or_false] at he
  rcases he with rfl | rfl | rfl <;> rfl

include quiet in
/-- A submission whose message is taken marks the account and returns. -/
theorem reach_returned (h : Reach (pipeline U q J B) C W) {j : ℕ}
    {start : HookProg (Decision × Option Err)} {past : List HookEvent} {decision : Decision}
    {upn : String} {t : Time}
    (thread : W.pool .hook j = some ⟨start, past, takenRest decision upn t⟩) {store : B.State}
    (marks : B.mark W.shared.store .pending upn t store)
    (meets : C W (.call .hook j (HookEvent.marked upn t none))) :
    ∃ W', Reach (pipeline U q J B) C W' ∧ W'.shared = ⟨store, W.shared.accepted⟩ ∧
      W'.pool .hook j = some ⟨start, past ++ [HookEvent.marked upn t none, HookEvent.zeroed],
        .ret ({ decision with enqueued := true }, none)⟩ ∧
      W.SameBut W' .hook j := by
  have hmark : hookAnswer q J B (.markPending upn t) W.shared none ⟨store, W.shared.accepted⟩ :=
    ⟨rfl, marks, rfl⟩
  have hmarked := h.step meets (Step.call thread rfl hmark)
  have hzero : Answers (pipeline U q J B) .hook ⟨store, W.shared.accepted⟩
      (.call .zeroPassword fun _ => .ret ({ decision with enqueued := true }, none))
      [HookEvent.zeroed] ⟨store, W.shared.accepted⟩
      (.ret ({ decision with enqueued := true }, none)) := .call rfl (.nil _ _)
  obtain ⟨W', hreach, hshared, hthread, hframe⟩ := hmarked.answers hzero
    (fun W e he => quiet _ _ (by rw [List.mem_singleton.1 he]; rfl)) rfl
    (World.setThread_pool_self _ _ _ _)
  refine ⟨W', hreach, hshared, ?_, fun k' i' hne => ?_⟩
  · rw [hthread]
    simp [HookEvent.marked]
  · rw [hframe k' i' hne, World.setThread_pool_of_ne _ _ hne]

/-! ## Workers -/

/-- The calls of a worker up to its `MarkSynced`, if the first attempt succeeds. -/
def processedRun (ptr : MessagePtr) (msg : PasswordSyncMessage) (plaintext : Bytes) :
    List WorkerEvent :=
  [.decrypted (envelopeOf msg) (passwordAAD msg.cn msg.upn msg.enqueuedAt) (.ok plaintext),
    .processed (commandOf msg plaintext) none, .zeroedPlaintext, .zeroedBody (some ptr)]

include quiet in
/-- A worker that is answered nil by the processor comes to `MarkSynced`. -/
theorem reach_processed (h : Reach (pipeline U q J B) C W) {i : ℕ} (free : W.pool .worker i = none)
    (w : Worker) (addr : ℕ) {a : Accepted} (accepted : a ∈ W.shared.accepted)
    (delivers : B.delivers W.shared.store a.sentAt)
    (decoded : decodePasswordSyncMessage J (some ⟨addr, receivedMessage a.bus⟩) = .ok a.msg)
    (plaintext : Bytes) :
    ∃ W' f, Reach (pipeline U q J B) C W' ∧ W'.shared = W.shared ∧
      W'.pool .worker i = some ⟨processMessage J w (some ⟨addr, receivedMessage a.bus⟩),
        processedRun ⟨addr, receivedMessage a.bus⟩ a.msg plaintext,
        .call (.markSynced a.msg.upn a.msg.enqueuedAt) f⟩ ∧
      W.SameBut W' .worker i := by
  have hfirst : ∀ backoffs, ∃ rest,
      attemptPasswordSync a.msg backoffs 1 = attemptOnce a.msg 1 rest := by
    intro backoffs
    cases backoffs with
    | nil => exact ⟨_, rfl⟩
    | cons delay backoffs => exact ⟨_, rfl⟩
  obtain ⟨rest, hrest⟩ := hfirst w.retryBackoffs
  obtain ⟨f, hrun⟩ : ∃ f, Answers (pipeline U q J B) .worker W.shared
      (processMessage J w (some ⟨addr, receivedMessage a.bus⟩))
      (processedRun ⟨addr, receivedMessage a.bus⟩ a.msg plaintext) W.shared
      (.call (.markSynced a.msg.upn a.msg.enqueuedAt) f) := by
    rw [processMessage, decoded]
    dsimp only
    rw [processPasswordSync, hrest]
    exact ⟨_, .call rfl <| .call rfl <| .call rfl <| .call rfl <| .nil _ _⟩
  obtain ⟨W', hreach⟩ := h.spawn_answers free ⟨w, addr, a, accepted, delivers, rfl⟩ hrun
    (quiet _ _ rfl) fun W e he => quiet _ _ (by
      simp only [processedRun, List.mem_cons, List.not_mem_nil, or_false] at he
      rcases he with rfl | rfl | rfl | rfl <;> rfl)
  exact ⟨W', f, hreach⟩

/-- A worker that has come to `MarkSynced` writes the record. -/
theorem reach_synced (h : Reach (pipeline U q J B) C W) {i : ℕ} {start : WorkerProg (Option Err)}
    {past : List WorkerEvent} {upn : String} {t : Time} {f : Option Err → WorkerProg (Option Err)}
    (thread : W.pool .worker i = some ⟨start, past, .call (.markSynced upn t) f⟩) {store : B.State}
    (marks : B.mark W.shared.store .synced upn t store)
    (meets : C W (.call .worker i (WorkerEvent.markedSynced upn t none))) :
    ∃ W', Reach (pipeline U q J B) C W' ∧ W'.shared = ⟨store, W.shared.accepted⟩ ∧
      W'.pool .worker i = some ⟨start, past ++ [WorkerEvent.markedSynced upn t none], f none⟩ ∧
      W.SameBut W' .worker i := by
  have hmark : workerAnswer B (.markSynced upn t) W.shared none ⟨store, W.shared.accepted⟩ :=
    ⟨rfl, marks, rfl⟩
  refine ⟨_, h.step meets (Step.call thread rfl hmark), rfl, World.setThread_pool_self _ _ _ _, ?_⟩
  intro k' i' hne
  rw [World.setThread_pool_of_ne _ _ hne]

end Progress

end PasswordHook
