import PasswordHook.Pipeline.System

/-!
# What every run of the pipeline keeps

Threads and the broker's log only grow, so what has happened stays true.  Along every run the store
is the one a `StatusView` describes, workers work on messages that hooks sent, and every status
write is for the account and the stamp of an accepted message; a write of `synced` comes after the
processor returned nil for it (`Sound.write`).
-/

namespace PasswordHook

open Prog

/-- What a status store is for: at each account a register that keeps the record of greatest rank,
except that the environment may lose records. -/
structure StatusView (U : Unicode) (B : Backend) where
  /-- The record of an account, as a `Get` now sees it. -/
  view : B.State → String → Option Record
  /-- What every state of a run satisfies. -/
  Inv : B.State → Prop
  /-- The stamps the store can hold. -/
  TimeOk : Time → Prop
  inv_init : ∀ {s}, B.init s → Inv s ∧ ∀ upn, view s upn = none
  reads_ok : ∀ {s t}, Inv s → B.reads s t → TimeOk t.utc
  get_ok : ∀ {s upn r}, Inv s → upn ∈ B.names → B.get s upn (.ok r) → r = (view s upn).getD .zero
  mark_ok : ∀ {s m upn t s'}, Inv s → upn ∈ B.names → t.utc = t → TimeOk t →
    B.mark s m upn t s' → Inv s' ∧ ∃ now, ∀ upn' ∈ B.names, view s' upn' =
      if normalizeUPN U upn = normalizeUPN U upn' then
        Register.offer Record.rank (view s upn') ⟨m.status, now, t⟩
      else view s upn'
  env_ok : ∀ {s s'}, Inv s → B.env s s' →
    Inv s' ∧ ∀ upn ∈ B.names, view s' upn = view s upn ∨ view s' upn = none

section Growth

variable {U : Unicode} {q : Queue} {J : Json} {B : Backend} {W W' : PipelineWorld B}
  {ℓ : PipelineLabel}

/-- The broker's log grows by the messages that are sent. -/
theorem hookAnswer_accepted {c : HookCall} {s s' : Shared B} {r : c.Resp}
    (h : hookAnswer q J B c s r s') :
    s'.accepted = s.accepted ∨ ∃ a, s'.accepted = a :: s.accepted ∧ c.sentOf = some a.msg ∧
      q.busMessage J a.msg = .ok a.bus := by
  cases c with
  | get upn => exact .inl (congrArg _ h.2)
  | now reading => exact .inl (congrArg _ h.2)
  | encrypt plaintext aad => exact .inl (congrArg Shared.accepted h)
  | enqueuePasswordSync msg =>
    rcases h.2 with ⟨bus, t, hbus, -, rfl⟩ | ⟨-, rfl⟩
    · exact .inr ⟨⟨msg, bus, t⟩, rfl, rfl, hbus⟩
    · exact .inl rfl
  | markPending upn t => exact .inl h.2.2
  | zeroPassword => exact .inl (congrArg Shared.accepted h)

theorem workerAnswer_accepted {c : WorkerCall} {s s' : Shared B} {r : c.Resp}
    (h : workerAnswer B c s r s') : s'.accepted = s.accepted := by
  cases c with
  | now => exact congrArg _ h.2
  | markSynced upn t => exact h.2.2
  | markFailed upn t => exact h.2.2
  | _ => exact congrArg Shared.accepted h

theorem Step.accepted_mono (h : Step (pipeline U q J B) W ℓ W') {a : Accepted}
    (ha : a ∈ W.shared.accepted) : a ∈ W'.shared.accepted := by
  cases h with
  | spawn free allowed => exact ha
  | @call k i t c f r s thread next answer =>
    cases k with
    | hook =>
      rcases hookAnswer_accepted answer with h | ⟨a', h, -⟩
      · rw [World.setThread_shared, h]
        exact ha
      · rw [World.setThread_shared, h]
        exact List.mem_cons_of_mem _ ha
    | worker =>
      rw [World.setThread_shared, workerAnswer_accepted answer]
      exact ha
  | env change => exact change.2 ▸ ha

/-- A message in the log after a step was there before or has just been sent by a hook. -/
theorem Step.accepted_new (h : Step (pipeline U q J B) W ℓ W') {a : Accepted}
    (ha : a ∈ W'.shared.accepted) : a ∈ W.shared.accepted ∨
      (q.busMessage J a.msg = .ok a.bus ∧ ∃ (j : ℕ) (t : HookThread), W'.pool .hook j = some t ∧
        ∃ e ∈ t.past, e.call.sentOf = some a.msg) := by
  cases h with
  | spawn free allowed => exact .inl ha
  | @call k i t c f r s thread next answer =>
    cases k with
    | hook =>
      rcases hookAnswer_accepted answer with hs | ⟨a', hs, hsent, hbus⟩
      · rw [World.setThread_shared, hs] at ha
        exact .inl ha
      · rw [World.setThread_shared, hs] at ha
        rcases List.mem_cons.1 ha with rfl | ha
        · exact .inr ⟨hbus, i, _, World.setThread_pool_self _ _ _ _, ⟨c, r⟩, by simp, hsent⟩
        · exact .inl ha
    | worker =>
      rw [World.setThread_shared, workerAnswer_accepted answer] at ha
      exact .inl ha
  | env change => exact .inl (change.2 ▸ ha)

theorem ReturnedMessage.step (h : Step (pipeline U q J B) W ℓ W') {msg : PasswordSyncMessage}
    (hw : ReturnedMessage W msg) : ReturnedMessage W' msg := by
  obtain ⟨j, t, ht, ⟨d, err, hret, henq⟩, hmem⟩ := hw
  exact ⟨j, t, h.returned ht hret, ⟨d, err, hret, henq⟩, hmem⟩

theorem Returned.step (h : Step (pipeline U q J B) W ℓ W') {key : String} {n : ℤ}
    (hw : Returned U W key n) : Returned U W' key n := by
  obtain ⟨msg, hmsg, hkey⟩ := hw
  exact ⟨msg, hmsg.step h, hkey⟩

theorem ProcessedMessage.step (h : Step (pipeline U q J B) W ℓ W') {msg : PasswordSyncMessage}
    (hw : ProcessedMessage J W msg) : ProcessedMessage J W' msg := by
  obtain ⟨i, t, ht, ⟨w, addr, a, ha, hmsg, hstart⟩, plaintext, hmem⟩ := hw
  obtain ⟨t', ht', hstart', hprefix⟩ := h.thread_mono ht
  exact ⟨i, t', ht', ⟨w, addr, a, h.accepted_mono ha, hmsg, hstart'.trans hstart⟩, plaintext,
    hprefix.subset hmem⟩

end Growth

/-! ## The invariant -/

section Sound

variable {U : Unicode} {q : Queue} {J : Json} {B : Backend} (V : StatusView U B)

variable (q J) in
/-- What holds in every world of a run. -/
structure Sound (W : PipelineWorld B) : Prop where
  inv : V.Inv W.shared.store
  threads : W.Threaded
  hook_start : ∀ (j : ℕ) (t : HookThread), W.pool .hook j = some t → ∃ svc traceID req,
    svc.syncStatusStore = true ∧
    (∀ upn, buildUPN U req.cn svc.primaryDomain = .ok upn → upn ∈ B.names) ∧
    t.start = submit U svc traceID req
  worker_start : ∀ (i : ℕ) (t : WorkerThread), W.pool .worker i = some t → ∃ w addr,
    ∃ a ∈ W.shared.accepted, t.start = processMessage J w (some ⟨addr, receivedMessage a.bus⟩)
  reads_ok : ∀ (j : ℕ) (t : HookThread), W.pool .hook j = some t → ∀ reading time,
    HookEvent.read reading time ∈ t.past → V.TimeOk time.utc
  sent_accepted : ∀ (j : ℕ) (t : HookThread), W.pool .hook j = some t → ∀ msg,
    HookEvent.sent msg none ∈ t.past → ∃ a ∈ W.shared.accepted, a.msg = msg
  accepted_sent : ∀ a ∈ W.shared.accepted, q.busMessage J a.msg = .ok a.bus ∧
    ∃ (j : ℕ) (t : HookThread), W.pool .hook j = some t ∧ ∃ e ∈ t.past,
      e.call.sentOf = some a.msg

variable {V} {W W' : PipelineWorld B} {ℓ : PipelineLabel}

/-- A hook is on its way through `Submit`. -/
theorem Sound.hook_exec (hW : Sound q J V W) {j : ℕ} {t : HookThread}
    (ht : W.pool .hook j = some t) : ∃ svc traceID req τ r, svc.syncStatusStore = true ∧
      (∀ upn, buildUPN U req.cn svc.primaryDomain = .ok upn → upn ∈ B.names) ∧
      Exec (submit U svc traceID req) (t.past ++ τ) r ∧ Ordered t.past := by
  obtain ⟨svc, traceID, req, hstore, hnames, hstart⟩ := hW.hook_start j t ht
  have hsteps := hW.threads .hook j t ht
  rw [hstart] at hsteps
  obtain ⟨τ, r, hexec⟩ := hsteps.exists_exec hook_resp_nonempty
  exact ⟨svc, traceID, req, τ, r, hstore, hnames, hexec, (ordered_submit hexec).of_append⟩

theorem sentOf_eq_some {e : HookEvent} {msg : PasswordSyncMessage} (h : e.call.sentOf = some msg) :
    ∃ r, e = .sent msg r := by
  obtain ⟨c, r⟩ := e
  cases c with
  | enqueuePasswordSync msg' =>
    obtain rfl := Option.some_inj.1 h
    exact ⟨r, rfl⟩
  | _ => exact absurd h (by simp [HookCall.sentOf])

/-- A message a hook has handed to the queue is for an account in use and was stamped by that
hook. -/
theorem Sound.stamped_of_sent (hW : Sound q J V W) {j : ℕ} {t : HookThread}
    (ht : W.pool .hook j = some t) {e : HookEvent} (he : e ∈ t.past) {msg : PasswordSyncMessage}
    (hsent : e.call.sentOf = some msg) :
    msg.upn ∈ B.names ∧ msg.enqueuedAt.utc = msg.enqueuedAt ∧ V.TimeOk msg.enqueuedAt ∧
      ∃ time, HookEvent.read (.enqueuedAt msg.upn) time ∈ t.past ∧ msg.enqueuedAt = time.utc := by
  obtain ⟨svc, traceID, req, τ, r, -, hnames, hexec, hordered⟩ := hW.hook_exec ht
  obtain ⟨answer, rfl⟩ := sentOf_eq_some hsent
  obtain ⟨upn, time', env, hupn, hmsg, -⟩ := exec_submit_sent hexec (List.mem_append_left τ he)
  obtain ⟨τ₁, τ₂, hsplit⟩ := List.append_of_mem he
  obtain ⟨e', he', time, rfl, htime⟩ := hordered.stamped_first msg τ₁ _ τ₂ hsplit rfl
  have hread : HookEvent.read (.enqueuedAt msg.upn) time ∈ t.past := by
    rw [hsplit]
    exact List.mem_append_left _ he'
  refine ⟨?_, by rw [htime, Time.utc_utc], ?_, time, hread, htime⟩
  · rw [hmsg]
    exact hnames upn hupn
  · rw [htime]
    exact hW.reads_ok j t ht _ time hread

theorem Sound.accepted_ok (hW : Sound q J V W) {a : Accepted} (ha : a ∈ W.shared.accepted) :
    a.msg.upn ∈ B.names ∧ a.msg.enqueuedAt.utc = a.msg.enqueuedAt ∧ V.TimeOk a.msg.enqueuedAt := by
  obtain ⟨-, j, t, ht, e, he, hsent⟩ := hW.accepted_sent a ha
  obtain ⟨hupn, hutc, htime, -⟩ := hW.stamped_of_sent ht he hsent
  exact ⟨hupn, hutc, htime⟩

/-- What a worker decodes is the message a hook sent. -/
theorem Sound.decoded_eq (hW : Sound q J V W) {a : Accepted} (ha : a ∈ W.shared.accepted)
    {addr : ℕ} {m : PasswordSyncMessage}
    (h : decodePasswordSyncMessage J (some ⟨addr, receivedMessage a.bus⟩) = .ok m) : m = a.msg :=
  decode_received (hW.accepted_ok ha).2.1 (hW.accepted_sent a ha).1 h

/-- What a hook writes to the store is for the message it handed to the queue. -/
theorem Sound.hook_mark (hW : Sound q J V W) {j : ℕ} {t : HookThread}
    (ht : W.pool .hook j = some t) {upn : String} {time : Time}
    {f : Option Err → HookProg (Decision × Option Err)}
    (next : t.rest = .call (.markPending upn time) f) :
    ∃ a ∈ W.shared.accepted, upn = a.msg.upn ∧ time = a.msg.enqueuedAt := by
  obtain ⟨svc, traceID, req, -, -, hstart⟩ := hW.hook_start j t ht
  have hsteps := hW.threads .hook j t ht
  rw [hstart, next] at hsteps
  obtain ⟨τ, r, hexec⟩ := (hsteps.snoc (none : Option Err)).exists_exec hook_resp_nonempty
  have hordered := (ordered_submit hexec).of_append
  obtain ⟨e, he, msg, rfl, hupn, htime⟩ := hordered.taken_first upn time t.past _ [] rfl rfl
  obtain ⟨a, ha, rfl⟩ := hW.sent_accepted j t ht msg he
  exact ⟨a, ha, hupn.symm, htime.symm⟩

/-- What a worker writes to the store is for the message it works on, and a write of `synced` comes
after the processor returned nil. -/
theorem Sound.worker_mark (hW : Sound q J V W) {i : ℕ} {t : WorkerThread}
    (ht : W.pool .worker i = some t) {c : WorkerCall} {upn : String} {time : Time}
    {f : workerInterface.Resp c → WorkerProg (Option Err)} (next : t.rest = .call c f)
    (hmark : c.markOf = some (upn, time)) :
    ∃ a ∈ W.shared.accepted, upn = a.msg.upn ∧ time = a.msg.enqueuedAt ∧
      (c.isMarkSynced = true → ProcessedMessage J W a.msg) := by
  obtain ⟨w, addr, a, ha, hstart⟩ := hW.worker_start i t ht
  have hsteps := hW.threads .worker i t ht
  rw [hstart, next] at hsteps
  obtain ⟨answer⟩ := worker_resp_nonempty c
  obtain ⟨τ, r, hexec⟩ := (hsteps.snoc answer).exists_exec worker_resp_nonempty
  obtain ⟨m, hm, hmark'⟩ := markOf_processMessage hexec (e := ⟨c, answer⟩) (by simp) hmark
  obtain rfl := hW.decoded_eq ha hm
  obtain ⟨hupn, htime⟩ := Prod.mk.inj hmark'
  refine ⟨a, ha, hupn, htime, fun hsynced => ?_⟩
  have hafter := (disciplined_processMessage hexec).synced_after
  obtain ⟨e, he, m', plaintext, hm', rfl⟩ := hafter t.past ⟨c, answer⟩ τ (by simp) hsynced
  obtain rfl := hW.decoded_eq ha hm'
  exact ⟨i, t, ht, ⟨w, addr, a, ha, rfl, hstart⟩, plaintext, he⟩

/-- A submission that has returned `Enqueued` has marked its account with the stamp of its
message. -/
theorem Sound.marked_of_returned (hW : Sound q J V W) {msg : PasswordSyncMessage}
    (h : ReturnedMessage W msg) : Marked U W (normalizeUPN U msg.upn) msg.enqueuedAt.nano := by
  obtain ⟨j, t, ht, ⟨d, err, hret, henqueued⟩, hsent⟩ := h
  obtain ⟨svc, traceID, req, hstore, -, hstart⟩ := hW.hook_start j t ht
  have hexec := hW.threads .hook j t ht
  rw [hstart, hret] at hexec
  obtain ⟨upn, time, env, lead, marks, -, hpast, -, hmarks, -⟩ :=
    exec_submit_enqueued hexec henqueued
  -- the message is the one the run stamped
  obtain rfl : msg = stampedMessage traceID req upn time.utc env := by
    have hstamped : HookEvent.sent (stampedMessage traceID req upn time.utc env) none ∈ t.past := by
      rw [hpast]
      simp
    exact (ordered_submit hexec).message_eq hsent hstamped rfl rfl
  rcases hmarks with ⟨-, e, rfl⟩ | ⟨hnone, -⟩
  · refine ⟨j, t, ht, HookEvent.marked upn time.utc e, ?_, upn, time.utc, rfl, rfl, rfl⟩
    rw [hpast]
    simp
  · rw [hstore] at hnone
    exact absurd hnone (by decide)

variable (J) in
/-- A step changes the store by a write for an accepted message, or not at all but for the
environment. -/
inductive Effect (W : PipelineWorld B) (ℓ : PipelineLabel) (W' : PipelineWorld B) : Prop
  | same (quiet : writeOf ℓ = none) (h : W'.shared.store = W.shared.store)
  | env (quiet : writeOf ℓ = none) (h : B.env W.shared.store W'.shared.store)
  | write (m : Mark) (a : Accepted) (ha : a ∈ W.shared.accepted)
      (hw : writeOf ℓ = some (m, a.msg.upn, a.msg.enqueuedAt))
      (h : B.mark W.shared.store m a.msg.upn a.msg.enqueuedAt W'.shared.store)
      (processed : m = .synced → ProcessedMessage J W a.msg)

theorem Sound.effect (hW : Sound q J V W) (h : Step (pipeline U q J B) W ℓ W') :
    Effect J W ℓ W' := by
  cases h with
  | spawn free allowed => exact .same rfl rfl
  | env change => exact .env rfl change.1
  | @call k i t c f r s thread next answer =>
    cases k with
    | hook =>
      cases c with
      | get upn => exact .same rfl (congrArg _ answer.2)
      | now reading => exact .same rfl (congrArg _ answer.2)
      | encrypt plaintext aad => exact .same rfl (congrArg Shared.store answer)
      | enqueuePasswordSync msg =>
        rcases answer.2 with ⟨bus, time, -, -, rfl⟩ | ⟨-, rfl⟩ <;> exact .same rfl rfl
      | markPending upn time =>
        obtain ⟨a, ha, rfl, rfl⟩ := hW.hook_mark thread next
        exact .write .pending a ha rfl answer.2.1 (by simp)
      | zeroPassword => exact .same rfl (congrArg Shared.store answer)
    | worker =>
      cases c with
      | now => exact .same rfl (congrArg _ answer.2)
      | markSynced upn time =>
        obtain ⟨a, ha, rfl, rfl, hproc⟩ := hW.worker_mark thread next rfl
        exact .write .synced a ha rfl answer.2.1 (fun _ => hproc rfl)
      | markFailed upn time =>
        obtain ⟨a, ha, rfl, rfl, -⟩ := hW.worker_mark thread next rfl
        exact .write .failed a ha rfl answer.2.1 (by simp)
      | _ => exact .same rfl (congrArg Shared.store answer)

theorem sound_init {s : Shared B} (h : (pipeline U q J B).init s) :
    Sound q J V ⟨s, fun _ _ => none⟩ where
  inv := (V.inv_init h.1).1
  threads _ _ _ ht := absurd ht (by simp)
  hook_start _ _ ht := absurd ht (by simp)
  worker_start _ _ ht := absurd ht (by simp)
  reads_ok _ _ ht := absurd ht (by simp)
  sent_accepted _ _ ht := absurd ht (by simp)
  accepted_sent a ha := by
    rw [h.2] at ha
    exact absurd ha List.not_mem_nil

theorem Sound.inv_step (hW : Sound q J V W) (h : Step (pipeline U q J B) W ℓ W') :
    V.Inv W'.shared.store := by
  cases hW.effect h with
  | same _ hs =>
    rw [hs]
    exact hW.inv
  | env _ hs => exact (V.env_ok hW.inv hs).1
  | write m a ha _ hs _ =>
    obtain ⟨hupn, hutc, htime⟩ := hW.accepted_ok ha
    exact (V.mark_ok hW.inv hupn hutc htime hs).1

theorem Sound.step (hW : Sound q J V W) (h : Step (pipeline U q J B) W ℓ W') :
    Sound q J V W' where
  inv := hW.inv_step h
  threads := hW.threads.step h
  hook_start j t ht := by
    rcases h.pool_cases ht with ⟨-, -, -, hspawn⟩ | ⟨t₀, c, f, r, h₀, -, -, -, rfl⟩ | h₀
    · exact hspawn
    · exact hW.hook_start j t₀ h₀
    · exact hW.hook_start j t h₀
  worker_start i t ht := by
    have keep : ∀ {p : WorkerProg (Option Err)}, (∃ w addr, ∃ a ∈ W.shared.accepted,
        p = processMessage J w (some ⟨addr, receivedMessage a.bus⟩)) →
        ∃ w addr, ∃ a ∈ W'.shared.accepted,
          p = processMessage J w (some ⟨addr, receivedMessage a.bus⟩) := by
      rintro p ⟨w, addr, a, ha, hp⟩
      exact ⟨w, addr, a, h.accepted_mono ha, hp⟩
    rcases h.pool_cases ht with ⟨-, -, -, hspawn⟩ | ⟨t₀, c, f, r, h₀, -, -, -, rfl⟩ | h₀
    · obtain ⟨w, addr, a, ha, -, hp⟩ := hspawn
      exact keep ⟨w, addr, a, ha, hp⟩
    · exact keep (hW.worker_start i t₀ h₀)
    · exact keep (hW.worker_start i t h₀)
  reads_ok j t ht reading time hmem := by
    rcases h.pool_cases ht with ⟨hp, -, -, -⟩ | ⟨t₀, c, f, r, h₀, -, -, answer, rfl⟩ | h₀
    · rw [hp] at hmem
      exact absurd hmem List.not_mem_nil
    · rcases List.mem_append.1 hmem with hmem | hmem
      · exact hW.reads_ok j t₀ h₀ reading time hmem
      · cases List.mem_singleton.1 hmem
        exact V.reads_ok hW.inv answer.1
    · exact hW.reads_ok j t h₀ reading time hmem
  sent_accepted j t ht msg hmem := by
    have keep : (∃ a ∈ W.shared.accepted, a.msg = msg) → ∃ a ∈ W'.shared.accepted, a.msg = msg := by
      rintro ⟨a, ha, hmsg⟩
      exact ⟨a, h.accepted_mono ha, hmsg⟩
    rcases h.pool_cases ht with ⟨hp, -, -, -⟩ | ⟨t₀, c, f, r, h₀, -, -, answer, rfl⟩ | h₀
    · rw [hp] at hmem
      exact absurd hmem List.not_mem_nil
    · rcases List.mem_append.1 hmem with hmem | hmem
      · exact keep (hW.sent_accepted j t₀ h₀ msg hmem)
      · cases List.mem_singleton.1 hmem
        rcases answer.2 with ⟨bus, time, -, -, hs⟩ | ⟨hne, -⟩
        · exact ⟨⟨msg, bus, time⟩, by rw [hs]; exact List.mem_cons_self, rfl⟩
        · exact absurd rfl hne
    · exact keep (hW.sent_accepted j t h₀ msg hmem)
  accepted_sent a ha := by
    rcases h.accepted_new ha with hold | hnew
    · obtain ⟨hbus, j, t, ht, e, he, hsent⟩ := hW.accepted_sent a hold
      obtain ⟨t', ht', -, hprefix⟩ := h.thread_mono ht
      exact ⟨hbus, j, t', ht', e, hprefix.subset he, hsent⟩
    · exact hnew

/-- Along every run the invariant holds. -/
theorem sound_of_reach (V : StatusView U B) {C : PipelineWorld B → PipelineLabel → Prop}
    (h : Reach (pipeline U q J B) C W) : Sound q J V W :=
  h.invariant (fun _ hinit => sound_init hinit) fun _ _ _ hW _ hs => hW.step hs

/-! ## Records -/

variable (J) in
/-- The step writes the record for an accepted message, over a record of lower rank. -/
structure Written (V : StatusView U B) (W : PipelineWorld B) (ℓ : PipelineLabel) (upn : String)
    (record : Record) (m : Mark) (a : Accepted) : Prop where
  accepted : a ∈ W.shared.accepted
  label : writeOf ℓ = some (m, a.msg.upn, a.msg.enqueuedAt)
  account : normalizeUPN U a.msg.upn = normalizeUPN U upn
  status : record.status = m.status
  source : record.sourceEnqueuedAt = a.msg.enqueuedAt
  higher : Register.held Record.rank (V.view W.shared.store upn) < record.rank
  processed : m = .synced → ProcessedMessage J W a.msg

/-- A record after a step was there before or has just been written. -/
theorem Sound.view_step (hW : Sound q J V W) (h : Step (pipeline U q J B) W ℓ W') {upn : String}
    (hupn : upn ∈ B.names) {record : Record} (hr : V.view W'.shared.store upn = some record) :
    V.view W.shared.store upn = some record ∨ ∃ m a, Written J V W ℓ upn record m a := by
  cases hW.effect h with
  | same _ hs =>
    rw [hs] at hr
    exact .inl hr
  | env _ hs =>
    rcases (V.env_ok hW.inv hs).2 upn hupn with hv | hv
    · rw [hv] at hr
      exact .inl hr
    · rw [hv] at hr
      exact absurd hr (by simp)
  | write m a ha hlabel hs processed =>
    obtain ⟨hname, hutc, htime⟩ := hW.accepted_ok ha
    obtain ⟨-, now, hview⟩ := V.mark_ok hW.inv hname hutc htime hs
    rw [hview upn hupn] at hr
    split_ifs at hr with haccount
    · rcases Register.offer_eq_some hr with hold | ⟨rfl, higher⟩
      · exact .inl hold
      · exact .inr ⟨m, a, ha, hlabel, haccount, rfl, rfl, higher, processed⟩
    · exact .inl hr

/-- A status write offers its record to the register of the account. -/
theorem Sound.view_write (hW : Sound q J V W) (h : Step (pipeline U q J B) W ℓ W') {m : Mark}
    {upn upn' : String} {t : Time} (hw : writeOf ℓ = some (m, upn', t)) (hupn : upn ∈ B.names)
    (account : normalizeUPN U upn' = normalizeUPN U upn) :
    ∃ now, V.view W'.shared.store upn =
      Register.offer Record.rank (V.view W.shared.store upn) ⟨m.status, now, t⟩ := by
  cases hW.effect h with
  | same quiet _ =>
    rw [quiet] at hw
    exact absurd hw (by simp)
  | env quiet _ =>
    rw [quiet] at hw
    exact absurd hw (by simp)
  | write m' a ha hlabel hs _ =>
    rw [hlabel] at hw
    cases hw
    obtain ⟨hname, hutc, htime⟩ := hW.accepted_ok ha
    obtain ⟨-, now, hview⟩ := V.mark_ok hW.inv hname hutc htime hs
    exact ⟨now, by rw [hview upn hupn, if_pos account]⟩

variable (J V) in
/-- Every synced record is of a message the processor returned nil for. -/
def SyncedProcessed (W : PipelineWorld B) : Prop :=
  ∀ upn ∈ B.names, ∀ record, V.view W.shared.store upn = some record → record.status = .synced →
    ∃ msg, ProcessedMessage J W msg ∧ normalizeUPN U msg.upn = normalizeUPN U upn ∧
      msg.enqueuedAt = record.sourceEnqueuedAt

theorem Mark.eq_synced {m : Mark} (h : m.status = .synced) : m = .synced := by
  cases m <;> first | rfl | exact absurd h (by decide)

theorem SyncedProcessed.step (hW : Sound q J V W) (ih : SyncedProcessed J V W)
    (h : Step (pipeline U q J B) W ℓ W') : SyncedProcessed J V W' := by
  intro upn hupn record hr hsynced
  rcases hW.view_step h hupn hr with hold | ⟨m, a, hwrite⟩
  · obtain ⟨msg, hmsg, hkey, hsource⟩ := ih upn hupn record hold hsynced
    exact ⟨msg, hmsg.step h, hkey, hsource⟩
  · rw [hwrite.status] at hsynced
    exact ⟨a.msg, (hwrite.processed (Mark.eq_synced hsynced)).step h, hwrite.account,
      hwrite.source.symm⟩

theorem syncedProcessed_of_reach (V : StatusView U B)
    {C : PipelineWorld B → PipelineLabel → Prop} (h : Reach (pipeline U q J B) C W) :
    SyncedProcessed J V W := by
  refine (h.invariant (P := fun W => Sound q J V W ∧ SyncedProcessed J V W) ?_ ?_).2
  · intro s hinit
    refine ⟨sound_init hinit, fun upn _ record hr => ?_⟩
    rw [(V.inv_init hinit.1).2 upn] at hr
    exact absurd hr (by simp)
  · rintro W ℓ W' ⟨hW, ih⟩ _ hs
    exact ⟨hW.step hs, ih.step hW hs⟩

/-- A step that leaves a new synced record is a worker's `MarkSynced`. -/
theorem Sound.synced_by_worker (hW : Sound q J V W) (h : Step (pipeline U q J B) W ℓ W')
    {upn : String} (hupn : upn ∈ B.names) {record : Record}
    (hr : V.view W'.shared.store upn = some record) (hsynced : record.status = .synced)
    (hnew : V.view W.shared.store upn ≠ some record) :
    ∃ i upn' t r, ℓ = .call .worker i ⟨.markSynced upn' t, r⟩ := by
  rcases hW.view_step h hupn hr with hold | ⟨m, a, hwrite⟩
  · exact absurd hold hnew
  · have hm : m = .synced := Mark.eq_synced (by rw [← hwrite.status, hsynced])
    have hlabel := hwrite.label
    rw [hm] at hlabel
    unfold writeOf at hlabel
    split at hlabel
    · exact absurd hlabel (by simp)
    · exact ⟨_, _, _, _, rfl⟩
    · exact absurd hlabel (by simp)
    · exact absurd hlabel (by simp)

end Sound

end PasswordHook
