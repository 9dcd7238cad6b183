import PasswordHook.Worker.Runs

/-!
# Shutdown while a message is processed

The run context is canceled at some instant while `processMessage` works on a message.  `Decrypt`
then returns the context's error, a request under way succeeds or fails with a transient error that
wraps it, and a backoff wait returns it, unless its timer fires first.

The message is handed back for redelivery exactly if a backoff wait notices the cancellation
(`abandoned_iff_noticed`).  Noticed by `Decrypt`, the cancellation counts as a permanent failure,
and noticed in the last attempt as exhausted retries: the message goes to the dead-letter sink.
-/

namespace PasswordHook

open Prog

/-! ## The environment of a shutdown -/

/-- `context.Canceled`, possibly wrapped. -/
inductive ContextError : Err → Prop
  | canceled : ContextError .canceled
  | wrap (msg : String) {err : Err} (h : ContextError err) : ContextError (.wrap msg err)

/-- The error the Graph client returns for a canceled request. -/
def CausedByCancel (err : Err) : Prop :=
  ∃ operation inner, err = .graphTransient 0 operation inner ∧ ContextError inner

/-- What `ctx.Err()` returns. -/
def ctxErrOf (canceled : Bool) : Option Err := if canceled then some .canceled else none

/-- The answers to a trace that starts with the run context canceled or not.  Before the
cancellation attempts fail with errors that are not permanent, at most `budget` of them; every
failure after it is caused by it. -/
inductive UnderShutdown (codec : Codec) : ℕ → Bool → List WorkerEvent → Prop
  | nil (budget : ℕ) (canceled : Bool) : UnderShutdown codec budget canceled []
  /-- The context is canceled between two calls. -/
  | cancel {budget : ℕ} {τ : List WorkerEvent} (h : UnderShutdown codec budget true τ) :
      UnderShutdown codec budget false τ
  /-- A call of `Decrypt` that returns. -/
  | decrypt {budget : ℕ} {canceled : Bool} {env : Envelope} {aad : Bytes} {r : Except Err Bytes}
      {τ : List WorkerEvent} (answer : codec.decrypt (ctxErrOf canceled) env aad = some r)
      (h : UnderShutdown codec budget canceled τ) :
      UnderShutdown codec budget canceled (.decrypted env aad r :: τ)
  /-- An attempt that fails before the cancellation. -/
  | failedBefore {budget : ℕ} {cmd : PasswordSyncCommand} {err : Err} {τ : List WorkerEvent}
      (transient : err.asPermanent = none) (h : UnderShutdown codec budget false τ) :
      UnderShutdown codec (budget + 1) false (.processed cmd (some err) :: τ)
  /-- An attempt during or before which the context is canceled. -/
  | endedAfter {budget : ℕ} {canceled : Bool} {cmd : PasswordSyncCommand} {r : Option Err}
      {τ : List WorkerEvent} (cause : ∀ err, r = some err → CausedByCancel err)
      (h : UnderShutdown codec budget true τ) :
      UnderShutdown codec budget canceled (.processed cmd r :: τ)
  /-- A backoff whose timer fires, possibly with the cancellation. -/
  | timer {budget : ℕ} {canceled : Bool} {delay : ℤ} {τ : List WorkerEvent}
      (h : UnderShutdown codec budget canceled τ) :
      UnderShutdown codec budget canceled (.slept delay none :: τ)
  /-- A backoff that notices the cancellation. -/
  | noticed {budget : ℕ} {canceled : Bool} {delay : ℤ} {τ : List WorkerEvent}
      (h : UnderShutdown codec budget true τ) :
      UnderShutdown codec budget canceled (.slept delay (some .canceled) :: τ)
  | detached {budget : ℕ} {canceled : Bool} {e : WorkerEvent} {τ : List WorkerEvent}
      (hd : e.call.isDetached = true) (h : UnderShutdown codec budget canceled τ) :
      UnderShutdown codec budget canceled (e :: τ)

/-- The only error a backoff wait returns is that of the context. -/
theorem UnderShutdown.sleepErr {codec : Codec} {budget : ℕ} {canceled : Bool}
    {τ : List WorkerEvent} (h : UnderShutdown codec budget canceled τ) {delay : ℤ} {err : Err}
    (mem : .slept delay (some err) ∈ τ) : err = .canceled := by
  induction h with
  | nil => exact absurd mem List.not_mem_nil
  | cancel _ ih => exact ih mem
  | decrypt _ _ ih =>
    rcases List.mem_cons.1 mem with he | mem
    · exact absurd (congrArg Event.call he) (by simp)
    · exact ih mem
  | failedBefore _ _ ih =>
    rcases List.mem_cons.1 mem with he | mem
    · exact absurd (congrArg Event.call he) (by simp)
    · exact ih mem
  | endedAfter _ _ ih =>
    rcases List.mem_cons.1 mem with he | mem
    · exact absurd (congrArg Event.call he) (by simp)
    · exact ih mem
  | timer _ ih =>
    rcases List.mem_cons.1 mem with he | mem
    · cases he
    · exact ih mem
  | noticed _ ih =>
    rcases List.mem_cons.1 mem with he | mem
    · cases he
      rfl
    · exact ih mem
  | detached hd _ ih =>
    rcases List.mem_cons.1 mem with rfl | mem
    · exact absurd hd (by simp [WorkerCall.isDetached])
    · exact ih mem

/-! ## Handing a message back -/

/-- The calls that end the processing of an event for good. -/
def WorkerCall.isFinal : WorkerCall → Bool
  | .recordPasswordSyncFailure _ => true
  | .markFailed _ _ => true
  | .completeMessage _ => true
  | _ => false

/-- No dead-letter entry, no failed status, no completion: the message is abandoned. -/
structure HandedBack (msg : Option MessagePtr) (τ : List WorkerEvent) : Prop where
  open_end : ∀ e ∈ τ, e.call.isFinal = false
  abandoned : ∃ r, .abandoned msg r ∈ τ

/-- A backoff wait returns the error of the context. -/
def NoticedInBackoff (τ : List WorkerEvent) : Prop := ∃ delay, .slept delay (some .canceled) ∈ τ

/-- A wait that returned an error. -/
def WorkerEvent.isCutShort : WorkerEvent → Bool
  | ⟨.sleep _, r⟩ => (r : Option Err).isSome
  | _ => false

theorem WorkerEvent.isCutShort_iff {e : WorkerEvent} :
    e.isCutShort = true ↔ ∃ delay err, e = .slept delay (some err) := by
  constructor
  · intro h
    obtain ⟨c, r⟩ := e
    cases c with
    | sleep delay =>
      obtain ⟨err, rfl⟩ := Option.isSome_iff_exists.1 h
      exact ⟨delay, err, rfl⟩
    | _ => exact absurd h Bool.false_ne_true
  · rintro ⟨delay, err, rfl⟩
    rfl

theorem Reports.not_final {τ : List WorkerEvent} (h : Reports τ) {e : WorkerEvent} (he : e ∈ τ) :
    e.call.isFinal = false := by
  have checked : ∀ c : WorkerCall, c.isReport = true → c.isFinal = false := by
    intro c hc
    cases c <;> first | rfl | exact absurd hc Bool.false_ne_true
  exact checked e.call (h e he)

theorem AttemptCall.not_final {m : PasswordSyncMessage} {c : WorkerCall} (h : AttemptCall m c) :
    c.isFinal = false := by
  cases h <;> rfl

section Attempts

variable {m : PasswordSyncMessage} {backoffs : List ℤ} {n : ℕ} {τ : List WorkerEvent}
  {result : ProcessorResult}

/-- The attempts end with a canceled retry exactly if a backoff wait failed. -/
theorem AttemptRun.retryCanceled_eq (h : AttemptRun m backoffs n τ result) :
    τ.any WorkerEvent.isCutShort = result.retryCanceled := by
  induction h with
  | retried delay plaintext hp rest ih =>
    rw [← ih]
    rfl
  | _ => rfl

theorem AttemptRun.err_ne_none (h : AttemptRun m backoffs n τ result)
    (canceled : result.retryCanceled = true) : result.err ≠ none := by
  induction h with
  | retried delay plaintext hp rest ih => exact ih canceled
  | synced => exact absurd canceled (by simp)
  | _ => simp

end Attempts

/-- A processing that was canceled in a backoff hands the message back; any other one ends it. -/
theorem handedBack_settle {msg : Option MessagePtr} {m : PasswordSyncMessage}
    {result : ProcessorResult} {τ : List WorkerEvent} {r : Option Err}
    (h : Exec (settle msg m result) τ r)
    (failed : result.retryCanceled = true → result.err ≠ none) :
    (result.retryCanceled = true → HandedBack msg τ) ∧
      (result.retryCanceled ≠ true → ∃ e ∈ τ, e.call.isFinal = true) := by
  unfold settle at h
  by_cases hok : result.err = none
  · rw [if_pos hok] at h
    obtain ⟨marked, answer, reports, rfl, -⟩ := exec_settleSynced h
    exact ⟨fun hc => absurd hok (failed hc), fun _ => ⟨.completed msg answer, by simp, rfl⟩⟩
  · rw [if_neg hok] at h
    by_cases hc : result.retryCanceled = true
    · rw [if_pos hc] at h
      obtain ⟨answer, reports, rfl, hreports⟩ := exec_settleCanceled h
      refine ⟨fun _ => ⟨?_, answer, by simp⟩, fun hc' => absurd hc hc'⟩
      simpa [WorkerCall.isFinal] using fun e he => hreports.not_final (e := e) he
    · rw [if_neg hc] at h
      refine ⟨fun hc' => absurd hc' hc, fun _ => ?_⟩
      obtain ⟨t, reports, -, ⟨err, answer, rfl⟩ | ⟨marked, answer, rfl⟩⟩ := exec_settleFailed h
      · exact ⟨.recorded (failureEntry m result t) (some err), by simp, rfl⟩
      · exact ⟨.completed msg answer, by simp, rfl⟩

/-- Whatever the collaborators answer, a message that decodes is handed back exactly if a backoff
wait fails. -/
theorem handedBack_iff {J : Json} {w : Worker} {msg : Option MessagePtr} {m : PasswordSyncMessage}
    {τ : List WorkerEvent} {r : Option Err} (decoded : decodePasswordSyncMessage J msg = .ok m)
    (h : Exec (processMessage J w msg) τ r) :
    HandedBack msg τ ↔ ∃ delay err, .slept delay (some err) ∈ τ := by
  rcases exec_processMessage h with ⟨⟨err, undecoded⟩, -⟩ | ⟨m', result, τ₁, τ₂, -, rfl, h₁, h₂⟩
  · rw [decoded] at undecoded
    exact absurd undecoded (by simp)
  · obtain ⟨hback, hfinal⟩ := handedBack_settle h₂ h₁.err_ne_none
    constructor
    · rintro ⟨hopen, -⟩
      have hc : result.retryCanceled = true := by
        by_contra hc
        obtain ⟨e, he, hef⟩ := hfinal hc
        exact absurd hef (by simp [hopen e (List.mem_append_right τ₁ he)])
      rw [← h₁.retryCanceled_eq, List.any_eq_true] at hc
      obtain ⟨e, mem, he⟩ := hc
      obtain ⟨delay, err, rfl⟩ := WorkerEvent.isCutShort_iff.1 he
      exact ⟨delay, err, List.mem_append_left τ₂ mem⟩
    · rintro ⟨delay, err, mem⟩
      have hmem : .slept delay (some err) ∈ τ₁ := by
        rcases List.mem_append.1 mem with mem | mem
        · exact mem
        · exact absurd (detached_settle h₂ _ mem) (by simp [WorkerCall.isDetached])
      have hc : result.retryCanceled = true := by
        rw [← h₁.retryCanceled_eq, List.any_eq_true]
        exact ⟨_, hmem, rfl⟩
      obtain ⟨hopen, answer, habandoned⟩ := hback hc
      refine ⟨fun e he => ?_, answer, List.mem_append_right τ₁ habandoned⟩
      rcases List.mem_append.1 he with he | he
      · exact (h₁.calls e he).not_final
      · exact hopen e he

/-- A message in hand at a shutdown is handed back for redelivery exactly if a backoff wait notices
the cancellation.  An attempt that succeeds after the cancellation completes the message, which is
then not handed back. -/
theorem abandoned_iff_noticed {J : Json} {w : Worker} {codec : Codec} {msg : Option MessagePtr}
    {m : PasswordSyncMessage} {τ : List WorkerEvent} {r : Option Err}
    (decoded : decodePasswordSyncMessage J msg = .ok m) (h : Exec (processMessage J w msg) τ r)
    (shutdown : UnderShutdown codec w.retryBackoffs.length false τ) :
    HandedBack msg τ ↔ NoticedInBackoff τ := by
  rw [handedBack_iff decoded h]
  constructor
  · rintro ⟨delay, err, mem⟩
    obtain rfl := shutdown.sleepErr mem
    exact ⟨delay, mem⟩
  · rintro ⟨delay, mem⟩
    exact ⟨delay, .canceled, mem⟩

/-! ## A message at a shutdown -/

/-- The run context is canceled before the first `Decrypt`. -/
def canceledBeforeDecrypt (ptr : MessagePtr) : List WorkerEvent :=
  [.decrypted (envelopeOf sampleMessage) sampleAAD (.error .canceled), .zeroedBody (some ptr),
    .read sampleReading.utc,
    .recorded (failureEntry sampleMessage ⟨none, 1, true, false⟩ sampleReading.utc) none,
    .markedFailed "b11001@example.edu" sampleReading.utc none, .completed (some ptr) none]

/-- The run context is canceled in the first backoff. -/
def canceledInBackoff (ptr : MessagePtr) : List WorkerEvent :=
  [.decrypted (envelopeOf sampleMessage) sampleAAD (.ok [112]),
    .processed (commandOf sampleMessage [112]) (some (.new "timeout")), .zeroedPlaintext,
    .slept second (some .canceled), .zeroedBody (some ptr), .abandoned (some ptr) none]

/-- Canceled before the first `Decrypt`, a message that would decrypt is recorded as a permanent
failure, marked failed and completed. -/
theorem deadLettered_at_shutdown : ∃ ptr reports,
    decodePasswordSyncMessage .flat (some ptr) = .ok sampleMessage ∧
    sampleCodec.decrypt none (envelopeOf sampleMessage) sampleAAD = some (.ok [112]) ∧
    Exec (processMessage .flat (newWorker 1 0 0 []) (some ptr))
      (canceledBeforeDecrypt ptr ++ reports) none ∧
    UnderShutdown sampleCodec 3 false (canceledBeforeDecrypt ptr ++ reports) ∧
    ¬ HandedBack (some ptr) (canceledBeforeDecrypt ptr ++ reports) := by
  obtain ⟨ptr, hptr⟩ := decode_sampleMessage
  obtain ⟨metric, log, hrun, hmetric, hlog⟩ : ∃ metric log : WorkerEvent,
      Exec (processMessage .flat (newWorker 1 0 0 []) (some ptr))
        (canceledBeforeDecrypt ptr ++ [metric, log]) none ∧
        metric.call.isDetached = true ∧ log.call.isDetached = true := by
    rw [processMessage, hptr]
    exact ⟨_, _, .call _ _ _ <| .call _ _ _ <| .call _ _ _ <| .call _ _ _ <| .call _ _ _ <|
      .call _ _ _ <| .call _ _ () <| .call _ _ () <| .refl _, rfl, rfl⟩
  refine ⟨ptr, [metric, log], hptr, decrypt_sampleMessage, hrun, ?_, fun hback => ?_⟩
  · -- nothing after `Decrypt` depends on the run context
    refine .cancel (.decrypt rfl ?_)
    exact .detached rfl <| .detached rfl <| .detached rfl <| .detached rfl <| .detached rfl <|
      .detached hmetric <| .detached hlog <| .nil _ _
  · have hopen := hback.open_end (.completed (some ptr) none) (by simp [canceledBeforeDecrypt])
    exact absurd hopen (by simp [WorkerCall.isFinal])

/-- Canceled in the first backoff, the message is handed back. -/
theorem abandoned_iff_noticed_backoff : ∃ ptr reports,
    Exec (processMessage .flat (newWorker 1 0 0 []) (some ptr))
      (canceledInBackoff ptr ++ reports) none ∧
    UnderShutdown sampleCodec 3 false (canceledInBackoff ptr ++ reports) ∧
    HandedBack (some ptr) (canceledInBackoff ptr ++ reports) := by
  obtain ⟨ptr, hptr⟩ := decode_sampleMessage
  obtain ⟨metric, log, hrun, hmetric, hlog⟩ : ∃ metric log : WorkerEvent,
      Exec (processMessage .flat (newWorker 1 0 0 []) (some ptr))
        (canceledInBackoff ptr ++ [metric, log]) none ∧
        metric.call.isDetached = true ∧ log.call.isDetached = true := by
    rw [processMessage, hptr]
    exact ⟨_, _, .call _ _ _ <| .call _ _ _ <| .call _ _ _ <| .call _ _ _ <| .call _ _ _ <|
      .call _ _ _ <| .call _ _ () <| .call _ _ () <| .refl _, rfl, rfl⟩
  have hshutdown : UnderShutdown sampleCodec 3 false (canceledInBackoff ptr ++ [metric, log]) := by
    refine .decrypt decrypt_sampleMessage (.failedBefore rfl (.detached rfl (.noticed ?_)))
    exact .detached rfl <| .detached rfl <| .detached hmetric <| .detached hlog <| .nil _ _
  exact ⟨ptr, _, hrun, hshutdown, (abandoned_iff_noticed hptr hrun hshutdown).2
    ⟨second, by simp [canceledInBackoff]⟩⟩

end PasswordHook
