import PasswordHook.Worker.Process

/-!
# Runs of the worker

What the traces of `processMessage` look like.  The attempts at one message are an inductive
relation, `AttemptRun`, with one constructor for each way an attempt can go; the five ways to settle
a message are read off their programs.
-/

namespace PasswordHook

open Prog

namespace WorkerEvent

def decrypted (env : Envelope) (aad : Bytes) (r : Except Err Bytes) : WorkerEvent :=
  ⟨.decrypt env aad, r⟩

def processed (cmd : PasswordSyncCommand) (r : Option Err) : WorkerEvent :=
  ⟨.processPasswordSync cmd, r⟩

def slept (delay : ℤ) (r : Option Err) : WorkerEvent := ⟨.sleep delay, r⟩

def read (t : Time) : WorkerEvent := ⟨.now, t⟩

def zeroedPlaintext : WorkerEvent := ⟨.zeroPlaintext, ()⟩

def zeroedBody (msg : Option MessagePtr) : WorkerEvent := ⟨.zeroBody msg, ()⟩

def recorded (entry : DeadLetterEntry) (r : Option Err) : WorkerEvent :=
  ⟨.recordPasswordSyncFailure entry, r⟩

def markedSynced (upn : String) (t : Time) (r : Option Err) : WorkerEvent := ⟨.markSynced upn t, r⟩

def markedFailed (upn : String) (t : Time) (r : Option Err) : WorkerEvent := ⟨.markFailed upn t, r⟩

def completed (msg : Option MessagePtr) (r : Option Err) : WorkerEvent := ⟨.completeMessage msg, r⟩

def abandoned (msg : Option MessagePtr) (r : Option Err) : WorkerEvent := ⟨.abandonMessage msg, r⟩

@[simp] theorem call_decrypted (env : Envelope) (aad : Bytes) (r : Except Err Bytes) :
    (decrypted env aad r).call = .decrypt env aad := rfl

@[simp] theorem call_processed (cmd : PasswordSyncCommand) (r : Option Err) :
    (processed cmd r).call = .processPasswordSync cmd := rfl

@[simp] theorem call_slept (delay : ℤ) (r : Option Err) : (slept delay r).call = .sleep delay := rfl

@[simp] theorem call_read (t : Time) : (read t).call = .now := rfl

@[simp] theorem call_zeroedPlaintext : zeroedPlaintext.call = .zeroPlaintext := rfl

@[simp] theorem call_zeroedBody (msg : Option MessagePtr) :
    (zeroedBody msg).call = .zeroBody msg := rfl

@[simp] theorem call_recorded (entry : DeadLetterEntry) (r : Option Err) :
    (recorded entry r).call = .recordPasswordSyncFailure entry := rfl

@[simp] theorem call_markedSynced (upn : String) (t : Time) (r : Option Err) :
    (markedSynced upn t r).call = .markSynced upn t := rfl

@[simp] theorem call_markedFailed (upn : String) (t : Time) (r : Option Err) :
    (markedFailed upn t r).call = .markFailed upn t := rfl

@[simp] theorem call_completed (msg : Option MessagePtr) (r : Option Err) :
    (completed msg r).call = .completeMessage msg := rfl

@[simp] theorem call_abandoned (msg : Option MessagePtr) (r : Option Err) :
    (abandoned msg r).call = .abandonMessage msg := rfl

end WorkerEvent

/-! ## Attempts -/

/-- The runs of the retry loop from attempt `n` on, with the backoffs that are left. -/
inductive AttemptRun (m : PasswordSyncMessage) :
    List ℤ → ℕ → List WorkerEvent → ProcessorResult → Prop
  | undecryptable (backoffs : List ℤ) (n : ℕ) (err : Err) :
      AttemptRun m backoffs n
        [.decrypted (envelopeOf m) (passwordAAD m.cn m.upn m.enqueuedAt) (.error err)]
        ⟨some (.permanent deadLetterReasonPermanentProcessor err), n, true, false⟩
  | synced (backoffs : List ℤ) (n : ℕ) (plaintext : Bytes) :
      AttemptRun m backoffs n
        [.decrypted (envelopeOf m) (passwordAAD m.cn m.upn m.enqueuedAt) (.ok plaintext),
          .processed (commandOf m plaintext) none, .zeroedPlaintext]
        ⟨none, n, false, false⟩
  | permanent (backoffs : List ℤ) (n : ℕ) (plaintext : Bytes) {err permanentErr : Err}
      (h : err.asPermanent = some permanentErr) :
      AttemptRun m backoffs n
        [.decrypted (envelopeOf m) (passwordAAD m.cn m.upn m.enqueuedAt) (.ok plaintext),
          .processed (commandOf m plaintext) (some err), .zeroedPlaintext]
        ⟨some permanentErr, n, true, false⟩
  | exhausted (n : ℕ) (plaintext : Bytes) {err : Err} (h : err.asPermanent = none) :
      AttemptRun m [] n
        [.decrypted (envelopeOf m) (passwordAAD m.cn m.upn m.enqueuedAt) (.ok plaintext),
          .processed (commandOf m plaintext) (some err), .zeroedPlaintext]
        ⟨some err, n, false, false⟩
  | canceled (delay : ℤ) (backoffs : List ℤ) (n : ℕ) (plaintext : Bytes) {err : Err}
      (h : err.asPermanent = none) (sleepErr : Err) :
      AttemptRun m (delay :: backoffs) n
        [.decrypted (envelopeOf m) (passwordAAD m.cn m.upn m.enqueuedAt) (.ok plaintext),
          .processed (commandOf m plaintext) (some err), .zeroedPlaintext,
          .slept delay (some sleepErr)]
        ⟨some sleepErr, n, false, true⟩
  | retried (delay : ℤ) {backoffs : List ℤ} {n : ℕ} (plaintext : Bytes) {err : Err}
      (h : err.asPermanent = none) {τ : List WorkerEvent} {result : ProcessorResult}
      (rest : AttemptRun m backoffs (n + 1) τ result) :
      AttemptRun m (delay :: backoffs) n
        (.decrypted (envelopeOf m) (passwordAAD m.cn m.upn m.enqueuedAt) (.ok plaintext) ::
          .processed (commandOf m plaintext) (some err) :: .zeroedPlaintext ::
          .slept delay none :: τ)
        result

/-- The calls of the attempts at a message. -/
inductive AttemptCall (m : PasswordSyncMessage) : WorkerCall → Prop
  | decrypt : AttemptCall m (.decrypt (envelopeOf m) (passwordAAD m.cn m.upn m.enqueuedAt))
  | processPasswordSync (plaintext : Bytes) :
      AttemptCall m (.processPasswordSync (commandOf m plaintext))
  | zeroPlaintext : AttemptCall m .zeroPlaintext
  | sleep (delay : ℤ) : AttemptCall m (.sleep delay)

theorem AttemptRun.calls {m : PasswordSyncMessage} {backoffs : List ℤ} {n : ℕ}
    {τ : List WorkerEvent} {result : ProcessorResult} (h : AttemptRun m backoffs n τ result) :
    ∀ e ∈ τ, AttemptCall m e.call := by
  induction h with
  | retried delay plaintext hp rest ih =>
    simpa using ⟨.decrypt, .processPasswordSync plaintext, .zeroPlaintext, .sleep delay, ih⟩
  | canceled delay backoffs n plaintext hp sleepErr =>
    simpa using ⟨.decrypt, .processPasswordSync plaintext, .zeroPlaintext, .sleep delay⟩
  | undecryptable => simpa using .decrypt
  | synced backoffs n plaintext =>
    simpa using ⟨.decrypt, .processPasswordSync plaintext, .zeroPlaintext⟩
  | permanent backoffs n plaintext hp =>
    simpa using ⟨.decrypt, .processPasswordSync plaintext, .zeroPlaintext⟩
  | exhausted n plaintext hp =>
    simpa using ⟨.decrypt, .processPasswordSync plaintext, .zeroPlaintext⟩

variable {J : Json} {w : Worker} {msg : Option MessagePtr} {m : PasswordSyncMessage}
  {τ : List WorkerEvent}

/-- One pass through the loop: it ends the processing, or goes on after a transient error. -/
theorem exec_attemptOnce {n : ℕ} {transient : Err → WorkerProg ProcessorResult}
    {result : ProcessorResult} (backoffs : List ℤ) (h : Exec (attemptOnce m n transient) τ result) :
    AttemptRun m backoffs n τ result ∨ ∃ plaintext err τ', err.asPermanent = none ∧
      τ = .decrypted (envelopeOf m) (passwordAAD m.cn m.upn m.enqueuedAt) (.ok plaintext) ::
        .processed (commandOf m plaintext) (some err) :: .zeroedPlaintext :: τ' ∧
      Exec (transient err) τ' result := by
  obtain ⟨answer, τ₁, rfl, h₁⟩ := exec_call_iff.1 h
  cases answer with
  | error err =>
    obtain ⟨rfl, rfl⟩ := exec_ret_iff.1 h₁
    exact .inl (.undecryptable backoffs n err)
  | ok plaintext =>
    obtain ⟨answer, τ₂, rfl, h₂⟩ := exec_call_iff.1 h₁
    obtain ⟨⟨⟩, τ₃, rfl, h₃⟩ := exec_call_iff.1 h₂
    cases answer with
    | none =>
      obtain ⟨rfl, rfl⟩ := exec_ret_iff.1 h₃
      exact .inl (.synced backoffs n plaintext)
    | some err =>
      have hend : Exec (attemptEnd n transient (some err)) τ₃ result := h₃
      simp only [attemptEnd] at hend
      cases hp : err.asPermanent with
      | some permanentErr =>
        rw [hp] at hend
        obtain ⟨rfl, rfl⟩ := exec_ret_iff.1 hend
        exact .inl (.permanent backoffs n plaintext hp)
      | none =>
        rw [hp] at hend
        exact .inr ⟨plaintext, err, τ₃, hp, rfl, hend⟩

theorem exec_attemptPasswordSync {backoffs : List ℤ} {n : ℕ} {result : ProcessorResult}
    (h : Exec (attemptPasswordSync m backoffs n) τ result) : AttemptRun m backoffs n τ result := by
  induction backoffs generalizing n τ with
  | nil =>
    rcases exec_attemptOnce [] h with hrun | ⟨plaintext, err, τ', hp, rfl, h'⟩
    · exact hrun
    · obtain ⟨rfl, rfl⟩ := exec_ret_iff.1 h'
      exact .exhausted n plaintext hp
  | cons delay backoffs ih =>
    rcases exec_attemptOnce (delay :: backoffs) h with hrun | ⟨plaintext, err, τ', hp, rfl, h'⟩
    · exact hrun
    · obtain ⟨answer, τ'', rfl, h''⟩ := exec_call_iff.1 h'
      cases answer with
      | some sleepErr =>
        obtain ⟨rfl, rfl⟩ := exec_ret_iff.1 h''
        exact .canceled delay backoffs n plaintext hp sleepErr
      | none => exact .retried delay plaintext hp (ih h'')

/-! ## Settling -/

/-- Metrics and logs. -/
def WorkerCall.isReport : WorkerCall → Bool
  | .inc _ _ => true
  | .logAttrs _ _ => true
  | _ => false

def Reports (τ : List WorkerEvent) : Prop := ∀ e ∈ τ, e.call.isReport = true

theorem reports_nil : Reports [] := fun _ h => absurd h List.not_mem_nil

theorem exec_recordOutcome {action outcome reason : String} {n : ℕ} {ok r : Option Err}
    (h : Exec ((recordOutcome action m outcome reason n).bind fun _ => .ret ok) τ r) :
    Reports τ := by
  obtain ⟨⟨⟩, τ₁, rfl, h₁⟩ := exec_call_iff.1 h
  obtain ⟨⟨⟩, τ₂, rfl, h₂⟩ := exec_call_iff.1 h₁
  obtain ⟨rfl, -⟩ := exec_ret_iff.1 h₂
  intro e he
  simp only [List.mem_cons, List.not_mem_nil, or_false] at he
  rcases he with rfl | rfl <;> rfl

theorem exec_abandonAfterDeadLetterFailure {operation : String} {err : Err} {n : ℕ}
    {r : Option Err} (h : Exec (abandonAfterDeadLetterFailure msg operation err m n) τ r) :
    ∃ answer reports, τ = .abandoned msg answer :: reports ∧ Reports reports := by
  obtain ⟨answer, τ₁, rfl, h₁⟩ := exec_call_iff.1 h
  refine ⟨answer, τ₁, rfl, ?_⟩
  cases answer with
  | some abandonErr =>
    obtain ⟨rfl, -⟩ := exec_ret_iff.1 h₁
    exact reports_nil
  | none => exact exec_recordOutcome h₁

theorem exec_settleSynced {n : ℕ} {r : Option Err} (h : Exec (settleSynced msg m n) τ r) :
    ∃ marked answer reports, τ = .zeroedBody msg :: .markedSynced m.upn m.enqueuedAt marked ::
      .completed msg answer :: reports ∧ Reports reports := by
  obtain ⟨⟨⟩, τ₁, rfl, h₁⟩ := exec_call_iff.1 h
  obtain ⟨marked, τ₂, rfl, h₂⟩ := exec_call_iff.1 h₁
  obtain ⟨answer, τ₃, rfl, h₃⟩ := exec_call_iff.1 h₂
  refine ⟨marked, answer, τ₃, rfl, ?_⟩
  cases answer with
  | some settleErr =>
    obtain ⟨rfl, -⟩ := exec_ret_iff.1 h₃
    exact reports_nil
  | none => exact exec_recordOutcome h₃

theorem exec_settleCanceled {n : ℕ} {r : Option Err} (h : Exec (settleCanceled msg m n) τ r) :
    ∃ answer reports, τ = .zeroedBody msg :: .abandoned msg answer :: reports ∧
      Reports reports := by
  obtain ⟨⟨⟩, τ₁, rfl, h₁⟩ := exec_call_iff.1 h
  obtain ⟨answer, τ₂, rfl, h₂⟩ := exec_call_iff.1 h₁
  refine ⟨answer, τ₂, rfl, ?_⟩
  cases answer with
  | some settleErr =>
    obtain ⟨rfl, -⟩ := exec_ret_iff.1 h₂
    exact reports_nil
  | none => exact exec_recordOutcome h₂

theorem exec_settleFailed {result : ProcessorResult} {r : Option Err}
    (h : Exec (settleFailed msg m result) τ r) :
    ∃ t reports, Reports reports ∧
      ((∃ err answer, τ = .zeroedBody msg :: .read t ::
          .recorded (failureEntry m result t) (some err) :: .abandoned msg answer :: reports) ∨
        ∃ marked answer, τ = .zeroedBody msg :: .read t ::
          .recorded (failureEntry m result t) none :: .markedFailed m.upn m.enqueuedAt marked ::
          .completed msg answer :: reports) := by
  obtain ⟨⟨⟩, τ₁, rfl, h₁⟩ := exec_call_iff.1 h
  obtain ⟨t, τ₂, rfl, h₂⟩ := exec_call_iff.1 h₁
  obtain ⟨answer, τ₃, rfl, h₃⟩ := exec_call_iff.1 h₂
  cases answer with
  | some err =>
    obtain ⟨answer, reports, rfl, hreports⟩ := exec_abandonAfterDeadLetterFailure h₃
    exact ⟨t, reports, hreports, .inl ⟨err, answer, rfl⟩⟩
  | none =>
    obtain ⟨marked, τ₄, rfl, h₄⟩ := exec_call_iff.1 h₃
    obtain ⟨answer, τ₅, rfl, h₅⟩ := exec_call_iff.1 h₄
    refine ⟨t, τ₅, ?_, .inr ⟨marked, answer, rfl⟩⟩
    cases answer with
    | some settleErr =>
      obtain ⟨rfl, -⟩ := exec_ret_iff.1 h₅
      exact reports_nil
    | none => exact exec_recordOutcome h₅

theorem exec_settleInvalid {r : Option Err} (h : Exec (settleInvalid J msg) τ r) :
    ∃ t reports, Reports reports ∧
      ((∃ err answer, τ = .read t :: .zeroedBody msg ::
          .recorded (invalidMessageDeadLetterEntry J msg t) (some err) ::
          .abandoned msg answer :: reports) ∨
        ∃ answer, τ = .read t :: .zeroedBody msg ::
          .recorded (invalidMessageDeadLetterEntry J msg t) none ::
          .completed msg answer :: reports) := by
  obtain ⟨t, τ₁, rfl, h₁⟩ := exec_call_iff.1 h
  obtain ⟨⟨⟩, τ₂, rfl, h₂⟩ := exec_call_iff.1 h₁
  obtain ⟨answer, τ₃, rfl, h₃⟩ := exec_call_iff.1 h₂
  cases answer with
  | some err =>
    obtain ⟨answer, reports, rfl, hreports⟩ := exec_abandonAfterDeadLetterFailure h₃
    exact ⟨t, reports, hreports, .inl ⟨err, answer, rfl⟩⟩
  | none =>
    obtain ⟨answer, τ₄, rfl, h₄⟩ := exec_call_iff.1 h₃
    refine ⟨t, τ₄, ?_, .inr ⟨answer, rfl⟩⟩
    cases answer with
    | some settleErr =>
      obtain ⟨rfl, -⟩ := exec_ret_iff.1 h₄
      exact reports_nil
    | none => exact exec_recordOutcome h₄

/-- The calls that do not depend on the run context: all but those of the attempts. -/
def WorkerCall.isDetached : WorkerCall → Bool
  | .decrypt _ _ => false
  | .processPasswordSync _ => false
  | .sleep _ => false
  | _ => true

theorem Reports.detached (h : Reports τ) : ∀ e ∈ τ, e.call.isDetached = true := by
  have checked : ∀ c : WorkerCall, c.isReport = true → c.isDetached = true := by
    intro c hc
    cases c <;> first | rfl | exact absurd hc Bool.false_ne_true
  exact fun e he => checked e.call (h e he)

theorem detached_settleInvalid {r : Option Err} (h : Exec (settleInvalid J msg) τ r) :
    ∀ e ∈ τ, e.call.isDetached = true := by
  obtain ⟨t, reports, hreports, ⟨err, answer, rfl⟩ | ⟨answer, rfl⟩⟩ := exec_settleInvalid h <;>
    simpa [WorkerCall.isDetached] using hreports.detached

theorem detached_settle {result : ProcessorResult} {r : Option Err}
    (h : Exec (settle msg m result) τ r) : ∀ e ∈ τ, e.call.isDetached = true := by
  unfold settle at h
  split_ifs at h
  · obtain ⟨marked, answer, reports, rfl, hreports⟩ := exec_settleSynced h
    simpa [WorkerCall.isDetached] using hreports.detached
  · obtain ⟨answer, reports, rfl, hreports⟩ := exec_settleCanceled h
    simpa [WorkerCall.isDetached] using hreports.detached
  · obtain ⟨t, reports, hreports, ⟨err, answer, rfl⟩ | ⟨marked, answer, rfl⟩⟩ :=
      exec_settleFailed h <;> simpa [WorkerCall.isDetached] using hreports.detached

/-- The account and stamp of a status write. -/
def WorkerCall.markOf : WorkerCall → Option (String × Time)
  | .markSynced upn t => some (upn, t)
  | .markFailed upn t => some (upn, t)
  | _ => none

theorem Reports.markOf (h : Reports τ) : ∀ e ∈ τ, e.call.markOf = none := by
  have checked : ∀ c : WorkerCall, c.isReport = true → c.markOf = none := by
    intro c hc
    cases c <;> first | rfl | exact absurd hc Bool.false_ne_true
  exact fun e he => checked e.call (h e he)

theorem AttemptCall.markOf {c : WorkerCall} (h : AttemptCall m c) : c.markOf = none := by
  cases h <;> rfl

theorem markOf_settleInvalid {r : Option Err} (h : Exec (settleInvalid J msg) τ r) :
    ∀ e ∈ τ, e.call.markOf = none := by
  obtain ⟨t, reports, hreports, ⟨err, answer, rfl⟩ | ⟨answer, rfl⟩⟩ := exec_settleInvalid h <;>
    simpa [WorkerCall.markOf] using hreports.markOf

/-- The status writes are for the account and the stamp of the message. -/
theorem markOf_settle {result : ProcessorResult} {r : Option Err}
    (h : Exec (settle msg m result) τ r) :
    ∀ e ∈ τ, ∀ mark, e.call.markOf = some mark → mark = (m.upn, m.enqueuedAt) := by
  have hlist : ∀ {l reports : List WorkerEvent}, Reports reports →
      (∀ e ∈ l, ∀ mark, e.call.markOf = some mark → mark = (m.upn, m.enqueuedAt)) →
      ∀ e ∈ l ++ reports, ∀ mark, e.call.markOf = some mark → mark = (m.upn, m.enqueuedAt) := by
    intro l reports hreports hl e he mark hmark
    rcases List.mem_append.1 he with he | he
    · exact hl e he mark hmark
    · rw [hreports.markOf e he] at hmark
      exact absurd hmark (by simp)
  unfold settle at h
  split_ifs at h
  · obtain ⟨marked, answer, reports, rfl, hreports⟩ := exec_settleSynced h
    exact hlist (l := [_, _, _]) hreports (by simp [WorkerCall.markOf])
  · obtain ⟨answer, reports, rfl, hreports⟩ := exec_settleCanceled h
    exact hlist (l := [_, _]) hreports (by simp [WorkerCall.markOf])
  · obtain ⟨t, reports, hreports, ⟨err, answer, rfl⟩ | ⟨marked, answer, rfl⟩⟩ := exec_settleFailed h
    · exact hlist (l := [_, _, _, _]) hreports (by simp [WorkerCall.markOf])
    · exact hlist (l := [_, _, _, _, _]) hreports (by simp [WorkerCall.markOf])

/-- A message that does not decode is settled at once; one that does is attempted, then settled
according to the result. -/
theorem exec_processMessage {r : Option Err} (h : Exec (processMessage J w msg) τ r) :
    ((∃ err, decodePasswordSyncMessage J msg = .error err) ∧ Exec (settleInvalid J msg) τ r) ∨
      ∃ m result τ₁ τ₂, decodePasswordSyncMessage J msg = .ok m ∧ τ = τ₁ ++ τ₂ ∧
        AttemptRun m w.retryBackoffs 1 τ₁ result ∧ Exec (settle msg m result) τ₂ r := by
  unfold processMessage at h
  cases hd : decodePasswordSyncMessage J msg with
  | error err =>
    rw [hd] at h
    exact .inl ⟨⟨err, rfl⟩, h⟩
  | ok m =>
    rw [hd] at h
    obtain ⟨result, τ₁, τ₂, rfl, h₁, h₂⟩ := exec_bind_iff.1 h
    exact .inr ⟨m, result, τ₁, τ₂, rfl, rfl, exec_attemptPasswordSync h₁, h₂⟩

/-- All status writes of a processing are for the account and the stamp of the decoded message. -/
theorem markOf_processMessage {r : Option Err} (h : Exec (processMessage J w msg) τ r)
    {e : WorkerEvent} (he : e ∈ τ) {mark : String × Time} (hmark : e.call.markOf = some mark) :
    ∃ m, decodePasswordSyncMessage J msg = .ok m ∧ mark = (m.upn, m.enqueuedAt) := by
  rcases exec_processMessage h with ⟨-, h'⟩ | ⟨m, result, τ₁, τ₂, decoded, rfl, h₁, h₂⟩
  · exact absurd hmark (by simp [markOf_settleInvalid h' e he])
  · rcases List.mem_append.1 he with he | he
    · exact absurd hmark (by simp [(h₁.calls e he).markOf])
    · exact ⟨m, decoded, markOf_settle h₂ e he mark hmark⟩

/-- The attempt calls of a processing are for the decoded message. -/
theorem attemptCall_processMessage {r : Option Err} (h : Exec (processMessage J w msg) τ r)
    {e : WorkerEvent} (he : e ∈ τ) (attempt : e.call.isDetached = false) :
    ∃ m, decodePasswordSyncMessage J msg = .ok m ∧ AttemptCall m e.call := by
  rcases exec_processMessage h with ⟨-, h'⟩ | ⟨m, result, τ₁, τ₂, decoded, rfl, h₁, h₂⟩
  · exact absurd attempt (by simp [detached_settleInvalid h' e he])
  · rcases List.mem_append.1 he with he | he
    · exact ⟨m, decoded, h₁.calls e he⟩
    · exact absurd attempt (by simp [detached_settle h₂ e he])

/-! ## A message -/

/-- A reading of the clock in the zone of the service. -/
def sampleReading : Time := ⟨63900000000 * 10 ^ 9 + 5, 28800⟩

def sampleAAD : Bytes := passwordAAD "b11001" "b11001@example.edu" sampleReading.utc

def sampleMessage : PasswordSyncMessage where
  cn := "b11001"
  upn := "b11001@example.edu"
  eventType := ⟨"password_change"⟩
  traceID := ""
  passwordCiphertext :=
    base64Text (sampleCodec.aead.sealBytes (List.replicate 12 7) [112] sampleAAD)
  passwordNonce := base64Text (List.replicate 12 7)
  passwordKeyID := "k1"
  passwordAlg := algorithmAES256GCM
  displayName := ""
  mail := ""
  enqueuedAt := sampleReading.utc

theorem decrypt_sampleMessage :
    sampleCodec.decrypt none (envelopeOf sampleMessage) sampleAAD = some (.ok [112]) := by
  refine (sampleCodec.decrypt_sealed (by decide) _ _).trans ?_
  rw [sampleCodec.aead.openBytes_sealBytes _ _ _ (by decide)]

theorem decode_sampleMessage : ∃ ptr, decodePasswordSyncMessage .flat (some ptr) =
    .ok sampleMessage := by
  obtain ⟨body, hbody⟩ : ∃ body, sampleMessage.marshal .flat = .ok body :=
    PasswordSyncMessage.exists_marshal .flat rfl (by decide +kernel)
  exact ⟨⟨0, ⟨body, passwordSyncKind⟩⟩, decode_of_marshal rfl rfl hbody (by decide +kernel)⟩

/-! ## A panic in `Decrypt` -/

/-- `Decrypt` panics on a nonce of the wrong length.  The worker has called nothing else then and
calls nothing any more: the message is neither settled nor recorded, and it comes again when its lock
expires. -/
theorem nil_of_nonce_length {codec : Codec} {nonce ciphertext : Bytes}
    {q : WorkerProg (Option Err)} (decoded : decodePasswordSyncMessage J msg = .ok m)
    (alg : m.passwordAlg = algorithmAES256GCM) (keyID : m.passwordKeyID = codec.keyID)
    (decodedNonce : base64Decode m.passwordNonce.toList = some nonce)
    (decodedText : base64Decode m.passwordCiphertext.toList = some ciphertext)
    (length : nonce.length ≠ codec.aead.nonceSize)
    (answered : ∀ env aad r, .decrypted env aad r ∈ τ → codec.decrypt none env aad = some r)
    (steps : Steps (processMessage J w msg) τ q) : τ = [] := by
  have panics : ∀ aad, codec.decrypt none (envelopeOf m) aad = none := fun aad =>
    Codec.decrypt_eq_none_iff.2
      ⟨rfl, alg, keyID, nonce, ciphertext, decodedNonce, decodedText, length⟩
  rw [processMessage, decoded] at steps
  have hfirst : ∃ f, (processPasswordSync w m).bind (settle msg m) = .call (WorkerCall.decrypt
      (envelopeOf m) (passwordAAD m.cn m.upn m.enqueuedAt)) f := by
    rw [processPasswordSync]
    cases w.retryBackoffs <;> exact ⟨_, rfl⟩
  obtain ⟨f, hf⟩ := hfirst
  have steps : Steps ((processPasswordSync w m).bind (settle msg m)) τ q := steps
  rw [hf] at steps
  rcases steps_call_iff.1 steps with ⟨rfl, -⟩ | ⟨r, τ', rfl, -⟩
  · rfl
  · have hanswer := answered _ _ r List.mem_cons_self
    rw [panics] at hanswer
    exact absurd hanswer (by simp)

/-- A message with a nonce of one byte has all its fields and makes `Decrypt` panic. -/
example : missingField { sampleMessage with passwordNonce := base64Text [7] } = none ∧
    sampleCodec.decrypt none
      (envelopeOf { sampleMessage with passwordNonce := base64Text [7] }) sampleAAD = none := by
  decide +kernel

end PasswordHook
