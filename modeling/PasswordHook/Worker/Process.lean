import PasswordHook.Crypto.Codec
import PasswordHook.Lib.Prog
import PasswordHook.Worker.Decode

/-!
# The worker

`Worker.Run` and `Worker.processMessage` of package `worker`, as programs over their collaborators.
A message is decoded, processed with retries, and settled; a message that does not decode or cannot
be processed is recorded in the dead-letter sink first.
-/

namespace PasswordHook

/-- A `Worker`: its options after the defaults of `New`. -/
structure Worker where
  maxMessages : ℤ
  settlementTimeout : ℤ
  emptyReceiveDelay : ℤ
  retryBackoffs : List ℤ
  retryBackoffs_ne : retryBackoffs ≠ []

def defaultSettlementTimeout : ℤ := 10 * second

def defaultEmptyReceiveDelay : ℤ := 250 * millisecond

def defaultRetryBackoffs : List ℤ := [second, 2 * second, 4 * second]

/-- `New` with all collaborators set. -/
def newWorker (maxMessages settlementTimeout emptyReceiveDelay : ℤ) (retryBackoffs : List ℤ) :
    Worker where
  maxMessages := if maxMessages ≤ 0 then 1 else maxMessages
  settlementTimeout := if settlementTimeout ≤ 0 then defaultSettlementTimeout else settlementTimeout
  emptyReceiveDelay := if emptyReceiveDelay ≤ 0 then defaultEmptyReceiveDelay else emptyReceiveDelay
  retryBackoffs := if retryBackoffs = [] then defaultRetryBackoffs else retryBackoffs
  retryBackoffs_ne := by
    split_ifs with h
    · decide
    · exact h

/-- `PasswordSyncCommand` -/
structure PasswordSyncCommand where
  cn : String
  upn : String
  traceID : String
  password : Bytes
  displayName : String
  mail : String
  enqueuedAt : Time
  deriving DecidableEq

/-- The value of a log attribute. -/
inductive AttrValue where
  | string (s : String)
  | int (n : ℤ)
  deriving DecidableEq

/-! ## Calls -/

/-- The calls of a worker. -/
inductive WorkerCall where
  | ctxErr
  | receiveMessages (maxMessages : ℤ)
  | now
  | decrypt (env : Envelope) (aad : Bytes)
  | processPasswordSync (cmd : PasswordSyncCommand)
  | zeroPlaintext
  | sleep (delay : ℤ)
  | zeroBody (msg : Option MessagePtr)
  | recordPasswordSyncFailure (entry : DeadLetterEntry)
  | markSynced (upn : String) (sourceEnqueuedAt : Time)
  | markFailed (upn : String) (sourceEnqueuedAt : Time)
  | completeMessage (msg : Option MessagePtr)
  | abandonMessage (msg : Option MessagePtr)
  | inc (name : String) (labels : List (String × String))
  | logAttrs (action : String) (attrs : List (String × AttrValue))
  deriving DecidableEq

def WorkerCall.Resp : WorkerCall → Type
  | .ctxErr => Option Err
  | .receiveMessages _ => Except Err (List (Option MessagePtr))
  | .now => Time
  | .decrypt _ _ => Except Err Bytes
  | .processPasswordSync _ => Option Err
  | .zeroPlaintext => Unit
  | .sleep _ => Option Err
  | .zeroBody _ => Unit
  | .recordPasswordSyncFailure _ => Option Err
  | .markSynced _ _ => Option Err
  | .markFailed _ _ => Option Err
  | .completeMessage _ => Option Err
  | .abandonMessage _ => Option Err
  | .inc _ _ => Unit
  | .logAttrs _ _ => Unit

def workerInterface : Interface := ⟨WorkerCall, WorkerCall.Resp⟩

abbrev WorkerProg := Prog workerInterface

abbrev WorkerEvent := Event workerInterface

def WorkerCall.perform (c : WorkerCall) : WorkerProg c.Resp := Prog.perform (I := workerInterface) c

theorem worker_resp_nonempty (c : workerInterface.Call) : Nonempty (workerInterface.Resp c) := by
  cases c with
  | ctxErr => exact ⟨(none : Option Err)⟩
  | receiveMessages n => exact ⟨(.error .nil : Except Err (List (Option MessagePtr)))⟩
  | now => exact ⟨Time.zero⟩
  | decrypt env aad => exact ⟨(.error .nil : Except Err Bytes)⟩
  | zeroPlaintext => exact ⟨()⟩
  | zeroBody msg => exact ⟨()⟩
  | inc name labels => exact ⟨()⟩
  | logAttrs action attrs => exact ⟨()⟩
  | _ => exact ⟨(none : Option Err)⟩

/-! ## Outcomes -/

def metricWorkerMessagesTotal : String := "worker_messages_total"

def actionWorkerCompleted : String := "worker_password_sync_completed"

def actionWorkerFailed : String := "worker_password_sync_failed"

def actionWorkerInvalid : String := "worker_message_invalid"

def actionWorkerAbandoned : String := "worker_message_abandoned"

/-- The identity attributes of a message that are not empty. -/
def safeIdentityAttrs (msg : PasswordSyncMessage) : List (String × AttrValue) :=
  ([("traceId", msg.traceID), ("cn", msg.cn), ("upn", msg.upn),
    ("eventType", msg.eventType.text)].filter
    fun a => a.2 ≠ "").map fun a => (a.1, .string a.2)

def recordOutcome (action : String) (msg : PasswordSyncMessage) (outcome reason : String)
    (attempts : ℕ) : WorkerProg Unit := do
  WorkerCall.perform (.inc metricWorkerMessagesTotal
    ([("outcome", outcome)] ++
      (if msg.eventType.text ≠ "" then [("eventType", msg.eventType.text)] else []) ++
      (if reason ≠ "" then [("reason", reason)] else []) ++
      (if 0 < attempts then [("attempts", toString attempts)] else [])))
  WorkerCall.perform (.logAttrs action
    ([("action", .string action), ("outcome", .string outcome)] ++ safeIdentityAttrs msg ++
      (if reason ≠ "" then [("reason", .string reason)] else []) ++
      (if 0 < attempts then [("attempts", .int attempts)] else [])))

/-- `invalidMessageForObservability` -/
def invalidMessageForObservability (entry : DeadLetterEntry) : PasswordSyncMessage :=
  { cn := entry.cn, upn := entry.upn, eventType := ⟨""⟩, traceID := "", passwordCiphertext := "",
    passwordNonce := "", passwordKeyID := "", passwordAlg := "", displayName := "", mail := "",
    enqueuedAt := entry.enqueuedAt }

/-! ## Processing with retries -/

/-- `processorResult` -/
structure ProcessorResult where
  err : Option Err
  attempts : ℕ
  permanent : Bool
  retryCanceled : Bool

def envelopeOf (msg : PasswordSyncMessage) : Envelope :=
  ⟨msg.passwordCiphertext, msg.passwordNonce, msg.passwordKeyID, msg.passwordAlg⟩

def commandOf (msg : PasswordSyncMessage) (plaintext : Bytes) : PasswordSyncCommand :=
  ⟨msg.cn, msg.upn, msg.traceID, plaintext, msg.displayName, msg.mail, msg.enqueuedAt⟩

/-- `processPasswordSyncAttempt`; the plaintext is zeroed when the processor returns. -/
def processPasswordSyncAttempt (msg : PasswordSyncMessage) (plaintext : Bytes) :
    WorkerProg (Option Err) := do
  let err ← WorkerCall.perform (.processPasswordSync (commandOf msg plaintext))
  WorkerCall.perform .zeroPlaintext
  return err

/-- The body of the loop of `processPasswordSync` once the processor has returned, up to the point
where an attempt has failed with an error that is not permanent. -/
def attemptEnd (attempts : ℕ) (transient : Err → WorkerProg ProcessorResult) :
    Option Err → WorkerProg ProcessorResult
  | none => return ⟨none, attempts, false, false⟩
  | some err =>
    match err.asPermanent with
    | some permanentErr => return ⟨some permanentErr, attempts, true, false⟩
    | none => transient err

/-- The body of the loop of `processPasswordSync`. -/
def attemptOnce (msg : PasswordSyncMessage) (attempts : ℕ)
    (transient : Err → WorkerProg ProcessorResult) : WorkerProg ProcessorResult := do
  match ← WorkerCall.perform
      (.decrypt (envelopeOf msg) (passwordAAD msg.cn msg.upn msg.enqueuedAt)) with
  | .error err =>
    return ⟨some (.permanent deadLetterReasonPermanentProcessor err), attempts, true, false⟩
  | .ok plaintext =>
    let err ← processPasswordSyncAttempt msg plaintext
    attemptEnd attempts transient err

/-- The loop of `processPasswordSync`, from attempt number `attempts` on and with the backoffs that
are left. -/
def attemptPasswordSync (msg : PasswordSyncMessage) : List ℤ → ℕ → WorkerProg ProcessorResult
  | [], attempts => attemptOnce msg attempts fun err => return ⟨some err, attempts, false, false⟩
  | delay :: backoffs, attempts =>
    attemptOnce msg attempts fun _ => do
      match ← WorkerCall.perform (.sleep delay) with
      | some sleepErr => return ⟨some sleepErr, attempts, false, true⟩
      | none => attemptPasswordSync msg backoffs (attempts + 1)

def processPasswordSync (w : Worker) (msg : PasswordSyncMessage) : WorkerProg ProcessorResult :=
  attemptPasswordSync msg w.retryBackoffs 1

/-- The same loop with an index into the backoffs, as it is written in Go. -/
def attemptAt (backoffs : List ℤ) (msg : PasswordSyncMessage) (attempts : ℕ) :
    WorkerProg ProcessorResult :=
  attemptOnce msg attempts fun err =>
    if _h : attempts > backoffs.length then return ⟨some err, attempts, false, false⟩
    else do
      match ← WorkerCall.perform (.sleep (backoffs.getD (attempts - 1) 0)) with
      | some sleepErr => return ⟨some sleepErr, attempts, false, true⟩
      | none => attemptAt backoffs msg (attempts + 1)
termination_by backoffs.length + 1 - attempts

theorem attemptAt_eq (backoffs : List ℤ) (msg : PasswordSyncMessage) (n : ℕ) :
    attemptAt backoffs msg (n + 1) = attemptPasswordSync msg (backoffs.drop n) (n + 1) := by
  induction hrest : backoffs.drop n generalizing n with
  | nil =>
    have hlength : n + 1 > backoffs.length := Nat.lt_succ_of_le (List.drop_eq_nil_iff.1 hrest)
    rw [attemptAt, attemptPasswordSync]
    simp only [dif_pos hlength]
  | cons delay rest ih =>
    have hlength : ¬ n + 1 > backoffs.length := by
      have := congrArg List.length hrest
      rw [List.length_drop, List.length_cons] at this
      omega
    have hdelay : backoffs.getD (n + 1 - 1) 0 = delay := by
      have hhead := congrArg List.head? hrest
      rw [List.head?_drop, List.head?_cons] at hhead
      rw [Nat.add_sub_cancel, List.getD_eq_getElem?_getD, hhead, Option.getD_some]
    have htail : backoffs.drop (n + 1) = rest := by
      rw [← List.tail_drop, hrest, List.tail_cons]
    subst hdelay
    rw [attemptAt, attemptPasswordSync]
    simp only [dif_neg hlength, ih (n + 1) htail]
    refine congrArg (attemptOnce msg (n + 1)) (funext fun err => ?_)
    refine congrArg (Prog.bind _) (funext fun (slept : Option Err) => ?_)
    cases slept <;> rfl

/-- `processPasswordSync` indexes the backoffs with the number of the attempt. -/
theorem processPasswordSync_eq (w : Worker) (msg : PasswordSyncMessage) :
    processPasswordSync w msg = attemptAt w.retryBackoffs msg 1 :=
  (attemptAt_eq w.retryBackoffs msg 0).symm

/-! ## Settling -/

def abandonAfterDeadLetterFailure (msg : Option MessagePtr) (operation : String) (err : Err)
    (observedMessage : PasswordSyncMessage) (attempts : ℕ) : WorkerProg (Option Err) := do
  let recordErr := Err.wrap operation err
  match ← WorkerCall.perform (.abandonMessage msg) with
  | some abandonErr =>
    return some (.join recordErr
      (.wrap "abandon worker message after dead-letter failure" abandonErr))
  | none =>
    recordOutcome actionWorkerAbandoned observedMessage "abandoned" "safe_dlq_write_failed" attempts
    return some recordErr

section Settle

variable (J : Json)

/-- `processMessage` for a message that does not decode. -/
def settleInvalid (msg : Option MessagePtr) : WorkerProg (Option Err) := do
  let entry := invalidMessageDeadLetterEntry J msg (← WorkerCall.perform .now)
  WorkerCall.perform (.zeroBody msg)
  let observedMessage := invalidMessageForObservability entry
  match ← WorkerCall.perform (.recordPasswordSyncFailure entry) with
  | some settleErr =>
    abandonAfterDeadLetterFailure msg "record invalid worker message dead-letter" settleErr
      observedMessage 0
  | none =>
    match ← WorkerCall.perform (.completeMessage msg) with
    | some settleErr => return some (.wrap "complete invalid worker message" settleErr)
    | none =>
      recordOutcome actionWorkerInvalid observedMessage "invalid_message"
        deadLetterReasonInvalidMessageSchema 0
      return none

/-- `processMessage` after a successful sync. -/
def settleSynced (msg : Option MessagePtr) (syncMessage : PasswordSyncMessage) (attempts : ℕ) :
    WorkerProg (Option Err) := do
  WorkerCall.perform (.zeroBody msg)
  let _ ← WorkerCall.perform (.markSynced syncMessage.upn syncMessage.enqueuedAt)
  match ← WorkerCall.perform (.completeMessage msg) with
  | some settleErr => return some (.wrap "complete worker message" settleErr)
  | none =>
    recordOutcome actionWorkerCompleted syncMessage "synced" "" attempts
    return none

/-- `processMessage` after a backoff was cut short. -/
def settleCanceled (msg : Option MessagePtr) (syncMessage : PasswordSyncMessage) (attempts : ℕ) :
    WorkerProg (Option Err) := do
  WorkerCall.perform (.zeroBody msg)
  match ← WorkerCall.perform (.abandonMessage msg) with
  | some settleErr => return some (.wrap "abandon worker message" settleErr)
  | none =>
    recordOutcome actionWorkerAbandoned syncMessage "abandoned" "" attempts
    return none

/-- The reason and description of a failed sync. -/
def failureReason (permanent : Bool) : String × String :=
  if permanent then (deadLetterReasonPermanentProcessor, dlqDescriptionPermanentError)
  else (deadLetterReasonTransientRetriesExhausted, dlqDescriptionRetriesExhausted)

def failureEntry (syncMessage : PasswordSyncMessage) (result : ProcessorResult) (failedAt : Time) :
    DeadLetterEntry where
  kind := passwordSyncKind
  cn := syncMessage.cn
  upn := syncMessage.upn
  reason := (failureReason result.permanent).1
  description := (failureReason result.permanent).2
  attempts := result.attempts
  enqueuedAt := syncMessage.enqueuedAt
  failedAt := failedAt

/-- `processMessage` after a failure that is final. -/
def settleFailed (msg : Option MessagePtr) (syncMessage : PasswordSyncMessage)
    (result : ProcessorResult) : WorkerProg (Option Err) := do
  WorkerCall.perform (.zeroBody msg)
  let failedAt ← WorkerCall.perform .now
  match ← WorkerCall.perform
      (.recordPasswordSyncFailure (failureEntry syncMessage result failedAt)) with
  | some settleErr =>
    abandonAfterDeadLetterFailure msg "record worker message dead-letter" settleErr syncMessage
      result.attempts
  | none =>
    let _ ← WorkerCall.perform (.markFailed syncMessage.upn syncMessage.enqueuedAt)
    match ← WorkerCall.perform (.completeMessage msg) with
    | some settleErr => return some (.wrap "complete failed worker message" settleErr)
    | none =>
      recordOutcome actionWorkerFailed syncMessage "sync_failed" (failureReason result.permanent).1
        result.attempts
      return none

/-- `processMessage` once the processing has ended. -/
def settle (msg : Option MessagePtr) (syncMessage : PasswordSyncMessage)
    (result : ProcessorResult) : WorkerProg (Option Err) :=
  if result.err = none then settleSynced msg syncMessage result.attempts
  else if result.retryCanceled then settleCanceled msg syncMessage result.attempts
  else settleFailed msg syncMessage result

variable (w : Worker)

def processMessage (msg : Option MessagePtr) : WorkerProg (Option Err) :=
  match decodePasswordSyncMessage J msg with
  | .error _ => settleInvalid J msg
  | .ok syncMessage => do
    let result ← processPasswordSync w syncMessage
    settle msg syncMessage result

/-! ## `Run` -/

/-- The messages of a batch in turn; the result says whether `Run` returns, and with what. -/
def processBatch : List (Option MessagePtr) → WorkerProg (Option (Option Err))
  | [] => return none
  | msg :: msgs => do
    match ← WorkerCall.perform .ctxErr with
    | some _ => return some none
    | none =>
      match ← processMessage J w msg with
      | some err => return some (some err)
      | none => processBatch msgs

/-- `Run`, for a number of rounds of its loop; `none` when they are used up. -/
def run : ℕ → WorkerProg (Option (Option Err))
  | 0 => return none
  | rounds + 1 => do
    match ← WorkerCall.perform .ctxErr with
    | some _ => return some none
    | none =>
      match ← WorkerCall.perform (.receiveMessages w.maxMessages) with
      | .error err =>
        match ← WorkerCall.perform .ctxErr with
        | some _ => return some none
        | none => return some (some (.wrap "receive worker messages" err))
      | .ok [] =>
        match ← WorkerCall.perform (.sleep w.emptyReceiveDelay) with
        | some _ => return some none
        | none => run rounds
      | .ok (msg :: msgs) =>
        match ← processBatch J w (msg :: msgs) with
        | some result => return some result
        | none => run rounds

end Settle

end PasswordHook
