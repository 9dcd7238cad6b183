import PasswordHook.Lib.Lockstep
import PasswordHook.Worker.Shutdown

/-!
# What the outputs of the worker reveal

Two runs of `processMessage` on messages that differ in the password material only.  The attempts
matter for what follows by how they went and nothing else (`AttemptRun.result_of_outcomes`), and the
settling of the two messages is in lockstep, so the outputs are the same
(`outputs_reveal_nothing`).
-/

namespace PasswordHook

open Prog

/-- How an attempt at a message went. -/
inductive AttemptOutcome where
  | success
  | permanent
  | transient
  deriving DecidableEq

/-- The outcome of an attempt at which the processor returned this. -/
def processorOutcome : Option Err → AttemptOutcome
  | none => .success
  | some err => if err.asPermanent = none then .transient else .permanent

/-- The outcome of the attempt that the event decides. -/
def WorkerEvent.attemptOutcome : WorkerEvent → Option AttemptOutcome
  | ⟨.decrypt _ _, answer⟩ =>
    match (answer : Except Err Bytes) with
    | .error _ => some .permanent
    | .ok _ => none
  | ⟨.processPasswordSync _, answer⟩ => some (processorOutcome answer)
  | _ => none

/-- An answer of the clock, or whether a dead-letter write or a settlement failed. -/
inductive SettlementAnswer where
  | read (t : Time)
  | settled (failed : Bool)
  deriving DecidableEq

def WorkerEvent.settlementAnswer : WorkerEvent → Option SettlementAnswer
  | ⟨.now, t⟩ => some (.read t)
  | ⟨.recordPasswordSyncFailure _, answer⟩ => some (.settled (answer : Option Err).isSome)
  | ⟨.completeMessage _, answer⟩ => some (.settled (answer : Option Err).isSome)
  | ⟨.abandonMessage _, answer⟩ => some (.settled (answer : Option Err).isSome)
  | _ => none

/-- The dead-letter entries, the status writes, the metrics and the logs. -/
def WorkerCall.output : WorkerCall → Option WorkerCall
  | .recordPasswordSyncFailure entry => some (.recordPasswordSyncFailure entry)
  | .markSynced upn t => some (.markSynced upn t)
  | .markFailed upn t => some (.markFailed upn t)
  | .inc name labels => some (.inc name labels)
  | .logAttrs action attrs => some (.logAttrs action attrs)
  | _ => none

def outputs (τ : List WorkerEvent) : List WorkerCall :=
  shown (I := workerInterface) WorkerCall.output τ

def attemptOutcomes (τ : List WorkerEvent) : List AttemptOutcome :=
  told WorkerEvent.attemptOutcome τ

def settlementAnswers (τ : List WorkerEvent) : List SettlementAnswer :=
  told WorkerEvent.settlementAnswer τ

/-- The messages agree on all that is not password material. -/
structure SameIdentity (m m' : PasswordSyncMessage) : Prop where
  cn : m.cn = m'.cn
  upn : m.upn = m'.upn
  enqueuedAt : m.enqueuedAt = m'.enqueuedAt
  traceID : m.traceID = m'.traceID
  eventType : m.eventType = m'.eventType

/-- Two messages of one kind that both decode, or both fail to and have the fields that are kept for
an invalid message; they agree on all that is not password material. -/
inductive SameApartFromPassword (J : Json) (ptr ptr' : MessagePtr) : Prop
  | decoded {m m' : PasswordSyncMessage} (kind : ptr.message.kind = ptr'.message.kind)
      (first : decodePasswordSyncMessage J (some ptr) = .ok m)
      (second : decodePasswordSyncMessage J (some ptr') = .ok m') (same : SameIdentity m m')
  | invalid {err err' : Err} {fields : String × String × Time}
      (kind : ptr.message.kind = ptr'.message.kind)
      (first : decodePasswordSyncMessage J (some ptr) = .error err)
      (second : decodePasswordSyncMessage J (some ptr') = .error err')
      (parsed : partialFields J ptr.message.body = .ok fields)
      (parsed' : partialFields J ptr'.message.body = .ok fields)

/-! ## The attempts -/

/-- The results that are settled in the same way. -/
structure SameResult (result result' : ProcessorResult) : Prop where
  err : result.err = none ↔ result'.err = none
  attempts : result.attempts = result'.attempts
  permanent : result.permanent = result'.permanent
  retryCanceled : result.retryCanceled = result'.retryCanceled

/-- The result that attempts with these outcomes have, with the error left out; the last attempt
decides, and whether a transient failure was the last that could be. -/
structure OutcomeResult (backoffs n : ℕ) (outcomes : List AttemptOutcome)
    (result : ProcessorResult) : Prop where
  err : result.err = none ↔ outcomes.getLast? = some .success
  attempts : result.attempts + 1 = n + outcomes.length
  permanent : result.permanent = (outcomes.getLast? == some .permanent)
  retryCanceled : result.retryCanceled =
    (outcomes.getLast? == some .transient && decide (outcomes.length ≤ backoffs))

theorem OutcomeResult.same {backoffs n : ℕ} {outcomes : List AttemptOutcome}
    {result result' : ProcessorResult} (h : OutcomeResult backoffs n outcomes result)
    (h' : OutcomeResult backoffs n outcomes result') : SameResult result result' where
  err := h.err.trans h'.err.symm
  attempts := by
    have := h.attempts
    have := h'.attempts
    omega
  permanent := h.permanent.trans h'.permanent.symm
  retryCanceled := h.retryCanceled.trans h'.retryCanceled.symm

/-- The result of a last attempt. -/
theorem outcomeResult_single (backoffs n : ℕ) (outcome : AttemptOutcome) {err : Option Err}
    (herr : err = none ↔ outcome = .success) :
    OutcomeResult backoffs n [outcome]
      ⟨err, n, outcome == .permanent, outcome == .transient && decide (1 ≤ backoffs)⟩ where
  err := by simpa using herr
  attempts := rfl
  permanent := by cases outcome <;> rfl
  retryCanceled := by cases outcome <;> rfl

/-- One more attempt before, which was cut short by nothing. -/
theorem OutcomeResult.cons {backoffs n : ℕ} {outcomes : List AttemptOutcome}
    {result : ProcessorResult} (h : OutcomeResult backoffs (n + 1) outcomes result)
    (hne : outcomes ≠ []) (outcome : AttemptOutcome) :
    OutcomeResult (backoffs + 1) n (outcome :: outcomes) result := by
  have hlast : (outcome :: outcomes).getLast? = outcomes.getLast? := by
    rw [List.getLast?_cons_of_ne_nil hne]
  have hattempts := h.attempts
  constructor
  · rw [hlast]
    exact h.err
  · rw [List.length_cons]
    omega
  · rw [hlast]
    exact h.permanent
  · rw [hlast, h.retryCanceled, List.length_cons]
    simp

theorem processorOutcome_transient {err : Err} (h : err.asPermanent = none) :
    processorOutcome (some err) = .transient := by simp [processorOutcome, h]

/-- The run lemma of the attempts: how they went determines the result but for its error. -/
theorem AttemptRun.result_of_outcomes {m : PasswordSyncMessage} {backoffs : List ℤ} {n : ℕ}
    {τ : List WorkerEvent} {result : ProcessorResult} (h : AttemptRun m backoffs n τ result) :
    attemptOutcomes τ ≠ [] ∧ OutcomeResult backoffs.length n (attemptOutcomes τ) result := by
  induction h with
  | undecryptable backoffs n err =>
    exact ⟨List.cons_ne_nil _ _, outcomeResult_single backoffs.length n .permanent (by simp)⟩
  | synced backoffs n plaintext =>
    exact ⟨List.cons_ne_nil _ _, outcomeResult_single backoffs.length n .success (by simp)⟩
  | @permanent backoffs n plaintext err permanentErr hp =>
    have houtcome : processorOutcome (some err) = .permanent := by simp [processorOutcome, hp]
    refine ⟨List.cons_ne_nil _ _, ?_⟩
    show OutcomeResult _ n [processorOutcome (some err)] _
    rw [houtcome]
    exact outcomeResult_single backoffs.length n .permanent (by simp)
  | @exhausted n plaintext err hp =>
    refine ⟨List.cons_ne_nil _ _, ?_⟩
    show OutcomeResult _ n [processorOutcome (some err)] _
    rw [processorOutcome_transient hp]
    exact outcomeResult_single 0 n .transient (by simp)
  | @canceled delay backoffs n plaintext err hp sleepErr =>
    refine ⟨List.cons_ne_nil _ _, ?_⟩
    show OutcomeResult _ n [processorOutcome (some err)] _
    rw [processorOutcome_transient hp]
    exact outcomeResult_single (backoffs.length + 1) n .transient (by simp)
  | retried delay plaintext hp rest ih =>
    exact ⟨List.cons_ne_nil _ _, ih.2.cons ih.1 _⟩

/-- Nothing that an attempt does is an output, and no settlement is part of it. -/
theorem AttemptCall.hidden {m : PasswordSyncMessage} {e : WorkerEvent}
    (h : AttemptCall m e.call) : e.call.output = none ∧ e.settlementAnswer = none := by
  obtain ⟨c, answer⟩ := e
  cases h <;> exact ⟨rfl, rfl⟩

/-- A call outside the attempts decides none. -/
theorem attemptOutcome_of_detached {e : WorkerEvent} (h : e.call.isDetached = true) :
    e.attemptOutcome = none := by
  obtain ⟨c, answer⟩ := e
  cases c with
  | decrypt env aad => cases h
  | processPasswordSync cmd => cases h
  | _ => rfl

/-! ## The settling -/

/-- The two ways to settle look the same. -/
abbrev SettledAlike (p p' : WorkerProg (Option Err)) : Prop :=
  Lockstep (I := workerInterface) WorkerCall.output WorkerEvent.settlementAnswer
    (fun _ _ => True) p p'

/-- A call that nobody is told the answer of. -/
theorem SettledAlike.silent (c c' : WorkerCall) {k : c.Resp → WorkerProg (Option Err)}
    {k' : c'.Resp → WorkerProg (Option Err)} (shown : c.output = c'.output)
    (silent : ∀ r, WorkerEvent.settlementAnswer ⟨c, r⟩ = none)
    (silent' : ∀ r, WorkerEvent.settlementAnswer ⟨c', r⟩ = none)
    (rest : ∀ r r', SettledAlike (k r) (k' r')) : SettledAlike (.call c k) (.call c' k') := by
  apply Lockstep.call shown
  · intro r r'
    rw [silent, silent']
  · intro r r' _
    exact rest r r'

/-- A dead-letter write or a settlement, of which it is told whether it failed. -/
theorem SettledAlike.settled (c c' : WorkerCall) {k : c.Resp → WorkerProg (Option Err)}
    {k' : c'.Resp → WorkerProg (Option Err)} {answer : Option Err → c.Resp}
    {answer' : Option Err → c'.Resp} (shown : c.output = c'.output)
    (onto : answer.Surjective) (onto' : answer'.Surjective)
    (told : ∀ r, WorkerEvent.settlementAnswer ⟨c, answer r⟩ = some (.settled r.isSome))
    (told' : ∀ r, WorkerEvent.settlementAnswer ⟨c', answer' r⟩ = some (.settled r.isSome))
    (failed : ∀ err err', SettledAlike (k (answer (some err))) (k' (answer' (some err'))))
    (done : SettledAlike (k (answer none)) (k' (answer' none))) :
    SettledAlike (.call c k) (.call c' k') := by
  apply Lockstep.call shown
  · intro r r'
    obtain ⟨o, rfl⟩ := onto r
    obtain ⟨o', rfl⟩ := onto' r'
    rw [told, told']
    rfl
  · intro r r' same
    obtain ⟨o, rfl⟩ := onto r
    obtain ⟨o', rfl⟩ := onto' r'
    rw [told, told'] at same
    cases o with
    | none =>
      cases o' with
      | none => exact done
      | some err' => simp at same
    | some err =>
      cases o' with
      | none => simp at same
      | some err' => exact failed err err'

variable {m m' : PasswordSyncMessage}

/-- The reports on a message are about what is not password material. -/
theorem settledAlike_recordOutcome (h : SameIdentity m m') (action outcome reason : String) (n : ℕ)
    (r r' : Option Err) :
    SettledAlike ((recordOutcome action m outcome reason n).bind fun _ => .ret r)
      ((recordOutcome action m' outcome reason n).bind fun _ => .ret r') := by
  have hlabels : recordOutcome action m outcome reason n =
      recordOutcome action m' outcome reason n := by
    unfold recordOutcome safeIdentityAttrs
    rw [h.cn, h.upn, h.traceID, h.eventType]
  rw [hlabels]
  apply SettledAlike.silent _ _ rfl (fun _ => rfl) (fun _ => rfl)
  intro _ _
  apply SettledAlike.silent _ _ rfl (fun _ => rfl) (fun _ => rfl)
  intro _ _
  exact .ret trivial

theorem settledAlike_abandonAfterDeadLetterFailure (h : SameIdentity m m')
    (msg msg' : Option MessagePtr) (operation : String) (err err' : Err) (n : ℕ) :
    SettledAlike (abandonAfterDeadLetterFailure msg operation err m n)
      (abandonAfterDeadLetterFailure msg' operation err' m' n) := by
  apply SettledAlike.settled (.abandonMessage msg) (.abandonMessage msg') rfl
    Function.surjective_id Function.surjective_id (fun _ => rfl) (fun _ => rfl)
  · intro abandonErr abandonErr'
    exact .ret trivial
  · exact settledAlike_recordOutcome h _ _ _ n _ _

theorem settledAlike_settleSynced (h : SameIdentity m m') (msg msg' : Option MessagePtr) (n : ℕ) :
    SettledAlike (settleSynced msg m n) (settleSynced msg' m' n) := by
  apply SettledAlike.silent (.zeroBody msg) (.zeroBody msg') rfl (fun _ => rfl) (fun _ => rfl)
  intro _ _
  rw [h.upn, h.enqueuedAt]
  apply SettledAlike.silent _ _ rfl (fun _ => rfl) (fun _ => rfl)
  intro marked marked'
  apply SettledAlike.settled (.completeMessage msg) (.completeMessage msg') rfl
    Function.surjective_id
    Function.surjective_id (fun _ => rfl) (fun _ => rfl)
  · intro settleErr settleErr'
    exact .ret trivial
  · exact settledAlike_recordOutcome h _ _ _ n _ _

theorem settledAlike_settleCanceled (h : SameIdentity m m') (msg msg' : Option MessagePtr)
    (n : ℕ) : SettledAlike (settleCanceled msg m n) (settleCanceled msg' m' n) := by
  apply SettledAlike.silent (.zeroBody msg) (.zeroBody msg') rfl (fun _ => rfl) (fun _ => rfl)
  intro _ _
  apply SettledAlike.settled (.abandonMessage msg) (.abandonMessage msg') rfl Function.surjective_id
    Function.surjective_id (fun _ => rfl) (fun _ => rfl)
  · intro settleErr settleErr'
    exact .ret trivial
  · exact settledAlike_recordOutcome h _ _ _ n _ _

theorem settledAlike_settleFailed (h : SameIdentity m m') {result result' : ProcessorResult}
    (hresult : SameResult result result') (msg msg' : Option MessagePtr) :
    SettledAlike (settleFailed msg m result) (settleFailed msg' m' result') := by
  obtain ⟨err, n, permanent, canceled⟩ := result
  obtain ⟨err', n', permanent', canceled'⟩ := result'
  obtain ⟨-, rfl, rfl, -⟩ := hresult
  have hentry : ∀ t, failureEntry m ⟨err, n, permanent, canceled⟩ t =
      failureEntry m' ⟨err', n, permanent, canceled'⟩ t := by
    intro t
    simp only [failureEntry, h.cn, h.upn, h.enqueuedAt]
  apply SettledAlike.silent (.zeroBody msg) (.zeroBody msg') rfl (fun _ => rfl) (fun _ => rfl)
  intro _ _
  apply Lockstep.call rfl (fun _ _ => rfl)
  intro t t' same
  obtain rfl : t = t' := SettlementAnswer.read.inj (Option.some.inj same)
  apply SettledAlike.settled (.recordPasswordSyncFailure _) (.recordPasswordSyncFailure _)
    (congrArg (fun entry => some (WorkerCall.recordPasswordSyncFailure entry)) (hentry t))
    Function.surjective_id Function.surjective_id (fun _ => rfl) (fun _ => rfl)
  · intro settleErr settleErr'
    exact settledAlike_abandonAfterDeadLetterFailure h msg msg' _ settleErr settleErr' n
  · apply SettledAlike.silent (.markFailed m.upn m.enqueuedAt) (.markFailed m'.upn m'.enqueuedAt)
      (by rw [h.upn, h.enqueuedAt]) (fun _ => rfl) (fun _ => rfl)
    intro marked marked'
    apply SettledAlike.settled (.completeMessage msg) (.completeMessage msg') rfl
      Function.surjective_id Function.surjective_id (fun _ => rfl) (fun _ => rfl)
    · intro settleErr settleErr'
      exact .ret trivial
    · exact settledAlike_recordOutcome h _ _ _ n _ _

theorem settledAlike_settle (h : SameIdentity m m') {result result' : ProcessorResult}
    (hresult : SameResult result result') (msg msg' : Option MessagePtr) :
    SettledAlike (settle msg m result) (settle msg' m' result') := by
  unfold settle
  rw [← hresult.attempts, ← hresult.retryCanceled]
  by_cases herr : result.err = none
  · rw [if_pos herr, if_pos (hresult.err.1 herr)]
    exact settledAlike_settleSynced h msg msg' result.attempts
  · rw [if_neg herr, if_neg (fun herr' => herr (hresult.err.2 herr'))]
    cases result.retryCanceled with
    | true => exact settledAlike_settleCanceled h msg msg' result.attempts
    | false => exact settledAlike_settleFailed h hresult msg msg'

/-- The dead-letter entry of an invalid message has the kind and the fields that could be read. -/
theorem invalidMessageDeadLetterEntry_eq {J : Json} {ptr ptr' : MessagePtr}
    {fields : String × String × Time} (kind : ptr.message.kind = ptr'.message.kind)
    (parsed : partialFields J ptr.message.body = .ok fields)
    (parsed' : partialFields J ptr'.message.body = .ok fields) (t : Time) :
    invalidMessageDeadLetterEntry J (some ptr) t =
      invalidMessageDeadLetterEntry J (some ptr') t := by
  simp only [invalidMessageDeadLetterEntry, kind, parsed, parsed']

theorem settledAlike_settleInvalid {J : Json} {msg msg' : Option MessagePtr}
    (hentry : ∀ t, invalidMessageDeadLetterEntry J msg t = invalidMessageDeadLetterEntry J msg' t) :
    SettledAlike (settleInvalid J msg) (settleInvalid J msg') := by
  apply Lockstep.call rfl (fun _ _ => rfl)
  intro t t' same
  obtain rfl : t = t' := SettlementAnswer.read.inj (Option.some.inj same)
  have hobserved : SameIdentity
      (invalidMessageForObservability (invalidMessageDeadLetterEntry J msg t))
      (invalidMessageForObservability (invalidMessageDeadLetterEntry J msg' t)) := by
    rw [hentry t]
    exact ⟨rfl, rfl, rfl, rfl, rfl⟩
  apply SettledAlike.silent (.zeroBody msg) (.zeroBody msg') rfl (fun _ => rfl) (fun _ => rfl)
  intro _ _
  apply SettledAlike.settled (.recordPasswordSyncFailure _) (.recordPasswordSyncFailure _)
    (congrArg (fun entry => some (WorkerCall.recordPasswordSyncFailure entry)) (hentry t))
    Function.surjective_id Function.surjective_id (fun _ => rfl) (fun _ => rfl)
  · intro settleErr settleErr'
    exact settledAlike_abandonAfterDeadLetterFailure hobserved msg msg' _ settleErr settleErr' 0
  · apply SettledAlike.settled (.completeMessage msg) (.completeMessage msg') rfl
      Function.surjective_id Function.surjective_id (fun _ => rfl) (fun _ => rfl)
    · intro settleErr settleErr'
      exact .ret trivial
    · exact settledAlike_recordOutcome hobserved _ _ _ 0 _ _

/-! ## Processing a message -/

/-- The attempts are over before anything is settled or put out. -/
theorem AttemptRun.apart_from_settling {m : PasswordSyncMessage} {backoffs : List ℤ} {n : ℕ}
    {τ τ' : List WorkerEvent} {result : ProcessorResult} {msg : Option MessagePtr} {r : Option Err}
    (h : AttemptRun m backoffs n τ result) (hsettle : Exec (settle msg m result) τ' r) :
    attemptOutcomes (τ ++ τ') = attemptOutcomes τ ∧
      settlementAnswers (τ ++ τ') = settlementAnswers τ' ∧ outputs (τ ++ τ') = outputs τ' := by
  have hhidden : ∀ e ∈ τ, e.call.output = none ∧ e.settlementAnswer = none :=
    fun e he => (h.calls e he).hidden
  have houtcomes : attemptOutcomes τ' = [] :=
    told_eq_nil _ fun e he => attemptOutcome_of_detached (detached_settle hsettle e he)
  have hanswers : settlementAnswers τ = [] := told_eq_nil _ fun e he => (hhidden e he).2
  have houtputs : outputs τ = [] := shown_eq_nil _ fun e he => (hhidden e he).1
  refine ⟨(told_append _ τ τ').trans ?_, (told_append _ τ τ').trans ?_,
    (shown_append _ τ τ').trans ?_⟩
  · exact (congrArg (attemptOutcomes τ ++ ·) houtcomes).trans (List.append_nil _)
  · exact congrArg (· ++ settlementAnswers τ') hanswers
  · exact congrArg (· ++ outputs τ') houtputs

/-- The outputs of `processMessage` reveal nothing about the password material.  Two messages that
agree on the rest, attempts that go the same way, a clock that reads the same and settlements that
fail alike give the same dead-letter entries, status writes, metrics and logs, in the same order. -/
theorem outputs_reveal_nothing {J : Json} {w : Worker} {ptr ptr' : MessagePtr}
    (same : SameApartFromPassword J ptr ptr') {τ τ' : List WorkerEvent} {r r' : Option Err}
    (run : Exec (processMessage J w (some ptr)) τ r)
    (run' : Exec (processMessage J w (some ptr')) τ' r')
    (outcomes : attemptOutcomes τ = attemptOutcomes τ')
    (environment : settlementAnswers τ = settlementAnswers τ') : outputs τ = outputs τ' := by
  cases same with
  | invalid kind first second parsed parsed' =>
    rw [processMessage, first] at run
    rw [processMessage, second] at run'
    have hentry := invalidMessageDeadLetterEntry_eq kind parsed parsed'
    exact ((settledAlike_settleInvalid hentry).shown_eq run run' environment).1
  | decoded kind first second hm =>
    rw [processMessage, first] at run
    rw [processMessage, second] at run'
    obtain ⟨result, τ₁, τ₂, rfl, hattempts, hsettle⟩ := exec_bind_iff.1 run
    obtain ⟨result', τ₁', τ₂', rfl, hattempts', hsettle'⟩ := exec_bind_iff.1 run'
    have hrun := exec_attemptPasswordSync hattempts
    have hrun' := exec_attemptPasswordSync hattempts'
    obtain ⟨houtcomes, hanswers, houtputs⟩ := hrun.apart_from_settling hsettle
    obtain ⟨houtcomes', hanswers', houtputs'⟩ := hrun'.apart_from_settling hsettle'
    rw [houtcomes, houtcomes'] at outcomes
    rw [hanswers, hanswers'] at environment
    rw [houtputs, houtputs']
    have hresult : SameResult result result' := by
      have hfirst := hrun.result_of_outcomes.2
      rw [outcomes] at hfirst
      exact hfirst.same hrun'.result_of_outcomes.2
    exact ((settledAlike_settle hm hresult (some ptr) (some ptr')).shown_eq hsettle hsettle'
      environment).1

/-- The sample message with another ciphertext, under another key. -/
def rekeyedMessage : PasswordSyncMessage :=
  { sampleMessage with passwordCiphertext := "AAAA", passwordKeyID := "k2" }

/-- The error of a processor that puts the password into its reason and text. -/
def tellingError : Err := .permanent "denied for hunter2" (.new "hunter2 was refused")

/-- The events by which a message that failed at its first attempt is settled. -/
def settledFailed (ptr : MessagePtr) (m : PasswordSyncMessage) (err : Err) : List WorkerEvent :=
  [.zeroedBody (some ptr), .read sampleReading.utc,
    .recorded (failureEntry m ⟨some err, 1, true, false⟩ sampleReading.utc) none,
    .markedFailed m.upn m.enqueuedAt none, .completed (some ptr) none]

/-- The message cannot be decrypted. -/
def undecryptableRun (ptr : MessagePtr) : List WorkerEvent :=
  .decrypted (envelopeOf sampleMessage) sampleAAD (.error .canceled) ::
    settledFailed ptr sampleMessage (.permanent deadLetterReasonPermanentProcessor .canceled)

/-- The processor returns the error that tells the password. -/
def tellingRun (ptr : MessagePtr) : List WorkerEvent :=
  .decrypted (envelopeOf rekeyedMessage) sampleAAD (.ok [104, 50]) ::
    .processed (commandOf rekeyedMessage [104, 50]) (some tellingError) :: .zeroedPlaintext ::
    settledFailed ptr rekeyedMessage tellingError

/-- A message that cannot be decrypted and one that fails with an error that tells the password have
the same outputs. -/
theorem outputs_reveal_nothing_rekeyed : ∃ ptr ptr' reports reports',
    decodePasswordSyncMessage .flat (some ptr) = .ok sampleMessage ∧
    decodePasswordSyncMessage .flat (some ptr') = .ok rekeyedMessage ∧
    Exec (processMessage .flat (newWorker 1 0 0 []) (some ptr))
      (undecryptableRun ptr ++ reports) none ∧
    Exec (processMessage .flat (newWorker 1 0 0 []) (some ptr'))
      (tellingRun ptr' ++ reports') none ∧
    outputs (undecryptableRun ptr ++ reports) = outputs (tellingRun ptr' ++ reports') := by
  obtain ⟨body, hbody⟩ : ∃ body, sampleMessage.marshal .flat = .ok body :=
    PasswordSyncMessage.exists_marshal .flat rfl (by decide +kernel)
  obtain ⟨body', hbody'⟩ : ∃ body, rekeyedMessage.marshal .flat = .ok body :=
    PasswordSyncMessage.exists_marshal .flat rfl (by decide +kernel)
  obtain ⟨ptr, hkind, hptr⟩ : ∃ ptr, ptr.message.kind = passwordSyncKind ∧
      decodePasswordSyncMessage .flat (some ptr) = .ok sampleMessage :=
    ⟨⟨0, ⟨body, passwordSyncKind⟩⟩, rfl, decode_of_marshal rfl rfl hbody (by decide +kernel)⟩
  obtain ⟨ptr', hkind', hptr'⟩ : ∃ ptr, ptr.message.kind = passwordSyncKind ∧
      decodePasswordSyncMessage .flat (some ptr) = .ok rekeyedMessage :=
    ⟨⟨1, ⟨body', passwordSyncKind⟩⟩, rfl, decode_of_marshal rfl rfl hbody' (by decide +kernel)⟩
  obtain ⟨metric, log, hrun, houtcomes, hanswers⟩ : ∃ metric log : WorkerEvent,
      Exec (processMessage .flat (newWorker 1 0 0 []) (some ptr))
        (undecryptableRun ptr ++ [metric, log]) none ∧
      attemptOutcomes (undecryptableRun ptr ++ [metric, log]) = [.permanent] ∧
      settlementAnswers (undecryptableRun ptr ++ [metric, log]) =
        [.read sampleReading.utc, .settled false, .settled false] := by
    rw [processMessage, hptr]
    exact ⟨_, _, .call _ _ _ <| .call _ _ _ <| .call _ _ _ <| .call _ _ _ <| .call _ _ _ <|
      .call _ _ _ <| .call _ _ () <| .call _ _ () <| .refl _, rfl, rfl⟩
  obtain ⟨metric', log', hrun', houtcomes', hanswers'⟩ : ∃ metric log : WorkerEvent,
      Exec (processMessage .flat (newWorker 1 0 0 []) (some ptr'))
        (tellingRun ptr' ++ [metric, log]) none ∧
      attemptOutcomes (tellingRun ptr' ++ [metric, log]) = [.permanent] ∧
      settlementAnswers (tellingRun ptr' ++ [metric, log]) =
        [.read sampleReading.utc, .settled false, .settled false] := by
    rw [processMessage, hptr']
    exact ⟨_, _, .call _ _ _ <| .call _ _ _ <| .call _ _ _ <| .call _ _ _ <| .call _ _ _ <|
      .call _ _ _ <| .call _ _ _ <| .call _ _ _ <| .call _ _ () <| .call _ _ () <|
        .refl _, rfl, rfl⟩
  refine ⟨ptr, ptr', _, _, hptr, hptr', hrun, hrun', outputs_reveal_nothing ?_ hrun hrun' ?_ ?_⟩
  · exact .decoded (hkind.trans hkind'.symm) hptr hptr' ⟨rfl, rfl, rfl, rfl, rfl⟩
  · exact houtcomes.trans houtcomes'.symm
  · exact hanswers.trans hanswers'.symm

end PasswordHook
