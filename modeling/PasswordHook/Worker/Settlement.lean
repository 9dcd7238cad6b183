import PasswordHook.Worker.Runs

/-!
# Every message is settled once, and not before its outcome is on record

A run of `processMessage` is a number of attempts followed by one of five ways to settle
(`exec_processMessage`).  From that: one settlement per message, a completion only after a sync or a
dead-letter record, and the status writes only after the event they report.  A run of `Run` is made
of such runs, one after the other and in the order of the messages (`run_disciplined`).
-/

namespace PasswordHook

open Prog

/-! ## Kinds of calls -/

def WorkerCall.isComplete : WorkerCall → Bool
  | .completeMessage _ => true
  | _ => false

def WorkerCall.isSettlement : WorkerCall → Bool
  | .completeMessage _ => true
  | .abandonMessage _ => true
  | _ => false

def WorkerCall.isMarkSynced : WorkerCall → Bool
  | .markSynced _ _ => true
  | _ => false

def WorkerCall.isMarkFailed : WorkerCall → Bool
  | .markFailed _ _ => true
  | _ => false

/-- The calls of `Run` between messages. -/
def WorkerCall.isIdle : WorkerCall → Bool
  | .ctxErr => true
  | .receiveMessages _ => true
  | .sleep _ => true
  | _ => false

/-- The calls that neither settle a message nor write a status. -/
def WorkerCall.isQuiet : WorkerCall → Bool
  | .completeMessage _ => false
  | .abandonMessage _ => false
  | .markSynced _ _ => false
  | .markFailed _ _ => false
  | _ => true

theorem WorkerCall.isQuiet_eq_true {c : WorkerCall} (h : c.isQuiet = true) :
    c.isSettlement = false ∧ c.isComplete = false ∧ c.isMarkSynced = false ∧
      c.isMarkFailed = false := by
  cases c <;> first | exact ⟨rfl, rfl, rfl, rfl⟩ | exact absurd h Bool.false_ne_true

theorem WorkerCall.isQuiet_of_isReport {c : WorkerCall} (h : c.isReport = true) :
    c.isQuiet = true := by
  cases c <;> first | rfl | exact absurd h Bool.false_ne_true

def Quiet (τ : List WorkerEvent) : Prop := ∀ e ∈ τ, e.call.isQuiet = true

@[simp] theorem quiet_nil : Quiet [] := fun _ h => absurd h List.not_mem_nil

@[simp] theorem quiet_cons {e : WorkerEvent} {τ : List WorkerEvent} :
    Quiet (e :: τ) ↔ e.call.isQuiet = true ∧ Quiet τ := List.forall_mem_cons

@[simp] theorem quiet_append {τ₁ τ₂ : List WorkerEvent} :
    Quiet (τ₁ ++ τ₂) ↔ Quiet τ₁ ∧ Quiet τ₂ := List.forall_mem_append

theorem Reports.quiet {τ : List WorkerEvent} (h : Reports τ) : Quiet τ :=
  fun e he => WorkerCall.isQuiet_of_isReport (h e he)

section Attempts

variable {m : PasswordSyncMessage} {backoffs : List ℤ} {n : ℕ} {τ : List WorkerEvent}
  {result : ProcessorResult}

theorem AttemptCall.quiet {c : WorkerCall} (h : AttemptCall m c) : c.isQuiet = true := by
  cases h <;> rfl

theorem AttemptRun.quiet (h : AttemptRun m backoffs n τ result) : Quiet τ :=
  fun e he => (h.calls e he).quiet

/-- The attempts end without an error only after the processor did. -/
theorem AttemptRun.processed (h : AttemptRun m backoffs n τ result) (hok : result.err = none) :
    ∃ plaintext, WorkerEvent.processed (commandOf m plaintext) none ∈ τ := by
  induction h with
  | synced backoffs n plaintext => exact ⟨plaintext, by simp⟩
  | retried delay plaintext hp rest ih =>
    obtain ⟨plaintext', hmem⟩ := ih hok
    exact ⟨plaintext', by simp [hmem]⟩
  | undecryptable => exact absurd hok (by simp)
  | permanent => exact absurd hok (by simp)
  | exhausted => exact absurd hok (by simp)
  | canceled => exact absurd hok (by simp)

end Attempts

/-! ## The discipline -/

section Discipline

variable (J : Json) (msg : Option MessagePtr)

/-- The processor returned nil for the message. -/
def SyncedEvent (e : WorkerEvent) : Prop :=
  ∃ m plaintext, decodePasswordSyncMessage J msg = .ok m ∧
    e = .processed (commandOf m plaintext) none

/-- A dead-letter entry of the message. -/
def EntryOf (entry : DeadLetterEntry) : Prop :=
  (∃ m result t, decodePasswordSyncMessage J msg = .ok m ∧ entry = failureEntry m result t) ∨
    ((∃ err, decodePasswordSyncMessage J msg = .error err) ∧
      ∃ t, entry = invalidMessageDeadLetterEntry J msg t)

/-- The dead-letter sink took an entry of the message. -/
def DeadLetteredEvent (e : WorkerEvent) : Prop :=
  ∃ entry, EntryOf J msg entry ∧ e = .recorded entry none

/-- What holds of every processing of a message. -/
structure Disciplined (τ : List WorkerEvent) : Prop where
  settled_once : ∃ e, (τ.filter fun e => e.call.isSettlement) = [e] ∧
    (e.call = .completeMessage msg ∨ e.call = .abandonMessage msg)
  complete_after : Precedes (fun e => SyncedEvent J msg e ∨ DeadLetteredEvent J msg e)
    (fun e => e.call.isComplete = true) τ
  synced_after : Precedes (SyncedEvent J msg) (fun e => e.call.isMarkSynced = true) τ
  failed_after : Precedes (DeadLetteredEvent J msg) (fun e => e.call.isMarkFailed = true) τ
  one_mark : (∀ e ∈ τ, e.call.isMarkSynced = false) ∨ ∀ e ∈ τ, e.call.isMarkFailed = false
  no_mark : (∃ err, decodePasswordSyncMessage J msg = .error err) →
    ∀ e ∈ τ, e.call.isMarkSynced = false ∧ e.call.isMarkFailed = false

end Discipline

section Shapes

variable {J : Json} {msg : Option MessagePtr} {τ₁ τ₂ : List WorkerEvent}

theorem Quiet.filter_settlement {τ : List WorkerEvent} (h : Quiet τ) :
    (τ.filter fun e => e.call.isSettlement) = [] := by
  rw [List.filter_eq_nil_iff]
  intro e he
  rw [(WorkerCall.isQuiet_eq_true (h e he)).1]
  exact Bool.false_ne_true

/-- The events of a quiet trace around one event. -/
theorem forall_around {P : WorkerEvent → Prop} {e : WorkerEvent} (q₁ : Quiet τ₁) (q₂ : Quiet τ₂)
    (hquiet : ∀ e, e.call.isQuiet = true → P e) (he : P e) : ∀ e' ∈ τ₁ ++ e :: τ₂, P e' := by
  intro e' he'
  rcases List.mem_append.1 he' with h | h
  · exact hquiet e' (q₁ e' h)
  · rcases List.mem_cons.1 h with rfl | h
    · exact he
    · exact hquiet e' (q₂ e' h)

/-- A message that is abandoned. -/
theorem disciplined_of_abandon (r : Option Err) (q₁ : Quiet τ₁) (q₂ : Quiet τ₂) :
    Disciplined J msg (τ₁ ++ .abandoned msg r :: τ₂) := by
  have hmarks : ∀ e ∈ τ₁ ++ WorkerEvent.abandoned msg r :: τ₂, e.call.isComplete = false ∧
      e.call.isMarkSynced = false ∧ e.call.isMarkFailed = false :=
    forall_around q₁ q₂ (fun e he => (WorkerCall.isQuiet_eq_true he).2) ⟨rfl, rfl, rfl⟩
  refine ⟨⟨.abandoned msg r, ?_, .inr rfl⟩, ?_, ?_, ?_, ?_, ?_⟩
  · rw [List.filter_append, q₁.filter_settlement, List.filter_cons_of_pos rfl,
      q₂.filter_settlement, List.nil_append]
  · exact precedes_of_forall_not fun e he => by simp [(hmarks e he).1]
  · exact precedes_of_forall_not fun e he => by simp [(hmarks e he).2.1]
  · exact precedes_of_forall_not fun e he => by simp [(hmarks e he).2.2]
  · exact .inl fun e he => (hmarks e he).2.1
  · exact fun _ e he => (hmarks e he).2

/-- A message that is completed once it is dead-lettered, without a status write. -/
theorem disciplined_of_complete (r : Option Err) (q₁ : Quiet τ₁) (q₂ : Quiet τ₂)
    (recorded : ∃ e ∈ τ₁, DeadLetteredEvent J msg e) :
    Disciplined J msg (τ₁ ++ .completed msg r :: τ₂) := by
  have hmarks : ∀ e ∈ τ₁ ++ WorkerEvent.completed msg r :: τ₂,
      e.call.isMarkSynced = false ∧ e.call.isMarkFailed = false :=
    forall_around q₁ q₂ (fun e he => (WorkerCall.isQuiet_eq_true he).2.2) ⟨rfl, rfl⟩
  refine ⟨⟨.completed msg r, ?_, .inl rfl⟩, ?_, ?_, ?_, ?_, ?_⟩
  · rw [List.filter_append, q₁.filter_settlement, List.filter_cons_of_pos rfl,
      q₂.filter_settlement, List.nil_append]
  · obtain ⟨e, he, hdead⟩ := recorded
    apply precedes_append
    · intro e' he'
      simp [(WorkerCall.isQuiet_eq_true (q₁ e' he')).2.1]
    · exact ⟨e, he, .inr hdead⟩
  · exact precedes_of_forall_not fun e he => by simp [(hmarks e he).1]
  · exact precedes_of_forall_not fun e he => by simp [(hmarks e he).2]
  · exact .inl fun e he => (hmarks e he).1
  · exact fun _ e he => hmarks e he

/-- A message that is marked for what happened to it, then completed. -/
theorem disciplined_of_mark (mark : WorkerEvent) (r : Option Err) (q₁ : Quiet τ₁) (q₂ : Quiet τ₂)
    {m : PasswordSyncMessage} (decoded : decodePasswordSyncMessage J msg = .ok m)
    (cause : (mark.call = .markSynced m.upn m.enqueuedAt ∧ ∃ e ∈ τ₁, SyncedEvent J msg e) ∨
      (mark.call = .markFailed m.upn m.enqueuedAt ∧ ∃ e ∈ τ₁, DeadLetteredEvent J msg e)) :
    Disciplined J msg (τ₁ ++ mark :: .completed msg r :: τ₂) := by
  have hnot : ∀ e ∈ τ₁, e.call.isComplete = false ∧ e.call.isMarkSynced = false ∧
      e.call.isMarkFailed = false := fun e he => (WorkerCall.isQuiet_eq_true (q₁ e he)).2
  have hcases : ∀ {P : WorkerEvent → Prop}, (∀ e, e.call.isQuiet = true → P e) → P mark →
      P (.completed msg r) → ∀ e ∈ τ₁ ++ mark :: .completed msg r :: τ₂, P e := by
    intro P hquiet hmark hcomplete e he
    rcases List.mem_append.1 he with h | h
    · exact hquiet e (q₁ e h)
    · rcases List.mem_cons.1 h with rfl | h
      · exact hmark
      · exact forall_around quiet_nil q₂ hquiet hcomplete e h
  have hquiet : mark.call.isSettlement = false := by
    rcases cause with ⟨h, -⟩ | ⟨h, -⟩ <;> rw [h] <;> rfl
  refine ⟨⟨.completed msg r, ?_, .inl rfl⟩, ?_, ?_, ?_, ?_, ?_⟩
  · rw [List.filter_append, q₁.filter_settlement, List.filter_cons_of_neg (by simp [hquiet]),
      List.filter_cons_of_pos rfl, q₂.filter_settlement, List.nil_append]
  · apply precedes_append
    · intro e he
      simp [(hnot e he).1]
    · rcases cause with ⟨-, e, he, h⟩ | ⟨-, e, he, h⟩
      · exact ⟨e, he, .inl h⟩
      · exact ⟨e, he, .inr h⟩
  · rcases cause with ⟨-, hsynced⟩ | ⟨hfailed, -⟩
    · exact precedes_append (fun e he => by simp [(hnot e he).2.1]) hsynced
    · apply precedes_of_forall_not
      apply hcases
      · intro e he
        simp [(WorkerCall.isQuiet_eq_true he).2.2.1]
      · simp [hfailed, WorkerCall.isMarkSynced]
      · simp [WorkerCall.isMarkSynced]
  · rcases cause with ⟨hsynced, -⟩ | ⟨-, hfailed⟩
    · apply precedes_of_forall_not
      apply hcases
      · intro e he
        simp [(WorkerCall.isQuiet_eq_true he).2.2.2]
      · simp [hsynced, WorkerCall.isMarkFailed]
      · simp [WorkerCall.isMarkFailed]
    · exact precedes_append (fun e he => by simp [(hnot e he).2.2]) hfailed
  · rcases cause with ⟨hsynced, -⟩ | ⟨hfailed, -⟩
    · right
      apply hcases
      · exact fun e he => (WorkerCall.isQuiet_eq_true he).2.2.2
      · rw [hsynced]
        rfl
      · rfl
    · left
      apply hcases
      · exact fun e he => (WorkerCall.isQuiet_eq_true he).2.2.1
      · rw [hfailed]
        rfl
      · rfl
  · rintro ⟨err, herr⟩
    rw [decoded] at herr
    exact absurd herr (by simp)

end Shapes

/-! ## Every processing is disciplined -/

section Runs

variable {J : Json} {w : Worker} {msg : Option MessagePtr} {τ : List WorkerEvent}

theorem disciplined_settleInvalid {r : Option Err}
    (undecoded : ∃ err, decodePasswordSyncMessage J msg = .error err)
    (h : Exec (settleInvalid J msg) τ r) : Disciplined J msg τ := by
  obtain ⟨t, reports, hreports, ⟨err, answer, rfl⟩ | ⟨answer, rfl⟩⟩ := exec_settleInvalid h
  · have hquiet : Quiet [.read t, .zeroedBody msg,
        .recorded (invalidMessageDeadLetterEntry J msg t) (some err)] := by
      simp [WorkerCall.isQuiet]
    exact (disciplined_of_abandon answer hquiet hreports.quiet :)
  · have hquiet : Quiet [.read t, .zeroedBody msg,
        .recorded (invalidMessageDeadLetterEntry J msg t) none] := by
      simp [WorkerCall.isQuiet]
    have hdead : DeadLetteredEvent J msg (.recorded (invalidMessageDeadLetterEntry J msg t) none) :=
      ⟨_, .inr ⟨undecoded, t, rfl⟩, rfl⟩
    exact (disciplined_of_complete answer hquiet hreports.quiet ⟨_, by simp, hdead⟩ :)

theorem disciplined_settle {m : PasswordSyncMessage} {result : ProcessorResult} {n : ℕ}
    {backoffs : List ℤ} {r : Option Err} {τ₁ τ₂ : List WorkerEvent}
    (decoded : decodePasswordSyncMessage J msg = .ok m) (h₁ : AttemptRun m backoffs n τ₁ result)
    (h₂ : Exec (settle msg m result) τ₂ r) : Disciplined J msg (τ₁ ++ τ₂) := by
  unfold settle at h₂
  split_ifs at h₂ with hok hcanceled
  · obtain ⟨marked, answer, reports, rfl, hreports⟩ := exec_settleSynced h₂
    obtain ⟨plaintext, hmem⟩ := h₁.processed hok
    have hquiet : Quiet (τ₁ ++ [.zeroedBody msg]) := by simp [h₁.quiet, WorkerCall.isQuiet]
    have := disciplined_of_mark (.markedSynced m.upn m.enqueuedAt marked) answer hquiet
      hreports.quiet decoded
        (.inl ⟨rfl, _, List.mem_append_left _ hmem, m, plaintext, decoded, rfl⟩)
    simpa using this
  · obtain ⟨answer, reports, rfl, hreports⟩ := exec_settleCanceled h₂
    have hquiet : Quiet (τ₁ ++ [.zeroedBody msg]) := by simp [h₁.quiet, WorkerCall.isQuiet]
    have hdisc : Disciplined J msg (τ₁ ++ [.zeroedBody msg] ++ .abandoned msg answer :: reports) :=
      disciplined_of_abandon answer hquiet hreports.quiet
    simpa using hdisc
  · obtain ⟨t, reports, hreports, ⟨err, answer, rfl⟩ | ⟨marked, answer, rfl⟩⟩ :=
      exec_settleFailed h₂
    · have hquiet : Quiet (τ₁ ++ [.zeroedBody msg, .read t,
          .recorded (failureEntry m result t) (some err)]) := by
        simp [h₁.quiet, WorkerCall.isQuiet]
      have hdisc : Disciplined J msg (τ₁ ++ [.zeroedBody msg, .read t,
          .recorded (failureEntry m result t) (some err)] ++ .abandoned msg answer :: reports) :=
        disciplined_of_abandon answer hquiet hreports.quiet
      simpa using hdisc
    · have hquiet : Quiet (τ₁ ++ [.zeroedBody msg, .read t,
          .recorded (failureEntry m result t) none]) := by
        simp [h₁.quiet, WorkerCall.isQuiet]
      have hdead : DeadLetteredEvent J msg (.recorded (failureEntry m result t) none) :=
        ⟨_, .inl ⟨m, result, t, decoded, rfl⟩, rfl⟩
      have := disciplined_of_mark (.markedFailed m.upn m.enqueuedAt marked) answer hquiet
        hreports.quiet decoded (.inr ⟨rfl, _, by simp, hdead⟩)
      simpa using this

theorem disciplined_processMessage {r : Option Err} (h : Exec (processMessage J w msg) τ r) :
    Disciplined J msg τ := by
  rcases exec_processMessage h with ⟨undecoded, h'⟩ | ⟨m, result, τ₁, τ₂, decoded, rfl, h₁, h₂⟩
  · exact disciplined_settleInvalid undecoded h'
  · exact disciplined_settle decoded h₁ h₂

/-! ## `Run` -/

/-- The messages that a call received. -/
def WorkerEvent.batch : WorkerEvent → List (Option MessagePtr)
  | ⟨.receiveMessages _, .ok msgs⟩ => msgs
  | _ => []

variable (J w) in
/-- A run of `Run` whose messages have all been dealt with: calls between messages, and for each
message handed to `processMessage` a complete and disciplined run of it.  The messages that were
received and those that were handed on are in order. -/
inductive RunTrace : List WorkerEvent → (received handed : List (Option MessagePtr)) → Prop
  | nil : RunTrace [] [] []
  | idle {e : WorkerEvent} {τ : List WorkerEvent} {received handed : List (Option MessagePtr)}
      (h : e.call.isIdle = true) (rest : RunTrace τ received handed) :
      RunTrace (e :: τ) (e.batch ++ received) handed
  | message {msg : Option MessagePtr} {τ₁ τ₂ : List WorkerEvent} {r : Option Err}
      {received handed : List (Option MessagePtr)} (run : Exec (processMessage J w msg) τ₁ r)
      (disciplined : Disciplined J msg τ₁) (rest : RunTrace τ₂ received handed) :
      RunTrace (τ₁ ++ τ₂) received (msg :: handed)

theorem RunTrace.append {τ₁ τ₂ : List WorkerEvent}
    {received₁ handed₁ received₂ handed₂ : List (Option MessagePtr)}
    (h₁ : RunTrace J w τ₁ received₁ handed₁) (h₂ : RunTrace J w τ₂ received₂ handed₂) :
    RunTrace J w (τ₁ ++ τ₂) (received₁ ++ received₂) (handed₁ ++ handed₂) := by
  induction h₁ with
  | nil => exact h₂
  | idle h rest ih =>
    rw [List.append_assoc]
    exact .idle h ih
  | message run disciplined rest ih =>
    rw [List.append_assoc]
    exact .message run disciplined ih

/-- The messages of a batch are handed on from the first, all of them unless `Run` returns. -/
theorem exec_processBatch {msgs : List (Option MessagePtr)} {r : Option (Option Err)}
    (h : Exec (processBatch J w msgs) τ r) :
    ∃ handed, RunTrace J w τ [] handed ∧ handed <+: msgs ∧ (r = none → handed = msgs) := by
  induction msgs generalizing τ with
  | nil =>
    obtain ⟨rfl, -⟩ := exec_ret_iff.1 h
    exact ⟨[], .nil, List.prefix_rfl, fun _ => rfl⟩
  | cons msg msgs ih =>
    obtain ⟨ctxErr, τ₁, rfl, h₁⟩ := exec_call_iff.1 h
    cases ctxErr with
    | some err =>
      obtain ⟨rfl, rfl⟩ := exec_ret_iff.1 h₁
      exact ⟨[], .idle rfl .nil, List.nil_prefix, fun hr => absurd hr (by simp)⟩
    | none =>
      obtain ⟨result, τ₂, τ₃, rfl, h₂, h₃⟩ := (exec_bind_iff (p := processMessage J w msg)).1 h₁
      have hmessage := disciplined_processMessage h₂
      cases result with
      | some err =>
        obtain ⟨rfl, rfl⟩ := exec_ret_iff.1 h₃
        exact ⟨[msg], .idle rfl (.message h₂ hmessage .nil), ⟨msgs, rfl⟩,
          fun hr => absurd hr (by simp)⟩
      | none =>
        obtain ⟨handed, htrace, hprefix, hall⟩ := ih h₃
        refine ⟨msg :: handed, .idle rfl (.message h₂ hmessage htrace), ?_, fun hr => ?_⟩
        · exact (List.prefix_cons_inj msg).2 hprefix
        · rw [hall hr]

/-- The messages that are handed on are the first of those that were received. -/
theorem exec_run {rounds : ℕ} {r : Option (Option Err)} (h : Exec (run J w rounds) τ r) :
    ∃ received handed, RunTrace J w τ received handed ∧ handed <+: received := by
  induction rounds generalizing τ with
  | zero =>
    obtain ⟨rfl, -⟩ := exec_ret_iff.1 h
    exact ⟨[], [], .nil, List.prefix_rfl⟩
  | succ rounds ih =>
    obtain ⟨ctxErr, τ₁, rfl, h₁⟩ := exec_call_iff.1 h
    -- the check of the context receives nothing
    suffices hrest : ∃ received handed, RunTrace J w τ₁ received handed ∧ handed <+: received by
      obtain ⟨received, handed, htrace, hprefix⟩ := hrest
      exact ⟨received, handed, .idle rfl htrace, hprefix⟩
    cases ctxErr with
    | some err =>
      obtain ⟨rfl, -⟩ := exec_ret_iff.1 h₁
      exact ⟨[], [], .nil, List.prefix_rfl⟩
    | none =>
      obtain ⟨received, τ₂, rfl, h₂⟩ := exec_call_iff.1 h₁
      rcases received with err | _ | ⟨msg, msgs⟩
      · obtain ⟨ctxErr, τ₃, rfl, h₃⟩ := exec_call_iff.1 h₂
        have hτ₃ : τ₃ = [] := by
          cases ctxErr <;> exact (exec_ret_iff.1 h₃).1
        rw [hτ₃]
        exact ⟨[], [], .idle rfl (.idle rfl .nil), List.prefix_rfl⟩
      · obtain ⟨sleepErr, τ₃, rfl, h₃⟩ := exec_call_iff.1 h₂
        cases sleepErr with
        | some err =>
          obtain ⟨rfl, -⟩ := exec_ret_iff.1 h₃
          exact ⟨[], [], .idle rfl (.idle rfl .nil), List.prefix_rfl⟩
        | none =>
          obtain ⟨received, handed, htrace, hprefix⟩ := ih h₃
          exact ⟨received, handed, .idle rfl (.idle rfl htrace), hprefix⟩
      · obtain ⟨result, τ₃, τ₄, rfl, h₃, h₄⟩ :=
          (exec_bind_iff (p := processBatch J w (msg :: msgs))).1 h₂
        obtain ⟨first, hfirst, hbatch, hall⟩ := exec_processBatch h₃
        cases result with
        | some result =>
          obtain ⟨rfl, -⟩ := exec_ret_iff.1 h₄
          refine ⟨(msg :: msgs) ++ ([] ++ []), first ++ [], .idle rfl (hfirst.append .nil), ?_⟩
          simpa using hbatch
        | none =>
          obtain ⟨received, handed, htrace, hprefix⟩ := ih h₄
          refine ⟨(msg :: msgs) ++ ([] ++ received), first ++ handed,
            .idle rfl (hfirst.append htrace), ?_⟩
          rw [hall rfl, List.nil_append]
          exact (List.prefix_append_right_inj _).2 hprefix

/-- Whatever the collaborators answer, every message `Run` hands on is processed with the
discipline, and they are handed on in the order in which they were received; a run that is cut short
anywhere is the beginning of one that deals with the message in hand. -/
theorem run_disciplined {rounds : ℕ} {q : WorkerProg (Option (Option Err))}
    (h : Steps (run J w rounds) τ q) :
    (∀ r, q = .ret r → ∃ received handed, RunTrace J w τ received handed ∧ handed <+: received) ∧
      ∃ τ' received handed, RunTrace J w (τ ++ τ') received handed ∧ handed <+: received := by
  refine ⟨?_, ?_⟩
  · rintro r rfl
    exact exec_run h
  · obtain ⟨τ', r, h'⟩ := h.exists_exec worker_resp_nonempty
    exact ⟨τ', exec_run h'⟩

/-- A processing in which every answer is good. -/
def syncedRun (ptr : MessagePtr) (reports : List WorkerEvent) : List WorkerEvent :=
  .decrypted (envelopeOf sampleMessage) sampleAAD (.ok [112]) ::
    .processed (commandOf sampleMessage [112]) none :: .zeroedPlaintext :: .zeroedBody (some ptr) ::
    .markedSynced "b11001@example.edu" sampleReading.utc none ::
      .completed (some ptr) none :: reports

/-- The processing of a nil message. -/
def invalidRun (reports : List WorkerEvent) : List WorkerEvent :=
  .read .zero :: .zeroedBody none ::
    .recorded (invalidMessageDeadLetterEntry .flat none .zero) none ::
      .completed none none :: reports

theorem exec_processBatch_cons {msgs : List (Option MessagePtr)} {τ₁ τ₂ : List WorkerEvent}
    {r : Option (Option Err)} (h₁ : Exec (processMessage J w msg) τ₁ none)
    (h₂ : Exec (processBatch J w msgs) τ₂ r) :
    Exec (processBatch J w (msg :: msgs)) (⟨.ctxErr, none⟩ :: (τ₁ ++ τ₂)) r :=
  .call _ _ _ ((exec_bind_iff (p := processMessage J w msg)).2 ⟨none, τ₁, τ₂, rfl, h₁, h₂⟩)

theorem exec_run_succ {msgs : List (Option MessagePtr)} {τ₁ τ₂ : List WorkerEvent} {rounds : ℕ}
    {r : Option (Option Err)} (h₁ : Exec (processBatch J w (msg :: msgs)) τ₁ none)
    (h₂ : Exec (run J w rounds) τ₂ r) :
    Exec (run J w (rounds + 1)) (⟨.ctxErr, none⟩ ::
      ⟨.receiveMessages w.maxMessages, .ok (msg :: msgs)⟩ :: (τ₁ ++ τ₂)) r :=
  .call _ _ _ <| .call _ _ _ <| (exec_bind_iff (p := processBatch J w (msg :: msgs))).2
    ⟨none, τ₁, τ₂, rfl, h₁, h₂⟩

/-- A batch of two: one message is synced and completed, the other one, which is nil, is
dead-lettered and completed. -/
theorem run_disciplined_batch : ∃ (ptr : MessagePtr) (τ : List WorkerEvent)
    (received handed : List (Option MessagePtr)),
    Exec (run .flat (newWorker 2 0 0 []) 1) τ none ∧
      (⟨.receiveMessages 2, .ok [some ptr, none]⟩ : WorkerEvent) ∈ τ ∧
      .processed (commandOf sampleMessage [112]) none ∈ τ ∧ .completed (some ptr) none ∈ τ ∧
      .recorded (invalidMessageDeadLetterEntry .flat none .zero) none ∈ τ ∧
      .completed none none ∈ τ ∧
      RunTrace .flat (newWorker 2 0 0 []) τ received handed ∧ handed <+: received := by
  obtain ⟨ptr, decoded⟩ := decode_sampleMessage
  obtain ⟨reports, hsynced⟩ : ∃ reports,
      Exec (processMessage .flat (newWorker 2 0 0 []) (some ptr)) (syncedRun ptr reports) none := by
    rw [processMessage, decoded]
    exact ⟨[_, _], .call _ _ _ <| .call _ _ _ <| .call _ _ _ <| .call _ _ _ <| .call _ _ _ <|
      .call _ _ _ <| .call _ _ () <| .call _ _ () <| .refl _⟩
  obtain ⟨reports', hinvalid⟩ : ∃ reports,
      Exec (processMessage .flat (newWorker 2 0 0 []) none) (invalidRun reports) none :=
    ⟨[_, _], .call _ _ _ <| .call _ _ _ <| .call _ _ _ <| .call _ _ _ <| .call _ _ () <|
      .call _ _ () <| .refl _⟩
  have hend : Exec (processBatch .flat (newWorker 2 0 0 []) []) [] none := .refl _
  have hbatch := exec_processBatch_cons hsynced (exec_processBatch_cons hinvalid hend)
  have hstop : Exec (run .flat (newWorker 2 0 0 []) 0) [] none := .refl _
  have hrun := exec_run_succ hbatch hstop
  obtain ⟨received, handed, htrace, hprefix⟩ := (run_disciplined hrun).1 _ rfl
  refine ⟨ptr, _, received, handed, hrun, ?_, ?_, ?_, ?_, ?_, htrace, hprefix⟩
  · exact List.mem_cons_of_mem _ List.mem_cons_self
  all_goals simp [syncedRun, invalidRun]

end Runs

end PasswordHook
