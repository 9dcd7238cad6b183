import PasswordHook.Migration.Service
import PasswordHook.Worker.Runs

/-!
# The worker reads what the hook sent

The hook stamps a message, seals the password for it and sends its JSON form; the worker decodes the
form, recomputes the associated data from the fields it read and opens the password.  Both ends
agree: a message that `Submit` enqueued is decoded as it was, and its password opens.
-/

namespace PasswordHook

open Prog

/-- The encrypter is a `Codec` and the queue a `Queue`, whatever the context, the random source and
the sender do. -/
structure AnsweredBy (codec : Codec) (q : Queue) (J : Json) (τ : List HookEvent) : Prop where
  encrypt : ∀ plaintext aad r, .encrypted plaintext aad r ∈ τ →
    ∃ ctxErr random, r = codec.encrypt ctxErr random plaintext aad
  enqueue : ∀ msg r, .sent msg r ∈ τ → ∃ sendErr, r = q.enqueuePasswordSync J msg sendErr

section Stamped

variable {U : Unicode} {svc : Service} {traceID : String} {req : Request} {codec : Codec}
  {upn : String} {t : Time} {env : Envelope} {ctxErr : Option Err}
  {random : Except Err { bs : Bytes // bs.length = codec.aead.nonceSize }} {aad : Bytes}

theorem trimSpace_buildUPN {cn primaryDomain : String}
    (h : buildUPN U cn primaryDomain = .ok upn) : trimSpace upn = upn ∧ upn ≠ "" := by
  refine ⟨trimSpace_eq_self (trimmed_buildUPN h), ?_⟩
  obtain ⟨rfl, hcn, -⟩ := buildUPN_eq_ok h
  intro hempty
  have hlist := congrArg String.toList hempty
  simp only [String.toList_append, String.toList_empty, List.append_eq_nil_iff] at hlist
  exact hcn (String.toList_inj.1 hlist.1.1)

/-- A stamped message with an envelope of the codec has all the fields the worker requires. -/
theorem missingField_stamped (keyID : trimSpace codec.keyID ≠ "") (clock : t.isZero = false)
    (hupn : buildUPN U req.cn svc.primaryDomain = .ok upn)
    (henv : codec.encrypt ctxErr random req.password aad = .ok env) :
    missingField (stampedMessage traceID req upn t.utc env) = none := by
  obtain ⟨nonce, -, rfl⟩ := Codec.encrypt_eq_ok henv
  have hnonce : (nonce : Bytes) ≠ [] := by
    apply List.ne_nil_of_length_pos
    rw [nonce.2]
    exact codec.aead.nonceSize_pos
  obtain ⟨htrim, hne⟩ := trimSpace_buildUPN hupn
  have halg : trimSpace algorithmAES256GCM ≠ "" := by decide
  have hzero : t.utc.isZero = false := clock
  simp only [missingField, stampedMessage, trimSpace_trimSpace, (buildUPN_eq_ok hupn).2.1, htrim,
    hne, trimSpace_base64Text (codec.aead.sealBytes_ne_nil _ _ _), trimSpace_base64Text hnonce,
    keyID, halg, hzero, Bool.false_eq_true, if_false]

/-- The worker opens the password of a stamped message with the data it recomputes. -/
theorem decrypt_stamped
    (henv : codec.encrypt ctxErr random req.password
      (passwordAAD (trimSpace req.cn) upn t.utc) = .ok env) :
    codec.decrypt none (envelopeOf (stampedMessage traceID req upn t.utc env))
      (passwordAAD (trimSpace req.cn) upn t.utc) = some (.ok req.password) := by
  obtain ⟨nonce, -, rfl⟩ := Codec.encrypt_eq_ok henv
  refine (codec.decrypt_sealed nonce.2 _ _).trans ?_
  rw [codec.aead.openBytes_sealBytes _ _ _ nonce.2]

end Stamped

/-- What the worker makes of the message of a run that enqueued. -/
structure Delivered (codec : Codec) (q : Queue) (J : Json) (password : Bytes)
    (τ : List HookEvent) (msg : PasswordSyncMessage) (bus : BusMessage) : Prop where
  sent : .sent msg none ∈ τ
  body : q.busMessage J msg = .ok bus
  /-- Every field is read as it was written. -/
  decoded : ∀ addr, decodePasswordSyncMessage J (some ⟨addr, receivedMessage bus⟩) = .ok msg
  opened : codec.decrypt none (envelopeOf msg) (passwordAAD msg.cn msg.upn msg.enqueuedAt) =
    some (.ok password)
  /-- The worker reports the outcome under the stamp the hook marked the account with. -/
  marks : ∀ upn t r, .marked upn t r ∈ τ → ∀ w addr τ' r',
    Exec (processMessage J w (some ⟨addr, receivedMessage bus⟩)) τ' r' →
    ∀ e ∈ τ', ∀ mark, e.call.markOf = some mark → mark = (upn, t)

/-- A message that `Submit` enqueued is decoded as it was and its password opens. -/
theorem delivered_of_enqueued {U : Unicode} {svc : Service} {traceID : String} {req : Request}
    {codec : Codec} {q : Queue} {J : Json} {τ : List HookEvent} {d : Decision} {err : Option Err}
    (h : Exec (submit U svc traceID req) τ (d, err)) (enqueued : d.enqueued = true)
    (answered : AnsweredBy codec q J τ) (keyID : trimSpace codec.keyID ≠ "")
    (clock : ∀ reading t, .read reading t ∈ τ → t.isZero = false) :
    ∃ msg bus, Delivered codec q J req.password τ msg bus := by
  obtain ⟨upn, t, env, lead, marks, hupn, rfl, -, -, hstamp⟩ := exec_submit_enqueued h enqueued
  obtain ⟨ctxErr, random, henv⟩ := answered.encrypt req.password
    (passwordAAD (trimSpace req.cn) upn t.utc) (.ok env) (by simp)
  obtain ⟨sendErr, hsend⟩ := answered.enqueue (stampedMessage traceID req upn t.utc env) none
    (by simp)
  obtain ⟨-, bus, hbus⟩ := Queue.enqueuePasswordSync_eq_none.1 hsend.symm
  obtain ⟨hkind, hbody⟩ := Queue.received_busMessage hbus
  have hzero := clock (.enqueuedAt upn) t (by simp)
  have hdecoded : ∀ addr, decodePasswordSyncMessage J (some ⟨addr, receivedMessage bus⟩) =
      .ok (stampedMessage traceID req upn t.utc env) := fun addr =>
    decode_of_marshal rfl hkind hbody (missingField_stamped keyID hzero hupn henv.symm)
  refine ⟨stampedMessage traceID req upn t.utc env, bus, by simp, hbus, hdecoded,
    decrypt_stamped henv.symm, ?_⟩
  intro upn' t' r hmarked w addr τ' r' hrun e he mark hmark
  obtain ⟨m, hm, rfl⟩ := markOf_processMessage hrun he hmark
  rw [hdecoded addr] at hm
  obtain rfl := Except.ok.inj hm
  exact (hstamp _ hmarked (upn', t') rfl).symm

/-! ## One submission -/

def sampleRequest : Request := ⟨" b11001", eventPasswordChange, [112, 119], "", ""⟩

def sampleService : Service := newService "Example.edu" true true true 0

def sampleEnvelope : Envelope :=
  let sealedText := sampleCodec.aead.sealBytes (List.replicate 12 7) [112, 119]
    (passwordAAD "b11001" "b11001@example.edu" sampleReading.utc)
  ⟨base64Text sealedText, base64Text (List.replicate 12 7), "k1", algorithmAES256GCM⟩

def sampleDecision : Decision := ⟨some .employeeID, "b11001@example.edu", false, false, ""⟩

theorem buildUPN_sampleRequest :
    buildUPN .ascii sampleRequest.cn sampleService.primaryDomain = .ok "b11001@example.edu" := by
  decide +kernel

theorem submitBody_sampleRequest : submitBody .ascii sampleService "" sampleRequest =
    submitEnqueue sampleService "" sampleRequest sampleDecision "b11001@example.edu" := by
  have hclass : classifyCN .ascii sampleRequest.cn = .employeeID := by decide +kernel
  have hvalid : validEventType sampleRequest.eventType = true := by decide
  have hevent : sampleRequest.eventType ≠ eventLoginBootstrap := by decide
  simp [submitBody, buildUPN_sampleRequest, hclass, hvalid, submitAccount, hevent, Decision.zero,
    sampleDecision]

/-- A login of the account. -/
def sampleLogin : Request := { sampleRequest with eventType := eventLoginBootstrap }

theorem submitBody_sampleLogin : submitBody .ascii sampleService "" sampleLogin =
    submitAccount sampleService "" sampleLogin sampleDecision "b11001@example.edu" := by
  have hclass : classifyCN .ascii sampleLogin.cn = .employeeID := by decide +kernel
  have hvalid : validEventType sampleLogin.eventType = true := by decide
  have hupn : buildUPN .ascii sampleLogin.cn sampleService.primaryDomain =
      .ok "b11001@example.edu" :=
    buildUPN_sampleRequest
  simp [submitBody, hupn, hclass, hvalid, Decision.zero, sampleDecision]

/-- The message of the request, stamped at the given reading. -/
def sampleStamped (t : Time) : PasswordSyncMessage :=
  stampedMessage "" sampleRequest "b11001@example.edu" t.utc sampleEnvelope

theorem exists_delivered_sampleStamped (q : Queue) (J : Json) {t : Time} (range : t.utc.InRange)
    (clock : t.isZero = false) : ∃ bus, q.busMessage J (sampleStamped t) = .ok bus ∧
      ∀ addr, decodePasswordSyncMessage J (some ⟨addr, receivedMessage bus⟩) =
        .ok (sampleStamped t) := by
  obtain ⟨body, hmarshal⟩ : ∃ body, (sampleStamped t).marshal J = .ok body :=
    PasswordSyncMessage.exists_marshal J rfl range
  obtain ⟨bus, hbus⟩ : ∃ bus, q.busMessage J (sampleStamped t) = .ok bus :=
    ⟨_, by rw [Queue.busMessage, hmarshal]⟩
  have hsealed : sampleCodec.encrypt none (.ok ⟨List.replicate 12 7, rfl⟩) sampleRequest.password
      (passwordAAD "b11001" "b11001@example.edu" sampleReading.utc) = .ok sampleEnvelope := rfl
  obtain ⟨hkind, hbody⟩ := Queue.received_busMessage hbus
  exact ⟨bus, hbus, fun addr => decode_of_marshal rfl hkind hbody
    (missingField_stamped (by decide) clock buildUPN_sampleRequest hsealed)⟩

/-- The calls of the submission of a changed password. -/
def sampleSubmission : List HookEvent :=
  [.read (.enqueuedAt "b11001@example.edu") sampleReading,
    .encrypted [112, 119] (passwordAAD "b11001" "b11001@example.edu" sampleReading.utc)
      (.ok sampleEnvelope),
    .sent (sampleStamped sampleReading) none,
    .marked "b11001@example.edu" sampleReading.utc none, .zeroed]

theorem exec_sampleSubmission : Exec (submit .ascii sampleService "" sampleRequest) sampleSubmission
    ({ sampleDecision with enqueued := true }, none) := by
  have htrim : trimSpace sampleRequest.cn = "b11001" := by decide
  rw [submit, submitBody_sampleRequest]
  unfold sampleSubmission
  rw [← htrim]
  exact .call _ _ _ <| .call _ _ _ <| .call _ _ _ <| .call _ _ _ <| .call _ _ _ <| .refl _

theorem answeredBy_sampleSubmission :
    AnsweredBy sampleCodec (newQueue 0) .flat sampleSubmission := by
  constructor
  · intro plaintext aad r mem
    simp only [sampleSubmission, List.mem_cons] at mem
    rcases mem with mem | mem | mem | mem | mem | mem <;> cases mem
    exact ⟨none, .ok ⟨List.replicate 12 7, rfl⟩, rfl⟩
  · intro msg r mem
    simp only [sampleSubmission, List.mem_cons] at mem
    rcases mem with mem | mem | mem | mem | mem | mem <;> cases mem
    refine ⟨none, Eq.symm (Queue.enqueuePasswordSync_eq_none.2 ⟨rfl, ?_⟩)⟩
    obtain ⟨bus, hbus, -⟩ := exists_delivered_sampleStamped (newQueue 0) .flat
      (t := sampleReading) (by decide +kernel) (by decide)
    exact ⟨bus, hbus⟩

/-- A changed password, from the request to the worker. -/
theorem delivered_of_enqueued_sample : ∃ msg bus,
    Delivered sampleCodec (newQueue 0) .flat [112, 119] sampleSubmission msg bus := by
  refine delivered_of_enqueued exec_sampleSubmission rfl answeredBy_sampleSubmission (by decide) ?_
  intro reading t mem
  simp only [sampleSubmission, List.mem_cons] at mem
  rcases mem with mem | mem | mem | mem | mem | mem <;> cases mem
  decide

end PasswordHook
