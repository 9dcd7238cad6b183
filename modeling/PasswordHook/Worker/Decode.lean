import PasswordHook.Queue.ServiceBus

/-!
# Reading a queue message

`decodePasswordSyncMessage` of package `worker`, the checks it makes, and the dead-letter entry for
a message that does not pass them.
-/

namespace PasswordHook

def passwordSyncKind : String := "password-sync"

def deadLetterReasonInvalidMessageSchema : String := "invalid_message_schema"

def deadLetterReasonPermanentProcessor : String := "permanent_processor_error"

def deadLetterReasonTransientRetriesExhausted : String := "transient_processor_retries_exhausted"

def dlqDescriptionInvalidMessage : String := "invalid password sync message"

def dlqDescriptionPermanentError : String := "permanent processor error"

def dlqDescriptionRetriesExhausted : String := "transient processor retries exhausted"

/-- A `*worker.Message`: `addr` tells pointers to equal messages apart. -/
structure MessagePtr where
  addr : ℕ
  message : Message
  deriving DecidableEq

/-- The first of the required fields that is missing, in the order they are checked. -/
def missingField (out : PasswordSyncMessage) : Option String :=
  if trimSpace out.cn = "" then some "CN"
  else if trimSpace out.upn = "" then some "UPN"
  else if trimSpace out.passwordCiphertext = "" then some "passwordCiphertext"
  else if trimSpace out.passwordNonce = "" then some "passwordNonce"
  else if trimSpace out.passwordKeyID = "" then some "passwordKeyId"
  else if trimSpace out.passwordAlg = "" then some "passwordAlg"
  else if out.enqueuedAt.isZero then some "EnqueuedAt"
  else none

/-- `decodePasswordSyncMessage`; the message may be a nil pointer. -/
def decodePasswordSyncMessage (J : Json) (msg : Option MessagePtr) :
    Except Err PasswordSyncMessage :=
  match msg with
  | none => .error (.new "message is nil")
  | some msg =>
    if trimSpace msg.message.kind ≠ passwordSyncKind then
      .error (.new ("unexpected message kind \"" ++ msg.message.kind ++ "\""))
    else
      match PasswordSyncMessage.unmarshal J msg.message.body with
      | .error err => .error (.wrap "decode password sync message" err)
      | .ok out =>
        match missingField out with
        | some field => .error (.new ("password sync message " ++ field ++ " is required"))
        | none => .ok out

/-! ## Dead-letter entries -/

/-- `DeadLetterEntry`, without the `Password` field, which is cleared and not written. -/
structure DeadLetterEntry where
  kind : String
  cn : String
  upn : String
  reason : String
  description : String
  attempts : ℕ
  enqueuedAt : Time
  failedAt : Time
  deriving DecidableEq

/-- The fields of a body that are kept for an invalid message, if it is JSON of their types. -/
def partialFields (J : Json) (body : Bytes) : Except Err (String × String × Time) := do
  let ms ← membersOf J body
  let cn ← stringField ms "cn"
  let upn ← stringField ms "upn"
  let enqueuedAt ← timeField ms "enqueuedAt"
  return (cn, upn, enqueuedAt)

def invalidMessageDeadLetterEntry (J : Json) (msg : Option MessagePtr) (failedAt : Time) :
    DeadLetterEntry :=
  let entry : DeadLetterEntry :=
    { kind := passwordSyncKind
      cn := ""
      upn := ""
      reason := deadLetterReasonInvalidMessageSchema
      description := dlqDescriptionInvalidMessage
      attempts := 0
      enqueuedAt := .zero
      failedAt := failedAt }
  match msg with
  | none => entry
  | some msg =>
    let kind := trimSpace msg.message.kind
    let entry := if kind ≠ "" then { entry with kind := kind } else entry
    match partialFields J msg.message.body with
    | .error _ => entry
    | .ok (cn, upn, enqueuedAt) => { entry with cn := cn, upn := upn, enqueuedAt := enqueuedAt }

/-! ## What a decoded message is -/

/-- A message that decodes has the right kind, is the JSON of its body and misses nothing. -/
theorem decodePasswordSyncMessage_eq_ok {J : Json} {msg : Option MessagePtr}
    {out : PasswordSyncMessage} (h : decodePasswordSyncMessage J msg = .ok out) :
    ∃ ptr, msg = some ptr ∧ trimSpace ptr.message.kind = passwordSyncKind ∧
      PasswordSyncMessage.unmarshal J ptr.message.body = .ok out ∧ missingField out = none := by
  cases msg with
  | none => exact absurd h (by simp [decodePasswordSyncMessage])
  | some ptr =>
    simp only [decodePasswordSyncMessage] at h
    split_ifs at h with hkind
    cases hbody : PasswordSyncMessage.unmarshal J ptr.message.body with
    | error err =>
      rw [hbody] at h
      exact absurd h (by simp)
    | ok out' =>
      rw [hbody] at h
      dsimp only at h
      cases hfield : missingField out' with
      | some field =>
        rw [hfield] at h
        exact absurd h (by simp)
      | none =>
        rw [hfield] at h
        obtain rfl := Except.ok.inj h
        exact ⟨ptr, rfl, not_not.1 hkind, hbody, hfield⟩

/-- The JSON form of a message that misses nothing decodes to it. -/
theorem decode_of_marshal {J : Json} {msg : PasswordSyncMessage} {ptr : MessagePtr}
    (utc : msg.enqueuedAt.utc = msg.enqueuedAt) (kind : ptr.message.kind = passwordSyncKind)
    (body : msg.marshal J = .ok ptr.message.body) (full : missingField msg = none) :
    decodePasswordSyncMessage J (some ptr) = .ok msg := by
  have htrim : trimSpace passwordSyncKind = passwordSyncKind := by decide
  have hbody := (PasswordSyncMessage.unmarshal_marshal utc body).1
  simp only [decodePasswordSyncMessage, kind, htrim, ne_eq, not_true_eq_false, if_false, hbody,
    full]

/-- What the hook sent decodes, if at all, to the message it sent. -/
theorem decode_received {J : Json} {q : Queue} {msg out : PasswordSyncMessage} {bus : BusMessage}
    (utc : msg.enqueuedAt.utc = msg.enqueuedAt) (sent : q.busMessage J msg = .ok bus) {addr : ℕ}
    (h : decodePasswordSyncMessage J (some ⟨addr, receivedMessage bus⟩) = .ok out) : out = msg := by
  obtain ⟨ptr, hptr, -, hbody, -⟩ := decodePasswordSyncMessage_eq_ok h
  obtain rfl := Option.some_inj.1 hptr
  have hmarshal := (Queue.received_busMessage sent).2
  rw [(PasswordSyncMessage.unmarshal_marshal utc hmarshal).1] at hbody
  exact (Except.ok.inj hbody).symm

end PasswordHook
