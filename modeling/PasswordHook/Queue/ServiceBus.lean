import PasswordHook.Migration.Message

/-!
# The queue

Package `servicebusqueue`: the Service Bus message that carries a password sync message, and what a
worker gets of it.
-/

namespace PasswordHook

/-- The value of an application property: a string, or a value of another type. -/
inductive PropertyValue where
  | string (s : String)
  | other
  deriving DecidableEq

/-- A Service Bus message, as sent and as received. -/
structure BusMessage where
  applicationProperties : List (String × PropertyValue)
  body : Bytes
  contentType : Option String
  messageID : Option String
  subject : Option String
  timeToLive : Option ℤ
  deriving DecidableEq

def defaultTTL : ℤ := 300 * second

/-- A `Queue`, by the time to live of its messages. -/
structure Queue where
  ttl : ℤ
  ttl_pos : 0 < ttl

/-- `NewWithClient` around a sender that is not nil. -/
def newQueue (ttl : ℤ) : Queue :=
  if h : 0 < ttl then ⟨ttl, h⟩ else ⟨defaultTTL, by decide⟩

/-- The message `EnqueuePasswordSync` hands to the sender. -/
def Queue.busMessage (q : Queue) (J : Json) (msg : PasswordSyncMessage) : Except Err BusMessage :=
  match msg.marshal J with
  | .error err => .error (.wrap "marshal password sync message" err)
  | .ok body =>
    .ok
      { applicationProperties :=
          [("kind", .string "password-sync"), ("cn", .string msg.cn), ("upn", .string msg.upn)]
        body := body
        contentType := some "application/json"
        messageID := some (msg.upn ++ ":" ++ msg.enqueuedAt.utc.formatRFC3339Nano)
        subject := some "password-sync"
        timeToLive := some q.ttl }

/-- `EnqueuePasswordSync`, with `sendErr` what `SendMessage` returns. -/
def Queue.enqueuePasswordSync (q : Queue) (J : Json) (msg : PasswordSyncMessage)
    (sendErr : Option Err) : Option Err :=
  match q.busMessage J msg with
  | .error err => some err
  | .ok _ => sendErr.map (.wrap "send password sync message")

/-! ## Receiving -/

/-- The `Message` of package `worker`. -/
structure Message where
  body : Bytes
  kind : String
  deriving DecidableEq

def messageKind (msg : BusMessage) : String :=
  match msg.applicationProperties.lookup "kind" with
  | some (.string value) => value
  | _ => msg.subject.getD ""

/-- The worker's view of a received message. -/
def receivedMessage (msg : BusMessage) : Message := ⟨msg.body, messageKind msg⟩

theorem Queue.enqueuePasswordSync_eq_none {q : Queue} {J : Json} {msg : PasswordSyncMessage}
    {sendErr : Option Err} :
    q.enqueuePasswordSync J msg sendErr = none ↔
      sendErr = none ∧ ∃ bus, q.busMessage J msg = .ok bus := by
  unfold Queue.enqueuePasswordSync
  cases h : q.busMessage J msg with
  | error err => simp
  | ok bus => simp

/-- A sent message reaches the worker with the kind `password-sync` and the body of its JSON
form. -/
theorem Queue.received_busMessage {q : Queue} {J : Json} {msg : PasswordSyncMessage}
    {bus : BusMessage} (h : q.busMessage J msg = .ok bus) :
    (receivedMessage bus).kind = "password-sync" ∧
    msg.marshal J = .ok (receivedMessage bus).body := by
  unfold Queue.busMessage at h
  split at h
  · exact absurd h (by simp)
  · rename_i body hbody
    rw [← Except.ok.inj h]
    exact ⟨rfl, hbody⟩

end PasswordHook
