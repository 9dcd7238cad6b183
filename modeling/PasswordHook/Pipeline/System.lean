import PasswordHook.Lib.Interleave
import PasswordHook.Lib.Register
import PasswordHook.Migration.Order
import PasswordHook.SyncStatus.OrderIndependence
import PasswordHook.Worker.Settlement

/-!
# Hooks and workers around one queue

Any number of replicas run `Submit` and `processMessage` against one queue and one status store.
The broker keeps what it accepted and may deliver it again and again, until it expires; a send may
be reported as failed although the broker accepted the message.  Status writes do not fail.

The store is a parameter, a `Backend`.  A `StatusView` says what it is for: at every account it is a
register that keeps the record of greatest rank, except that records may be lost.
-/

namespace PasswordHook

open Prog

/-! ## Status stores -/

/-- A status store with its clock and the broker's, by the answers they give. -/
structure Backend where
  State : Type
  init : State → Prop
  /-- What a reading of the clock can be. -/
  reads : State → Time → Prop
  get : State → String → Except Err Record → Prop
  mark : State → Mark → String → Time → State → Prop
  /-- Changes without a call: the clock goes on, records expire. -/
  env : State → State → Prop
  /-- Whether a message accepted at that reading is still delivered. -/
  delivers : State → Time → Prop
  /-- The accounts in use. -/
  names : Set String

/-- A message the broker accepted, and when. -/
structure Accepted where
  msg : PasswordSyncMessage
  bus : BusMessage
  sentAt : Time

structure Shared (B : Backend) where
  store : B.State
  accepted : List Accepted

/-! ## The system -/

inductive Role where
  | hook
  | worker
  deriving DecidableEq

abbrev Role.interface : Role → Interface
  | .hook => hookInterface
  | .worker => workerInterface

abbrev Role.Result : Role → Type
  | .hook => Decision × Option Err
  | .worker => Option Err

section System

variable (U : Unicode) (q : Queue) (J : Json) (B : Backend)

/-- The answers to the calls of `Submit`. -/
def hookAnswer : (c : HookCall) → Shared B → c.Resp → Shared B → Prop
  | .get upn, s, r, s' => B.get s.store upn r ∧ s' = s
  | .now _, s, t, s' => B.reads s.store t ∧ s' = s
  | .encrypt _ _, s, _, s' => s' = s
  | .enqueuePasswordSync msg, s, r, s' =>
    (∃ sendErr, r = q.enqueuePasswordSync J msg sendErr) ∧
      ((∃ bus t, q.busMessage J msg = .ok bus ∧ B.reads s.store t ∧
          s' = { s with accepted := ⟨msg, bus, t⟩ :: s.accepted }) ∨
        (r ≠ none ∧ s' = s))
  | .markPending upn t, s, r, s' =>
    r = none ∧ B.mark s.store .pending upn t s'.store ∧ s'.accepted = s.accepted
  | .zeroPassword, s, _, s' => s' = s

/-- The answers to the calls of `processMessage`. -/
def workerAnswer : (c : WorkerCall) → Shared B → c.Resp → Shared B → Prop
  | .now, s, t, s' => B.reads s.store t ∧ s' = s
  | .markSynced upn t, s, r, s' =>
    r = none ∧ B.mark s.store .synced upn t s'.store ∧ s'.accepted = s.accepted
  | .markFailed upn t, s, r, s' =>
    r = none ∧ B.mark s.store .failed upn t s'.store ∧ s'.accepted = s.accepted
  | _, s, _, s' => s' = s

/-- The replicas of the service. -/
def pipeline : System Role Role.interface Role.Result (Shared B) where
  init s := B.init s.store ∧ s.accepted = []
  spawn s
    | .hook, p => ∃ svc traceID req, svc.syncStatusStore = true ∧
        (∀ upn, buildUPN U req.cn svc.primaryDomain = .ok upn → upn ∈ B.names) ∧
        p = submit U svc traceID req
    | .worker, p => ∃ w addr, ∃ a ∈ s.accepted, B.delivers s.store a.sentAt ∧
        p = processMessage J w (some ⟨addr, receivedMessage a.bus⟩)
  call
    | .hook => hookAnswer q J B
    | .worker => workerAnswer B
  env s s' := B.env s.store s'.store ∧ s'.accepted = s.accepted

end System

abbrev PipelineWorld (B : Backend) := World Role.interface Role.Result (Shared B)

abbrev PipelineLabel := Label Role.interface Role.Result

abbrev HookThread := Thread hookInterface (Decision × Option Err)

abbrev WorkerThread := Thread workerInterface (Option Err)

/-- The status write a step makes. -/
def writeOf : PipelineLabel → Option (Mark × String × Time)
  | .call .hook _ ⟨.markPending upn t, _⟩ => some (.pending, upn, t)
  | .call .worker _ ⟨.markSynced upn t, _⟩ => some (.synced, upn, t)
  | .call .worker _ ⟨.markFailed upn t, _⟩ => some (.failed, upn, t)
  | _ => none

theorem writeOf_hook {c : HookCall} {upn : String} {t : Time} (h : c.markOf = some (upn, t)) (i : ℕ)
    (r : c.Resp) : writeOf (.call .hook i ⟨c, r⟩) = some (.pending, upn, t) := by
  cases c with
  | markPending upn' t' =>
    cases h
    rfl
  | _ => exact absurd h (by simp [HookCall.markOf])

/-! ## What has happened -/

section History

variable {U : Unicode} {q : Queue} {J : Json} {B : Backend}

variable (U) in
/-- A hook has stamped a message for the account at the instant. -/
def Stamped (W : PipelineWorld B) (key : String) (n : ℤ) : Prop :=
  ∃ (j : ℕ) (t : HookThread), W.pool .hook j = some t ∧
    ∃ upn time, HookEvent.read (.enqueuedAt upn) time ∈ t.past ∧
      normalizeUPN U upn = key ∧ time.nano = n

variable (U) in
/-- A hook has marked the account pending with the stamp. -/
def Marked (W : PipelineWorld B) (key : String) (n : ℤ) : Prop :=
  ∃ (j : ℕ) (t : HookThread), W.pool .hook j = some t ∧
    ∃ e ∈ t.past, ∃ upn time, e.call.markOf = some (upn, time) ∧
      normalizeUPN U upn = key ∧ time.nano = n

/-- The submission of the message has returned `Enqueued`. -/
def ReturnedMessage (W : PipelineWorld B) (msg : PasswordSyncMessage) : Prop :=
  ∃ (j : ℕ) (t : HookThread), W.pool .hook j = some t ∧
    (∃ d err, t.rest = .ret (d, err) ∧ d.enqueued = true) ∧ HookEvent.sent msg none ∈ t.past

variable (U) in
/-- A submission of the account with the stamp has returned `Enqueued`. -/
def Returned (W : PipelineWorld B) (key : String) (n : ℤ) : Prop :=
  ∃ msg, ReturnedMessage W msg ∧ normalizeUPN U msg.upn = key ∧ msg.enqueuedAt.nano = n

variable (J) in
/-- The processor has returned nil for the message. -/
def ProcessedMessage (W : PipelineWorld B) (msg : PasswordSyncMessage) : Prop :=
  ∃ (i : ℕ) (t : WorkerThread), W.pool .worker i = some t ∧
    (∃ w addr, ∃ a ∈ W.shared.accepted, a.msg = msg ∧
      t.start = processMessage J w (some ⟨addr, receivedMessage a.bus⟩)) ∧
    ∃ plaintext, WorkerEvent.processed (commandOf msg plaintext) none ∈ t.past

end History

end PasswordHook
