import PasswordHook.Crypto.Codec
import PasswordHook.Lib.Prog
import PasswordHook.Migration.Message
import PasswordHook.SyncStatus.Status

/-!
# Submitting a password

`Service.Submit` of package `migration`, as a program over its collaborators: the status store, the
clock, the encrypter and the queue.  Whatever they answer, a message is sent at most once, the
account is marked pending only after the queue took the message, and the password buffer is zeroed
last.
-/

namespace PasswordHook

structure Request where
  cn : String
  eventType : EventType
  password : Bytes
  displayName : String
  mail : String

/-- What `Submit` reports; no identity type stands for the zero value. -/
structure Decision where
  identityType : Option IdentityType
  upn : String
  enqueued : Bool
  skipped : Bool
  reason : String
  deriving DecidableEq

def Decision.zero : Decision := ⟨none, "", false, false, ""⟩

/-- A `Service`; the Booleans say whether the queue, the encrypter and the status store are set. -/
structure Service where
  primaryDomain : String
  queue : Bool
  encrypter : Bool
  syncStatusStore : Bool
  pendingTTL : ℤ

def defaultPendingTTL : ℤ := 300 * second

/-- `NewService` -/
def newService (primaryDomain : String) (queue encrypter syncStatusStore : Bool) (pendingTTL : ℤ) :
    Service :=
  ⟨primaryDomain, queue, encrypter, syncStatusStore,
    if pendingTTL ≤ 0 then defaultPendingTTL else pendingTTL⟩

/-! ## Calls -/

/-- What a reading of the clock is for. -/
inductive ClockReading where
  | freshness
  | enqueuedAt (upn : String)
  deriving DecidableEq

/-- The calls `Submit` makes. -/
inductive HookCall where
  | get (upn : String)
  | now (reading : ClockReading)
  | encrypt (plaintext aad : Bytes)
  | enqueuePasswordSync (msg : PasswordSyncMessage)
  | markPending (upn : String) (sourceEnqueuedAt : Time)
  | zeroPassword
  deriving DecidableEq

def HookCall.Resp : HookCall → Type
  | .get _ => Except Err Record
  | .now _ => Time
  | .encrypt _ _ => Except Err Envelope
  | .enqueuePasswordSync _ => Option Err
  | .markPending _ _ => Option Err
  | .zeroPassword => Unit

def hookInterface : Interface := ⟨HookCall, HookCall.Resp⟩

abbrev HookProg := Prog hookInterface

abbrev HookEvent := Event hookInterface

def HookCall.perform (c : HookCall) : HookProg c.Resp := Prog.perform (I := hookInterface) c

namespace HookEvent

def looked (upn : String) (r : Except Err Record) : HookEvent := ⟨.get upn, r⟩

def read (reading : ClockReading) (t : Time) : HookEvent := ⟨.now reading, t⟩

def encrypted (plaintext aad : Bytes) (r : Except Err Envelope) : HookEvent :=
  ⟨.encrypt plaintext aad, r⟩

def sent (msg : PasswordSyncMessage) (r : Option Err) : HookEvent := ⟨.enqueuePasswordSync msg, r⟩

def marked (upn : String) (sourceEnqueuedAt : Time) (r : Option Err) : HookEvent :=
  ⟨.markPending upn sourceEnqueuedAt, r⟩

def zeroed : HookEvent := ⟨.zeroPassword, ()⟩

end HookEvent

/-! ## `Submit` -/

section Submit

variable (U : Unicode) (svc : Service) (traceID : String) (req : Request)

/-- `skipLoginBootstrap`: the reason for which to skip, if any. -/
def skipLoginBootstrap (upn : String) : HookProg (Option String) := do
  match ← HookCall.perform (.get upn) with
  | .error _ => return none
  | .ok rec =>
    match rec.status with
    | .synced => return some "already_synced"
    | .pending =>
      let now ← HookCall.perform (.now .freshness)
      if rec.updatedAt.after now then return none
      else if now.before (rec.updatedAt.add svc.pendingTTL) then return some "sync_pending"
      else return none
    | _ => return none

/-- The message for the request, stamped and with the sealed password. -/
def stampedMessage (upn : String) (enqueuedAt : Time) (env : Envelope) : PasswordSyncMessage where
  cn := trimSpace req.cn
  upn := upn
  eventType := req.eventType
  traceID := traceID
  passwordCiphertext := env.ciphertext
  passwordNonce := env.nonce
  passwordKeyID := env.keyID
  passwordAlg := env.algorithm
  displayName := trimSpace req.displayName
  mail := trimSpace req.mail
  enqueuedAt := enqueuedAt

/-- `Submit` from the stamping of the message on. -/
def submitStamped (decision : Decision) (upn : String) (enqueuedAt : Time) :
    HookProg (Decision × Option Err) := do
  match ← HookCall.perform
      (.encrypt req.password (passwordAAD (trimSpace req.cn) upn enqueuedAt)) with
  | .error err => return (decision, some (.wrap "encrypt password payload" err))
  | .ok env =>
    let msg := stampedMessage traceID req upn enqueuedAt env
    match ← HookCall.perform (.enqueuePasswordSync msg) with
    | some err => return (decision, some err)
    | none =>
      if svc.syncStatusStore then
        let _ ← HookCall.perform (.markPending upn msg.enqueuedAt)
        return ({ decision with enqueued := true }, none)
      else return ({ decision with enqueued := true }, none)

/-- `Submit` after the skip check. -/
def submitEnqueue (decision : Decision) (upn : String) : HookProg (Decision × Option Err) :=
  if !svc.queue then return (decision, some (.new "migration queue is not configured"))
  else if !svc.encrypter then
    return (decision, some (.new "password encrypter is not configured"))
  else do
    let now ← HookCall.perform (.now (.enqueuedAt upn))
    submitStamped svc traceID req decision upn now.utc

/-- `Submit` once the name of the account is known. -/
def submitAccount (decision : Decision) (upn : String) : HookProg (Decision × Option Err) :=
  if req.eventType = eventLoginBootstrap && svc.syncStatusStore then do
    match ← skipLoginBootstrap svc upn with
    | some reason => return ({ decision with skipped := true, reason := reason }, none)
    | none => submitEnqueue svc traceID req decision upn
  else submitEnqueue svc traceID req decision upn

/-- The body of `Submit`. -/
def submitBody : HookProg (Decision × Option Err) :=
  if !validEventType req.eventType then return (.zero, some errInvalidEventType)
  else
    let identityType := classifyCN U req.cn
    let decision : Decision := { Decision.zero with identityType := some identityType }
    if identityType = .externalEmail then
      return ({ decision with skipped := true, reason := "cn_is_external_email" }, none)
    else if identityType = .unknown then return (decision, some errUnknownIdentity)
    else
      match buildUPN U req.cn svc.primaryDomain with
      | .error err => return (decision, some err)
      | .ok upn => submitAccount svc traceID req { decision with upn := upn } upn

/-- `Service.Submit`; the password is zeroed on the way out. -/
def submit : HookProg (Decision × Option Err) := do
  let result ← submitBody U svc traceID req
  HookCall.perform .zeroPassword
  return result

end Submit

/-! ## Complete runs -/

section Runs

variable {U : Unicode} {svc : Service} {traceID : String} {req : Request}
  {τ : List HookEvent} {decision d : Decision} {err : Option Err} {upn : String}

open Prog

theorem hook_resp_nonempty (c : hookInterface.Call) : Nonempty (hookInterface.Resp c) := by
  cases c with
  | get upn => exact ⟨(.error .nil : Except Err Record)⟩
  | now reading => exact ⟨Time.zero⟩
  | encrypt plaintext aad => exact ⟨(.error .nil : Except Err Envelope)⟩
  | enqueuePasswordSync msg => exact ⟨(none : Option Err)⟩
  | markPending upn source => exact ⟨(none : Option Err)⟩
  | zeroPassword => exact ⟨()⟩

/-- A run from the stamping on: the encrypter fails, the queue refuses, or the message is sent and
then, if there is a status store, the account marked. -/
theorem exec_submitStamped {enqueuedAt : Time} {r : Decision × Option Err}
    (h : Exec (submitStamped svc traceID req decision upn enqueuedAt) τ r) :
    (∃ e, τ = [.encrypted req.password (passwordAAD (trimSpace req.cn) upn enqueuedAt) (.error e)] ∧
      r = (decision, some (.wrap "encrypt password payload" e))) ∨
    ∃ env,
      (∃ e, τ = [.encrypted req.password (passwordAAD (trimSpace req.cn) upn enqueuedAt) (.ok env),
          .sent (stampedMessage traceID req upn enqueuedAt env) (some e)] ∧
        r = (decision, some e)) ∨
      (∃ marks : List HookEvent,
        τ = .encrypted req.password (passwordAAD (trimSpace req.cn) upn enqueuedAt) (.ok env) ::
          .sent (stampedMessage traceID req upn enqueuedAt env) none :: marks ∧
        ((svc.syncStatusStore = true ∧ ∃ e, marks = [.marked upn enqueuedAt e]) ∨
          (svc.syncStatusStore = false ∧ marks = [])) ∧
        r = ({ decision with enqueued := true }, none)) := by
  obtain ⟨answer, τ₁, rfl, h₁⟩ := exec_call_iff.1 h
  cases answer with
  | error e =>
    obtain ⟨rfl, rfl⟩ := exec_ret_iff.1 h₁
    exact .inl ⟨e, rfl, rfl⟩
  | ok env =>
    obtain ⟨answer, τ₂, rfl, h₂⟩ := exec_call_iff.1 h₁
    cases answer with
    | some e =>
      obtain ⟨rfl, rfl⟩ := exec_ret_iff.1 h₂
      exact .inr ⟨env, .inl ⟨e, rfl, rfl⟩⟩
    | none =>
      refine .inr ⟨env, .inr ⟨τ₂, rfl, ?_⟩⟩
      change Exec (if svc.syncStatusStore = true then _ else _) τ₂ r at h₂
      split_ifs at h₂ with hs
      · obtain ⟨e, τ₃, rfl, h₃⟩ := exec_call_iff.1 h₂
        obtain ⟨rfl, rfl⟩ := exec_ret_iff.1 h₃
        exact ⟨.inl ⟨hs, e, rfl⟩, rfl⟩
      · obtain ⟨rfl, rfl⟩ := exec_ret_iff.1 h₂
        exact ⟨.inr ⟨Bool.eq_false_iff.2 hs, rfl⟩, rfl⟩

/-- The events of the skip check: the record is read, and for a pending one the clock. -/
def IsLookup (e : HookEvent) : Prop :=
  (∃ upn r, e = .looked upn r) ∨ ∃ t, e = .read .freshness t

/-- The account and stamp of a status write. -/
def HookCall.markOf : HookCall → Option (String × Time)
  | .markPending upn t => some (upn, t)
  | _ => none

theorem IsLookup.markOf {e : HookEvent} (h : IsLookup e) : e.call.markOf = none := by
  rcases h with ⟨upn, r, rfl⟩ | ⟨t, rfl⟩ <;> rfl

/-- A run of the skip check; it skips with `already_synced` only on a synced record. -/
theorem exec_skipLoginBootstrap {reason : Option String}
    (h : Exec (skipLoginBootstrap svc upn) τ reason) :
    ∃ r τ', τ = .looked upn r :: τ' ∧ (∀ e ∈ τ', IsLookup e) ∧
      (reason = some "already_synced" →
        τ' = [] ∧ ∃ record, r = .ok record ∧ record.status = .synced) := by
  obtain ⟨r, τ₁, rfl, h₁⟩ := exec_call_iff.1 h
  refine ⟨r, τ₁, rfl, ?_⟩
  cases r with
  | error e =>
    obtain ⟨rfl, rfl⟩ := exec_ret_iff.1 h₁
    exact ⟨by simp, fun h => absurd h (by simp)⟩
  | ok record =>
    change Exec (match record.status with
      | .synced => _
      | .pending => _
      | _ => _) τ₁ reason at h₁
    cases hs : record.status with
    | synced =>
      rw [hs] at h₁
      obtain ⟨rfl, rfl⟩ := exec_ret_iff.1 h₁
      exact ⟨by simp, fun _ => ⟨rfl, record, rfl, hs⟩⟩
    | pending =>
      rw [hs] at h₁
      obtain ⟨t, τ₂, rfl, h₂⟩ := exec_call_iff.1 h₁
      change Exec (if record.updatedAt.after t = true then _
        else if t.before (record.updatedAt.add svc.pendingTTL) = true then _ else _) τ₂ reason at h₂
      split_ifs at h₂ <;> obtain ⟨rfl, rfl⟩ := exec_ret_iff.1 h₂ <;>
        exact ⟨by simpa using .inr ⟨t, rfl⟩, fun h => absurd h (by simp)⟩
    | unsynced =>
      rw [hs] at h₁
      obtain ⟨rfl, rfl⟩ := exec_ret_iff.1 h₁
      exact ⟨by simp, fun h => absurd h (by simp)⟩
    | failed =>
      rw [hs] at h₁
      obtain ⟨rfl, rfl⟩ := exec_ret_iff.1 h₁
      exact ⟨by simp, fun h => absurd h (by simp)⟩

/-- A run that stops before the stamping. -/
def Unstamped (τ : List HookEvent) (r : Decision × Option Err) : Prop :=
  r.1.enqueued = false ∧ (∀ e ∈ τ, IsLookup e) ∧
    (r.1.skipped = true → r.1.reason = "already_synced" →
      ∃ record, τ = [.looked r.1.upn (.ok record)] ∧ record.status = .synced)

/-- A run that makes some lookups, stamps the message and goes on with it. -/
def StampedRun (svc : Service) (traceID : String) (req : Request) (decision : Decision)
    (upn : String) (τ : List HookEvent) (r : Decision × Option Err) : Prop :=
  ∃ lead t τ', τ = lead ++ HookEvent.read (.enqueuedAt upn) t :: τ' ∧ (∀ e ∈ lead, IsLookup e) ∧
    Exec (submitStamped svc traceID req decision upn t.utc) τ' r

theorem exec_submitEnqueue {r : Decision × Option Err}
    (h : Exec (submitEnqueue svc traceID req decision upn) τ r) :
    (τ = [] ∧ r.1 = decision) ∨
      ∃ t τ', τ = .read (.enqueuedAt upn) t :: τ' ∧
        Exec (submitStamped svc traceID req decision upn t.utc) τ' r := by
  unfold submitEnqueue at h
  split_ifs at h
  · obtain ⟨rfl, rfl⟩ := exec_ret_iff.1 h
    exact .inl ⟨rfl, rfl⟩
  · obtain ⟨rfl, rfl⟩ := exec_ret_iff.1 h
    exact .inl ⟨rfl, rfl⟩
  · obtain ⟨t, τ', rfl, h'⟩ := exec_call_iff.1 h
    exact .inr ⟨t, τ', rfl, h'⟩

theorem stampedRun_of_submitEnqueue {r : Decision × Option Err} {lead τ' : List HookEvent}
    (fresh : decision.enqueued = false ∧ decision.skipped = false) (hlead : ∀ e ∈ lead, IsLookup e)
    (h : Exec (submitEnqueue svc traceID req decision upn) τ' r) :
    Unstamped (lead ++ τ') r ∨ StampedRun svc traceID req decision upn (lead ++ τ') r := by
  rcases exec_submitEnqueue h with ⟨rfl, hr⟩ | ⟨t, τ'', rfl, h'⟩
  · refine .inl ⟨by rw [hr, fresh.1], by simpa using hlead, fun hskip => ?_⟩
    rw [hr, fresh.2] at hskip
    exact absurd hskip (by decide)
  · exact .inr ⟨lead, t, τ'', rfl, hlead, h'⟩

theorem exec_submitAccount {r : Decision × Option Err}
    (fresh : decision.enqueued = false ∧ decision.skipped = false) (named : decision.upn = upn)
    (h : Exec (submitAccount svc traceID req decision upn) τ r) :
    Unstamped τ r ∨ StampedRun svc traceID req decision upn τ r := by
  unfold submitAccount at h
  split_ifs at h
  · obtain ⟨reason, τ₁, τ₂, rfl, hskip, hrest⟩ := exec_bind_iff.1 h
    obtain ⟨record, τ₃, rfl, hlead, hreason⟩ := exec_skipLoginBootstrap hskip
    have hlead' : ∀ e ∈ HookEvent.looked upn record :: τ₃, IsLookup e := by
      intro e he
      rcases List.mem_cons.1 he with rfl | he
      · exact .inl ⟨upn, record, rfl⟩
      · exact hlead e he
    cases reason with
    | none => exact stampedRun_of_submitEnqueue fresh hlead' hrest
    | some reason =>
      obtain ⟨rfl, rfl⟩ := exec_ret_iff.1 hrest
      refine .inl ⟨fresh.1, by simpa using hlead', fun _ he => ?_⟩
      obtain ⟨rfl, rec, rfl, hsynced⟩ := hreason (congrArg some he)
      exact ⟨rec, by simp [named], hsynced⟩
  · show Unstamped ([] ++ τ) r ∨ StampedRun svc traceID req decision upn ([] ++ τ) r
    exact stampedRun_of_submitEnqueue fresh (by simp) h

/-- The decision of a run that has found the account. -/
def namedDecision (U : Unicode) (req : Request) (upn : String) : Decision :=
  ⟨some (classifyCN U req.cn), upn, false, false, ""⟩

/-- A run of the body stops before the stamping, or stamps the message for the account. -/
theorem exec_submitBody {r : Decision × Option Err} (h : Exec (submitBody U svc traceID req) τ r) :
    Unstamped τ r ∨ ∃ upn, buildUPN U req.cn svc.primaryDomain = .ok upn ∧
      StampedRun svc traceID req (namedDecision U req upn) upn τ r := by
  unfold submitBody at h
  dsimp only at h
  split_ifs at h with h₁ h₂ h₃
  · obtain ⟨rfl, rfl⟩ := exec_ret_iff.1 h
    exact .inl ⟨rfl, by simp, fun h => absurd h (by simp [Decision.zero])⟩
  · obtain ⟨rfl, rfl⟩ := exec_ret_iff.1 h
    exact .inl ⟨rfl, by simp, fun _ h => absurd h (by simp)⟩
  · obtain ⟨rfl, rfl⟩ := exec_ret_iff.1 h
    exact .inl ⟨rfl, by simp, fun h => absurd h (by simp [Decision.zero])⟩
  cases hupn : buildUPN U req.cn svc.primaryDomain with
  | error e =>
    rw [hupn] at h
    obtain ⟨rfl, rfl⟩ := exec_ret_iff.1 h
    exact .inl ⟨rfl, by simp, fun h => absurd h (by simp [Decision.zero])⟩
  | ok upn =>
    rw [hupn] at h
    rcases exec_submitAccount ⟨rfl, rfl⟩ rfl h with h | h
    · exact .inl h
    · exact .inr ⟨upn, rfl, h⟩

/-- A run of `Submit` is a run of its body, then the zeroing. -/
theorem exec_submit {r : Decision × Option Err} (h : Exec (submit U svc traceID req) τ r) :
    ∃ τ', τ = τ' ++ [HookEvent.zeroed] ∧ Exec (submitBody U svc traceID req) τ' r := by
  obtain ⟨result, τ₁, τ₂, rfl, h₁, h₂⟩ := exec_bind_iff.1 h
  obtain ⟨⟨⟩, τ₃, rfl, h₃⟩ := exec_call_iff.1 h₂
  obtain ⟨rfl, rfl⟩ := exec_ret_iff.1 h₃
  exact ⟨τ₁, rfl, h₁⟩

/-- A message that a run handed to the queue is the one it stamped, with the envelope it was
given. -/
theorem exec_submit_sent {r : Decision × Option Err} (h : Exec (submit U svc traceID req) τ r)
    {msg : PasswordSyncMessage} {answer : Option Err} (sent : .sent msg answer ∈ τ) :
    ∃ (upn : String) (t : Time) (env : Envelope), buildUPN U req.cn svc.primaryDomain = .ok upn ∧
      msg = stampedMessage traceID req upn t.utc env ∧
      .encrypted req.password (passwordAAD (trimSpace req.cn) upn t.utc) (.ok env) ∈ τ := by
  have hlookup : ∀ {lead : List HookEvent}, (∀ e ∈ lead, IsLookup e) →
      .sent msg answer ∉ lead := by
    intro lead hlead mem
    rcases hlead _ mem with ⟨upn, r, he⟩ | ⟨t, he⟩ <;> cases he
  obtain ⟨τ', rfl, h'⟩ := exec_submit h
  have mem : .sent msg answer ∈ τ' := by
    rcases List.mem_append.1 sent with mem | mem
    · exact mem
    · cases List.mem_singleton.1 mem
  rcases exec_submitBody h' with ⟨-, hlead, -⟩ | ⟨upn, hupn, lead, t, τ'', rfl, hlead, h''⟩
  · exact absurd mem (hlookup hlead)
  · refine ⟨upn, t, ?_⟩
    rcases List.mem_append.1 mem with mem | mem
    · exact absurd mem (hlookup hlead)
    rcases List.mem_cons.1 mem with he | mem
    · cases he
    rcases exec_submitStamped h'' with ⟨e, rfl, -⟩ | ⟨env, ⟨e, rfl, -⟩ | ⟨marks, rfl, hmarks, -⟩⟩
    · cases List.mem_singleton.1 mem
    · refine ⟨env, hupn, ?_, by simp⟩
      simp only [List.mem_cons, List.not_mem_nil, or_false] at mem
      rcases mem with he | he <;> cases he
      rfl
    · refine ⟨env, hupn, ?_, by simp⟩
      simp only [List.mem_cons] at mem
      rcases mem with he | he | mem
      · cases he
      · cases he
        rfl
      · rcases hmarks with ⟨-, e', rfl⟩ | ⟨-, rfl⟩
        · cases List.mem_singleton.1 mem
        · exact absurd mem List.not_mem_nil

/-- A run that skips because the account is synced has read a synced record and done nothing
else. -/
theorem exec_submit_synced (h : Exec (submit U svc traceID req) τ (d, err))
    (skipped : d.skipped = true) (reason : d.reason = "already_synced") :
    ∃ record : Record, τ = [.looked d.upn (.ok record), .zeroed] ∧ record.status = .synced := by
  obtain ⟨τ', rfl, h'⟩ := exec_submit h
  rcases exec_submitBody h' with ⟨-, -, hskip⟩ | ⟨upn, -, lead, t, τ'', -, -, h''⟩
  · obtain ⟨record, rfl, hsynced⟩ := hskip skipped reason
    exact ⟨record, rfl, hsynced⟩
  · have hnot : d.skipped = false := by
      rcases exec_submitStamped h'' with ⟨e, -, hr⟩ | ⟨env, ⟨e, -, hr⟩ | ⟨marks, -, -, hr⟩⟩ <;>
        rw [(Prod.mk.inj hr).1] <;> rfl
    rw [skipped] at hnot
    exact absurd hnot (by decide)

/-- A run that enqueues looks the account up, stamps, seals and sends the message, and marks the
account if there is a status store. -/
theorem exec_submit_enqueued (h : Exec (submit U svc traceID req) τ (d, err))
    (enqueued : d.enqueued = true) :
    ∃ upn t env lead marks, buildUPN U req.cn svc.primaryDomain = .ok upn ∧
      τ = lead ++ HookEvent.read (.enqueuedAt upn) t ::
        HookEvent.encrypted req.password (passwordAAD (trimSpace req.cn) upn t.utc) (.ok env) ::
        HookEvent.sent (stampedMessage traceID req upn t.utc env) none ::
        (marks ++ [HookEvent.zeroed]) ∧
      (∀ e ∈ lead, IsLookup e) ∧
      ((svc.syncStatusStore = true ∧ ∃ e, marks = [.marked upn t.utc e]) ∨
        (svc.syncStatusStore = false ∧ marks = [])) ∧
      ∀ e ∈ τ, ∀ mark, e.call.markOf = some mark → mark = (upn, t.utc) := by
  obtain ⟨τ', rfl, h'⟩ := exec_submit h
  rcases exec_submitBody h' with ⟨hnot, -⟩ | ⟨upn, hupn, lead, t, τ'', rfl, hlead, h''⟩
  · rw [enqueued] at hnot
    exact absurd hnot (by decide)
  · rcases exec_submitStamped h'' with ⟨e, -, hr⟩ | ⟨env, ⟨e, -, hr⟩ | ⟨marks, rfl, hmarks, -⟩⟩
    · rw [(Prod.mk.inj hr).1] at enqueued
      exact absurd enqueued (by simp [namedDecision])
    · rw [(Prod.mk.inj hr).1] at enqueued
      exact absurd enqueued (by simp [namedDecision])
    · refine ⟨upn, t, env, lead, marks, hupn, by simp, hlead, hmarks, ?_⟩
      intro e he mark hmark
      simp only [List.mem_append, List.mem_cons, List.not_mem_nil, or_false] at he
      rcases he with (he | rfl | rfl | rfl | he) | rfl
      · rw [(hlead e he).markOf] at hmark
        exact absurd hmark (by simp)
      · exact absurd hmark (by simp [HookEvent.read, HookCall.markOf])
      · exact absurd hmark (by simp [HookEvent.encrypted, HookCall.markOf])
      · exact absurd hmark (by simp [HookEvent.sent, HookCall.markOf])
      · rcases hmarks with ⟨-, e', rfl⟩ | ⟨-, rfl⟩
        · rw [List.mem_singleton.1 he] at hmark
          exact (Option.some_inj.1 hmark).symm
        · exact absurd he List.not_mem_nil
      · exact absurd hmark (by simp [HookEvent.zeroed, HookCall.markOf])

end Runs

end PasswordHook
