import PasswordHook.Lib.Lockstep
import PasswordHook.Migration.Order

/-!
# What comes of a submission

Every run of `Submit` fails, skips or enqueues, and what it has done to the queue and the status
store follows from that (`submit_exact`).  The two event types that change a password never read the
store, so what comes of them is the same whatever the store does.
-/

namespace PasswordHook

open Prog

/-- The account is one that the service migrates. -/
def IdentityType.isInternal : IdentityType → Bool
  | .studentID => true
  | .employeeID => true
  | _ => false

/-- The message that the queue took. -/
def HookEvent.takenMessage : HookEvent → Option PasswordSyncMessage
  | ⟨.enqueuePasswordSync msg, answer⟩ =>
    match (answer : Option Err) with
    | none => some msg
    | some _ => none
  | _ => none

def takenMessages (τ : List HookEvent) : List PasswordSyncMessage :=
  τ.filterMap HookEvent.takenMessage

/-- The accounts and stamps of the calls of `MarkPending`. -/
def pendingMarks (τ : List HookEvent) : List (String × Time) := τ.filterMap fun e => e.call.markOf

/-- Exactly one of: an error, a skip, an enqueued message. -/
def OneOutcome (d : Decision) (err : Option Err) : Prop :=
  (err ≠ none ∧ d.skipped = false ∧ d.enqueued = false) ∨
    (err = none ∧ d.skipped = true ∧ d.enqueued = false) ∨
    (err = none ∧ d.skipped = false ∧ d.enqueued = true)

/-- The record that was read makes a `login_bootstrap` needless: the account is synced, or a message
for it is on its way and not older than the pending time. -/
def FoundNeedless (svc : Service) (upn : String) (τ : List HookEvent) : Prop :=
  ∃ record : Record, .looked upn (.ok record) ∈ τ ∧
    (record.status = .synced ∨ record.status = .pending ∧ ∃ now : Time,
      .read .freshness now ∈ τ ∧ record.updatedAt.nano ≤ now.nano ∧
        now.nano < record.updatedAt.nano + svc.pendingTTL)

variable {U : Unicode} {svc : Service} {traceID : String} {req : Request} {τ : List HookEvent}
  {decision : Decision} {upn : String} {r : Decision × Option Err}

/-! ## The skip check -/

/-- Without a reading of the clock only a synced record is enough. -/
theorem foundNeedless_looked_iff {answer : Except Err Record} :
    FoundNeedless svc upn [.looked upn answer] ↔
      ∃ record, answer = .ok record ∧ record.status = .synced := by
  constructor
  · rintro ⟨record, hmem, hfound⟩
    cases List.mem_singleton.1 hmem
    refine ⟨record, rfl, ?_⟩
    rcases hfound with hs | ⟨-, now, hread, -⟩
    · exact hs
    · cases List.mem_singleton.1 hread
  · rintro ⟨record, rfl, hs⟩
    exact ⟨record, List.mem_cons_self, .inl hs⟩

theorem foundNeedless_pending_iff {record : Record} (hp : record.status = .pending) {now : Time} :
    FoundNeedless svc upn [.looked upn (.ok record), .read .freshness now] ↔
      record.updatedAt.nano ≤ now.nano ∧ now.nano < record.updatedAt.nano + svc.pendingTTL := by
  constructor
  · rintro ⟨record', hmem, hfound⟩
    have hrecord : record' = record := by
      rcases List.mem_cons.1 hmem with he | hmem
      · cases he
        rfl
      · cases List.mem_singleton.1 hmem
    subst hrecord
    rcases hfound with hs | ⟨-, now', hread, hwindow⟩
    · rw [hp] at hs
      cases hs
    · rcases List.mem_cons.1 hread with he | hread
      · cases he
      · cases List.mem_singleton.1 hread
        exact hwindow
  · intro hwindow
    exact ⟨record, List.mem_cons_self, .inr ⟨hp, now, by simp, hwindow⟩⟩

/-- A record that was written at or before the reading, and less than the pending time before it. -/
theorem exec_pendingCheck_iff {record : Record} {now : Time} {reason : Option String} :
    Exec (if record.updatedAt.after now then return none
        else if now.before (record.updatedAt.add svc.pendingTTL) then return some "sync_pending"
        else return none : HookProg (Option String)) τ reason ↔
      τ = [] ∧ reason = if record.updatedAt.nano ≤ now.nano ∧
        now.nano < record.updatedAt.nano + svc.pendingTTL then some "sync_pending" else none := by
  have hafter : record.updatedAt.after now = true ↔ now.nano < record.updatedAt.nano :=
    decide_eq_true_iff
  have hbefore : Time.before now (record.updatedAt.add svc.pendingTTL) = true ↔
      now.nano < record.updatedAt.nano + svc.pendingTTL := decide_eq_true_iff
  have hret : ∀ answer : Option String, Exec (return answer : HookProg (Option String)) τ reason ↔
      τ = [] ∧ reason = answer := fun answer =>
        exec_ret_iff.trans (and_congr_right fun _ => eq_comm)
  by_cases hwritten : record.updatedAt.after now = true
  · rw [if_pos hwritten, if_neg (fun h => absurd (hafter.1 hwritten) (not_lt.2 h.1))]
    exact hret _
  · rw [if_neg hwritten]
    rw [hafter, not_lt] at hwritten
    by_cases hfresh : Time.before now (record.updatedAt.add svc.pendingTTL) = true
    · rw [if_pos hfresh, if_pos ⟨hwritten, hbefore.1 hfresh⟩]
      exact hret _
    · rw [if_neg hfresh, if_neg (fun h => hfresh (hbefore.2 h.2))]
      exact hret _

/-- What the check reads, and its answer. -/
theorem exec_skipLoginBootstrap_cases {reason : Option String} :
    Exec (skipLoginBootstrap svc upn) τ reason ↔
      (∃ e, τ = [.looked upn (.error e)] ∧ reason = none) ∨
      ∃ record : Record,
        (record.status ≠ .pending ∧ τ = [.looked upn (.ok record)] ∧
          reason = if record.status = .synced then some "already_synced" else none) ∨
        (record.status = .pending ∧ ∃ now : Time,
          τ = [.looked upn (.ok record), .read .freshness now] ∧
            reason = if record.updatedAt.nano ≤ now.nano ∧
              now.nano < record.updatedAt.nano + svc.pendingTTL then some "sync_pending"
                else none) := by
  constructor
  · intro h
    obtain ⟨answer, τ₁, rfl, h₁⟩ := exec_call_iff.1 h
    cases answer with
    | error e =>
      obtain ⟨rfl, rfl⟩ := exec_ret_iff.1 h₁
      exact .inl ⟨e, rfl, rfl⟩
    | ok record =>
      refine .inr ⟨record, ?_⟩
      obtain ⟨status, updatedAt, source⟩ := record
      cases status with
      | pending =>
        obtain ⟨now, τ₂, rfl, h₂⟩ := exec_call_iff.1 h₁
        obtain ⟨rfl, hreason⟩ := exec_pendingCheck_iff.1 h₂
        exact .inr ⟨rfl, now, rfl, hreason⟩
      | _ =>
        obtain ⟨rfl, rfl⟩ := exec_ret_iff.1 h₁
        exact .inl ⟨nofun, rfl, rfl⟩
  · rintro (⟨e, rfl, rfl⟩ | ⟨⟨status, updatedAt, source⟩, h⟩)
    · exact exec_call_iff.2 ⟨.error e, [], rfl, .refl _⟩
    · rcases h with ⟨hstatus, rfl, rfl⟩ | ⟨rfl, now, rfl, rfl⟩
      · refine exec_call_iff.2 ⟨.ok ⟨status, updatedAt, source⟩, [], rfl, ?_⟩
        cases status with
        | pending => exact absurd rfl hstatus
        | _ => exact .refl _
      · refine exec_call_iff.2 ⟨.ok ⟨.pending, updatedAt, source⟩, [HookEvent.read .freshness now],
          rfl, ?_⟩
        refine exec_call_iff.2 ⟨now, [], rfl, ?_⟩
        exact exec_pendingCheck_iff.2 ⟨rfl, rfl⟩

/-- The check skips just if what it read makes the event needless. -/
theorem exec_skipLoginBootstrap_iff {reason : Option String}
    (h : Exec (skipLoginBootstrap svc upn) τ reason) :
    reason ≠ none ↔ FoundNeedless svc upn τ := by
  rcases exec_skipLoginBootstrap_cases.1 h with ⟨e, rfl, rfl⟩ | ⟨record, h⟩
  · refine Iff.trans ?_ foundNeedless_looked_iff.symm
    simp
  · rcases h with ⟨-, rfl, rfl⟩ | ⟨hs, now, rfl, rfl⟩
    · refine Iff.trans ?_ foundNeedless_looked_iff.symm
      simp
    · refine Iff.trans ?_ (foundNeedless_pending_iff hs).symm
      simp

/-- The calls of the skip check. -/
def HookCall.isLookup : HookCall → Bool
  | .get _ => true
  | .now .freshness => true
  | _ => false

/-- Other calls do not matter for what was found. -/
theorem foundNeedless_append_iff {τ' : List HookEvent} (h : ∀ e ∈ τ', e.call.isLookup = false) :
    FoundNeedless svc upn (τ ++ τ') ↔ FoundNeedless svc upn τ := by
  have hmem : ∀ e : HookEvent, e.call.isLookup = true → (e ∈ τ ++ τ' ↔ e ∈ τ) := by
    intro e he
    rw [List.mem_append, or_iff_left]
    intro he'
    rw [h e he'] at he
    cases he
  unfold FoundNeedless
  simp only [hmem (.looked _ _) rfl, hmem (.read .freshness _) rfl]

/-! ## Stamping, sealing and sending -/

/-- What a submission past the skip check has done: it failed without anything taken, or the queue
took one message and the store, if there is one, was told of that message. -/
def EnqueueOutcome (svc : Service) (decision : Decision) (τ : List HookEvent)
    (r : Decision × Option Err) : Prop :=
  (r.1 = decision ∧ r.2 ≠ none ∧ takenMessages τ = [] ∧ pendingMarks τ = []) ∨
    ∃ msg, r = ({ decision with enqueued := true }, none) ∧ takenMessages τ = [msg] ∧
      pendingMarks τ = if svc.syncStatusStore then [(msg.upn, msg.enqueuedAt)] else []

theorem enqueueOutcome_submitStamped {t : Time}
    (h : Exec (submitStamped svc traceID req decision upn t) τ r) :
    EnqueueOutcome svc decision τ r ∧ ∀ e ∈ τ, e.call.isLookup = false := by
  rcases exec_submitStamped h with ⟨e, rfl, rfl⟩ | ⟨env, ⟨e, rfl, rfl⟩ | ⟨marks, rfl, hmarks, rfl⟩⟩
  · exact ⟨.inl ⟨rfl, by simp, rfl, rfl⟩, by simp [HookEvent.encrypted, HookCall.isLookup]⟩
  · exact ⟨.inl ⟨rfl, by simp, rfl, rfl⟩,
      by simp [HookEvent.encrypted, HookEvent.sent, HookCall.isLookup]⟩
  · rcases hmarks with ⟨hs, e, rfl⟩ | ⟨hs, rfl⟩
    · refine ⟨.inr ⟨stampedMessage traceID req upn t env, rfl, rfl, by rw [hs]; rfl⟩, ?_⟩
      simp [HookEvent.encrypted, HookEvent.sent, HookEvent.marked, HookCall.isLookup]
    · refine ⟨.inr ⟨stampedMessage traceID req upn t env, rfl, rfl, by rw [hs]; rfl⟩, ?_⟩
      simp [HookEvent.encrypted, HookEvent.sent, HookCall.isLookup]

theorem enqueueOutcome_submitEnqueue (h : Exec (submitEnqueue svc traceID req decision upn) τ r) :
    EnqueueOutcome svc decision τ r ∧ ∀ e ∈ τ, e.call.isLookup = false := by
  unfold submitEnqueue at h
  split_ifs at h
  · obtain ⟨rfl, rfl⟩ := exec_ret_iff.1 h
    exact ⟨.inl ⟨rfl, by simp, rfl, rfl⟩, by simp⟩
  · obtain ⟨rfl, rfl⟩ := exec_ret_iff.1 h
    exact ⟨.inl ⟨rfl, by simp, rfl, rfl⟩, by simp⟩
  · obtain ⟨t, τ', rfl, h'⟩ := exec_call_iff.1 h
    obtain ⟨houtcome, hlookup⟩ := enqueueOutcome_submitStamped h'
    exact ⟨houtcome, List.forall_mem_cons.2 ⟨rfl, hlookup⟩⟩

/-- A submission past the check is not skipped. -/
theorem not_skipped_of_submitEnqueue {d : Decision} {err : Option Err}
    (fresh : decision.skipped = false)
    (h : Exec (submitEnqueue svc traceID req decision upn) τ (d, err)) : d.skipped = false := by
  rcases (enqueueOutcome_submitEnqueue h).1 with ⟨hd, -⟩ | ⟨msg, hr, -⟩
  · rw [show d = decision from hd, fresh]
  · rw [(Prod.mk.inj hr).1]
    exact fresh

/-! ## The whole of `Submit` -/

theorem takenMessages_append (τ τ' : List HookEvent) :
    takenMessages (τ ++ τ') = takenMessages τ ++ takenMessages τ' := List.filterMap_append

theorem pendingMarks_append (τ τ' : List HookEvent) :
    pendingMarks (τ ++ τ') = pendingMarks τ ++ pendingMarks τ' := List.filterMap_append

/-- Looking an account up neither sends nor marks anything. -/
theorem nothing_done_of_lookups (h : ∀ e ∈ τ, IsLookup e) :
    takenMessages τ = [] ∧ pendingMarks τ = [] := by
  refine ⟨List.filterMap_eq_nil_iff.2 fun e he => ?_, List.filterMap_eq_nil_iff.2 fun e he => ?_⟩
  · rcases h e he with ⟨upn, r, rfl⟩ | ⟨t, rfl⟩ <;> rfl
  · exact (h e he).markOf

/-- A run of the body: it ends before the account is named, or it looks the account up if the event
and the service ask for it, and then skips or goes on to enqueue. -/
theorem exec_submitBody_cases (h : Exec (submitBody U svc traceID req) τ r) :
    (τ = [] ∧ OneOutcome r.1 r.2 ∧ r.1.enqueued = false ∧
      ((classifyCN U req.cn).isInternal = true → r.1.skipped = false)) ∨
    ∃ upn lead reason, buildUPN U req.cn svc.primaryDomain = .ok upn ∧
      (if req.eventType = eventLoginBootstrap && svc.syncStatusStore then
        Exec (skipLoginBootstrap svc upn) lead reason
      else lead = [] ∧ reason = none) ∧
      match reason with
      | some reason => τ = lead ∧
        r = ({ namedDecision U req upn with skipped := true, reason := reason }, none)
      | none => ∃ τ', τ = lead ++ τ' ∧
        Exec (submitEnqueue svc traceID req (namedDecision U req upn) upn) τ' r := by
  unfold submitBody at h
  dsimp only at h
  split_ifs at h with h₁ h₂ h₃
  · obtain ⟨rfl, rfl⟩ := exec_ret_iff.1 h
    exact .inl ⟨rfl, .inl ⟨by simp, rfl, rfl⟩, rfl, fun _ => rfl⟩
  · obtain ⟨rfl, rfl⟩ := exec_ret_iff.1 h
    exact .inl ⟨rfl, .inr (.inl ⟨rfl, rfl, rfl⟩), rfl,
      fun hi => by simp [h₂, IdentityType.isInternal] at hi⟩
  · obtain ⟨rfl, rfl⟩ := exec_ret_iff.1 h
    exact .inl ⟨rfl, .inl ⟨by simp, rfl, rfl⟩, rfl, fun _ => rfl⟩
  cases hupn : buildUPN U req.cn svc.primaryDomain with
  | error e =>
    rw [hupn] at h
    obtain ⟨rfl, rfl⟩ := exec_ret_iff.1 h
    exact .inl ⟨rfl, .inl ⟨by simp, rfl, rfl⟩, rfl, fun _ => rfl⟩
  | ok upn =>
    rw [hupn] at h
    change Exec (submitAccount svc traceID req (namedDecision U req upn) upn) τ r at h
    unfold submitAccount at h
    split_ifs at h with hlogin
    · obtain ⟨reason, lead, τ', rfl, hskip, hrest⟩ := exec_bind_iff.1 h
      refine .inr ⟨upn, lead, reason, rfl, by rwa [if_pos hlogin], ?_⟩
      cases reason with
      | some reason =>
        obtain ⟨rfl, rfl⟩ := exec_ret_iff.1 hrest
        exact ⟨by simp, rfl⟩
      | none => exact ⟨τ', rfl, hrest⟩
    · exact .inr ⟨upn, [], none, rfl, by rw [if_neg hlogin]; exact ⟨rfl, rfl⟩, τ, rfl, h⟩

/-- What a run of `Submit` that returned has done: it failed, skipped or enqueued; a message was
taken by the queue once if it enqueued and never otherwise; and `MarkPending` was called for the
message that was taken, if there is a store, with its account and stamp. -/
structure SubmitOutcome (svc : Service) (τ : List HookEvent) (d : Decision) (err : Option Err) :
    Prop where
  one : OneOutcome d err
  taken : (takenMessages τ).length = if d.enqueued then 1 else 0
  marked : pendingMarks τ =
    if svc.syncStatusStore then (takenMessages τ).map fun msg => (msg.upn, msg.enqueuedAt) else []

theorem submitOutcome_of_nothing {d : Decision} {err : Option Err} (one : OneOutcome d err)
    (enqueued : d.enqueued = false) (h : takenMessages τ = [] ∧ pendingMarks τ = []) :
    SubmitOutcome svc τ d err where
  one := one
  taken := by rw [h.1, enqueued]; rfl
  marked := by rw [h.1, h.2]; simp

theorem EnqueueOutcome.submitOutcome (h : EnqueueOutcome svc (namedDecision U req upn) τ r) :
    SubmitOutcome svc τ r.1 r.2 := by
  rcases h with ⟨hd, herr, hnothing⟩ | ⟨msg, rfl, htaken, hmarks⟩
  · rw [hd]
    exact submitOutcome_of_nothing (.inl ⟨herr, rfl, rfl⟩) rfl hnothing
  · refine ⟨.inr (.inr ⟨rfl, rfl, rfl⟩), ?_, ?_⟩
    · rw [htaken]
      rfl
    · rw [hmarks, htaken]
      rfl

/-- Events that neither send nor mark can stand around. -/
theorem SubmitOutcome.around {lead trail : List HookEvent} {d : Decision} {err : Option Err}
    (h : SubmitOutcome svc τ d err) (hlead : takenMessages lead = [] ∧ pendingMarks lead = [])
    (htrail : takenMessages trail = [] ∧ pendingMarks trail = []) :
    SubmitOutcome svc (lead ++ τ ++ trail) d err := by
  have htaken : takenMessages (lead ++ τ ++ trail) = takenMessages τ := by
    rw [takenMessages_append, takenMessages_append, hlead.1, htrail.1]
    simp
  have hmarks : pendingMarks (lead ++ τ ++ trail) = pendingMarks τ := by
    rw [pendingMarks_append, pendingMarks_append, hlead.2, htrail.2]
    simp
  refine ⟨h.one, ?_, ?_⟩
  · rw [htaken, h.taken]
  · rw [htaken, hmarks, h.marked]

/-- The events before the stamping look the account up. -/
theorem isLookup_of_lead {lead : List HookEvent} {reason : Option String}
    (h : if req.eventType = eventLoginBootstrap && svc.syncStatusStore then
      Exec (skipLoginBootstrap svc upn) lead reason else lead = [] ∧ reason = none) :
    ∀ e ∈ lead, IsLookup e := by
  split_ifs at h
  · obtain ⟨record, lead', rfl, hlead, -⟩ := exec_skipLoginBootstrap h
    exact List.forall_mem_cons.2 ⟨.inl ⟨upn, record, rfl⟩, hlead⟩
  · simp [h.1]

theorem submitOutcome_submit {d : Decision} {err : Option Err}
    (h : Exec (submit U svc traceID req) τ (d, err)) : SubmitOutcome svc τ d err := by
  obtain ⟨τ', rfl, h'⟩ := exec_submit h
  have hzeroed : takenMessages [.zeroed] = [] ∧ pendingMarks [.zeroed] = [] := ⟨rfl, rfl⟩
  rcases exec_submitBody_cases h' with ⟨rfl, hone, henqueued, -⟩ |
    ⟨upn, lead, reason, -, hlead, hrest⟩
  · exact submitOutcome_of_nothing hone henqueued hzeroed
  · have hlookups := nothing_done_of_lookups (isLookup_of_lead hlead)
    cases reason with
    | some reason =>
      obtain ⟨rfl, hr⟩ := hrest
      obtain ⟨rfl, rfl⟩ := Prod.mk.inj hr
      apply submitOutcome_of_nothing (.inr (.inl ⟨rfl, rfl, rfl⟩)) rfl
      rw [takenMessages_append, pendingMarks_append, hlookups.1, hlookups.2]
      exact hzeroed
    | none =>
      obtain ⟨tail, rfl, htail⟩ := hrest
      exact (enqueueOutcome_submitEnqueue htail).1.submitOutcome.around hlookups hzeroed

/-- The account that was found synced is the one the request names. -/
theorem buildUPN_of_skipped_synced {d : Decision} {err : Option Err}
    (h : Exec (submit U svc traceID req) τ (d, err)) (skipped : d.skipped = true)
    (reason : d.reason = "already_synced") : buildUPN U req.cn svc.primaryDomain = .ok d.upn := by
  obtain ⟨record, hlooked, -⟩ := exec_submit_synced h skipped reason
  obtain ⟨τ', rfl, h'⟩ := exec_submit h
  rcases exec_submitBody_cases h' with ⟨rfl, -⟩ | ⟨upn, lead, why, hupn, -, hrest⟩
  · cases hlooked
  · cases why with
    | some why =>
      obtain ⟨-, hr⟩ := hrest
      rw [(Prod.mk.inj hr).1]
      exact hupn
    | none =>
      obtain ⟨tail, rfl, htail⟩ := hrest
      rw [not_skipped_of_submitEnqueue rfl htail] at skipped
      cases skipped

/-- When a `login_bootstrap` is skipped. -/
theorem skipped_iff_foundNeedless {d : Decision} {err : Option Err}
    (h : Exec (submit U svc traceID req) τ (d, err)) (login : req.eventType = eventLoginBootstrap)
    (internal : (classifyCN U req.cn).isInternal = true) (store : svc.syncStatusStore = true) :
    d.skipped = true ↔ ∃ upn, buildUPN U req.cn svc.primaryDomain = .ok upn ∧
      FoundNeedless svc upn τ := by
  obtain ⟨τ', rfl, h'⟩ := exec_submit h
  have hzeroed : ∀ e ∈ [HookEvent.zeroed], e.call.isLookup = false := by
    simp [HookEvent.zeroed, HookCall.isLookup]
  rcases exec_submitBody_cases h' with ⟨rfl, -, -, hskip⟩ | ⟨upn, lead, reason, hupn, hlead, hrest⟩
  · have hnothing : ∀ upn, ¬ FoundNeedless svc upn ([] ++ [HookEvent.zeroed]) := by
      intro upn hfound
      obtain ⟨record, hmem, -⟩ := (foundNeedless_append_iff hzeroed).1 hfound
      cases hmem
    rw [hskip internal]
    constructor
    · intro hfalse
      cases hfalse
    · rintro ⟨upn, -, hfound⟩
      exact absurd hfound (hnothing upn)
  · rw [if_pos (by simp [login, store])] at hlead
    have hreason := exec_skipLoginBootstrap_iff hlead
    -- The account that was looked up is the one the request names.
    have hfound : (∃ upn, buildUPN U req.cn svc.primaryDomain = .ok upn ∧
        FoundNeedless svc upn (τ' ++ [HookEvent.zeroed])) ↔
        FoundNeedless svc upn (τ' ++ [HookEvent.zeroed]) := by
      simp [hupn]
    rw [hfound, foundNeedless_append_iff hzeroed]
    cases reason with
    | some reason =>
      obtain ⟨rfl, hr⟩ := hrest
      obtain ⟨rfl, -⟩ := Prod.mk.inj hr
      exact ⟨fun _ => hreason.1 (by simp), fun _ => rfl⟩
    | none =>
      obtain ⟨tail, rfl, htail⟩ := hrest
      rw [foundNeedless_append_iff (enqueueOutcome_submitEnqueue htail).2, ← hreason]
      simp [not_skipped_of_submitEnqueue rfl htail]

/-! ## Without the store -/

/-- An answer of the clock, the encrypter or the queue. -/
inductive HookAnswer where
  | read (t : Time)
  | encrypted (r : Except Err Envelope)
  | taken (r : Option Err)

def HookEvent.answer : HookEvent → Option HookAnswer
  | ⟨.now _, t⟩ => some (.read t)
  | ⟨.encrypt _ _, r⟩ => some (.encrypted r)
  | ⟨.enqueuePasswordSync _, r⟩ => some (.taken r)
  | _ => none

/-- The service with or without a status store. -/
def Service.withStore (svc : Service) (store : Bool) : Service :=
  { svc with syncStatusStore := store }

/-- Submissions that are told the same by all but the store send the same and return the same. -/
abbrev StoreBlind (p p' : HookProg (Decision × Option Err)) : Prop :=
  Lockstep (I := hookInterface) HookCall.sentOf HookEvent.answer Eq p p'

theorem storeBlind_submitStamped (store store' : Bool) (t : Time) :
    StoreBlind (submitStamped (svc.withStore store) traceID req decision upn t)
      (submitStamped (svc.withStore store') traceID req decision upn t) := by
  apply Lockstep.call rfl (fun _ _ => rfl)
  intro answer answer' same
  obtain rfl : answer = answer' := HookAnswer.encrypted.inj (Option.some.inj same)
  cases answer with
  | error e => exact .ret rfl
  | ok env =>
    apply Lockstep.call rfl (fun _ _ => rfl)
    intro answer answer' same
    obtain rfl : answer = answer' := HookAnswer.taken.inj (Option.some.inj same)
    cases answer with
    | some e => exact .ret rfl
    | none =>
      cases store with
      | false =>
        cases store' with
        | false => exact .ret rfl
        | true => exact .right rfl (fun _ => rfl) fun _ => .ret rfl
      | true =>
        apply Lockstep.left rfl (fun _ => rfl)
        intro _
        cases store' with
        | false => exact .ret rfl
        | true => exact .right rfl (fun _ => rfl) fun _ => .ret rfl

theorem storeBlind_submitEnqueue (store store' : Bool) :
    StoreBlind (submitEnqueue (svc.withStore store) traceID req decision upn)
      (submitEnqueue (svc.withStore store') traceID req decision upn) := by
  apply Lockstep.ite (.ret rfl)
  apply Lockstep.ite (.ret rfl)
  apply Lockstep.call rfl (fun _ _ => rfl)
  intro t t' same
  obtain rfl : t = t' := HookAnswer.read.inj (Option.some.inj same)
  exact storeBlind_submitStamped store store' t.utc

theorem storeBlind_submit (login : req.eventType ≠ eventLoginBootstrap) (store store' : Bool) :
    StoreBlind (submit U (svc.withStore store) traceID req)
      (submit U (svc.withStore store') traceID req) := by
  have haccount : ∀ store decision upn,
      submitAccount (svc.withStore store) traceID req decision upn =
      submitEnqueue (svc.withStore store) traceID req decision upn := by
    intro store decision upn
    rw [submitAccount, if_neg (by simp [login])]
  have hbody : StoreBlind (submitBody U (svc.withStore store) traceID req)
      (submitBody U (svc.withStore store') traceID req) := by
    apply Lockstep.ite (.ret rfl)
    apply Lockstep.ite (.ret rfl)
    apply Lockstep.ite (.ret rfl)
    have hdomain : ∀ store, (svc.withStore store).primaryDomain = svc.primaryDomain := fun _ => rfl
    rw [hdomain store, hdomain store']
    cases buildUPN U req.cn svc.primaryDomain with
    | error e => exact .ret rfl
    | ok upn =>
      dsimp only
      rw [haccount, haccount]
      exact storeBlind_submitEnqueue store store'
  apply hbody.bind
  rintro result _ rfl
  apply Lockstep.call rfl (fun _ _ => rfl)
  intro _ _ _
  exact .ret rfl

/-! ## Account names -/

theorem toLower_ne_empty {s : String} (h : s ≠ "") : toLower U s ≠ "" := by
  intro he
  have hlist : (toLower U s).toList = [] := by rw [he]; rfl
  rw [toList_toLower, List.map_eq_nil_iff] at hlist
  exact h (String.toList_inj.1 hlist)

/-- The common name is classified in the same way before and after it is trimmed. -/
theorem classifyCN_trimSpace (U : Unicode) (cn : String) :
    classifyCN U (trimSpace cn) = classifyCN U cn := by
  simp only [classifyCN, trimSpace_trimSpace]

theorem buildUPN_of_internal {cn domain : String} (internal : (classifyCN U cn).isInternal = true)
    (hdomain : trimSpace domain ≠ "") :
    buildUPN U cn domain = .ok (trimSpace cn ++ "@" ++ toLower U (trimSpace domain)) := by
  have hcn : trimSpace cn ≠ "" := by
    intro hempty
    have hunknown : classifyCN U cn = .unknown := by simp [classifyCN, hempty]
    rw [hunknown] at internal
    cases internal
  unfold buildUPN
  dsimp only
  rw [if_neg hcn, if_neg (toLower_ne_empty hdomain), classifyCN_trimSpace]
  cases hclass : classifyCN U cn with
  | studentID => rfl
  | employeeID => rfl
  | externalEmail => rw [hclass] at internal; cases internal
  | unknown => rw [hclass] at internal; cases internal

/-! ## Exactness -/

/-- What comes of a submission is exact.  Every run fails, skips or enqueues, with the message taken
and the account marked as that says, and marks only after the queue took the message; a
`login_bootstrap` of an internal account is skipped just if the record read makes it needless; a
change or a recovery of a password has a result and a message that do not depend on the store; and
every internal name has an account name in every domain that is not blank. -/
theorem submit_exact (U : Unicode) (svc : Service) (traceID : String) (req : Request) :
    (∀ τ d err, Exec (submit U svc traceID req) τ (d, err) →
      SubmitOutcome svc τ d err ∧
      (∀ upn t, Precedes (TakenFor upn t) (fun e => e.call.markOf = some (upn, t)) τ) ∧
      (req.eventType = eventLoginBootstrap → (classifyCN U req.cn).isInternal = true →
        svc.syncStatusStore = true →
        (d.skipped = true ↔ ∃ upn, buildUPN U req.cn svc.primaryDomain = .ok upn ∧
          FoundNeedless svc upn τ))) ∧
    (req.eventType = eventPasswordChange ∨ req.eventType = eventPasswordRecovery →
      ∀ store store' τ τ' r r', Exec (submit U (svc.withStore store) traceID req) τ r →
        Exec (submit U (svc.withStore store') traceID req) τ' r' →
        told HookEvent.answer τ = told HookEvent.answer τ' →
        shown (I := hookInterface) HookCall.sentOf τ =
          shown (I := hookInterface) HookCall.sentOf τ' ∧
          r = r') ∧
    ((classifyCN U req.cn).isInternal = true → trimSpace svc.primaryDomain ≠ "" →
      buildUPN U req.cn svc.primaryDomain =
        .ok (trimSpace req.cn ++ "@" ++ toLower U (trimSpace svc.primaryDomain))) := by
  refine ⟨fun τ d err h => ⟨submitOutcome_submit h, (ordered_submit h).taken_first,
    skipped_iff_foundNeedless h⟩, ?_, buildUPN_of_internal⟩
  intro hevent store store' τ τ' r r' run run' same
  have hlogin : req.eventType ≠ eventLoginBootstrap := by
    rcases hevent with he | he <;> rw [he] <;> decide
  exact (storeBlind_submit hlogin store store').shown_eq run run' same

/-- A login of an account with a message on its way. -/
def pendingLogin : Request := ⟨" b11001", eventLoginBootstrap, [112], "", ""⟩

def pendingService : Service := newService " NYCU.edu.tw" true true true 0

/-- The record was written a second before the clock is read. -/
def pendingLookup : List HookEvent :=
  [.looked "b11001@nycu.edu.tw" (.ok ⟨.pending, ⟨second, 0⟩, ⟨second, 0⟩⟩),
    .read .freshness ⟨2 * second, 0⟩]

theorem exec_skipLoginBootstrap_pending :
    Exec (skipLoginBootstrap pendingService "b11001@nycu.edu.tw")
    pendingLookup (some "sync_pending") := .call _ _ _ (.call _ _ _ (.refl _))

def pendingDecision :
    Decision := ⟨some .employeeID, "b11001@nycu.edu.tw", false, true, "sync_pending"⟩

/-- The login is skipped, nothing is sent and nothing is marked. -/
theorem submit_exact_pending :
    let τ := pendingLookup ++ [.zeroed]
    Exec (submit .ascii pendingService "" pendingLogin) τ (pendingDecision, none) ∧
      (takenMessages τ).length = 0 ∧ ∃ upn, FoundNeedless pendingService upn τ := by
  intro τ
  have hclass : classifyCN .ascii pendingLogin.cn = .employeeID := by decide +kernel
  have hupn : buildUPN .ascii pendingLogin.cn pendingService.primaryDomain =
      .ok "b11001@nycu.edu.tw" := by decide +kernel
  have hvalid : validEventType pendingLogin.eventType = true := by decide
  have hbody : submitBody .ascii pendingService "" pendingLogin =
      submitAccount pendingService "" pendingLogin
        ⟨some .employeeID, "b11001@nycu.edu.tw", false, false, ""⟩ "b11001@nycu.edu.tw" := by
    simp [submitBody, hupn, hclass, hvalid, Decision.zero]
  have haccount : Exec (submitBody .ascii pendingService "" pendingLogin) pendingLookup
      (pendingDecision, none) := by
    rw [hbody, submitAccount, if_pos (by decide)]
    exact exec_bind_iff.2 ⟨_, pendingLookup, [], rfl, exec_skipLoginBootstrap_pending, .refl _⟩
  have hrun : Exec (submit .ascii pendingService "" pendingLogin) τ (pendingDecision, none) :=
    exec_bind_iff.2 ⟨_, pendingLookup, [HookEvent.zeroed], rfl, haccount,
      exec_call_iff.2 ⟨(), [], rfl, .refl _⟩⟩
  obtain ⟨houtcome, -, hskip⟩ := (submit_exact .ascii pendingService "" pendingLogin).1 _ _ _ hrun
  obtain ⟨upn, -, hfound⟩ := (hskip rfl (by rw [hclass]; rfl) rfl).1 rfl
  exact ⟨hrun, houtcome.taken, upn, hfound⟩

end PasswordHook
