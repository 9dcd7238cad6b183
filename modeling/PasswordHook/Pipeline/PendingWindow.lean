import PasswordHook.Delivery.Agreement
import PasswordHook.Migration.Outcome
import PasswordHook.Pipeline.Progress
import PasswordHook.SyncStatus.Refinement

/-!
# How long an account stays pending

A `login_bootstrap` is skipped with `sync_pending` as long as the record of the account is younger
than the time to live of a queue message.  The age of the record counts from the reading of the
clock in `MarkPending`; the life of the message counts from its acceptance by the broker, which
comes before.  By as much as lies between the two a login is skipped on account of a message that
has expired (`expired_message_skips_login`).  If nothing lies between them, no login is
(`skipped_only_in_time`).
-/

namespace PasswordHook

open Prog

/-! ## Either store -/

/-- The times of a record that was read from a hash are those of its texts. -/
theorem RedisStore.times_of_get {U : Unicode} {sha256 : Bytes → Bytes} {R : RedisStore}
    {server : RedisServer} {tick : ℤ} {upn : String} {hash : RedisKey}
    {status updated source : String} {record : Record}
    (found : server.find tick (R.key U sha256 upn) = some hash)
    (fields : hash.fields = hashFields status updated source)
    (hget : R.get U sha256 server none tick upn = .ok record) :
    parseRedisTime source = some record.sourceEnqueuedAt ∧
      parseRedisTime updated = some record.updatedAt := by
  simp only [RedisStore.get, RedisServer.hgetall, found, fields, Option.map_some, Option.getD_some,
    lookup_status, lookup_updated, lookup_source] at hget
  split_ifs at hget with hempty
  · cases hempty
  · split at hget
    · cases hget
    · split at hget
      · cases hget
      · split at hget
        · cases hget
        · rename_i hupdated _ _ hsource
          cases hget
          exact ⟨hsource, hupdated⟩

/-- A status store with what it holds. -/
inductive StatusStore where
  | memory (s : MemoryStore)
  | redis (R : RedisStore) (server : RedisServer)

namespace StatusStore

def IsNew : StatusStore → Prop
  | .memory s => s = .new
  | .redis _ server => server = .empty

variable (U : Unicode) (sha256 : Bytes → Bytes)

/-- Where the record of an account is kept. -/
def key : StatusStore → String → String
  | .memory _ => normalizeUPN U
  | .redis R _ => R.key U sha256

/-- `Get` at the instant; `err` is an error of the context or of the client. -/
def get (s : StatusStore) (err : Option Err) (instant : ℤ) (upn : String) : Except Err Record :=
  match s with
  | .memory s => s.get U err upn
  | .redis R server => R.get U sha256 server err (instant / millisecond) upn

/-- `MarkPending`, carried out at the instant; `now` is the reading of the clock in it. -/
def markPending (s : StatusStore) (instant : ℤ) (upn : String) (source now : Time) : StatusStore :=
  match s with
  | .memory s => .memory (s.markPending U none upn source now).1
  | .redis R server =>
    .redis R (R.markPending U sha256 server (instant / millisecond) upn source now).1

@[simp] theorem key_markPending (s : StatusStore) (instant : ℤ) (upn : String) (source now : Time) :
    (s.markPending U sha256 instant upn source now).key U sha256 = s.key U sha256 := by
  cases s <;> rfl

/-- What is kept under a key was written with a source and at a reading that are related to the
key. -/
def Backed (P : String → Time → Time → Prop) : StatusStore → Prop
  | .memory s => ∀ key record, s.records key = some record →
      P key record.sourceEnqueuedAt record.updatedAt
  | .redis _ server => ∀ key hash, server.keys key = some hash → ∃ status source now,
      hash.fields = hashFields status (Time.utc now).formatRedis (Time.utc source).formatRedis ∧
        P key source.utc now.utc

variable {U sha256} {s : StatusStore} {P Q : String → Time → Time → Prop}

theorem IsNew.backed (h : s.IsNew) : s.Backed P := by
  cases s with
  | memory s =>
    subst h
    intro key record hrecord
    cases hrecord
  | redis R server =>
    subst h
    intro key hash hhash
    cases hhash

theorem Backed.mono (h : s.Backed P) (hPQ : ∀ key source now, P key source now → Q key source now) :
    s.Backed Q := by
  cases s with
  | memory s => exact fun key record hrecord => hPQ _ _ _ (h key record hrecord)
  | redis R server =>
    intro key hash hhash
    obtain ⟨status, source, now, hfields, hP⟩ := h key hash hhash
    exact ⟨status, source, now, hfields, hPQ _ _ _ hP⟩

theorem Backed.markPending (h : s.Backed P) {instant : ℤ} {upn : String} {source now : Time}
    (hnew : P (s.key U sha256 upn) source.utc now.utc) :
    (s.markPending U sha256 instant upn source now).Backed P := by
  cases s with
  | memory s =>
    intro key record hrecord
    have hset : (s.markPending U none upn source now).1.records key = some record := hrecord
    rw [MemoryStore.markPending, MemoryStore.set_eq] at hset
    split_ifs at hset
    · exact h key record hset
    · dsimp only at hset
      by_cases hkey : key = normalizeUPN U upn
      · rw [hkey, Function.update_self] at hset
        cases hset
        rw [hkey]
        exact hnew
      · rw [Function.update_of_ne hkey] at hset
        exact h key record hset
  | redis R server =>
    have shaped : server.Shaped := by
      intro key hash hhash
      obtain ⟨status, source, now, hfields, -⟩ := h key hash hhash
      exact ⟨_, _, _, hfields⟩
    intro key hash hhash
    have hmark :
        (R.mark U sha256 server (instant / millisecond) .pending upn source now).1.keys key =
        some hash := hhash
    rcases R.mark_cases shaped (instant / millisecond) .pending upn source now with heq | heq
    · rw [heq] at hmark
      exact h key hash hmark
    · rw [heq, applied] at hmark
      by_cases hkey : key = R.key U sha256 upn
      · rw [hkey, RedisServer.put_keys_self] at hmark
        cases hmark
        rw [hkey]
        exact ⟨_, source, now, rfl, hnew⟩
      · rw [RedisServer.put_keys_of_ne _ _ hkey] at hmark
        exact h key hash hmark

/-- A record that `Get` answers was written. -/
theorem Backed.get (h : s.Backed P) {err : Option Err} {instant : ℤ} {upn : String}
    {record : Record} (hget : s.get U sha256 err instant upn = .ok record)
    (hstatus : record.status ≠ .unsynced) :
    P (s.key U sha256 upn) record.sourceEnqueuedAt record.updatedAt := by
  cases err with
  | some err => cases s <;> cases hget
  | none =>
    cases s with
    | memory s =>
      have hrecord := Except.ok.inj hget
      cases hfound : s.records (normalizeUPN U upn) with
      | none =>
        rw [hfound] at hrecord
        rw [← hrecord] at hstatus
        exact absurd rfl hstatus
      | some found =>
        rw [hfound] at hrecord
        cases hrecord
        exact h _ _ hfound
    | redis R server =>
      change R.get U sha256 server none (instant / millisecond) upn = .ok record at hget
      cases hfound : server.find (instant / millisecond) (R.key U sha256 upn) with
      | none =>
        rw [R.get_of_absent hfound] at hget
        cases hget
        exact absurd rfl hstatus
      | some hash =>
        obtain ⟨status, source, now, hfields, hP⟩ :=
          h _ hash (RedisServer.find_eq_some.1 hfound).1
        obtain ⟨hsource, hnow⟩ := R.times_of_get hfound hfields hget
        rw [eq_of_parseRedisTime hsource, eq_of_parseRedisTime hnow]
        exact hP

end StatusStore

/-! ## Submissions under one clock -/

structure SubmitState where
  clock : ℤ
  store : StatusStore
  accepted : List Accepted

section System

variable (U : Unicode) (sha256 : Bytes → Bytes) (q : Queue) (J : Json)

/-- The answers to the calls of `Submit`.  The broker may accept a message and the store take a
write although an error is reported; the store has read the clock when its write is carried out, or
before. -/
def submitAnswer : (c : HookCall) → SubmitState → c.Resp → SubmitState → Prop
  | .get upn, s, r, s' => (∃ err, r = s.store.get U sha256 err s.clock upn) ∧ s' = s
  | .now _, s, t, s' => Time.nano t = s.clock ∧ s' = s
  | .encrypt _ _, s, _, s' => s' = s
  | .enqueuePasswordSync msg, s, r, s' =>
    (∃ sendErr, r = q.enqueuePasswordSync J msg sendErr) ∧
      ((∃ bus, q.busMessage J msg = .ok bus ∧
          s' = { s with accepted := ⟨msg, bus, ⟨s.clock, 0⟩⟩ :: s.accepted }) ∨
        (r ≠ none ∧ s' = s))
  | .markPending upn t, s, r, s' =>
    (∃ now : Time, now.nano ≤ s.clock ∧
        s' = { s with store := s.store.markPending U sha256 s.clock upn t now }) ∨
      (r ≠ none ∧ s' = s)
  | .zeroPassword, s, _, s' => s' = s

/-- Submissions to services whose pending time is the time to live of the queue's messages. -/
def submissions :
    System Unit (fun _ => hookInterface) (fun _ => Decision × Option Err) SubmitState where
  init s := s.store.IsNew ∧ s.accepted = []
  spawn _ _ p := ∃ svc traceID req, Service.pendingTTL svc = q.ttl ∧ p = submit U svc traceID req
  call _ := submitAnswer U sha256 q J
  env s s' := s.clock ≤ s'.clock ∧ s' = { s with clock := s'.clock }

end System

abbrev SubmitWorld :=
  World (fun _ : Unit => hookInterface) (fun _ => Decision × Option Err) SubmitState

abbrev SubmitLabel := Label (fun _ : Unit => hookInterface) (fun _ => Decision × Option Err)

/-- The broker has not dropped the message at the instant. -/
def Accepted.Alive (a : Accepted) (instant : ℤ) : Prop :=
  ∃ ttl, a.bus.timeToLive = some ttl ∧ instant < a.sentAt.nano + ttl

section Window

variable {U : Unicode} {sha256 : Bytes → Bytes} {q : Queue} {J : Json}

/-- The calls of a login that is skipped on account of a pending record. -/
def skippedRun (upn : String) (record : Record) (now : Time) : List HookEvent :=
  [.looked upn (.ok record), .read .freshness now, .zeroed]

variable (U sha256) in
/-- Every login that was skipped with `sync_pending` had found a pending record, and a message with
the stamp of that record, of the same account, was alive when the clock was read for the check. -/
def SkippedInTime (W : SubmitWorld) : Prop :=
  ∀ (j : ℕ) (t : HookThread) (d : Decision) (err : Option Err), W.pool () j = some t →
    t.rest = .ret (d, err) → d.skipped = true → d.reason = "sync_pending" →
    ∃ record now, t.past = skippedRun d.upn record now ∧ record.status = .pending ∧
      ∃ a ∈ W.shared.accepted,
        W.shared.store.key U sha256 a.msg.upn = W.shared.store.key U sha256 d.upn ∧
        a.msg.enqueuedAt.nano = record.sourceEnqueuedAt.nano ∧ a.Alive now.nano

/-- The clock has not moved since the broker accepted the message that is marked. -/
def MarksAtOnce (W : SubmitWorld) : SubmitLabel → Prop
  | .call _ _ ⟨.markPending upn t, _⟩ => ∃ a ∈ W.shared.accepted, a.msg.upn = upn ∧
      a.msg.enqueuedAt = t ∧ W.shared.clock ≤ a.sentAt.nano
  | _ => True

/-! ## What a skipped login has read -/

variable {svc : Service} {traceID : String} {req : Request} {τ : List HookEvent}

theorem exec_skipLoginBootstrap_window {upn : String}
    (h : Exec (skipLoginBootstrap svc upn) τ (some "sync_pending")) :
    ∃ record now, τ = [.looked upn (.ok record), .read .freshness now] ∧ record.status = .pending ∧
      now.nano < record.updatedAt.nano + svc.pendingTTL := by
  rcases exec_skipLoginBootstrap_cases.1 h with ⟨e, -, hreason⟩ | ⟨record, h⟩
  · exact absurd hreason (by simp)
  · rcases h with ⟨-, -, hreason⟩ | ⟨hs, now, rfl, hreason⟩
    · split_ifs at hreason
      exact absurd hreason (by simp)
    · split_ifs at hreason with hwindow
      exact ⟨record, now, rfl, hs, hwindow.2⟩

theorem exec_submitAccount_window {decision d : Decision} {err : Option Err} {upn : String}
    (fresh : decision.skipped = false ∧ decision.upn = upn)
    (h : Exec (submitAccount svc traceID req decision upn) τ (d, err)) (skipped : d.skipped = true)
    (reason : d.reason = "sync_pending") :
    ∃ record now, τ ++ [.zeroed] = skippedRun d.upn record now ∧ record.status = .pending ∧
      now.nano < record.updatedAt.nano + svc.pendingTTL := by
  have hnot : ∀ {τ'}, ¬ Exec (submitEnqueue svc traceID req decision upn) τ' (d, err) := by
    intro τ' henqueue
    rw [not_skipped_of_submitEnqueue fresh.1 henqueue] at skipped
    cases skipped
  unfold submitAccount at h
  split_ifs at h
  · obtain ⟨why, lead, τ', rfl, hskip, hrest⟩ := exec_bind_iff.1 h
    cases why with
    | none => exact absurd hrest hnot
    | some why =>
      obtain ⟨rfl, hd⟩ := exec_ret_iff.1 hrest
      cases hd
      obtain rfl : why = "sync_pending" := reason
      obtain ⟨record, now, rfl, hwindow⟩ := exec_skipLoginBootstrap_window hskip
      rw [← fresh.2]
      exact ⟨record, now, rfl, hwindow⟩
  · exact absurd h hnot

theorem exec_submit_window {d : Decision} {err : Option Err}
    (h : Exec (submit U svc traceID req) τ (d, err)) (skipped : d.skipped = true)
    (reason : d.reason = "sync_pending") :
    ∃ record now, τ = skippedRun d.upn record now ∧ record.status = .pending ∧
      now.nano < record.updatedAt.nano + svc.pendingTTL := by
  obtain ⟨τ', rfl, h'⟩ := exec_submit h
  unfold submitBody at h'
  dsimp only at h'
  split_ifs at h' with h₁ h₂ h₃
  · obtain ⟨-, hd⟩ := exec_ret_iff.1 h'
    cases hd
    cases skipped
  · obtain ⟨-, hd⟩ := exec_ret_iff.1 h'
    cases hd
    exact absurd reason (by simp)
  · obtain ⟨-, hd⟩ := exec_ret_iff.1 h'
    cases hd
    cases skipped
  cases hupn : buildUPN U req.cn svc.primaryDomain with
  | error e =>
    rw [hupn] at h'
    obtain ⟨-, hd⟩ := exec_ret_iff.1 h'
    cases hd
    cases skipped
  | ok upn =>
    rw [hupn] at h'
    exact exec_submitAccount_window ⟨rfl, rfl⟩ h' skipped reason

/-! ## The invariant -/

variable (U sha256) in
/-- A message with the stamp was accepted for the key, no earlier than the record was written. -/
def WrittenBy (s : SubmitState) (key : String) (source updated : Time) : Prop :=
  ∃ a ∈ s.accepted, s.store.key U sha256 a.msg.upn = key ∧ a.msg.enqueuedAt.nano = source.nano ∧
    updated.nano ≤ a.sentAt.nano

variable (U sha256 q J) in
/-- What a step does to the store and to the broker's log. -/
inductive SubmitEffect (W : SubmitWorld) (ℓ : SubmitLabel) (W' : SubmitWorld) : Prop
  | quiet (store : W'.shared.store = W.shared.store)
      (accepted : W'.shared.accepted = W.shared.accepted)
  | sent (a : Accepted) (bus : q.busMessage J a.msg = .ok a.bus)
      (store : W'.shared.store = W.shared.store)
      (accepted : W'.shared.accepted = a :: W.shared.accepted)
  | marked (i : ℕ) (upn : String) (t now : Time) (r : Option Err)
      (label : ℓ = .call () i (HookEvent.marked upn t r)) (read : now.nano ≤ W.shared.clock)
      (store : W'.shared.store =
        W.shared.store.markPending U sha256 W.shared.clock upn t now)
      (accepted : W'.shared.accepted = W.shared.accepted)

variable {W W' : SubmitWorld} {ℓ : SubmitLabel}

theorem submitEffect (h : Step (submissions U sha256 q J) W ℓ W') :
    SubmitEffect U sha256 q J W ℓ W' := by
  cases h with
  | spawn free allowed => exact .quiet rfl rfl
  | env change =>
    rw [change.2]
    exact .quiet rfl rfl
  | @call k i t c f r s thread next answer =>
    cases c with
    | get upn =>
      obtain ⟨-, rfl⟩ := answer
      exact .quiet rfl rfl
    | now reading =>
      obtain ⟨-, rfl⟩ := answer
      exact .quiet rfl rfl
    | encrypt plaintext aad =>
      obtain rfl := answer
      exact .quiet rfl rfl
    | enqueuePasswordSync msg =>
      rcases answer.2 with ⟨bus, hbus, rfl⟩ | ⟨-, rfl⟩
      · exact .sent ⟨msg, bus, ⟨W.shared.clock, 0⟩⟩ hbus rfl rfl
      · exact .quiet rfl rfl
    | markPending upn t =>
      rcases answer with ⟨now, hread, rfl⟩ | ⟨-, rfl⟩
      · exact .marked i upn t now r rfl hread rfl rfl
      · exact .quiet rfl rfl
    | zeroPassword =>
      obtain rfl := answer
      exact .quiet rfl rfl

/-- Accounts keep their keys, and the broker's log only grows. -/
theorem SubmitEffect.grows (h : SubmitEffect U sha256 q J W ℓ W') :
    W'.shared.store.key U sha256 = W.shared.store.key U sha256 ∧
      ∀ a ∈ W.shared.accepted, a ∈ W'.shared.accepted := by
  cases h with
  | quiet store accepted =>
    rw [store, accepted]
    exact ⟨rfl, fun a ha => ha⟩
  | sent a bus store accepted =>
    rw [store, accepted]
    exact ⟨rfl, fun a ha => List.mem_cons_of_mem _ ha⟩
  | marked i upn t now r label read store accepted =>
    rw [store, accepted, StatusStore.key_markPending]
    exact ⟨rfl, fun a ha => ha⟩

theorem WrittenBy.step (h : SubmitEffect U sha256 q J W ℓ W') {key : String} {source updated : Time}
    (hw : WrittenBy U sha256 W.shared key source updated) :
    WrittenBy U sha256 W'.shared key source updated := by
  obtain ⟨a, ha, hkey, hrest⟩ := hw
  obtain ⟨hkeys, hmem⟩ := h.grows
  refine ⟨a, hmem a ha, ?_, hrest⟩
  rw [hkeys, hkey]

variable (U sha256 q) in
/-- What holds while accounts are marked at once. -/
structure Punctual (W : SubmitWorld) : Prop where
  threads : W.Threaded
  started : ∀ (j : ℕ) (t : HookThread), W.pool () j = some t → ∃ svc traceID req,
    Service.pendingTTL svc = q.ttl ∧ t.start = submit U svc traceID req
  lives : ∀ a ∈ W.shared.accepted, a.bus.timeToLive = some q.ttl
  backed : W.shared.store.Backed (WrittenBy U sha256 W.shared)
  looked : ∀ (j : ℕ) (t : HookThread), W.pool () j = some t → ∀ upn record,
    HookEvent.looked upn (.ok record) ∈ t.past → record.status = .pending →
    WrittenBy U sha256 W.shared (W.shared.store.key U sha256 upn) record.sourceEnqueuedAt
      record.updatedAt

theorem punctual_init {s : SubmitState} (h : (submissions U sha256 q J).init s) :
    Punctual U sha256 q ⟨s, fun _ _ => none⟩ where
  threads _ _ _ ht := absurd ht (by simp)
  started _ _ ht := absurd ht (by simp)
  lives a ha := by
    rw [h.2] at ha
    cases ha
  backed := h.1.backed
  looked _ _ ht := absurd ht (by simp)

theorem Punctual.lives_step (hW : Punctual U sha256 q W) (h : SubmitEffect U sha256 q J W ℓ W') :
    ∀ a ∈ W'.shared.accepted, a.bus.timeToLive = some q.ttl := by
  cases h with
  | quiet store accepted =>
    rw [accepted]
    exact hW.lives
  | sent a bus store accepted =>
    rw [accepted, List.forall_mem_cons]
    refine ⟨?_, hW.lives⟩
    unfold Queue.busMessage at bus
    split at bus
    · cases bus
    · rw [← Except.ok.inj bus]
  | marked i upn t now r label read store accepted =>
    rw [accepted]
    exact hW.lives

theorem Punctual.backed_step (hW : Punctual U sha256 q W) (h : SubmitEffect U sha256 q J W ℓ W')
    (atOnce : MarksAtOnce W ℓ) : W'.shared.store.Backed (WrittenBy U sha256 W'.shared) := by
  have hold := hW.backed.mono fun key source updated hw => hw.step h
  cases h with
  | quiet store accepted =>
    rw [store]
    exact hold
  | sent a bus store accepted =>
    rw [store]
    exact hold
  | marked i upn t now r label read store accepted =>
    rw [store]
    apply hold.markPending
    rw [label] at atOnce
    obtain ⟨a, ha, rfl, rfl, hclock⟩ := atOnce
    refine ⟨a, by rw [accepted]; exact ha, ?_, rfl, read.trans hclock⟩
    rw [store, StatusStore.key_markPending]

theorem Punctual.step (hW : Punctual U sha256 q W) (atOnce : MarksAtOnce W ℓ)
    (h : Step (submissions U sha256 q J) W ℓ W') : Punctual U sha256 q W' where
  threads := hW.threads.step h
  started j t ht := by
    rcases h.pool_cases ht with ⟨-, -, -, hspawn⟩ | ⟨t₀, c, f, r, h₀, -, -, -, rfl⟩ | h₀
    · exact hspawn
    · exact hW.started j t₀ h₀
    · exact hW.started j t h₀
  lives := hW.lives_step (submitEffect h)
  backed := hW.backed_step (submitEffect h) atOnce
  looked j t ht upn record hmem hpending := by
    have heffect := submitEffect h
    have keep : WrittenBy U sha256 W.shared (W.shared.store.key U sha256 upn)
        record.sourceEnqueuedAt record.updatedAt →
        WrittenBy U sha256 W'.shared (W'.shared.store.key U sha256 upn) record.sourceEnqueuedAt
          record.updatedAt := by
      rw [heffect.grows.1]
      exact WrittenBy.step heffect
    rcases h.pool_cases ht with ⟨hp, -, -, -⟩ | ⟨t₀, c, f, r, h₀, -, -, answer, rfl⟩ | h₀
    · rw [hp] at hmem
      cases hmem
    · rcases List.mem_append.1 hmem with hmem | hmem
      · exact keep (hW.looked j t₀ h₀ upn record hmem hpending)
      · cases List.mem_singleton.1 hmem
        obtain ⟨⟨err, hget⟩, -⟩ := answer
        exact keep (hW.backed.get hget.symm (by rw [hpending]; decide))
    · exact keep (hW.looked j t h₀ upn record hmem hpending)

/-- While every account is marked at the instant at which the broker accepted its message, a login
is skipped with `sync_pending` only as long as the message lives. -/
theorem skipped_only_in_time (h : Reach (submissions U sha256 q J) MarksAtOnce W) :
    SkippedInTime U sha256 W := by
  have hW : Punctual U sha256 q W := h.invariant (fun s hinit => punctual_init hinit)
    fun W ℓ W' hW atOnce hs => hW.step atOnce hs
  intro j t d err ht hret hskipped hreason
  obtain ⟨svc, traceID, req, httl, hstart⟩ := hW.started j t ht
  have hexec := hW.threads () j t ht
  rw [hstart, hret] at hexec
  obtain ⟨record, now, hpast, hpending, hwindow⟩ := exec_submit_window hexec hskipped hreason
  have hlooked : HookEvent.looked d.upn (.ok record) ∈ t.past := by
    rw [hpast]
    exact List.mem_cons_self
  obtain ⟨a, ha, hkey, hsource, hupdated⟩ := hW.looked j t ht d.upn record hlooked hpending
  refine ⟨record, now, hpast, hpending, a, ha, hkey, hsource, q.ttl, hW.lives a ha, ?_⟩
  rw [httl] at hwindow
  omega

end Window

/-! ## A login after a changed password -/

theorem exec_skipLoginBootstrap_of_window {svc : Service} {upn : String}
    {record : Record} {now : Time} (pending : record.status = .pending)
    (written : record.updatedAt.nano ≤ now.nano)
    (fresh : now.nano < record.updatedAt.nano + svc.pendingTTL) :
    Exec (skipLoginBootstrap svc upn)
      [HookEvent.looked upn (.ok record), HookEvent.read .freshness now]
      (some "sync_pending") := by
  refine exec_skipLoginBootstrap_cases.2 (.inr ⟨record, .inr ⟨pending, now, rfl, ?_⟩⟩)
  rw [if_pos ⟨written, fresh⟩]

def skippedDecision : Decision := { sampleDecision with skipped := true, reason := "sync_pending" }

theorem exec_sampleLogin {record : Record} {now : Time} (pending : record.status = .pending)
    (written : record.updatedAt.nano ≤ now.nano)
    (fresh : now.nano < record.updatedAt.nano + defaultPendingTTL) :
    Exec (submit .ascii sampleService "" sampleLogin)
      (skippedRun "b11001@example.edu" record now) (skippedDecision, none) := by
  have hskip : Exec (submitBody .ascii sampleService "" sampleLogin)
      [HookEvent.looked "b11001@example.edu" (.ok record), HookEvent.read .freshness now]
      (skippedDecision, none) := by
    rw [submitBody_sampleLogin, submitAccount, if_pos (by decide)]
    exact exec_bind_iff.2 ⟨_, _, [], rfl, exec_skipLoginBootstrap_of_window pending written fresh,
      .refl _⟩
  exact exec_bind_iff.2 ⟨_, _, [HookEvent.zeroed], rfl, hskip,
    exec_call_iff.2 ⟨(), [], rfl, .refl _⟩⟩

section Sample

variable {C : SubmitWorld → SubmitLabel → Prop} {W : SubmitWorld} {bus : BusMessage}
  (delay wait : ℤ)

/-- The message of the changed password, as the broker has it. -/
def sampleAccepted (bus : BusMessage) : Accepted :=
  ⟨sampleStamped sampleReading, bus, ⟨sampleReading.nano, 0⟩⟩

/-- The store when the account was marked after a delay. -/
def sampleMarked (delay : ℤ) : StatusStore :=
  StatusStore.markPending .ascii id (.memory .new) (sampleReading.nano + delay) "b11001@example.edu"
    sampleReading.utc ⟨sampleReading.nano + delay, 0⟩

/-- The record of the account that was marked after a delay. -/
def sampleRecord (delay : ℤ) : Record :=
  ⟨.pending, ⟨sampleReading.nano + delay, 0⟩, sampleReading.utc⟩

theorem get_sampleMarked (delay instant : ℤ) :
    (sampleMarked delay).get .ascii id none instant "b11001@example.edu" =
      .ok (sampleRecord delay) := by
  simp [sampleMarked, StatusStore.get, StatusStore.markPending, MemoryStore.markPending,
    MemoryStore.set, MemoryStore.get, MemoryStore.new, sampleRecord, Time.utc]

theorem reach_wait {U : Unicode} {sha256 : Bytes → Bytes} {q : Queue} {J : Json}
    (h : Reach (submissions U sha256 q J) C W) (meets : C W .env) (passed : 0 ≤ wait) :
    Reach (submissions U sha256 q J) C
      ⟨{ W.shared with clock := W.shared.clock + wait }, W.pool⟩ := by
  refine h.step meets (Step.env ⟨?_, rfl⟩)
  dsimp only
  omega

/-- A password is changed, and the account marked after a delay. -/
theorem reach_sampleMarked
    (sent : (newQueue 0).busMessage .flat (sampleStamped sampleReading) = .ok bus)
    (quiet : ∀ W ℓ, (∀ i e, ℓ = .call () i e → e.call.markOf = none) → C W ℓ)
    (meets : ∀ W : SubmitWorld, sampleAccepted bus ∈ W.shared.accepted →
      W.shared.clock = sampleReading.nano + delay →
      C W (.call () 0 (HookEvent.marked "b11001@example.edu" sampleReading.utc none)))
    (delayed : 0 ≤ delay) :
    ∃ W, Reach (submissions .ascii id (newQueue 0) .flat) C W ∧ W.pool () 1 = none ∧
      W.shared = ⟨sampleReading.nano + delay, sampleMarked delay, [sampleAccepted bus]⟩ := by
  have hinit : Reach (submissions .ascii id (newQueue 0) .flat) C
      ⟨⟨sampleReading.nano, .memory .new, []⟩, fun _ _ => none⟩ := .init ⟨rfl, rfl⟩
  have htaken : Answers (submissions .ascii id (newQueue 0) .flat) ()
      ⟨sampleReading.nano, .memory .new, []⟩ (submit .ascii sampleService "" sampleRequest)
      (takenRun sampleRequest (sampleStamped sampleReading) sampleReading sampleEnvelope)
      ⟨sampleReading.nano, .memory .new, [sampleAccepted bus]⟩
      (takenRest sampleDecision "b11001@example.edu" sampleReading.utc) := by
    have hsent : submitAnswer .ascii id (newQueue 0) .flat
        (.enqueuePasswordSync (sampleStamped sampleReading)) ⟨sampleReading.nano,
          .memory .new, []⟩ none
        ⟨sampleReading.nano, .memory .new, [sampleAccepted bus]⟩ :=
      ⟨⟨none, (Queue.enqueuePasswordSync_eq_none.2 ⟨rfl, bus, sent⟩).symm⟩, .inl ⟨bus, sent, rfl⟩⟩
    rw [submit, submitBody_sampleRequest]
    exact .call ⟨rfl, rfl⟩ <| .call rfl <| .call hsent <| .nil _ _
  obtain ⟨W₁, h₁, hs₁, ht₁, hframe⟩ := hinit.spawn_answers (i := 0) rfl
    ⟨sampleService, "", sampleRequest, rfl, rfl⟩ htaken (quiet _ _ (by simp)) (by
      intro W e he
      apply quiet
      rintro i e' heq
      cases heq
      simp only [takenRun, List.mem_cons, List.not_mem_nil, or_false] at he
      rcases he with rfl | rfl | rfl <;> rfl)
  have h₂ := reach_wait delay h₁ (quiet _ _ (by simp)) delayed
  rw [hs₁] at h₂
  have hmark : submitAnswer .ascii id (newQueue 0) .flat
      (.markPending "b11001@example.edu" sampleReading.utc)
      ⟨sampleReading.nano + delay, .memory .new, [sampleAccepted bus]⟩ none
      ⟨sampleReading.nano + delay, sampleMarked delay, [sampleAccepted bus]⟩ :=
    .inl ⟨⟨sampleReading.nano + delay, 0⟩, le_rfl, rfl⟩
  refine ⟨_, h₂.step (meets _ List.mem_cons_self rfl) (Step.call ht₁ rfl hmark), ?_, rfl⟩
  rw [World.setThread_pool_of_ne _ _ (by simp)]
  exact hframe () 1 (by simp)

/-- The user logs in some time later, and is skipped. -/
theorem reach_sampleLogin
    (h : Reach (submissions .ascii id (newQueue 0) .flat) C W) (free : W.pool () 1 = none)
    (marked : W.shared = ⟨sampleReading.nano + delay, sampleMarked delay, [sampleAccepted bus]⟩)
    (quiet : ∀ W ℓ, (∀ i e, ℓ = .call () i e → e.call.markOf = none) → C W ℓ)
    (waited : 0 ≤ wait) (fresh : wait < defaultPendingTTL) :
    ∃ W', Reach (submissions .ascii id (newQueue 0) .flat) C W' ∧
      W'.shared.accepted = [sampleAccepted bus] ∧
      W'.pool () 1 = some ⟨submit .ascii sampleService "" sampleLogin,
        skippedRun "b11001@example.edu" (sampleRecord delay) ⟨sampleReading.nano + delay + wait, 0⟩,
        .ret (skippedDecision, none)⟩ := by
  have hwait := reach_wait wait h (quiet _ _ (by simp)) waited
  rw [marked] at hwait
  have hexec : Exec (submit .ascii sampleService "" sampleLogin)
      (skippedRun "b11001@example.edu" (sampleRecord delay) ⟨sampleReading.nano + delay + wait, 0⟩)
      (skippedDecision, none) := by
    apply exec_sampleLogin rfl
    · show sampleReading.nano + delay ≤ sampleReading.nano + delay + wait
      omega
    · show sampleReading.nano + delay + wait < sampleReading.nano + delay + defaultPendingTTL
      omega
  have hlogin := answers_of_steps (S := submissions .ascii id (newQueue 0) .flat) (k := ())
    (s := ⟨sampleReading.nano + delay + wait, sampleMarked delay, [sampleAccepted bus]⟩) hexec (by
      simp only [skippedRun, List.forall_mem_cons, List.not_mem_nil, IsEmpty.forall_iff,
        implies_true, and_true]
      exact ⟨⟨⟨none, (get_sampleMarked delay _).symm⟩, rfl⟩, ⟨rfl, rfl⟩, rfl⟩)
  obtain ⟨W', hreach, hs, ht, -⟩ := hwait.spawn_answers free
    ⟨sampleService, "", sampleLogin, rfl, rfl⟩ hlogin (quiet _ _ (by simp)) (by
      intro W e he
      apply quiet
      rintro i e' heq
      cases heq
      simp only [skippedRun, List.mem_cons, List.not_mem_nil, or_false] at he
      rcases he with rfl | rfl | rfl <;> rfl)
  exact ⟨W', hreach, by rw [hs], ht⟩

theorem exists_sampleAccepted :
    ∃ bus, (newQueue 0).busMessage .flat (sampleStamped sampleReading) = .ok bus ∧
      bus.timeToLive = some defaultTTL := by
  obtain ⟨body, hmarshal⟩ : ∃ body, (sampleStamped sampleReading).marshal .flat = .ok body :=
    PasswordSyncMessage.exists_marshal .flat rfl (by decide +kernel)
  exact ⟨_, by rw [Queue.busMessage, hmarshal], rfl⟩

/-- The account is marked at once and the user logs in a second later: the message lives. -/
theorem skipped_only_in_time_sample :
    ∃ W, Reach (submissions .ascii id (newQueue 0) .flat) MarksAtOnce W ∧
      (∃ t, W.pool () 1 = some t ∧ t.rest = .ret (skippedDecision, none)) ∧
      ∃ a ∈ W.shared.accepted, a.Alive (sampleReading.nano + second) := by
  obtain ⟨bus, hbus, -⟩ := exists_sampleAccepted
  have quiet : ∀ W ℓ, (∀ i e, ℓ = .call () i e → e.call.markOf = none) → MarksAtOnce W ℓ := by
    intro W ℓ hℓ
    cases ℓ with
    | spawn k i p => trivial
    | env => trivial
    | call k i e =>
      obtain ⟨c, r⟩ := e
      cases c with
      | markPending upn t => cases hℓ i _ rfl
      | _ => trivial
  obtain ⟨W₁, h₁, hfree, hs₁⟩ := reach_sampleMarked 0 hbus quiet
    (fun W ha hclock => ⟨_, ha, rfl, rfl, by rw [hclock]; simp [sampleAccepted]⟩) le_rfl
  obtain ⟨W, h, -, ht⟩ := reach_sampleLogin 0 second h₁ hfree hs₁ quiet (by decide) (by decide)
  obtain ⟨record, now, hpast, -, a, ha, -, -, halive⟩ :=
    skipped_only_in_time h 1 _ _ _ ht rfl rfl rfl
  refine ⟨W, h, ⟨_, ht, rfl⟩, a, ha, ?_⟩
  cases hpast
  simpa using halive

/-- A login is skipped with `sync_pending` at the instant at which the only message of the account
expires: the account was marked a second after the broker had accepted the message. -/
theorem expired_message_skips_login :
    ∃ W, Reach (submissions .ascii id (newQueue 0) .flat) anyStep W ∧
      ¬ SkippedInTime .ascii id W := by
  obtain ⟨bus, hbus, httl⟩ := exists_sampleAccepted
  obtain ⟨W₁, h₁, hfree, hs₁⟩ := reach_sampleMarked (C := anyStep) second hbus
    (fun _ _ _ => trivial) (fun _ _ _ => trivial) (by decide)
  obtain ⟨W, h, haccepted, ht⟩ := reach_sampleLogin second (299 * second) h₁ hfree hs₁
    (fun _ _ _ => trivial) (by decide) (by decide)
  refine ⟨W, h, fun hskipped => ?_⟩
  obtain ⟨record, now, hpast, -, a, ha, -, -, ttl, hlife, halive⟩ := hskipped 1 _ _ _ ht rfl rfl rfl
  rw [haccepted, List.mem_singleton] at ha
  subst ha
  cases hpast
  rw [show (sampleAccepted bus).bus.timeToLive = some defaultTTL from httl] at hlife
  cases hlife
  change sampleReading.nano + second + 299 * second < sampleReading.nano + defaultTTL at halive
  exact absurd halive (by decide)

end Sample

end PasswordHook
