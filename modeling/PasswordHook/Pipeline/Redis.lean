import PasswordHook.Delivery.Agreement
import PasswordHook.Migration.Outcome
import PasswordHook.Pipeline.Invariants
import PasswordHook.Pipeline.Progress
import PasswordHook.SyncStatus.Refinement

/-!
# The pipeline over a `RedisStore`

With the status in Redis a record is lost when its key expires, and with it the stamp that the
script compares with.  A worker that finishes an old message after the pending record of a newer one
has expired then writes `synced`, although the newer message may have expired with the record
(`lost_event_counts_as_synced`).  As long as no write comes to an account whose record is gone and
which was marked pending with a newer stamp, and messages are reported synced only when their
submission has returned, a login is skipped as synced only if the latest event was processed
(`latest_processed`).
-/

namespace PasswordHook

open Prog

/-! ## The store and the clock -/

/-- The server with the clock that everybody reads, which shows a year from 0 to 9999. -/
structure RedisClock where
  server : RedisServer
  clock : ℤ
  range : Time.InRange ⟨clock, 0⟩

/-- The millisecond of the server. -/
def RedisClock.tick (s : RedisClock) : ℤ := s.clock / millisecond

section Backend

variable (U : Unicode) (sha256 : Bytes → Bytes) (R : RedisStore) (q : Queue) (names : Set String)

/-- A `RedisStore` and a queue under one clock, which never goes back; a write has read the clock
when the script runs, or before. -/
def redisBackend : Backend where
  State := RedisClock
  init s := s.server = .empty
  reads s t := t.nano = s.clock
  get s upn r := ∃ clientErr, r = R.get U sha256 s.server clientErr s.tick upn
  mark s m upn t s' := ∃ now : Time, now.InRange ∧ now.nano ≤ s.clock ∧
    s'.server = (R.mark U sha256 s.server s.tick m upn t now).1 ∧ s'.clock = s.clock
  env s s' := s.clock ≤ s'.clock ∧ s'.server = s.server
  delivers s sentAt := s.clock < sentAt.nano + q.ttl
  names := names

/-- The record of an account that a `Get` finds at the millisecond. -/
def RedisStore.recordAt (server : RedisServer) (tick : ℤ) (upn : String) : Option Record :=
  match R.get U sha256 server none tick upn with
  | .error _ => none
  | .ok record => if record.status = .unsynced then none else some record

end Backend

/-- Every hash is that of a record. -/
def RedisServer.HoldsRecords (server : RedisServer) : Prop :=
  ∀ key hash, server.keys key = some hash → ∃ record : Record, record.Stored ∧
    hash.fields = record.fields

section Records

variable {U : Unicode} {sha256 : Bytes → Bytes} {R : RedisStore} {server : RedisServer} {tick : ℤ}
  {upn : String}

theorem RedisServer.HoldsRecords.shaped (h : server.HoldsRecords) : server.Shaped := by
  intro key hash hhash
  obtain ⟨record, -, hfields⟩ := h key hash hhash
  exact ⟨_, _, _, hfields⟩

/-- A key is not found or holds a record. -/
theorem RedisServer.HoldsRecords.find_cases (h : server.HoldsRecords) (tick : ℤ) (key : String) :
    server.find tick key = none ∨
      ∃ record e, record.Stored ∧ server.find tick key = some ⟨Record.fields record, e⟩ := by
  cases hfind : server.find tick key with
  | none => exact .inl rfl
  | some hash =>
    obtain ⟨record, stored, hfields⟩ := h key hash (RedisServer.find_eq_some.1 hfind).1
    exact .inr ⟨record, hash.expireAt, stored, by rw [← hfields]⟩

theorem RedisStore.recordAt_of_find {record : Record} {e : Option ℤ} (stored : record.Stored)
    (found : server.find tick (R.key U sha256 upn) = some ⟨record.fields, e⟩) :
    R.recordAt U sha256 server tick upn = some record := by
  rw [RedisStore.recordAt, RedisStore.get_of_find stored found]
  exact if_neg stored.status_ne

theorem RedisStore.recordAt_of_absent (absent : server.find tick (R.key U sha256 upn) = none) :
    R.recordAt U sha256 server tick upn = none := by
  rw [RedisStore.recordAt, RedisStore.get_of_absent absent]
  rfl

theorem RedisStore.recordAt_of_account {upn' : String}
    (account : normalizeUPN U upn = normalizeUPN U upn') :
    R.recordAt U sha256 server tick upn = R.recordAt U sha256 server tick upn' := by
  have hkey : R.key U sha256 upn = R.key U sha256 upn' := by
    rw [RedisStore.key, RedisStore.key, account]
  unfold RedisStore.recordAt RedisStore.get
  rw [hkey]

theorem RedisStore.get_of_recordAt {record : Record}
    (h : R.recordAt U sha256 server tick upn = some record) :
    R.get U sha256 server none tick upn = .ok record := by
  unfold RedisStore.recordAt at h
  split at h
  · cases h
  · rename_i found hget
    split_ifs at h
    cases h
    exact hget

/-- A `Get` answers the record of the account. -/
theorem RedisServer.HoldsRecords.get_eq (h : server.HoldsRecords) {clientErr : Option Err}
    {record : Record} (hget : R.get U sha256 server clientErr tick upn = .ok record) :
    record = (R.recordAt U sha256 server tick upn).getD .zero := by
  cases clientErr with
  | some err => cases hget
  | none =>
    rcases h.find_cases tick (R.key U sha256 upn) with absent | ⟨found, e, stored, hfound⟩
    · rw [RedisStore.get_of_absent absent] at hget
      rw [RedisStore.recordAt_of_absent absent]
      exact (Except.ok.inj hget).symm
    · rw [RedisStore.get_of_find stored hfound] at hget
      rw [RedisStore.recordAt_of_find stored hfound]
      exact (Except.ok.inj hget).symm

/-- As time goes on a record stays or is lost. -/
theorem RedisServer.HoldsRecords.recordAt_later (h : server.HoldsRecords) {later : ℤ}
    (hle : tick ≤ later) :
    R.recordAt U sha256 server later upn = R.recordAt U sha256 server tick upn ∨
      R.recordAt U sha256 server later upn = none := by
  rcases h.find_cases later (R.key U sha256 upn) with absent | ⟨record, e, stored, hfound⟩
  · exact .inr (RedisStore.recordAt_of_absent absent)
  · have hbefore : server.find tick (R.key U sha256 upn) = some ⟨record.fields, e⟩ := by
      obtain ⟨hkeys, hlive⟩ := RedisServer.find_eq_some.1 hfound
      refine RedisServer.find_eq_some.2 ⟨hkeys, ?_⟩
      cases e with
      | none => rfl
      | some deadline =>
        simp only [RedisKey.expired, Option.any_some, decide_eq_false_iff_not] at hlive ⊢
        omega
    exact .inl (by rw [RedisStore.recordAt_of_find stored hfound,
      RedisStore.recordAt_of_find stored hbefore])

/-! ## Writes -/

variable {m : Mark} {source now : Time}

theorem RedisServer.HoldsRecords.applied (h : server.HoldsRecords) (source_range : source.InRange)
    (now_range : now.InRange) : (applied U sha256 R server tick m upn source now).HoldsRecords := by
  intro key hash hhash
  by_cases hkey : key = R.key U sha256 upn
  · rw [PasswordHook.applied, hkey, put_keys_self] at hhash
    cases hhash
    exact ⟨_, stored_mark m source_range now_range, rfl⟩
  · rw [PasswordHook.applied, put_keys_of_ne _ _ hkey] at hhash
    exact h key hash hhash

theorem RedisStore.recordAt_applied (source_range : source.InRange) (now_range : now.InRange) :
    R.recordAt U sha256 (applied U sha256 R server tick m upn source now) tick upn =
      some ⟨m.status, now.utc, source.utc⟩ := by
  apply RedisStore.recordAt_of_find (stored_mark m source_range now_range)
  rw [RedisServer.find_eq_some, applied, RedisServer.put_keys_self]
  refine ⟨rfl, ?_⟩
  have httl := R.milliseconds_ttl_pos m
  simp only [RedisKey.expired, Option.any_some, decide_eq_false_iff_not]
  omega

theorem RedisStore.recordAt_applied_of_ne {upn' : String}
    (hkey : R.key U sha256 upn' ≠ R.key U sha256 upn) :
    R.recordAt U sha256 (applied U sha256 R server tick m upn source now) tick upn' =
      R.recordAt U sha256 server tick upn' := by
  unfold RedisStore.recordAt RedisStore.get RedisServer.hgetall RedisServer.find applied
  rw [RedisServer.put_keys_of_ne _ _ hkey]

/-- The script drops a write just if the rank of its record is not greater. -/
theorem RedisServer.HoldsRecords.stale_iff (h : server.HoldsRecords) (source_range : source.InRange)
    (updated : Time) :
    transitionStale server tick (R.key U sha256 upn) m.status.text source.utc.formatRedis = true ↔
      (Record.rank ⟨m.status, updated, source.utc⟩ : WithBot (ℤ ×ₗ ℕ)) ≤
        Register.held Record.rank (R.recordAt U sha256 server tick upn) := by
  rcases h.find_cases tick (R.key U sha256 upn) with absent | ⟨record, e, stored, hfound⟩
  · rw [transitionStale_of_absent absent, RedisStore.recordAt_of_absent absent]
    simp
  · rw [transitionStale_of_find stored hfound source_range,
      RedisStore.recordAt_of_find stored hfound, Register.held_some, WithBot.coe_le_coe,
      Record.rank_le_iff]
    simp [Time.before, Time.equal]

/-- A write offers its record to the register of the account and leaves the others alone. -/
theorem RedisServer.HoldsRecords.mark (h : server.HoldsRecords) {names : Set String}
    (apart : NoCollision U sha256 names) (mem : upn ∈ names) (source_range : source.InRange)
    (now_range : now.InRange) :
    (R.mark U sha256 server tick m upn source now).1.HoldsRecords ∧ ∀ upn' ∈ names,
      R.recordAt U sha256 (R.mark U sha256 server tick m upn source now).1 tick upn' =
        if normalizeUPN U upn = normalizeUPN U upn' then
          Register.offer Record.rank (R.recordAt U sha256 server tick upn')
            ⟨m.status, now.utc, source.utc⟩
        else R.recordAt U sha256 server tick upn' := by
  have hstale : transitionStale server tick (R.key U sha256 upn) m.status.text
      source.utc.formatRedis = true ↔
        (Record.rank ⟨m.status, now.utc, source.utc⟩ : WithBot (ℤ ×ₗ ℕ)) ≤
          Register.held Record.rank (R.recordAt U sha256 server tick upn) :=
    h.stale_iff source_range now.utc
  rw [RedisStore.mark_eq_set, RedisStore.set,
    transitionScript_eq h.shaped (R.milliseconds_ttl_pos m)]
  split_ifs with hdrop
  · rw [hstale] at hdrop
    refine ⟨h, fun upn' mem' => ?_⟩
    split_ifs with account
    · rw [RedisStore.recordAt_of_account account] at hdrop
      rw [Register.offer_of_le hdrop]
    · rfl
  · rw [hstale, not_le] at hdrop
    refine ⟨h.applied source_range now_range, fun upn' mem' => ?_⟩
    split_ifs with account
    · rw [RedisStore.recordAt_of_account account] at hdrop
      rw [Register.offer_of_lt hdrop, ← RedisStore.recordAt_of_account account]
      exact RedisStore.recordAt_applied source_range now_range
    · apply RedisStore.recordAt_applied_of_ne
      intro hkey
      exact account ((R.key_eq_iff apart mem' mem).1 hkey).symm

end Records

section View

variable (U : Unicode) (sha256 : Bytes → Bytes) (R : RedisStore) (q : Queue) (names : Set String)

/-- Redis is a status store: a record is lost when its key expires. -/
def redisView (apart : NoCollision U sha256 names) :
    StatusView U (redisBackend U sha256 R q names) where
  view s upn := R.recordAt U sha256 (RedisClock.server s) (RedisClock.tick s) upn
  Inv s := (RedisClock.server s).HoldsRecords
  TimeOk t := t.InRange
  inv_init := by
    intro s hinit
    have hempty : RedisClock.server s = .empty := hinit
    constructor
    · intro key hash hhash
      rw [hempty] at hhash
      cases hhash
    · intro upn
      apply RedisStore.recordAt_of_absent
      rw [hempty]
      rfl
  reads_ok := by
    intro s t _ hread
    have hclock : t.utc = ⟨RedisClock.clock s, 0⟩ := Time.ext hread rfl
    rw [hclock]
    exact RedisClock.range s
  get_ok := by
    rintro s upn r hinv - ⟨clientErr, hget⟩
    exact hinv.get_eq hget.symm
  mark_ok := by
    rintro s m upn t s' hinv hname hutc htime ⟨now, hnow, -, hserver, hclock⟩
    obtain ⟨hrecords, hview⟩ := hinv.mark (R := R) (m := m) apart hname htime hnow
    have htick : RedisClock.tick s' = RedisClock.tick s :=
      congrArg (fun c => c / millisecond) hclock
    rw [hutc] at hview
    refine ⟨?_, now.utc, fun upn' hname' => ?_⟩
    · rw [hserver]
      exact hrecords
    · rw [hserver, htick]
      exact hview upn' hname'
  env_ok := by
    rintro s s' hinv ⟨hclock, hserver⟩
    have htick : RedisClock.tick s ≤ RedisClock.tick s' := Int.ediv_le_ediv (by decide) hclock
    rw [hserver]
    exact ⟨hinv, fun upn _ => hinv.recordAt_later htick⟩

end View

/-! ## The latest event -/

section Latest

variable {U : Unicode} {q : Queue} {J : Json} {B : Backend} {V : StatusView U B}
  {W W' : PipelineWorld B} {ℓ : PipelineLabel}

variable (U) in
/-- The events of an account are stamped at different instants. -/
def DistinctStamps (W : PipelineWorld B) : Prop :=
  ∀ (j j' : ℕ) (t t' : HookThread), W.pool .hook j = some t → W.pool .hook j' = some t' →
    ∀ upn upn' time time', HookEvent.read (.enqueuedAt upn) time ∈ t.past →
      HookEvent.read (.enqueuedAt upn') time' ∈ t'.past → normalizeUPN U upn = normalizeUPN U upn' →
      time.nano = time'.nano → j = j'

variable (U q J) in
/-- When a submission comes to skip its event with `already_synced`, the processor has returned nil
for the latest event of the account among those whose submission has returned `Enqueued`. -/
def LatestProcessed (W : PipelineWorld B) : Prop :=
  ∀ (j : ℕ) (e : HookEvent) (W' : PipelineWorld B) (t : HookThread) (d : Decision)
    (err : Option Err),
    Step (pipeline U q J B) W (.call .hook j e) W' → W'.pool .hook j = some t →
    Exec t.rest [HookEvent.zeroed] (d, err) → d.skipped = true → d.reason = "already_synced" →
    ∀ msg, ReturnedMessage W msg → normalizeUPN U msg.upn = normalizeUPN U d.upn →
      (∀ msg', ReturnedMessage W msg' → normalizeUPN U msg'.upn = normalizeUPN U d.upn →
        msg'.enqueuedAt.nano ≤ msg.enqueuedAt.nano) →
      ProcessedMessage J W msg

/-- A status write comes in time: if the account has no record, no event of it was marked pending
with a later stamp; and an event that is marked synced is one whose submission has returned. -/
structure InTime (V : StatusView U B) (W : PipelineWorld B) (m : Mark) (upn : String) (t : Time) :
    Prop where
  gone : ∀ upn' ∈ B.names, normalizeUPN U upn' = normalizeUPN U upn →
    V.view W.shared.store upn' = none → ∀ n, Marked U W (normalizeUPN U upn) n → n ≤ t.nano
  returned : m = .synced → Returned U W (normalizeUPN U upn) t.nano

/-- The status write of the step, if it makes one, comes in time. -/
def WritesInTime (V : StatusView U B) (W : PipelineWorld B) (ℓ : PipelineLabel) : Prop :=
  ∀ m upn t, writeOf ℓ = some (m, upn, t) → InTime V W m upn t

/-- No event of an account was marked pending with a stamp later than that of its record. -/
def MarkedBelow (V : StatusView U B) (W : PipelineWorld B) : Prop :=
  ∀ upn ∈ B.names, ∀ record, V.view W.shared.store upn = some record →
    ∀ n, Marked U W (normalizeUPN U upn) n → n ≤ record.sourceEnqueuedAt.nano

/-- A synced record is of an event whose submission has returned. -/
def SyncedReturned (V : StatusView U B) (W : PipelineWorld B) : Prop :=
  ∀ upn ∈ B.names, ∀ record, V.view W.shared.store upn = some record → record.status = .synced →
    Returned U W (normalizeUPN U upn) record.sourceEnqueuedAt.nano

/-- An account that is marked pending after a step was so before, or the step has marked it. -/
theorem Step.marked_cases (h : Step (pipeline U q J B) W ℓ W') {key : String} {n : ℤ}
    (hmarked : Marked U W' key n) : Marked U W key n ∨
      ∃ upn t, writeOf ℓ = some (.pending, upn, t) ∧ normalizeUPN U upn = key ∧ t.nano = n := by
  obtain ⟨j, t, ht, e, he, upn, time, hmark, hkey, hn⟩ := hmarked
  have hold : ∀ {t₀ : HookThread}, W.pool .hook j = some t₀ → e ∈ t₀.past → Marked U W key n :=
    fun h₀ he₀ => ⟨j, _, h₀, e, he₀, upn, time, hmark, hkey, hn⟩
  rcases h.pool_cases ht with ⟨hp, -, -, -⟩ | ⟨t₀, c, f, r, h₀, -, hlabel, -, rfl⟩ | h₀
  · rw [hp] at he
    cases he
  · rcases List.mem_append.1 he with he | he
    · exact .inl (hold h₀ he)
    · rw [List.mem_singleton.1 he] at hmark
      refine .inr ⟨upn, time, ?_, hkey, hn⟩
      rw [hlabel]
      exact writeOf_hook hmark j r
  · exact .inl (hold h₀ he)

theorem MarkedBelow.step (hW : Sound q J V W) (ih : MarkedBelow V W) (inTime : WritesInTime V W ℓ)
    (h : Step (pipeline U q J B) W ℓ W') : MarkedBelow V W' := by
  intro upn hupn record hr n hmarked
  rcases h.marked_cases hmarked with hold | ⟨upn', t, hwrite, hkey, hn⟩
  · rcases hW.view_step h hupn hr with hr | ⟨m, a, hw⟩
    · exact ih upn hupn record hr n hold
    · cases hview : V.view W.shared.store upn with
      | none =>
        have hgone := (inTime m _ _ hw.label).gone upn hupn hw.account.symm hview n
        rw [hw.account] at hgone
        rw [hw.source]
        exact hgone hold
      | some before =>
        have hhigher := hw.higher
        rw [hview, Register.held_some, WithBot.coe_lt_coe] at hhigher
        exact (ih upn hupn before hview n hold).trans (Prod.Lex.monotone_fst _ _ hhigher.le)
  · obtain ⟨now, hview⟩ := hW.view_write h hwrite hupn hkey
    have hrank : (Record.rank ⟨Mark.status .pending, now, t⟩ : WithBot (ℤ ×ₗ ℕ)) ≤ record.rank := by
      rw [← Register.held_some Record.rank record, ← hr, hview, Register.held_offer]
      exact le_max_right _ _
    rw [← hn]
    exact Prod.Lex.monotone_fst _ _ (WithBot.coe_le_coe.1 hrank)

theorem SyncedReturned.step (hW : Sound q J V W) (ih : SyncedReturned V W)
    (inTime : WritesInTime V W ℓ) (h : Step (pipeline U q J B) W ℓ W') : SyncedReturned V W' := by
  intro upn hupn record hr hsynced
  rcases hW.view_step h hupn hr with hr | ⟨m, a, hw⟩
  · exact (ih upn hupn record hr hsynced).step h
  · have hm : m = .synced := Mark.eq_synced (by rw [← hw.status, hsynced])
    have hreturned := (inTime m _ _ hw.label).returned hm
    rw [hw.account, ← hw.source] at hreturned
    exact hreturned.step h

/-- With distinct stamps, messages of one account with one stamp are one message. -/
theorem Sound.message_eq (hW : Sound q J V W) (distinct : DistinctStamps U W)
    {msg msg' : PasswordSyncMessage} (hreturned : ReturnedMessage W msg)
    (hprocessed : ProcessedMessage J W msg')
    (account : normalizeUPN U msg.upn = normalizeUPN U msg'.upn)
    (stamp : msg.enqueuedAt.nano = msg'.enqueuedAt.nano) : msg = msg' := by
  obtain ⟨j, t, ht, -, hsent⟩ := hreturned
  obtain ⟨-, -, -, ⟨-, -, a, ha, rfl, -⟩, -⟩ := hprocessed
  obtain ⟨-, j', t', ht', e', he', hsent'⟩ := hW.accepted_sent a ha
  obtain ⟨-, -, -, time, hread, htime⟩ := hW.stamped_of_sent ht hsent rfl
  obtain ⟨-, -, -, time', hread', htime'⟩ := hW.stamped_of_sent ht' he' hsent'
  have hj : j = j' := by
    apply distinct j j' t t' ht ht' _ _ time time' hread hread' account
    rw [htime, htime'] at stamp
    exact stamp
  subst hj
  rw [ht, Option.some.injEq] at ht'
  subst ht'
  obtain ⟨svc, traceID, req, τ, r, -, -, -, hordered⟩ := hW.hook_exec ht
  exact hordered.message_eq hsent he' rfl hsent'

/-- A submission that skips with `already_synced` has just read a synced record of an account in
use. -/
theorem Sound.view_of_skip (hW : Sound q J V W) {j : ℕ} {e : HookEvent} {t : HookThread}
    {d : Decision} {err : Option Err} (h : Step (pipeline U q J B) W (.call .hook j e) W')
    (ht : W'.pool .hook j = some t) (hrest : Exec t.rest [HookEvent.zeroed] (d, err))
    (skipped : d.skipped = true) (reason : d.reason = "already_synced") :
    d.upn ∈ B.names ∧ ∃ record, V.view W.shared.store d.upn = some record ∧
      record.status = .synced := by
  have hW' := hW.step h
  obtain ⟨svc, traceID, req, -, hnames, hstart⟩ := hW'.hook_start j t ht
  have hexec : Exec (submit U svc traceID req) (t.past ++ [HookEvent.zeroed]) (d, err) := by
    rw [← hstart]
    exact (hW'.threads .hook j t ht).trans hrest
  obtain ⟨record, hpast, hsynced⟩ := exec_submit_synced hexec skipped reason
  have hname : d.upn ∈ B.names := hnames d.upn (buildUPN_of_skipped_synced hexec skipped reason)
  have hget : B.get W.shared.store d.upn (.ok record) := by
    cases h with
    | @call _ _ t₀ c f r s thread next answer =>
      rw [World.setThread_pool_self] at ht
      cases ht
      have hone : t₀.past ++ [⟨c, r⟩] = [HookEvent.looked d.upn (.ok record)] :=
        List.append_cancel_right hpast
      cases (List.append_eq_singleton_iff.1 hone).resolve_right (by simp) |>.2
      exact answer.1
  refine ⟨hname, record, ?_, hsynced⟩
  have hview := V.get_ok hW.inv hname hget
  cases hfound : V.view W.shared.store d.upn with
  | none =>
    rw [hview, hfound] at hsynced
    cases hsynced
  | some found =>
    rw [hfound] at hview
    rw [hview]
    rfl

/-- Along a run whose status writes all come in time, a login is skipped as synced only if the
latest event was processed. -/
theorem latestProcessed_of_inTime (h : Reach (pipeline U q J B) (WritesInTime V) W)
    (distinct : DistinctStamps U W) : LatestProcessed U q J W := by
  have hW := sound_of_reach V h
  obtain ⟨-, hbelow, hsyncedReturned⟩ :=
    h.invariant (P := fun W => Sound q J V W ∧ MarkedBelow V W ∧ SyncedReturned V W)
      (by
        intro s hinit
        have hnone := (V.inv_init hinit.1).2
        refine ⟨sound_init hinit, ?_, ?_⟩ <;> intro upn _ record hr <;> rw [hnone upn] at hr <;>
          cases hr)
      fun W ℓ W' ⟨hW, hbelow, hreturned⟩ inTime hs =>
        ⟨hW.step hs, hbelow.step hW inTime hs, hreturned.step hW inTime hs⟩
  intro j e W' t d err hs ht hrest hskipped hreason msg hreturned account latest
  obtain ⟨hname, record, hview, hsynced⟩ := hW.view_of_skip hs ht hrest hskipped hreason
  obtain ⟨msg', hprocessed, account', hsource⟩ :=
    syncedProcessed_of_reach V h d.upn hname record hview hsynced
  obtain ⟨msg'', hreturned'', account'', hsource''⟩ :=
    hsyncedReturned d.upn hname record hview hsynced
  have hmarked := hW.marked_of_returned hreturned
  rw [account] at hmarked
  have hle := hbelow d.upn hname record hview _ hmarked
  have hge := latest msg'' hreturned'' account''
  have hmsg : msg = msg' := by
    apply hW.message_eq distinct hreturned hprocessed (account.trans account'.symm)
    rw [hsource]
    omega
  rw [hmsg]
  exact hprocessed

end Latest

/-- Over a `RedisStore`, with SHA-256 telling the accounts apart. -/
theorem latest_processed {U : Unicode} {sha256 : Bytes → Bytes} {R : RedisStore}
    {q : Queue} {J : Json} {names : Set String} (apart : NoCollision U sha256 names)
    {W : PipelineWorld (redisBackend U sha256 R q names)}
    (h : Reach (pipeline U q J (redisBackend U sha256 R q names))
      (WritesInTime (redisView U sha256 R q names apart)) W)
    (distinct : DistinctStamps U W) : LatestProcessed U q J W :=
  latestProcessed_of_inTime h distinct

/-! ## Runs of one account -/

section Sample

def sampleRedis : RedisStore :=
  ⟨"sync:", 300 * second, 7776000 * second, by decide, by decide, by decide⟩

abbrev sampleBackend : Backend := redisBackend .ascii id sampleRedis (newQueue 0) Set.univ

abbrev SampleWorld := PipelineWorld sampleBackend

abbrev samplePipeline := pipeline .ascii (newQueue 0) .flat sampleBackend

theorem apart_sample : NoCollision .ascii id Set.univ := fun _ _ _ _ h => bytesOf_inj h

/-- The store when the account is marked and the clock read as the script runs. -/
def RedisClock.marked (s : RedisClock) (m : Mark) (t : Time) : RedisClock :=
  { s with
    server := (sampleRedis.mark .ascii id s.server s.tick m "b11001@example.edu" t ⟨s.clock, 0⟩).1 }

theorem RedisClock.mark_marked (s : RedisClock) (m : Mark) (t : Time) :
    sampleBackend.mark s m "b11001@example.edu" t (s.marked m t) :=
  ⟨⟨s.clock, 0⟩, s.range, le_rfl, rfl, rfl⟩

/-- A changed password that was submitted at the reading, when the queue has taken its message. -/
def takenThread (t : Time) : HookThread :=
  ⟨submit .ascii sampleService "" sampleRequest,
    takenRun sampleRequest (sampleStamped t) t sampleEnvelope,
    takenRest sampleDecision "b11001@example.edu" t.utc⟩

def returnedThread (t : Time) : HookThread :=
  ⟨submit .ascii sampleService "" sampleRequest,
    takenRun sampleRequest (sampleStamped t) t sampleEnvelope ++
      [HookEvent.marked "b11001@example.edu" t.utc none, HookEvent.zeroed],
    .ret ({ sampleDecision with enqueued := true }, none)⟩

variable {C : SampleWorld → PipelineLabel → Prop} {W : SampleWorld} {hooks : List HookThread}
  {workers : List WorkerThread} (quiet : ∀ W ℓ, writeOf ℓ = none → C W ℓ)

include quiet in
/-- A changed password is submitted. -/
theorem reach_submitted (h : Reach samplePipeline C W) (hhooks : W.ThreadsAre .hook hooks)
    (hworkers : W.ThreadsAre .worker workers) {t : Time} (range : t.utc.InRange)
    (clock : t.isZero = false) (reads : sampleBackend.reads W.shared.store t)
    (meets : ∀ W' : SampleWorld, W'.ThreadsAre .hook (hooks ++ [takenThread t]) →
      C W' (.call .hook hooks.length (HookEvent.marked "b11001@example.edu" t.utc none))) :
    ∃ W' bus, Reach samplePipeline C W' ∧ W'.ThreadsAre .hook (hooks ++ [returnedThread t]) ∧
      W'.ThreadsAre .worker workers ∧
      W'.shared = ⟨W.shared.store.marked .pending t.utc,
        ⟨sampleStamped t, bus, t⟩ :: W.shared.accepted⟩ ∧
      ∀ addr, decodePasswordSyncMessage .flat (some ⟨addr, receivedMessage bus⟩) =
        .ok (sampleStamped t) := by
  obtain ⟨bus, hbus, hdecoded⟩ := exists_delivered_sampleStamped (newQueue 0) .flat range clock
  obtain ⟨W₁, h₁, hs₁, ht₁, hframe₁⟩ := reach_taken quiet h (j := hooks.length)
    (by rw [hhooks, List.getElem?_eq_none le_rfl]) submitBody_sampleRequest ⟨rfl, rfl, rfl⟩
    (fun _ _ => Set.mem_univ _) (show _ = sampleStamped t from rfl) reads hbus
  have hhooks₁ : W₁.ThreadsAre .hook (hooks ++ [takenThread t]) := hhooks.add hframe₁ ht₁
  obtain ⟨W₂, h₂, hs₂, ht₂, hframe₂⟩ := reach_returned quiet h₁ ht₁
    (W₁.shared.store.mark_marked .pending t.utc) (meets W₁ hhooks₁)
  refine ⟨W₂, bus, h₂, ?_, (hworkers.of_other hframe₁ (by simp)).of_other hframe₂ (by simp), ?_,
    hdecoded⟩
  · have hset := hhooks₁.set hframe₂ ht₂ (by simp)
    simpa [returnedThread, takenThread] using hset
  · rw [hs₂, hs₁]

include quiet in
theorem reach_later (h : Reach samplePipeline C W) {clock : ℤ} (hle : W.shared.store.clock ≤ clock)
    (range : Time.InRange ⟨clock, 0⟩) :
    Reach samplePipeline C
      ⟨⟨⟨W.shared.store.server, clock, range⟩, W.shared.accepted⟩, W.pool⟩ :=
  h.step (quiet _ _ rfl) (Step.env ⟨⟨hle, rfl⟩, rfl⟩)

/-- A login that has not begun. -/
def loginThread : HookThread :=
  ⟨submit .ascii sampleService "" sampleLogin, [], submit .ascii sampleService "" sampleLogin⟩

include quiet in
theorem reach_login (h : Reach samplePipeline C W) (hhooks : W.ThreadsAre .hook hooks)
    (hworkers : W.ThreadsAre .worker workers) :
    ∃ W', Reach samplePipeline C W' ∧ W'.ThreadsAre .hook (hooks ++ [loginThread]) ∧
      W'.ThreadsAre .worker workers ∧ W'.shared = W.shared := by
  have hfree : W.pool .hook hooks.length = none := by rw [hhooks, List.getElem?_eq_none le_rfl]
  have hspawn := h.step (quiet _ (.spawn .hook hooks.length loginThread.start) rfl)
    (Step.spawn hfree ⟨sampleService, "", sampleLogin, rfl, fun _ _ => Set.mem_univ _, rfl⟩)
  have hframe : W.SameBut (W.setThread .hook hooks.length loginThread) .hook hooks.length :=
    fun k i hne => World.setThread_pool_of_ne W _ hne
  exact ⟨_, hspawn, hhooks.add hframe (World.setThread_pool_self _ _ _ _),
    hworkers.of_other hframe (by simp), rfl⟩

/-! ## What comes of the login -/

def syncedDecision : Decision := { sampleDecision with skipped := true, reason := "already_synced" }

theorem exec_sampleLogin_synced {record : Record} (synced : record.status = .synced) :
    Exec (submit .ascii sampleService "" sampleLogin)
      [HookEvent.looked "b11001@example.edu" (.ok record), HookEvent.zeroed]
        (syncedDecision, none) := by
  have hskip : Exec (skipLoginBootstrap sampleService "b11001@example.edu")
      [HookEvent.looked "b11001@example.edu" (.ok record)] (some "already_synced") := by
    refine exec_skipLoginBootstrap_cases.2 (.inr ⟨record, .inl ⟨?_, rfl, ?_⟩⟩)
    · rw [synced]
      exact nofun
    · rw [if_pos synced]
  have hbody : Exec (submitBody .ascii sampleService "" sampleLogin)
      [HookEvent.looked "b11001@example.edu" (.ok record)] (syncedDecision, none) := by
    rw [submitBody_sampleLogin, submitAccount, if_pos (by decide)]
    exact exec_bind_iff.2 ⟨_, _, [], rfl, hskip, .refl _⟩
  exact exec_bind_iff.2 ⟨_, _, [HookEvent.zeroed], rfl, hbody,
    exec_call_iff.2 ⟨(), [], rfl, .refl _⟩⟩

/-- A login that finds a synced record is skipped. -/
theorem exists_skip {j : ℕ} (login : W.pool .hook j = some loginThread) {record : Record}
    (hget : sampleRedis.get .ascii id W.shared.store.server none W.shared.store.tick
      "b11001@example.edu" = .ok record) (synced : record.status = .synced) :
    ∃ e W' t, Step samplePipeline W (.call .hook j e) W' ∧ W'.pool .hook j = some t ∧
      Exec t.rest [HookEvent.zeroed] (syncedDecision, none) := by
  have hexec := exec_sampleLogin_synced synced
  generalize hstart : submit .ascii sampleService "" sampleLogin = p at hexec
  cases hexec with
  | call c k r hrest =>
    refine ⟨_, _, _, Step.call login hstart ⟨⟨none, hget.symm⟩, rfl⟩,
      World.setThread_pool_self _ _ _ _, hrest⟩

/-! ## Submitted passwords and a login -/

variable {times : List Time}

/-- The hooks are the submissions that have returned, one for each reading, and a login. -/
theorem thread_cases (hhooks : W.ThreadsAre .hook (times.map returnedThread ++ [loginThread]))
    {j : ℕ} {t : HookThread} (ht : W.pool .hook j = some t) :
    (∃ time, times[j]? = some time ∧ t = returnedThread time) ∨ t = loginThread := by
  rw [hhooks] at ht
  rcases lt_or_ge j (times.map returnedThread).length with hlt | hge
  · rw [List.getElem?_append_left hlt, List.getElem?_map, Option.map_eq_some_iff] at ht
    obtain ⟨time, htime, heq⟩ := ht
    exact .inl ⟨time, htime, heq.symm⟩
  · rw [List.getElem?_append_right hge] at ht
    exact .inr (List.mem_singleton.1 (List.mem_of_getElem? ht))

theorem distinctStamps_sample (distinct : (times.map Time.nano).Nodup)
    (hhooks : W.ThreadsAre .hook (times.map returnedThread ++ [loginThread])) :
    DistinctStamps .ascii W := by
  have hread : ∀ {j : ℕ} {t : HookThread} {upn : String} {time : Time}, W.pool .hook j = some t →
      HookEvent.read (.enqueuedAt upn) time ∈ t.past →
      (times.map Time.nano)[j]? = some time.nano := by
    intro j t upn time ht hmem
    rcases thread_cases hhooks ht with ⟨time', htime, rfl⟩ | rfl
    · simp only [returnedThread, takenRun, List.cons_append, List.nil_append, List.mem_cons,
        List.not_mem_nil, or_false] at hmem
      rcases hmem with hmem | hmem | hmem | hmem | hmem <;> cases hmem
      rw [List.getElem?_map, htime]
      rfl
    · cases hmem
  intro j j' t t' ht ht' upn upn' time time' hmem hmem' _ heq
  have hj := hread ht hmem
  have hj' := hread ht' hmem'
  rw [← heq] at hj'
  exact (List.getElem?_inj (List.getElem?_eq_some_iff.1 hj).1 distinct).1 (hj.trans hj'.symm)

theorem returned_sample (hhooks : W.ThreadsAre .hook (times.map returnedThread ++ [loginThread]))
    {msg : PasswordSyncMessage} (h : ReturnedMessage W msg) :
    ∃ time ∈ times, msg = sampleStamped time := by
  obtain ⟨j, t, ht, -, hsent⟩ := h
  rcases thread_cases hhooks ht with ⟨time, htime, rfl⟩ | rfl
  · refine ⟨time, List.mem_of_getElem? htime, ?_⟩
    simp only [returnedThread, takenRun, List.cons_append, List.nil_append, List.mem_cons,
      List.not_mem_nil, or_false] at hsent
    rcases hsent with hsent | hsent | hsent | hsent | hsent <;> cases hsent
    rfl
  · cases hsent

theorem returnedMessage_sample {j : ℕ} {time : Time}
    (h : W.pool .hook j = some (returnedThread time)) :
    ReturnedMessage W (sampleStamped time) :=
  ⟨j, _, h, ⟨_, _, rfl, rfl⟩, by simp [returnedThread, takenRun]⟩

/-- A worker that has marked an event with another stamp is not at work on the message. -/
theorem not_processed_sample (h : Reach samplePipeline C W) {worker : WorkerThread} {t t' : Time}
    (hworkers : W.ThreadsAre .worker [worker]) (ht : t'.nano ≠ t.nano)
    (hmarked : WorkerEvent.markedSynced "b11001@example.edu" t'.utc none ∈ worker.past)
    (hdecoded : ∀ a ∈ W.shared.accepted, a.msg = sampleStamped t →
      ∀ addr, decodePasswordSyncMessage .flat (some ⟨addr, receivedMessage a.bus⟩) =
        .ok (sampleStamped t)) :
    ¬ ProcessedMessage .flat W (sampleStamped t) := by
  rintro ⟨i, w, hw, ⟨_, addr, a, ha, hmsg, hstart⟩, -⟩
  have hw' : w = worker := by
    rw [hworkers] at hw
    exact List.mem_singleton.1 (List.mem_of_getElem? hw)
  subst hw'
  have hsteps := (sound_of_reach (redisView _ _ _ _ _ apart_sample) h).threads .worker i w hw
  rw [hstart] at hsteps
  obtain ⟨τ, r, hexec⟩ := hsteps.exists_exec worker_resp_nonempty
  obtain ⟨m, hm, hmark⟩ := markOf_processMessage hexec (List.mem_append_left τ hmarked) rfl
  rw [hdecoded a ha hmsg addr] at hm
  cases hm
  exact ht (congrArg (fun mark => mark.2.nano) hmark)

/-- The second password, a second after the first. -/
def laterReading : Time := ⟨sampleReading.nano + second, 28800⟩

/-- When the second message and the pending record have expired. -/
def expiredClock : ℤ := sampleReading.nano + 302 * second

/-- What is left when the first event is marked synced then. -/
def lostServer : RedisServer :=
  let first := sampleRedis.mark .ascii id .empty (sampleReading.nano / millisecond) .pending
    "b11001@example.edu" sampleReading.utc ⟨sampleReading.nano, 0⟩
  let both :=
    sampleRedis.mark .ascii id first.1 ((sampleReading.nano + second) / millisecond) .pending
    "b11001@example.edu" laterReading.utc ⟨sampleReading.nano + second, 0⟩
  (sampleRedis.mark .ascii id both.1 (expiredClock / millisecond) .synced "b11001@example.edu"
    sampleReading.utc ⟨expiredClock, 0⟩).1

theorem recordAt_lostServer :
    sampleRedis.recordAt .ascii id lostServer (expiredClock / millisecond) "b11001@example.edu" =
      some ⟨.synced, ⟨expiredClock, 0⟩, sampleReading.utc⟩ := by
  decide +kernel

/-- Two passwords are changed.  The processor accepts the first, but its worker comes to
`MarkSynced` only when the pending record of the second, and its message, have expired.  The next
login is skipped with `already_synced`, and nobody has processed the second password. -/
theorem lost_event_counts_as_synced : ∃ W, Reach samplePipeline anyStep W ∧
    DistinctStamps .ascii W ∧ ¬ LatestProcessed .ascii (newQueue 0) .flat W := by
  have quiet : ∀ (W : SampleWorld) ℓ, writeOf ℓ = none → anyStep W ℓ := fun _ _ _ => trivial
  have hrange : Time.InRange ⟨sampleReading.nano, 0⟩ := by decide +kernel
  have hlater : Time.InRange ⟨sampleReading.nano + second, 0⟩ := by decide +kernel
  have hexpired : Time.InRange ⟨expiredClock, 0⟩ := by decide +kernel
  have hinit : Reach samplePipeline anyStep
      ⟨⟨⟨.empty, sampleReading.nano, hrange⟩, []⟩, fun _ _ => none⟩ := .init ⟨rfl, rfl⟩
  -- the two submissions return
  obtain ⟨W₁, bus₁, h₁, hhooks₁, hworkers₁, hs₁, hdecoded₁⟩ := reach_submitted quiet hinit
    (fun _ => List.getElem?_nil.symm) (fun _ => List.getElem?_nil.symm) (t := sampleReading)
    hrange (by decide) rfl fun _ _ => trivial
  have hclock₁ : W₁.shared.store.clock ≤ sampleReading.nano + second := by
    rw [hs₁]
    show sampleReading.nano ≤ sampleReading.nano + second
    decide
  obtain ⟨W₂, bus₂, h₂, hhooks₂, hworkers₂, hs₂, hdecoded₂⟩ := reach_submitted quiet
    (reach_later quiet h₁ hclock₁ hlater) hhooks₁ hworkers₁ (t := laterReading) hlater
      (by decide) rfl
    fun _ _ => trivial
  rw [hs₁] at hs₂
  -- the processor accepts the first message
  obtain ⟨W₃, f, h₃, hs₃, ht₃, hframe₃⟩ := reach_processed quiet h₂ (i := 0)
    (hworkers₂ 0) (newWorker 1 0 0 []) 0 (a := ⟨sampleStamped sampleReading, bus₁, sampleReading⟩)
    (by rw [hs₂]; exact List.mem_cons_of_mem _ List.mem_cons_self)
    (by
      rw [hs₂]
      show sampleReading.nano + second < sampleReading.nano + (newQueue 0).ttl
      decide)
    (hdecoded₁ 0) [112, 119]
  rw [hs₂] at hs₃
  -- its worker comes to the store when the record is gone
  have hclock₃ : W₃.shared.store.clock ≤ expiredClock := by
    rw [hs₃]
    show sampleReading.nano + second ≤ expiredClock
    decide
  obtain ⟨W₄, h₄, hs₄, ht₄, hframe₄⟩ := reach_synced (reach_later quiet h₃ hclock₃ hexpired) ht₃
    (RedisClock.mark_marked _ .synced sampleReading.utc) trivial
  have hworkers₄ := (hworkers₂.add hframe₃ ht₃).set hframe₄ ht₄ (by simp)
  have hhooks₄ := (hhooks₂.of_other hframe₃ (by simp)).of_other hframe₄ (by simp)
  -- the user logs in
  obtain ⟨W₅, h₅, hhooks₅, hworkers₅, hs₅⟩ := reach_login quiet h₄ hhooks₄ hworkers₄
  have hhooks :
      W₅.ThreadsAre .hook ([sampleReading, laterReading].map returnedThread ++ [loginThread]) :=
    hhooks₅
  have hrecord : sampleRedis.recordAt .ascii id W₅.shared.store.server W₅.shared.store.tick
      "b11001@example.edu" = some ⟨.synced, ⟨expiredClock, 0⟩, sampleReading.utc⟩ := by
    rw [hs₅, hs₄, hs₃]
    exact recordAt_lostServer
  obtain ⟨e, W', t, hstep, ht, hrest⟩ :=
    exists_skip (hhooks 2) (RedisStore.get_of_recordAt hrecord) rfl
  refine ⟨W₅, h₅, distinctStamps_sample (by decide) hhooks, fun hlatest => ?_⟩
  have hne : sampleReading.nano ≠ laterReading.nano := by decide
  refine not_processed_sample h₅ hworkers₅ hne (List.mem_append_right _ (List.mem_singleton_self _))
    ?_ ?_
  · rw [hs₅, hs₄, hs₃]
    intro a ha hmsg
    rcases List.mem_cons.1 ha with rfl | ha
    · exact hdecoded₂
    · rw [List.mem_singleton.1 ha] at hmsg
      exact absurd (congrArg (fun msg => msg.enqueuedAt.nano) hmsg) hne
  · apply hlatest 2 e W' t syncedDecision none hstep ht hrest rfl rfl _
      (returnedMessage_sample (hhooks 1)) rfl
    intro msg hreturned _
    obtain ⟨time, hmem, rfl⟩ := returned_sample hhooks hreturned
    simp only [List.mem_cons, List.not_mem_nil, or_false] at hmem
    rcases hmem with rfl | rfl <;> decide

theorem le_of_marked_sample {x : HookThread} {t : Time} (hhooks : W.ThreadsAre .hook [x])
    (hmarks : ∀ e ∈ x.past, ∀ upn time, e.call.markOf = some (upn, time) → time = t.utc)
    {key : String} {n : ℤ} (h : Marked .ascii W key n) : n ≤ t.nano := by
  obtain ⟨j, y, hy, e, he, upn, time, hmark, -, rfl⟩ := h
  rw [hhooks] at hy
  rw [List.mem_singleton.1 (List.mem_of_getElem? hy)] at he
  rw [hmarks e he upn time hmark]
  rfl

/-- What is left when the event is marked pending and then synced. -/
def syncedServer : RedisServer :=
  let first := sampleRedis.mark .ascii id .empty (sampleReading.nano / millisecond) .pending
    "b11001@example.edu" sampleReading.utc ⟨sampleReading.nano, 0⟩
  (sampleRedis.mark .ascii id first.1 (sampleReading.nano / millisecond) .synced
    "b11001@example.edu"
    sampleReading.utc ⟨sampleReading.nano, 0⟩).1

theorem recordAt_syncedServer :
    sampleRedis.recordAt .ascii id syncedServer (sampleReading.nano / millisecond)
      "b11001@example.edu" = some ⟨.synced, ⟨sampleReading.nano, 0⟩, sampleReading.utc⟩ := by
  decide +kernel

/-- A password is changed, processed and reported in time; the next login is skipped. -/
theorem latest_processed_sample : ∃ W,
    Reach samplePipeline
      (WritesInTime (redisView .ascii id sampleRedis (newQueue 0) _ apart_sample)) W ∧
    (∃ e W' t, Step samplePipeline W (.call .hook 1 e) W' ∧ W'.pool .hook 1 = some t ∧
      Exec t.rest [HookEvent.zeroed] (syncedDecision, none)) ∧
    ProcessedMessage .flat W (sampleStamped sampleReading) := by
  have quiet : ∀ (W : SampleWorld) ℓ, writeOf ℓ = none →
      WritesInTime (redisView .ascii id sampleRedis (newQueue 0) _ apart_sample) W ℓ := by
    intro W ℓ hquiet m upn t hw
    rw [hquiet] at hw
    cases hw
  have hrange : Time.InRange ⟨sampleReading.nano, 0⟩ := by decide +kernel
  have hinit : Reach samplePipeline
      (WritesInTime (redisView .ascii id sampleRedis (newQueue 0) _ apart_sample))
      ⟨⟨⟨.empty, sampleReading.nano, hrange⟩, []⟩, fun _ _ => none⟩ := .init ⟨rfl, rfl⟩
  have htakenMarks : ∀ e ∈ (takenThread sampleReading).past, ∀ upn time,
      e.call.markOf = some (upn, time) → time = sampleReading.utc := by
    simp [takenThread, takenRun, HookEvent.read, HookEvent.encrypted, HookEvent.sent,
      HookCall.markOf]
  have hreturnedMarks : ∀ e ∈ (returnedThread sampleReading).past, ∀ upn time,
      e.call.markOf = some (upn, time) → time = sampleReading.utc := by
    simp [returnedThread, takenRun, HookEvent.read, HookEvent.encrypted, HookEvent.sent,
      HookEvent.marked, HookEvent.zeroed, HookCall.markOf]
  obtain ⟨W₁, bus, h₁, hhooks₁, hworkers₁, hs₁, hdecoded⟩ := reach_submitted quiet hinit
    (fun _ => List.getElem?_nil.symm) (fun _ => List.getElem?_nil.symm) (t := sampleReading)
    hrange (by decide) rfl (by
      intro W' hhooks m upn t hw
      cases hw
      exact ⟨fun _ _ _ _ n hn => le_of_marked_sample hhooks htakenMarks hn, fun hm => by cases hm⟩)
  obtain ⟨W₂, f, h₂, hs₂, ht₂, hframe₂⟩ := reach_processed quiet h₁ (i := 0)
    (hworkers₁ 0) (newWorker 1 0 0 []) 0 (a := ⟨sampleStamped sampleReading, bus, sampleReading⟩)
    (by rw [hs₁]; exact List.mem_cons_self)
    (by
      rw [hs₁]
      show sampleReading.nano < sampleReading.nano + (newQueue 0).ttl
      decide)
    (hdecoded 0) [112, 119]
  have hhooks₂ := hhooks₁.of_other hframe₂ (by simp)
  obtain ⟨W₃, h₃, hs₃, ht₃, hframe₃⟩ := reach_synced h₂ ht₂
    (RedisClock.mark_marked _ .synced sampleReading.utc) (by
      intro m upn t hw
      cases hw
      exact ⟨fun _ _ _ _ n hn => le_of_marked_sample hhooks₂ hreturnedMarks hn,
        fun _ => ⟨_, returnedMessage_sample (hhooks₂ 0), rfl, rfl⟩⟩)
  obtain ⟨W₄, h₄, hhooks₄, -, hs₄⟩ := reach_login quiet h₃ (hhooks₂.of_other hframe₃ (by simp))
    ((hworkers₁.add hframe₂ ht₂).set hframe₃ ht₃ (by simp))
  have hhooks : W₄.ThreadsAre .hook ([sampleReading].map returnedThread ++ [loginThread]) := hhooks₄
  have hrecord : sampleRedis.recordAt .ascii id W₄.shared.store.server W₄.shared.store.tick
      "b11001@example.edu" = some ⟨.synced, ⟨sampleReading.nano, 0⟩, sampleReading.utc⟩ := by
    rw [hs₄, hs₃, hs₂, hs₁]
    exact recordAt_syncedServer
  obtain ⟨e, W', t, hstep, ht, hrest⟩ :=
    exists_skip (hhooks 1) (RedisStore.get_of_recordAt hrecord) rfl
  refine ⟨W₄, h₄, ⟨e, W', t, hstep, ht, hrest⟩, ?_⟩
  apply latest_processed apart_sample h₄ (distinctStamps_sample (by decide) hhooks) 1 e W' t
    syncedDecision none hstep ht hrest rfl rfl _ (returnedMessage_sample (hhooks 0)) rfl
  intro msg hreturned _
  obtain ⟨time, hmem, rfl⟩ := returned_sample hhooks hreturned
  rw [List.mem_singleton.1 hmem]

end Sample

end PasswordHook
