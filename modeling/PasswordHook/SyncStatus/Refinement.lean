import PasswordHook.Lib.Simulation
import PasswordHook.SyncStatus.Redis
import PasswordHook.SyncStatus.Status

/-!
# `RedisStore` refines `MemoryStore`

Both stores are machines that answer `Get` and the `Mark` calls.  As long as no key expires they
give the same answers: the texts the script compares stand in the order of the instants, and a hash
is read back as the record that was written.
-/

namespace PasswordHook

/-- A call on a status store; a write comes with the reading of the caller's clock. -/
inductive StoreOp where
  | get (upn : String)
  | mark (m : Mark) (upn : String) (sourceEnqueuedAt now : Time)

def StoreOp.upn : StoreOp → String
  | .get upn => upn
  | .mark _ upn _ _ => upn

/-- The timestamps lie in the years 0 to 9999. -/
def StoreOp.InRange : StoreOp → Prop
  | .get _ => True
  | .mark _ _ sourceEnqueuedAt now => sourceEnqueuedAt.InRange ∧ now.InRange

instance (op : StoreOp) : Decidable op.InRange :=
  match op with
  | .get _ => .isTrue trivial
  | .mark _ _ sourceEnqueuedAt now =>
    inferInstanceAs (Decidable (sourceEnqueuedAt.InRange ∧ now.InRange))

/-- A call, and the millisecond at which the server runs it. -/
structure StoreCall where
  op : StoreOp
  tick : ℤ

inductive StoreReply where
  | record (result : Except Err Record)
  | marked (err : Option Err)
  deriving DecidableEq

section Machines

variable (U : Unicode) (sha256 : Bytes → Bytes) (R : RedisStore)

def memoryStep (s : MemoryStore) (q : StoreCall) : MemoryStore × StoreReply :=
  match q.op with
  | .get upn => (s, .record (s.get U none upn))
  | .mark m upn source now =>
    let r := s.mark U none m upn source now
    (r.1, .marked r.2)

def redisStep (s : RedisServer) (q : StoreCall) : RedisServer × StoreReply :=
  match q.op with
  | .get upn => (s, .record (R.get U sha256 s none q.tick upn))
  | .mark m upn source now => ((R.mark U sha256 s q.tick m upn source now).1, .marked none)

/-- No key is past its deadline when the request is served. -/
def NoExpiry (s : RedisServer) (q : StoreCall) : Prop :=
  ∀ key k, s.keys key = some k → k.expired q.tick = false

end Machines

/-! ## Records and their hashes -/

theorem luaPrecedence_text (s : Status) : luaPrecedence (some s.text) = statusPrecedence s := by
  cases s <;> rfl

/-- A record that some write left: a status other than the zero value, and times in UTC. -/
structure Record.Stored (r : Record) : Prop where
  status_ne : r.status ≠ .unsynced
  updated_utc : r.updatedAt.utc = r.updatedAt
  updated_range : r.updatedAt.InRange
  source_utc : r.sourceEnqueuedAt.utc = r.sourceEnqueuedAt
  source_range : r.sourceEnqueuedAt.InRange

def Record.fields (r : Record) : List (String × String) :=
  hashFields r.status.text r.updatedAt.formatRedis r.sourceEnqueuedAt.formatRedis

theorem Mark.status_ne_unsynced (m : Mark) : m.status ≠ .unsynced := by
  cases m <;> exact fun h => nomatch h

theorem stored_mark (m : Mark) {source now : Time} (source_range : source.InRange)
    (now_range : now.InRange) : Record.Stored ⟨m.status, now.utc, source.utc⟩ :=
  ⟨m.status_ne_unsynced, rfl, now_range, rfl, source_range⟩

theorem parseStatus_text {s : Status} (h : s ≠ .unsynced) :
    RedisStore.parseStatus s.text = some s := by
  cases s with
  | unsynced => exact absurd rfl h
  | pending => decide
  | synced => decide
  | failed => decide

/-- The hash of a record is read back as the record. -/
theorem RedisStore.get_of_find {U : Unicode} {sha256 : Bytes → Bytes} {R : RedisStore}
    {s : RedisServer} {tick : ℤ} {upn : String} {r : Record} {e : Option ℤ} (stored : r.Stored)
    (found : s.find tick (R.key U sha256 upn) = some ⟨r.fields, e⟩) :
    R.get U sha256 s none tick upn = .ok r := by
  have hupdated := parseRedisTime_formatRedis stored.updated_range
  have hsource := parseRedisTime_formatRedis stored.source_range
  rw [stored.updated_utc] at hupdated
  rw [stored.source_utc] at hsource
  simp only [get, RedisServer.hgetall, found, Option.map_some, Option.getD_some, Record.fields,
    lookup_status, lookup_updated, lookup_source, parseStatus_text stored.status_ne, hupdated,
    hsource]
  rfl

theorem RedisStore.get_of_absent {U : Unicode} {sha256 : Bytes → Bytes} {R : RedisStore}
    {s : RedisServer} {tick : ℤ} {upn : String}
    (absent : s.find tick (R.key U sha256 upn) = none) :
    R.get U sha256 s none tick upn = .ok .zero := by
  simp [get, RedisServer.hgetall, absent]

/-- The script drops a write exactly if it is not greater than the record. -/
theorem transitionStale_of_find {s : RedisServer} {tick : ℤ} {key : String} {m : Mark}
    {source : Time} {r : Record} {e : Option ℤ} (stored : r.Stored)
    (found : s.find tick key = some ⟨r.fields, e⟩) (source_range : source.InRange) :
    transitionStale s tick key m.status.text source.utc.formatRedis =
      (source.before r.sourceEnqueuedAt || (source.equal r.sourceEnqueuedAt &&
        statusPrecedence m.status ≤ statusPrecedence r.status)) := by
  have hlt := formatRedis_lt_iff source_range stored.source_range
  have heq := formatRedis_inj source_range stored.source_range
  rw [stored.source_utc] at hlt heq
  simp only [transitionStale, RedisServer.hget, found, Option.bind_some, Record.fields,
    lookup_source, lookup_status, luaPrecedence_text, hlt, heq, Time.before, Time.equal]
  split_ifs with h₁ h₂
  · simp [h₁]
  · simp [h₂]
  · simp [h₁, h₂]

theorem transitionStale_of_absent {s : RedisServer} {tick : ℤ} {key status source : String}
    (absent : s.find tick key = none) : transitionStale s tick key status source = false := by
  simp [transitionStale, RedisServer.hget, absent]

/-! ## The simulation -/

section Simulation

variable {U : Unicode} {sha256 : Bytes → Bytes} {R : RedisStore}

/-- What the server holds under a key for the record of an account. -/
def Holds : Option RedisKey → Option Record → Prop
  | none, none => True
  | some k, some r => r.Stored ∧ k.fields = r.fields
  | _, _ => False

variable (U sha256 R) in
/-- The server holds the records of the accounts of `names`. -/
def Represents (names : Set String) (s : RedisServer) (t : MemoryStore) : Prop :=
  s.Shaped ∧ ∀ upn ∈ names, Holds (s.keys (R.key U sha256 upn)) (t.records (normalizeUPN U upn))

theorem represents_empty (names : Set String) : Represents U sha256 R names .empty .new :=
  ⟨RedisServer.shaped_empty, fun _ _ => trivial⟩

variable (U sha256) in
/-- SHA-256 tells the normalized names apart. -/
def NoCollision (names : Set String) : Prop :=
  ∀ upn ∈ names, ∀ upn' ∈ names,
    sha256 (bytesOf (normalizeUPN U upn)) = sha256 (bytesOf (normalizeUPN U upn')) →
      normalizeUPN U upn = normalizeUPN U upn'

theorem RedisStore.key_eq_iff {names : Set String} (apart : NoCollision U sha256 names)
    {upn upn' : String} (mem : upn ∈ names) (mem' : upn' ∈ names) :
    R.key U sha256 upn = R.key U sha256 upn' ↔ normalizeUPN U upn = normalizeUPN U upn' := by
  refine ⟨fun h => ?_, fun h => by rw [key, key, h]⟩
  rw [key, key, ← String.toList_inj, String.toList_append, String.toList_append,
    List.append_cancel_left_eq, String.toList_ofList, String.toList_ofList] at h
  exact apart upn mem upn' mem' (hexEncode_inj h)

/-- Either neither store knows the account, or the hash is that of its record. -/
theorem Represents.cases {names : Set String} {s : RedisServer} {t : MemoryStore}
    (h : Represents U sha256 R names s t) {q : StoreCall} (live : NoExpiry s q) {upn : String}
    (mem : upn ∈ names) :
    (s.find q.tick (R.key U sha256 upn) = none ∧ t.records (normalizeUPN U upn) = none) ∨
      ∃ r e, r.Stored ∧ s.find q.tick (R.key U sha256 upn) = some ⟨r.fields, e⟩ ∧
        t.records (normalizeUPN U upn) = some r := by
  have hholds := h.2 upn mem
  cases hk : s.keys (R.key U sha256 upn) with
  | none =>
    cases hr : t.records (normalizeUPN U upn) with
    | none => exact .inl ⟨by rw [RedisServer.find, hk]; rfl, rfl⟩
    | some r =>
      rw [hk, hr] at hholds
      exact hholds.elim
  | some k =>
    cases hr : t.records (normalizeUPN U upn) with
    | none =>
      rw [hk, hr] at hholds
      exact hholds.elim
    | some r =>
      rw [hk, hr] at hholds
      refine .inr ⟨r, k.expireAt, hholds.1, ?_, rfl⟩
      rw [RedisServer.find_eq_some, hk, ← hholds.2]
      exact ⟨rfl, live _ k hk⟩

/-- A `Get` is answered alike. -/
theorem Represents.get {names : Set String} {s : RedisServer} {t : MemoryStore}
    (h : Represents U sha256 R names s t) {q : StoreCall} (live : NoExpiry s q) {upn : String}
    (mem : upn ∈ names) : R.get U sha256 s none q.tick upn = t.get U none upn := by
  rcases h.cases live mem with ⟨hf, hr⟩ | ⟨r, e, stored, hf, hr⟩
  · rw [RedisStore.get_of_absent hf, MemoryStore.get, hr]
    rfl
  · rw [RedisStore.get_of_find stored hf, MemoryStore.get, hr]
    rfl

/-- The script drops a write exactly if the `MemoryStore` does. -/
theorem Represents.stale {names : Set String} {s : RedisServer} {t : MemoryStore}
    (h : Represents U sha256 R names s t) {q : StoreCall} (live : NoExpiry s q) {m : Mark}
    {upn : String} {source : Time} (mem : upn ∈ names) (source_range : source.InRange) :
    transitionStale s q.tick (R.key U sha256 upn) m.status.text source.utc.formatRedis =
      t.stale U upn m.status source := by
  rw [MemoryStore.stale]
  rcases h.cases live mem with ⟨hf, hr⟩ | ⟨r, e, stored, hf, hr⟩
  · rw [transitionStale_of_absent hf, hr]
    rfl
  · rw [transitionStale_of_find stored hf source_range, hr]
    rfl

/-- A write of one account is applied, or dropped, alike. -/
theorem Represents.mark {names : Set String} (apart : NoCollision U sha256 names)
    {s : RedisServer} {t : MemoryStore} (h : Represents U sha256 R names s t) {q : StoreCall}
    (live : NoExpiry s q) {m : Mark} {upn : String} {source now : Time} (mem : upn ∈ names)
    (source_range : source.InRange) (now_range : now.InRange) :
    Represents U sha256 R names (R.mark U sha256 s q.tick m upn source now).1
      (t.mark U none m upn source now).1 := by
  have httl := R.milliseconds_ttl_pos m
  rw [RedisStore.mark_eq_set, RedisStore.set, MemoryStore.mark_eq_set, MemoryStore.set_eq]
  refine ⟨h.1.transitionScript httl, fun upn' mem' => ?_⟩
  rw [transitionScript_eq h.1 httl, h.stale live mem source_range]
  split_ifs with hstale
  · exact h.2 upn' mem'
  -- a write that goes through replaces the record of this account and no other
  · by_cases hn : normalizeUPN U upn' = normalizeUPN U upn
    · simp only [(R.key_eq_iff apart mem' mem).2 hn, RedisServer.put_keys_self, hn,
        Function.update_self]
      exact ⟨stored_mark m source_range now_range, rfl⟩
    · simp only [RedisServer.put_keys_of_ne _ _
        (fun e => hn ((R.key_eq_iff apart mem' mem).1 e)), Function.update_of_ne hn]
      exact h.2 upn' mem'

/-- One request keeps the representation and gets the same reply. -/
theorem Represents.step {names : Set String} (apart : NoCollision U sha256 names)
    (s : RedisServer) (t : MemoryStore) (q : StoreCall) (h : Represents U sha256 R names s t)
    (hq : q.op.upn ∈ names ∧ q.op.InRange ∧ NoExpiry s q) :
    Represents U sha256 R names (redisStep U sha256 R s q).1 (memoryStep U t q).1 ∧
      (redisStep U sha256 R s q).2 = (memoryStep U t q).2 := by
  obtain ⟨mem, range, live⟩ := hq
  obtain ⟨op, tick⟩ := q
  cases op with
  | get upn =>
    refine ⟨h, ?_⟩
    exact congrArg StoreReply.record (h.get live mem)
  | mark m upn source now =>
    refine ⟨h.mark apart live mem range.1 range.2, ?_⟩
    exact congrArg StoreReply.marked (t.mark_ok U m upn source now).symm

/-- A `MemoryStore` never answers a call with an error. -/
theorem memoryStep_reply (t : MemoryStore) (q : StoreCall) :
    (∃ r, (memoryStep U t q).2 = .record (.ok r)) ∨ (memoryStep U t q).2 = .marked none := by
  obtain ⟨op, tick⟩ := q
  cases op with
  | get upn => exact .inl ⟨_, rfl⟩
  | mark m upn source now => exact .inr (congrArg StoreReply.marked (t.mark_ok U m upn source now))

theorem memory_replies (t : MemoryStore) (qs : List StoreCall) :
    ∀ reply ∈ (runFrom (memoryStep U) t qs).2,
      (∃ r, reply = .record (.ok r)) ∨ reply = .marked none := by
  induction qs generalizing t with
  | nil => exact fun reply h => absurd h List.not_mem_nil
  | cons q qs ih =>
    intro reply h
    rcases List.mem_cons.1 h with rfl | h
    · exact memoryStep_reply t q
    · exact ih _ reply h

/-- The hashes of a server keep their shape along a run. -/
theorem shaped_runFrom {s : RedisServer} (hs : s.Shaped) (qs : List StoreCall) :
    (runFrom (redisStep U sha256 R) s qs).1.Shaped := by
  apply runFrom_invariant _ hs
  rintro s ⟨op, tick⟩ hs
  cases op with
  | get upn => exact hs
  | mark m upn source now =>
    show (R.mark U sha256 s tick m upn source now).1.Shaped
    rw [RedisStore.mark_eq_set]
    exact hs.transitionScript (R.milliseconds_ttl_pos m)

/-- The accounts the requests name. -/
def namesOf (qs : List StoreCall) : Set String := {upn | ∃ q ∈ qs, q.op.upn = upn}

variable (U sha256 R) in
/-- What a write the script applies leaves: its three texts, and the deadline of its status. -/
def applied (s : RedisServer) (tick : ℤ) (m : Mark) (upn : String) (source now : Time) :
    RedisServer :=
  s.put (R.key U sha256 upn) ⟨hashFields m.status.text now.utc.formatRedis source.utc.formatRedis,
    some (tick + milliseconds (R.ttl m))⟩

/-- A write is dropped without a trace or applied with the time to live of its status. -/
theorem RedisStore.mark_cases {s : RedisServer} (hs : s.Shaped) (tick : ℤ) (m : Mark)
    (upn : String) (source now : Time) :
    R.mark U sha256 s tick m upn source now = (s, 0) ∨
      R.mark U sha256 s tick m upn source now =
        (applied U sha256 R s tick m upn source now, 1) := by
  rw [RedisStore.mark_eq_set, RedisStore.set, transitionScript_eq hs (R.milliseconds_ttl_pos m)]
  split_ifs
  · exact .inl rfl
  · exact .inr rfl

/-- Requests served within the shortest time to live find every key. -/
theorem noExpiry_of_window {qs : List StoreCall} {t : ℤ}
    (window : ∀ q ∈ qs, t ≤ q.tick ∧ ∀ m, q.tick ≤ t + milliseconds (R.ttl m)) :
    Along (redisStep U sha256 R) NoExpiry .empty qs := by
  have key : ∀ (qs : List StoreCall) (s : RedisServer),
      (∀ q ∈ qs, t ≤ q.tick ∧ ∀ m, q.tick ≤ t + milliseconds (R.ttl m)) → s.Shaped →
      (∀ key k, s.keys key = some k → ∃ m, ∃ d ∈ k.expireAt, t + milliseconds (R.ttl m) ≤ d) →
      Along (redisStep U sha256 R) NoExpiry s qs := by
    intro qs
    induction qs with
    | nil => exact fun s _ _ _ => along_nil _ _ s
    | cons q qs ih =>
      intro s hw hs hd
      refine along_cons_iff.2 ⟨?_, ih _ (fun q' mem => hw q' (List.mem_cons_of_mem _ mem))
        (shaped_runFrom hs [q]) ?_⟩
      · intro key k hk
        obtain ⟨m, d, hmem, hle⟩ := hd key k hk
        have := (hw q List.mem_cons_self).2 m
        rw [RedisKey.expired, Option.mem_def.1 hmem, Option.any_some, decide_eq_false_iff_not]
        omega
      · obtain ⟨op, tick⟩ := q
        have htick : t ≤ tick := (hw _ List.mem_cons_self).1
        cases op with
        | get upn => exact hd
        | mark m upn source now =>
          show ∀ key k, (R.mark U sha256 s tick m upn source now).1.keys key = some k → _
          rcases R.mark_cases hs tick m upn source now with h | h
          · rw [h]
            exact hd
          · rw [h]
            intro key k hk
            by_cases he : key = R.key U sha256 upn
            · rw [applied, he, RedisServer.put_keys_self, Option.some_inj] at hk
              refine ⟨m, tick + milliseconds (R.ttl m), by rw [← hk]; rfl, by omega⟩
            · rw [applied, RedisServer.put_keys_of_ne _ _ he] at hk
              exact hd key k hk
  exact key qs .empty window RedisServer.shaped_empty fun key k h => by
    simp [RedisServer.empty] at h

/-- As long as no key expires, a `RedisStore` answers every call as a `MemoryStore` does, without
an error; a write the script drops (it returns 0) leaves hash and deadline alone, one it applies
sets the deadline of its status. -/
theorem redis_refines_memory {qs : List StoreCall} (range : ∀ q ∈ qs, q.op.InRange)
    (apart : NoCollision U sha256 (namesOf qs))
    (live : Along (redisStep U sha256 R) NoExpiry .empty qs) :
    (runFrom (redisStep U sha256 R) .empty qs).2 = (runFrom (memoryStep U) .new qs).2 ∧
      (∀ reply ∈ (runFrom (redisStep U sha256 R) .empty qs).2,
        (∃ r, reply = .record (.ok r)) ∨ reply = .marked none) ∧
      ∀ pre post tick m upn source now, qs = pre ++ ⟨.mark m upn source now, tick⟩ :: post →
        let s := (runFrom (redisStep U sha256 R) .empty pre).1
        R.mark U sha256 s tick m upn source now = (s, 0) ∨
          R.mark U sha256 s tick m upn source now =
            (applied U sha256 R s tick m upn source now, 1) := by
  have hcond : Along (redisStep U sha256 R)
      (fun s q => q.op.upn ∈ namesOf qs ∧ q.op.InRange ∧ NoExpiry s q) .empty qs :=
    live.mono fun s q mem hq => ⟨⟨q, mem, rfl⟩, range q mem, hq⟩
  have hsim := (runFrom_simulation (Represents.step apart) (represents_empty (namesOf qs)) hcond).2
  refine ⟨hsim, ?_, ?_⟩
  · rw [hsim]
    exact memory_replies .new qs
  · intro pre post tick m upn source now _
    exact R.mark_cases (shaped_runFrom RedisServer.shaped_empty pre) tick m upn source now

/-- A pending and a synced write and three reads of one account, under two spellings. -/
theorem redis_refines_memory_five :
    let R : RedisStore := ⟨"sync:", 300000000000, 7776000000000000, by decide, by decide, by decide⟩
    let qs : List StoreCall :=
      [⟨.get "a@b", 0⟩, ⟨.mark .pending "a@b" ⟨5, 0⟩ ⟨6, 0⟩, 1⟩, ⟨.get " A@b", 2⟩,
        ⟨.mark .synced "A@B" ⟨5, 3600⟩ ⟨9, 0⟩, 3⟩, ⟨.get "a@b", 4⟩]
    (runFrom (redisStep .ascii id R) .empty qs).2 =
      [.record (.ok .zero), .marked none, .record (.ok ⟨.pending, ⟨6, 0⟩, ⟨5, 0⟩⟩), .marked none,
        .record (.ok ⟨.synced, ⟨9, 0⟩, ⟨5, 0⟩⟩)] := by
  intro R qs
  have range : ∀ q ∈ qs, q.op.InRange := by decide +kernel
  have apart : NoCollision .ascii id (namesOf qs) := fun upn _ upn' _ h => bytesOf_inj h
  have live : Along (redisStep .ascii id R) NoExpiry .empty qs := by
    have early : ∀ q ∈ qs, 0 ≤ q.tick ∧ q.tick ≤ 4 := by decide +kernel
    apply noExpiry_of_window (t := 0)
    intro q mem
    refine ⟨(early q mem).1, fun m => (early q mem).2.trans ?_⟩
    cases m <;> decide
  rw [(redis_refines_memory range apart live).1]
  decide +kernel

end Simulation

end PasswordHook
