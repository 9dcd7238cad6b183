import PasswordHook.Go.Errors
import PasswordHook.Go.TimeFormat
import PasswordHook.Lib.Hex
import PasswordHook.SyncStatus.Status

/-!
# The status store backed by Redis

`RedisStore` keeps the record of an account in a hash of texts, under a key made of the SHA-256 of
the normalized name.  Writes go through `transitionScript`, which the server runs atomically and
which compares the texts of the timestamps; reads parse the texts back.

The server's clock counts milliseconds.  A key whose deadline has passed is no longer seen by any
command.
-/

namespace PasswordHook

/-! ## The server -/

/-- A hash with the millisecond until which it is kept, if it has a time to live. -/
structure RedisKey where
  fields : List (String × String)
  expireAt : Option ℤ
  deriving DecidableEq

def RedisKey.expired (k : RedisKey) (tick : ℤ) : Bool := k.expireAt.any (· < tick)

structure RedisServer where
  keys : String → Option RedisKey

namespace RedisServer

def empty : RedisServer := ⟨fun _ => none⟩

/-- The key as a command at the millisecond `tick` finds it. -/
def find (s : RedisServer) (tick : ℤ) (key : String) : Option RedisKey :=
  (s.keys key).filter fun k => !k.expired tick

def hget (s : RedisServer) (tick : ℤ) (key field : String) : Option String :=
  (s.find tick key).bind fun k => k.fields.lookup field

def hgetall (s : RedisServer) (tick : ℤ) (key : String) : List (String × String) :=
  ((s.find tick key).map RedisKey.fields).getD []

/-- The fields with one of them set. -/
def setField (fields : List (String × String)) (f : String × String) : List (String × String) :=
  if fields.any (·.1 == f.1) then fields.map fun g => if g.1 = f.1 then f else g
  else fields ++ [f]

/-- `HSET`: a key that exists keeps its deadline. -/
def hset (s : RedisServer) (tick : ℤ) (key : String) (fields : List (String × String)) :
    RedisServer :=
  let old := (s.find tick key).getD ⟨[], none⟩
  ⟨Function.update s.keys key (some { old with fields := fields.foldl setField old.fields })⟩

/-- `PEXPIRE`: a time to live that is not positive deletes the key. -/
def pexpire (s : RedisServer) (tick : ℤ) (key : String) (ms : ℤ) : RedisServer :=
  match s.find tick key with
  | none => s
  | some k =>
    ⟨Function.update s.keys key (if 0 < ms then some { k with expireAt := some (tick + ms) }
      else none)⟩

end RedisServer

/-! ## The script -/

/-- The table `precedence` of the script, 0 for a name it does not hold. -/
def luaPrecedence (status : Option String) : ℕ :=
  match status with
  | some "sync_pending" => 1
  | some "sync_failed" => 2
  | some "synced" => 3
  | _ => 0

/-- Whether the script returns 0 without a write. -/
def transitionStale (s : RedisServer) (tick : ℤ) (key status source : String) : Bool :=
  match s.hget tick key "source_enqueued_at" with
  | none => false
  | some current =>
    if source < current then true
    else if source = current then
      luaPrecedence (some status) ≤ luaPrecedence (s.hget tick key "status")
    else false

/-- `transitionScript`, with what it returns. -/
def transitionScript (s : RedisServer) (tick : ℤ) (key status updated source : String) (ttl : ℤ) :
    RedisServer × ℕ :=
  if transitionStale s tick key status source then (s, 0)
  else
    let s := s.hset tick key
      [("status", status), ("updated_at", updated), ("source_enqueued_at", source)]
    (s.pexpire tick key ttl, 1)

/-! ## `RedisStore` -/

/-- `Duration.Milliseconds` -/
def milliseconds (d : ℤ) : ℤ := d.tdiv millisecond

/-- The settings of a `RedisStore`, as `NewRedisStore` lets them through. -/
structure RedisStore where
  keyPrefix : String
  pendingTTL : ℤ
  terminalTTL : ℤ
  keyPrefix_ne : trimSpace keyPrefix ≠ ""
  pendingTTL_ge : millisecond ≤ pendingTTL
  terminalTTL_ge : millisecond ≤ terminalTTL

def validateRedisStoreOptions (keyPrefix : String) (pendingTTL terminalTTL : ℤ) : Option Err :=
  if trimSpace keyPrefix = "" then some (.new "redis key prefix is required")
  else if pendingTTL < millisecond then some (.new "pending TTL must be at least 1ms")
  else if terminalTTL < millisecond then some (.new "terminal TTL must be at least 1ms")
  else none

theorem validateRedisStoreOptions_eq_none {keyPrefix : String} {pendingTTL terminalTTL : ℤ}
    (h : validateRedisStoreOptions keyPrefix pendingTTL terminalTTL = none) :
    trimSpace keyPrefix ≠ "" ∧ millisecond ≤ pendingTTL ∧ millisecond ≤ terminalTTL := by
  unfold validateRedisStoreOptions at h
  split_ifs at h with h₁ h₂ h₃
  exact ⟨h₁, not_lt.1 h₂, not_lt.1 h₃⟩

/-- `NewRedisStore` around a client that is not nil. -/
def newRedisStore (keyPrefix : String) (pendingTTL terminalTTL : ℤ) : Except Err RedisStore :=
  match h : validateRedisStoreOptions keyPrefix pendingTTL terminalTTL with
  | some err => .error err
  | none =>
    have valid := validateRedisStoreOptions_eq_none h
    .ok ⟨keyPrefix, pendingTTL, terminalTTL, valid.1, valid.2.1, valid.2.2⟩

/-- The time to live a status is written with. -/
def RedisStore.ttl (R : RedisStore) : Mark → ℤ
  | .pending => R.pendingTTL
  | .synced => R.terminalTTL
  | .failed => R.terminalTTL

namespace RedisStore

variable (U : Unicode) (sha256 : Bytes → Bytes) (R : RedisStore)

def key (upn : String) : String :=
  R.keyPrefix ++ String.ofList (hexEncode (sha256 (bytesOf (normalizeUPN U upn))))

def parseStatus (text : String) : Option Status :=
  [Status.pending, .failed, .synced].find? fun s => s.text = text

/-- `RedisStore.Get` from what `HGETALL` answered, `clientErr` an error of the client. -/
def get (server : RedisServer) (clientErr : Option Err) (tick : ℤ) (upn : String) :
    Except Err Record :=
  match clientErr with
  | some err => .error err
  | none =>
    let fields := server.hgetall tick (R.key U sha256 upn)
    if fields.isEmpty then .ok .zero
    else
      let text := fun f => (fields.lookup f).getD ""
      match parseStatus (text "status") with
      | none => .error (.new ("invalid Redis sync status \"" ++ text "status" ++ "\""))
      | some status =>
        match parseRedisTime (text "updated_at") with
        | none => .error (.wrap "parse Redis updated_at" (.new (text "updated_at")))
        | some updatedAt =>
          match parseRedisTime (text "source_enqueued_at") with
          | none => .error (.wrap "parse Redis source_enqueued_at"
              (.new (text "source_enqueued_at")))
          | some sourceEnqueuedAt => .ok ⟨status, updatedAt, sourceEnqueuedAt⟩

/-- `RedisStore.set` when the script runs and its reply arrives; `now` is the client's clock. -/
def set (server : RedisServer) (tick : ℤ) (upn : String) (status : Status)
    (sourceEnqueuedAt : Time) (ttl : ℤ) (now : Time) : RedisServer × ℕ :=
  transitionScript server tick (R.key U sha256 upn) status.text now.utc.formatRedis
    sourceEnqueuedAt.utc.formatRedis (milliseconds ttl)

def markPending (server : RedisServer) (tick : ℤ) (upn : String) (sourceEnqueuedAt now : Time) :
    RedisServer × ℕ :=
  R.set U sha256 server tick upn .pending sourceEnqueuedAt R.pendingTTL now

def markSynced (server : RedisServer) (tick : ℤ) (upn : String) (sourceEnqueuedAt now : Time) :
    RedisServer × ℕ :=
  R.set U sha256 server tick upn .synced sourceEnqueuedAt R.terminalTTL now

def markFailed (server : RedisServer) (tick : ℤ) (upn : String) (sourceEnqueuedAt now : Time) :
    RedisServer × ℕ :=
  R.set U sha256 server tick upn .failed sourceEnqueuedAt R.terminalTTL now

/-- The `Mark` method of the given kind. -/
def mark (server : RedisServer) (tick : ℤ) : Mark → String → Time → Time → RedisServer × ℕ
  | .pending => R.markPending U sha256 server tick
  | .synced => R.markSynced U sha256 server tick
  | .failed => R.markFailed U sha256 server tick

theorem mark_eq_set (server : RedisServer) (tick : ℤ) (m : Mark) (upn : String)
    (source now : Time) :
    R.mark U sha256 server tick m upn source now =
      R.set U sha256 server tick upn m.status source (R.ttl m) now := by
  cases m <;> rfl

theorem milliseconds_ttl_pos (m : Mark) : 0 < milliseconds (R.ttl m) := by
  have hpos : ∀ d : ℤ, millisecond ≤ d → 0 < milliseconds d := by
    intro d hd
    rw [millisecond] at hd
    rw [milliseconds, millisecond, Int.tdiv_eq_ediv_of_nonneg (by omega)]
    omega
  cases m with
  | pending => exact hpos _ R.pendingTTL_ge
  | synced => exact hpos _ R.terminalTTL_ge
  | failed => exact hpos _ R.terminalTTL_ge

end RedisStore

/-! ## What a run of the script leaves -/

/-- The fields of a hash the script wrote. -/
def hashFields (status updated source : String) : List (String × String) :=
  [("status", status), ("updated_at", updated), ("source_enqueued_at", source)]

@[simp] theorem lookup_status (a b c : String) : (hashFields a b c).lookup "status" = some a := rfl

@[simp] theorem lookup_updated (a b c : String) :
    (hashFields a b c).lookup "updated_at" = some b := rfl

@[simp] theorem lookup_source (a b c : String) :
    (hashFields a b c).lookup "source_enqueued_at" = some c := rfl

theorem foldl_setField_hashFields (a b c a' b' c' : String) :
    (hashFields a' b' c').foldl RedisServer.setField (hashFields a b c) = hashFields a' b' c' := by
  simp [hashFields, RedisServer.setField]

theorem foldl_setField_nil (a b c : String) :
    (hashFields a b c).foldl RedisServer.setField [] = hashFields a b c := by
  simp [hashFields, RedisServer.setField]

/-- Every hash has the fields the script writes. -/
def RedisServer.Shaped (s : RedisServer) : Prop :=
  ∀ key k, s.keys key = some k → ∃ a b c, k.fields = hashFields a b c

theorem RedisServer.shaped_empty : RedisServer.empty.Shaped := by
  intro key k h
  exact absurd h (by simp [RedisServer.empty])

theorem RedisServer.find_eq_some {s : RedisServer} {tick : ℤ} {key : String} {k : RedisKey} :
    s.find tick key = some k ↔ s.keys key = some k ∧ k.expired tick = false := by
  rw [RedisServer.find, Option.filter_eq_some_iff]
  simp

/-- The server with the hash of one key replaced. -/
def RedisServer.put (s : RedisServer) (key : String) (k : RedisKey) : RedisServer :=
  ⟨Function.update s.keys key (some k)⟩

@[simp] theorem RedisServer.put_keys_self (s : RedisServer) (key : String) (k : RedisKey) :
    (s.put key k).keys key = some k := by
  simp [RedisServer.put]

@[simp] theorem RedisServer.put_keys_of_ne (s : RedisServer) {key key' : String} (k : RedisKey)
    (h : key' ≠ key) : (s.put key k).keys key' = s.keys key' := by
  simp [RedisServer.put, h]

/-- The script either leaves the server as it is or writes all three fields and the deadline. -/
theorem transitionScript_eq {s : RedisServer} (hs : s.Shaped) {tick : ℤ}
    {key status updated source : String} {ttl : ℤ} (httl : 0 < ttl) :
    transitionScript s tick key status updated source ttl =
      if transitionStale s tick key status source then (s, 0)
      else (s.put key ⟨hashFields status updated source, some (tick + ttl)⟩, 1) := by
  rw [transitionScript]
  split_ifs with hstale
  · rfl
  have hset : s.hset tick key (hashFields status updated source) =
      s.put key ⟨hashFields status updated source, ((s.find tick key).bind RedisKey.expireAt)⟩ := by
    rw [RedisServer.hset]
    cases hf : s.find tick key with
    | none => simp [RedisServer.put, foldl_setField_nil]
    | some k =>
      obtain ⟨a, b, c, hk⟩ := hs key k (RedisServer.find_eq_some.1 hf).1
      simp [RedisServer.put, hk, foldl_setField_hashFields]
  have hlive : RedisKey.expired ⟨hashFields status updated source,
      (s.find tick key).bind RedisKey.expireAt⟩ tick = false := by
    cases hf : s.find tick key with
    | none => rfl
    | some k => exact (RedisServer.find_eq_some.1 hf).2
  have hfind := RedisServer.find_eq_some.2 ⟨RedisServer.put_keys_self s key _, hlive⟩
  show ((s.hset tick key (hashFields status updated source)).pexpire tick key ttl, 1) = _
  rw [hset, RedisServer.pexpire, hfind]
  simp [RedisServer.put, httl]

theorem RedisServer.Shaped.transitionScript {s : RedisServer} (hs : s.Shaped) {tick : ℤ}
    {key status updated source : String} {ttl : ℤ} (httl : 0 < ttl) :
    (transitionScript s tick key status updated source ttl).1.Shaped := by
  rw [transitionScript_eq hs httl]
  split_ifs
  · exact hs
  · intro key' k h
    by_cases hk : key' = key
    · subst hk
      rw [put_keys_self, Option.some_inj] at h
      exact ⟨status, updated, source, by rw [← h]⟩
    · rw [put_keys_of_ne _ _ hk] at h
      exact hs key' k h

end PasswordHook
