import PasswordHook.Go.Errors
import PasswordHook.Go.Text
import PasswordHook.Go.Time

/-!
# The status store

Package `syncstatus`: the sync status of an account, the record kept for it, and `MemoryStore`, the
store backed by a map in memory.  A write is dropped when its source timestamp is older than the
stored one, or equal to it with a status of no greater precedence.
-/

namespace PasswordHook

/-- The last known sync outcome of an account; `unsynced` is Go's zero value. -/
inductive Status where
  | unsynced
  | pending
  | synced
  | failed
  deriving DecidableEq

def Status.text : Status → String
  | .unsynced => ""
  | .pending => "sync_pending"
  | .synced => "synced"
  | .failed => "sync_failed"

/-- A snapshot of the sync status of an account. -/
structure Record where
  status : Status
  updatedAt : Time
  sourceEnqueuedAt : Time
  deriving DecidableEq

def Record.zero : Record := ⟨.unsynced, .zero, .zero⟩

def statusPrecedence : Status → ℕ
  | .pending => 1
  | .failed => 2
  | .synced => 3
  | .unsynced => 0

theorem statusPrecedence_inj {s t : Status} (h : statusPrecedence s = statusPrecedence t) :
    s = t := by
  cases s <;> cases t <;> simp [statusPrecedence] at h <;> rfl

def normalizeUPN (U : Unicode) (upn : String) : String := toLower U (trimSpace upn)

/-- The writes of a `Store`: `MarkPending`, `MarkSynced` and `MarkFailed`. -/
inductive Mark where
  | pending
  | synced
  | failed
  deriving DecidableEq

def Mark.status : Mark → Status
  | .pending => .pending
  | .synced => .synced
  | .failed => .failed

/-! ## `MemoryStore` -/

/-- The map of a `MemoryStore`, from normalized names to records. -/
structure MemoryStore where
  records : String → Option Record

namespace MemoryStore

def new : MemoryStore := ⟨fun _ => none⟩

variable (U : Unicode)

/-- `MemoryStore.Get`; `ctxErr` is what `ctx.Err()` returns. -/
def get (s : MemoryStore) (ctxErr : Option Err) (upn : String) : Except Err Record :=
  match ctxErr with
  | some err => .error err
  | none => .ok ((s.records (normalizeUPN U upn)).getD .zero)

/-- `MemoryStore.set` with `now` the reading of the store's clock. -/
def set (s : MemoryStore) (ctxErr : Option Err) (upn : String) (status : Status)
    (sourceEnqueuedAt now : Time) : MemoryStore × Option Err :=
  match ctxErr with
  | some err => (s, some err)
  | none =>
    let key := normalizeUPN U upn
    let write : MemoryStore :=
      ⟨Function.update s.records key (some ⟨status, now.utc, sourceEnqueuedAt.utc⟩)⟩
    match s.records key with
    | none => (write, none)
    | some existing =>
      if sourceEnqueuedAt.before existing.sourceEnqueuedAt then (s, none)
      else if sourceEnqueuedAt.equal existing.sourceEnqueuedAt &&
          statusPrecedence status ≤ statusPrecedence existing.status then (s, none)
      else (write, none)

def markPending (s : MemoryStore) (ctxErr : Option Err) (upn : String)
    (sourceEnqueuedAt now : Time) : MemoryStore × Option Err :=
  s.set U ctxErr upn .pending sourceEnqueuedAt now

def markSynced (s : MemoryStore) (ctxErr : Option Err) (upn : String)
    (sourceEnqueuedAt now : Time) : MemoryStore × Option Err :=
  s.set U ctxErr upn .synced sourceEnqueuedAt now

def markFailed (s : MemoryStore) (ctxErr : Option Err) (upn : String)
    (sourceEnqueuedAt now : Time) : MemoryStore × Option Err :=
  s.set U ctxErr upn .failed sourceEnqueuedAt now

/-- The `Mark` method of the given kind. -/
def mark (s : MemoryStore) (ctxErr : Option Err) : Mark → String → Time → Time →
    MemoryStore × Option Err
  | .pending => s.markPending U ctxErr
  | .synced => s.markSynced U ctxErr
  | .failed => s.markFailed U ctxErr

theorem mark_eq_set (s : MemoryStore) (ctxErr : Option Err) (m : Mark) (upn : String)
    (source now : Time) :
    s.mark U ctxErr m upn source now = s.set U ctxErr upn m.status source now := by
  cases m <;> rfl

/-- Whether the ordering guard drops a write. -/
def stale (s : MemoryStore) (upn : String) (status : Status) (sourceEnqueuedAt : Time) : Bool :=
  (s.records (normalizeUPN U upn)).any fun existing =>
    sourceEnqueuedAt.before existing.sourceEnqueuedAt ||
      (sourceEnqueuedAt.equal existing.sourceEnqueuedAt &&
        statusPrecedence status ≤ statusPrecedence existing.status)

theorem set_eq (s : MemoryStore) (upn : String) (status : Status) (sourceEnqueuedAt now : Time) :
    s.set U none upn status sourceEnqueuedAt now =
      if s.stale U upn status sourceEnqueuedAt then (s, none)
      else (⟨Function.update s.records (normalizeUPN U upn)
        (some ⟨status, now.utc, sourceEnqueuedAt.utc⟩)⟩, none) := by
  rw [set, stale]
  cases hr : s.records (normalizeUPN U upn) with
  | none => simp
  | some r =>
    simp only [Option.any_some, Bool.or_eq_true]
    by_cases h₁ : sourceEnqueuedAt.before r.sourceEnqueuedAt = true
    · rw [if_pos h₁, if_pos (.inl h₁)]
    by_cases h₂ : (sourceEnqueuedAt.equal r.sourceEnqueuedAt &&
        decide (statusPrecedence status ≤ statusPrecedence r.status)) = true
    · rw [if_neg h₁, if_pos h₂, if_pos (.inr h₂)]
    · rw [if_neg h₁, if_neg h₂, if_neg (not_or.2 ⟨h₁, h₂⟩)]

theorem mark_ok (s : MemoryStore) (m : Mark) (upn : String) (source now : Time) :
    (s.mark U none m upn source now).2 = none := by
  rw [mark_eq_set, set_eq]
  split_ifs <;> rfl

end MemoryStore

end PasswordHook
