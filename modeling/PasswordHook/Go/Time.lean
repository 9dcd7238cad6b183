import Mathlib

/-!
# Instants and durations of the Go standard library

A `Time` is an instant with the offset of the zone it is shown in; comparisons look at the instant
alone and `utc` forgets the zone, as in package `time`.  Instants are nanoseconds since January 1
of year 1, 00:00:00 UTC, so the zero `Time` of Go is the instant 0.

Durations are integers, in nanoseconds.  Go keeps them in an `int64`: differences saturate, and
negation wraps, at the ends of that range.
-/

namespace PasswordHook

/-- `time.Time`: an instant, and the zone offset in seconds east of UTC. -/
@[ext] structure Time where
  nano : ℤ
  offset : ℤ
  deriving DecidableEq

namespace Time

def zero : Time := ⟨0, 0⟩

def isZero (t : Time) : Bool := t.nano = 0

def utc (t : Time) : Time := ⟨t.nano, 0⟩

def before (t u : Time) : Bool := t.nano < u.nano

def after (t u : Time) : Bool := u.nano < t.nano

def equal (t u : Time) : Bool := t.nano = u.nano

def add (t : Time) (d : ℤ) : Time := ⟨t.nano + d, t.offset⟩

@[simp] theorem utc_nano (t : Time) : t.utc.nano = t.nano := rfl

@[simp] theorem utc_offset (t : Time) : t.utc.offset = 0 := rfl

@[simp] theorem utc_utc (t : Time) : t.utc.utc = t.utc := rfl

instance : Preorder Time where
  le t u := t.nano ≤ u.nano
  le_refl t := le_refl t.nano
  le_trans _ _ _ := le_trans

theorem le_def {t u : Time} : t ≤ u ↔ t.nano ≤ u.nano := Iff.rfl

theorem utc_eq_iff {t u : Time} : t.utc = u.utc ↔ t.nano = u.nano := by
  simp [utc]

end Time

/-! ## Durations -/

def millisecond : ℤ := 1000000

def second : ℤ := 1000000000

/-- `math.MinInt64`, the least `Duration`. -/
def minInt64 : ℤ := -(2 ^ 63)

/-- `math.MaxInt64`, the greatest `Duration`. -/
def maxInt64 : ℤ := 2 ^ 63 - 1

theorem second_le_maxInt64 : second ≤ maxInt64 := by decide

/-- An integer reduced to the `int64` range, as Go's integer operations do. -/
def wrapInt64 (n : ℤ) : ℤ := Int.bmod n (2 ^ 64)

/-- `Time.Sub`: the difference, saturated to the range of `Duration`. -/
def Time.sub (t u : Time) : ℤ :=
  if t.nano - u.nano < minInt64 then minInt64
  else if maxInt64 < t.nano - u.nano then maxInt64
  else t.nano - u.nano

/-- Seconds from the zero `Time` to the Unix epoch. -/
def unixToInternal : ℤ := 62135596800

/-- `time.Unix(sec, 0)`; the seconds since year 1 are kept in an `int64`. -/
def Time.unix (sec : ℤ) : Time := ⟨wrapInt64 (sec + unixToInternal) * second, 0⟩

theorem wrapInt64_of_mem {n : ℤ} (h₁ : minInt64 ≤ n) (h₂ : n ≤ maxInt64) : wrapInt64 n = n := by
  simp only [minInt64, maxInt64] at h₁ h₂
  rw [wrapInt64]
  exact Int.bmod_eq_of_le (by omega) (by omega)

theorem Time.sub_mono {t t' : Time} (h : t ≤ t') (u : Time) : t.sub u ≤ t'.sub u := by
  rw [Time.le_def] at h
  unfold Time.sub minInt64 maxInt64
  split_ifs <;> omega

end PasswordHook
