import PasswordHook.Middleware.HMAC

/-!
# The freshness check

`Time.Sub` saturates and the negation of the least `Duration` is that `Duration` itself, so the
check is not the comparison of a distance with the skew everywhere: a timestamp more than 2^63
nanoseconds ahead of the clock passes.  `fresh_iff` says what it accepts, and `freshness_exact_iff`
exactly where the two agree.
-/

namespace PasswordHook

theorem wrapInt64_of_gt {n : ℤ} (h₁ : maxInt64 < n) (h₂ : n ≤ 2 * maxInt64) :
    wrapInt64 n = n - 2 ^ 64 := by
  simp only [maxInt64] at h₁ h₂
  rw [wrapInt64, Int.bmod_def]
  split_ifs <;> omega

/-- The absolute value of a `Duration`, but for the least one. -/
theorem absDuration_of_gt {d : ℤ} (h₁ : minInt64 < d) (h₂ : d ≤ maxInt64) :
    absDuration d = |d| := by
  unfold absDuration
  split_ifs with h
  · rw [wrapInt64_of_mem (by unfold minInt64; omega) (by unfold minInt64 maxInt64 at *; omega),
      abs_of_neg h]
  · rw [abs_of_nonneg (not_lt.1 h)]

theorem absDuration_minInt64 : absDuration minInt64 = minInt64 := by decide

namespace HMAC

variable {m : HMAC} {now : Time} {timestamp : ℤ}

/-- What the check comes to, by the distance from the clock to the instant `time.Unix` makes. -/
theorem fresh_iff {d : ℤ} (hd : d = now.nano - (Time.unix timestamp).nano) :
    m.fresh now timestamp = true ↔
      d ≤ minInt64 ∨ |d| ≤ m.skew ∨ (maxInt64 < d ∧ m.skew = maxInt64) := by
  have hpos := m.skew_pos
  have hle := m.skew_le
  rw [fresh, decide_eq_true_eq, Time.sub, ← hd]
  by_cases hmin : d ≤ minInt64
  · have hsub : (if d < minInt64 then minInt64 else if maxInt64 < d then maxInt64 else d) =
        minInt64 := by
      unfold minInt64 maxInt64 at *
      split_ifs <;> omega
    rw [hsub, absDuration_minInt64]
    simp only [hmin, true_or, iff_true]
    unfold minInt64
    omega
  by_cases hmax : maxInt64 < d
  · rw [if_neg (by omega), if_pos hmax, absDuration_of_gt (by decide) le_rfl]
    have habs : |d| = d := abs_of_nonneg (by unfold maxInt64 at hmax; omega)
    rw [habs, abs_of_nonneg (by decide)]
    omega
  · rw [if_neg (by omega), if_neg hmax, absDuration_of_gt (by omega) (by omega)]
    omega

/-- A run that has read the clock for the check passes it exactly if the timestamp is fresh. -/
theorem fresh_of_exec {mac : Bytes → Bytes → Bytes} {r : HookRequest} {τ : List HmacEvent}
    {v : Verdict} (run : Prog.Exec (m.wrap mac r) (HmacEvent.checked now :: τ) v)
    (parsed : parseInt64 r.timestampHeader = some timestamp) :
    v ≠ .rejected .stale ↔ m.fresh now timestamp = true := by
  rcases m.wrap_cases mac r with ⟨why, -, hwrap⟩ | ⟨body, timestamp', hread⟩
  · rw [hwrap] at run
    exact absurd (Prog.exec_ret_iff.1 run).1 (by simp)
  rw [hread.wrap_eq] at run
  obtain rfl : timestamp = timestamp' := by
    rw [hread.parsed, Option.some_inj] at parsed
    exact parsed.symm
  obtain ⟨now', τ', htrace, hcases⟩ := exec_wrapParsed run
  obtain ⟨hnow, -⟩ := List.cons.inj htrace
  cases hnow
  rcases hcases with ⟨hf, -, rfl⟩ | ⟨hf, -, -, rfl⟩ | ⟨hpass, -, -, rfl⟩ | ⟨hpass, -, t, ok, -, rfl⟩
  · simp [hf]
  · simp [hf]
  · simp [hpass.fresh]
  · cases ok <;> simp [hpass.fresh]

/-- The check compares the distance between clock and timestamp with the skew exactly if the
difference is above the least `Duration` and, when the skew is the greatest one, not above it. -/
theorem freshness_exact_iff {mac : Bytes → Bytes → Bytes} {r : HookRequest} {τ : List HmacEvent}
    {v : Verdict} (run : Prog.Exec (m.wrap mac r) (HmacEvent.checked now :: τ) v)
    (parsed : parseInt64 r.timestampHeader = some timestamp)
    (clock : 0 ≤ now.nano ∧ now.nano + m.skew ≤ maxInt64 * second) :
    (v ≠ .rejected .stale ↔ |now.nano - (timestamp + unixToInternal) * second| ≤ m.skew) ↔
      minInt64 < now.nano - (Time.unix timestamp).nano ∧
        (now.nano - (Time.unix timestamp).nano ≤ maxInt64 ∨ m.skew < maxInt64) := by
  have hpos := m.skew_pos
  have hle := m.skew_le
  obtain ⟨hlow, hhigh⟩ := parseInt64_mem parsed
  rw [fresh_of_exec run parsed, fresh_iff rfl]
  by_cases hwrap : timestamp + unixToInternal ≤ maxInt64
  -- the instant is the one the timestamp names, so the two distances are one
  · have hunix : (Time.unix timestamp).nano = (timestamp + unixToInternal) * second := by
      rw [Time.unix, wrapInt64_of_mem _ hwrap]
      unfold unixToInternal
      omega
    rw [hunix]
    generalize now.nano - (timestamp + unixToInternal) * second = d
    have habs := abs_cases d
    unfold minInt64 maxInt64 at *
    omega
  -- the seconds wrap: the instant is before year 1, and the timestamp after all clock readings
  · have hunix : (Time.unix timestamp).nano = (timestamp + unixToInternal - 2 ^ 64) * second := by
      rw [Time.unix, wrapInt64_of_gt (not_le.1 hwrap)]
      unfold unixToInternal maxInt64 at *
      omega
    rw [hunix]
    have habs := abs_cases (now.nano - (timestamp + unixToInternal) * second)
    have habs' := abs_cases (now.nano - (timestamp + unixToInternal - 2 ^ 64) * second)
    unfold unixToInternal second minInt64 maxInt64 at *
    omega

/-- A reading of the clock in the year 2025. -/
def sampleClock : Time := ⟨63900000000 * second, 0⟩

/-- At a clock reading of the year 2025, a request stamped in the year 5138 is forwarded. -/
theorem future_timestamp_forwarded :
    let r := sample.portalRequest sampleMac (bytesOf "99999999999") (bytesOf "n1") (bytesOf "body")
    parseInt64 r.timestampHeader = some 99999999999 ∧
      Prog.Exec (sample.wrap sampleMac r)
        [HmacEvent.checked sampleClock, HmacEvent.read sampleClock,
        HmacEvent.used (bytesOf "n1") sample.nonceTTL sampleClock true]
        (.forwarded (bytesOf "body")) ∧
      sample.skew < |sampleClock.nano - (99999999999 + unixToInternal) * second| := by
  refine ⟨by decide +kernel, ?_, by decide +kernel⟩
  have readable : sample.Readable (sample.portalRequest sampleMac (bytesOf "99999999999")
      (bytesOf "n1") (bytesOf "body")) (bytesOf "body") 99999999999 :=
    readable_portalRequest (by decide) (by decide) (by decide +kernel) (by decide)
  exact exec_forwarded readable (passes_portalRequest (by decide +kernel)) rfl sampleClock

/-- A request that is 31 seconds old is rejected, and it is too far from the clock. -/
theorem freshness_exact_iff_old :
    let r := sample.portalRequest sampleMac (bytesOf "1764403169") (bytesOf "n1") (bytesOf "body")
    Prog.Exec (sample.wrap sampleMac r) [HmacEvent.checked sampleClock] (.rejected .stale) ∧
      ¬ |sampleClock.nano - (1764403169 + unixToInternal) * second| ≤ sample.skew := by
  intro r
  have parsed : parseInt64 r.timestampHeader = some 1764403169 := by decide +kernel
  have readable : sample.Readable r (bytesOf "body") 1764403169 :=
    readable_portalRequest (by decide) (by decide) parsed (by decide)
  have run : Prog.Exec (sample.wrap sampleMac r) [HmacEvent.checked sampleClock]
      (.rejected .stale) := exec_stale readable (by decide +kernel)
  have exact_here := (freshness_exact_iff run parsed (by decide +kernel)).2 (by decide +kernel)
  exact ⟨run, fun near => exact_here.2 near rfl⟩

end HMAC

end PasswordHook
