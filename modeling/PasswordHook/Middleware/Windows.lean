import PasswordHook.Lib.Keyed
import PasswordHook.Lib.Window
import PasswordHook.Middleware.RateLimit

/-!
# Requests in a window

`allow` is the counter of fixed windows (`Window.onEvent`), one for each key: the zero start of a
`rateWindow` is no open window, and the saturated difference of times reaches the window exactly
when the difference does.
-/

namespace PasswordHook

theorem Time.le_sub_iff {t u : Time} {d : ℤ} (h₁ : minInt64 < d) (h₂ : d ≤ maxInt64) :
    d ≤ t.sub u ↔ u.nano + d ≤ t.nano := by
  unfold Time.sub
  split_ifs <;> omega

namespace RateLimiter

variable (l : RateLimiter)

/-- Calls of `allow`, in the order in which they take the lock. -/
def run (calls : List (String × Time)) : RateCounts × List Bool :=
  runFrom (fun counts call => l.allow counts call.1 call.2) .empty calls

/-- The times of the calls for a key that are accepted. -/
def accepted (key : String) (calls : List (String × Time)) : List Time :=
  ((calls.zip (l.run calls).2).filter fun c => c.2 && c.1.1 = key).map fun c => c.1.2

/-- The limit as a number of requests. -/
def limit : ℕ := l.limitPerIP.toNat

theorem limit_eq : (l.limit : ℤ) = l.limitPerIP := Int.toNat_of_nonneg l.limit_pos.le

theorem one_le_limit : 1 ≤ l.limit := by
  have := l.limit_pos
  have := l.limit_eq
  omega

theorem run_eq (calls : List (String × Time)) :
    l.run calls = runFrom (keyed l.allowWindow) RateCounts.empty calls := rfl

/-- A `rateWindow` and the open window it stands for. -/
def Tracks (current : RateWindow) : Option (Window.Opened ℤ) → Prop
  | none => current.start.isZero = true
  | some w => current.start.nano = w.start ∧ w.start ≠ 0 ∧ current.count = w.count

theorem allowWindow_tracks {current : RateWindow} {s : Option (Window.Opened ℤ)} {now : Time}
    (h : Tracks current s) (hnow : now.isZero = false) :
    Tracks (l.allowWindow current now).1 (Window.onEvent l.window l.limit s now.nano).1 ∧
      (l.allowWindow current now).2 = (Window.onEvent l.window l.limit s now.nano).2 := by
  have hnano : now.nano ≠ 0 := of_decide_eq_false hnow
  have hopens : Tracks ⟨now, 1⟩ (some ⟨now.nano, 1⟩) := ⟨rfl, hnano, rfl⟩
  cases s with
  | none =>
    have hzero : current.start.isZero = true := h
    rw [allowWindow, hzero, Bool.true_or, if_pos rfl]
    exact ⟨hopens, rfl⟩
  | some w =>
    obtain ⟨hstart, hne, hcount⟩ := h
    have hopen : current.start.isZero = false := decide_eq_false (hstart ▸ hne)
    have hmin : minInt64 < l.window := lt_trans (by decide) l.window_pos
    have hexpired : l.window ≤ now.sub current.start ↔ w.start + l.window ≤ now.nano := by
      rw [Time.le_sub_iff hmin l.window_le, hstart]
    have hfull : l.limitPerIP ≤ current.count ↔ l.limit ≤ w.count := by
      rw [← l.limit_eq, hcount, Nat.cast_le]
    rw [allowWindow, Window.onEvent, hopen, Bool.false_or]
    simp only [decide_eq_true_eq, hexpired, hfull]
    by_cases hend : w.start + l.window ≤ now.nano
    · rw [if_pos hend, if_pos hend]
      exact ⟨hopens, rfl⟩
    · rw [if_neg hend, if_neg hend]
      by_cases hlimit : l.limit ≤ w.count
      · rw [if_pos hlimit, if_pos hlimit]
        exact ⟨⟨hstart, hne, hcount⟩, rfl⟩
      · rw [if_neg hlimit, if_neg hlimit]
        exact ⟨⟨hstart, hne, by simp [hcount]⟩, rfl⟩

/-- The window of a key after calls at nonzero times, and the decisions for the key. -/
theorem run_tracks (key : String) {calls : List (String × Time)}
    (hnonzero : ∀ c ∈ calls, c.2.isZero = false) :
    Tracks ((l.run calls).1 key)
        (runFrom (Window.onEvent l.window l.limit) none ((requestsFor key calls).map Time.nano)).1 ∧
      repliesFor key calls (l.run calls).2 =
        (runFrom (Window.onEvent l.window l.limit) none
          ((requestsFor key calls).map Time.nano)).2 := by
  obtain ⟨hstate, hreplies⟩ := runFrom_keyed l.allowWindow key RateCounts.empty calls
  rw [run_eq, hstate, hreplies, ← runFrom_map]
  apply runFrom_simulation (C := fun _ now => now.isZero = false)
  · intro current s now h hnow
    exact l.allowWindow_tracks h hnow
  · exact (rfl : Time.zero.isZero = true)
  · intro pre now post hcalls
    have hmem : now ∈ requestsFor key calls := by rw [hcalls]; simp
    obtain ⟨c, hc, rfl⟩ := List.mem_map.1 hmem
    exact hnonzero c (List.mem_of_mem_filter hc)

theorem accepted_eq (key : String) (calls : List (String × Time)) :
    l.accepted key calls =
      Window.admitted (requestsFor key calls) (repliesFor key calls (l.run calls).2) := by
  have hlength : (l.run calls).2.length = calls.length := by rw [run_eq, length_runFrom]
  rw [accepted, Window.admitted, zip_requestsFor key hlength, List.filter_map, List.map_map,
    List.filter_filter]
  rfl

/-- The accepted times of a key are those that a window run over its requests admits. -/
theorem map_accepted (key : String) {calls : List (String × Time)}
    (hnonzero : ∀ c ∈ calls, c.2.isZero = false) :
    (l.accepted key calls).map Time.nano =
      Window.admitted ((requestsFor key calls).map Time.nano)
        (runFrom (Window.onEvent l.window l.limit) none
          ((requestsFor key calls).map Time.nano)).2 := by
  rw [accepted_eq, (l.run_tracks key hnonzero).2, Window.admitted_map]

theorem requestsFor_sorted (key : String) {calls : List (String × Time)}
    (hsorted : (calls.map Prod.snd).Pairwise (· ≤ ·)) :
    ((requestsFor key calls).map Time.nano).Pairwise (· ≤ ·) := by
  rw [List.pairwise_map]
  apply List.Pairwise.sublist _ hsorted
  exact List.filter_sublist.map _

theorem accepted_sound (key : String) {calls : List (String × Time)}
    (hnonzero : ∀ c ∈ calls, c.2.isZero = false)
    (hsorted : (calls.map Prod.snd).Pairwise (· ≤ ·)) :
    Window.Sound l.window l.limit ((l.accepted key calls).map Time.nano)
      (runFrom (Window.onEvent l.window l.limit) none
        ((requestsFor key calls).map Time.nano)).1 := by
  rw [l.map_accepted key hnonzero]
  exact Window.sound_run l.window_pos l.one_le_limit (requestsFor_sorted key hsorted)

/-- Few requests of a key are accepted at times less than a window apart. -/
theorem countP_accepted_le (key : String) {calls : List (String × Time)}
    (hnonzero : ∀ c ∈ calls, c.2.isZero = false)
    (hsorted : (calls.map Prod.snd).Pairwise (· ≤ ·)) {J : ℤ → Bool}
    (hJ : Window.Short l.window J) :
    ((l.accepted key calls).countP fun t => J t.nano : ℤ) ≤ 2 * l.limitPerIP - 1 := by
  have hlt := (l.accepted_sound key hnonzero hsorted).short J hJ
  rw [List.countP_map] at hlt
  have hlimit := l.limit_eq
  have hcount : (l.accepted key calls).countP (fun t => J t.nano) < 2 * l.limit := hlt
  omega

/-- A refused call comes after as many accepted ones. -/
theorem limit_le_countP_accepted (key : String) {pre : List (String × Time)} {now : Time}
    (hnonzero : ∀ c ∈ pre ++ [(key, now)], c.2.isZero = false)
    (hsorted : ((pre ++ [(key, now)]).map Prod.snd).Pairwise (· ≤ ·))
    (hrefused : (l.allow (l.run pre).1 key now).2 = false) :
    l.limitPerIP ≤
      (l.accepted key pre).countP fun t => now.nano - l.window < t.nano ∧ t.nano ≤ now.nano := by
  rw [List.map_append, List.pairwise_append] at hsorted
  obtain ⟨hpre, -, hlast⟩ := hsorted
  have hpreNonzero : ∀ c ∈ pre, c.2.isZero = false := fun c hc => hnonzero c (by simp [hc])
  have htracks := (l.run_tracks key hpreNonzero).1
  have hreply := (l.allowWindow_tracks htracks (hnonzero (key, now) (by simp))).2
  have hcounted := (l.accepted_sound key hpreNonzero hpre).counted
  have hle : ∀ t ∈ (l.accepted key pre).map Time.nano, t ≤ now.nano := by
    rw [l.map_accepted key hpreNonzero]
    intro t ht
    obtain ⟨u, hu, rfl⟩ := List.mem_map.1 (Window.mem_of_mem_admitted ht)
    obtain ⟨c, hc, rfl⟩ := List.mem_map.1 hu
    exact hlast c.2 (List.mem_map.2 ⟨c, List.mem_of_mem_filter hc, rfl⟩) now (by simp)
  have hmany := hcounted.le_countP hle (hreply ▸ hrefused)
  rw [List.countP_map] at hmany
  have hlimit := l.limit_eq
  have hcount : l.limit ≤ (l.accepted key pre).countP
      fun t => now.nano - l.window < t.nano ∧ t.nano ≤ now.nano := hmany
  omega

/-- The limiter over any run of calls, at times that are not zero and do not decrease: the decisions
for a key come from its own calls, an interval of the length of a window has less than twice the
limit of accepted ones, and a call is refused only after the limit of them. -/
theorem allow_windows (key : String) (calls : List (String × Time))
    (hnonzero : ∀ c ∈ calls, c.2.isZero = false)
    (hsorted : (calls.map Prod.snd).Pairwise (· ≤ ·)) :
    (∀ calls', requestsFor key calls' = requestsFor key calls →
      repliesFor key calls' (l.run calls').2 = repliesFor key calls (l.run calls).2) ∧
    (∀ a : ℤ,
      ((l.accepted key calls).countP fun t => a ≤ t.nano ∧ t.nano < a + l.window : ℤ) ≤
        2 * l.limitPerIP - 1 ∧
      ((l.accepted key calls).countP fun t => a < t.nano ∧ t.nano ≤ a + l.window : ℤ) ≤
        2 * l.limitPerIP - 1) ∧
    ∀ pre now post, calls = pre ++ (key, now) :: post →
      (l.allow (l.run pre).1 key now).2 = false →
      l.limitPerIP ≤
        (l.accepted key pre).countP fun t => now.nano - l.window < t.nano ∧ t.nano ≤ now.nano := by
  refine ⟨fun calls' h => ?_, fun a => ⟨?_, ?_⟩, fun pre now post hcalls => ?_⟩
  · rw [run_eq, run_eq, (runFrom_keyed l.allowWindow key RateCounts.empty calls').2,
      (runFrom_keyed l.allowWindow key RateCounts.empty calls).2, h]
  · apply l.countP_accepted_le key hnonzero hsorted (J := fun t => a ≤ t ∧ t < a + l.window)
    intro x y hx hy
    have := of_decide_eq_true hx
    have := of_decide_eq_true hy
    omega
  · apply l.countP_accepted_le key hnonzero hsorted (J := fun t => a < t ∧ t ≤ a + l.window)
    intro x y hx hy
    have := of_decide_eq_true hx
    have := of_decide_eq_true hy
    omega
  · have hsplit : calls = (pre ++ [(key, now)]) ++ post := by rw [hcalls]; simp
    apply l.limit_le_countP_accepted key
    · intro c hc
      exact hnonzero c (by rw [hsplit]; exact List.mem_append_left post hc)
    · rw [hsplit, List.map_append] at hsorted
      exact (List.pairwise_append.1 hsorted).1

/-- One request of each address in a second. -/
def sampleLimiter : RateLimiter where
  allowedCIDRs := []
  trustedProxyCIDRs := []
  limitPerIP := 1
  window := second
  limit_pos := by decide
  window_pos := by decide
  window_le := second_le_maxInt64

theorem allow_windows_refused :
    (sampleLimiter.run [("10.0.0.1", ⟨5, 0⟩), ("10.0.0.2", ⟨5, 0⟩), ("10.0.0.1", ⟨7, 0⟩)]).2 =
        [true, true, false] ∧
      1 ≤ ((sampleLimiter.accepted "10.0.0.1" [("10.0.0.1", ⟨5, 0⟩), ("10.0.0.2", ⟨5, 0⟩)]).countP
        fun t => 7 - second < t.nano ∧ t.nano ≤ 7 : ℤ) :=
  ⟨by decide, (sampleLimiter.allow_windows "10.0.0.1"
    [("10.0.0.1", ⟨5, 0⟩), ("10.0.0.2", ⟨5, 0⟩), ("10.0.0.1", ⟨7, 0⟩)] (by decide)
    (by simp [Time.le_def])).2.2 [("10.0.0.1", ⟨5, 0⟩), ("10.0.0.2", ⟨5, 0⟩)] ⟨7, 0⟩ [] rfl
    (by decide)⟩

end RateLimiter

end PasswordHook
