import PasswordHook.Lib.Simulation

/-!
# Counting in fixed windows

A window opens at the first event that comes when none is open, lasts for a fixed time and admits a
fixed number of events; the next event after its end opens the next one.  Over events in the order
of time, any stretch shorter than a window has less than twice the number (`sound_run`), and an
event that is refused comes after that number of admitted ones (`Counted.le_countP`).
-/

namespace PasswordHook.Window

variable {T : Type*}

/-- An open window: its first event, and how many it has admitted. -/
structure Opened (T : Type*) where
  start : T
  count : ℕ

/-- The times with the reply that they are admitted. -/
def admitted (ts : List T) (rs : List Bool) : List T := ((ts.zip rs).filter Prod.snd).map Prod.fst

theorem admitted_cons (t : T) (ts : List T) (r : Bool) (rs : List Bool) :
    admitted (t :: ts) (r :: rs) = (if r then [t] else []) ++ admitted ts rs := by
  cases r <;> rfl

theorem admitted_map {S : Type*} (f : S → T) (ts : List S) (rs : List Bool) :
    admitted (ts.map f) rs = (admitted ts rs).map f := by
  induction ts generalizing rs with
  | nil => rfl
  | cons t ts ih =>
    cases rs with
    | nil => rfl
    | cons r rs => cases r <;> simp [admitted_cons, ih]

theorem mem_of_mem_admitted {t : T} {ts : List T} {rs : List Bool} (h : t ∈ admitted ts rs) :
    t ∈ ts := by
  obtain ⟨r, hr, rfl⟩ := List.mem_map.1 h
  exact (List.of_mem_zip (List.mem_of_mem_filter hr)).1

/-- The times admitted after one more event. -/
def extend (acc : List T) (now : T) (admitted : Bool) : List T :=
  if admitted then acc ++ [now] else acc

variable [AddCommGroup T] [LinearOrder T]

/-- An event at a time. -/
def onEvent (W : T) (L : ℕ) (s : Option (Opened T)) (now : T) : Option (Opened T) × Bool :=
  match s with
  | none => (some ⟨now, 1⟩, true)
  | some w =>
    if w.start + W ≤ now then (some ⟨now, 1⟩, true)
    else if L ≤ w.count then (some w, false)
    else (some ⟨w.start, w.count + 1⟩, true)

/-- Any two of the times are less than a window apart. -/
def Short (W : T) (J : T → Bool) : Prop := ∀ x y, J x → J y → y < x + W

/-- What the open window says about the times admitted so far. -/
def Counted (W : T) (L : ℕ) (acc : List T) : Option (Opened T) → Prop
  | none => acc = []
  | some w =>
    w.start ∈ acc ∧ (∀ t ∈ acc, t < w.start + W) ∧
      acc.countP (fun t => w.start ≤ t) = w.count ∧ w.count ≤ L ∧
      acc.countP (fun t => w.start < t + W ∧ t < w.start) < L

variable {W : T} {L : ℕ} {acc : List T} {now : T}

/-- An event inside the window. -/
theorem counted_inside {w : Opened T} (h : Counted W L acc (some w)) (hle : ∀ t ∈ acc, t ≤ now)
    (hnow : now < w.start + W) (hcount : w.count < L) :
    Counted W L (acc ++ [now]) (some ⟨w.start, w.count + 1⟩) := by
  obtain ⟨hstart, hall, hin, -, hbefore⟩ := h
  have hafter : w.start ≤ now := hle _ hstart
  refine ⟨by simp [hstart], ?_, by simp [List.countP_append, hin, hafter], hcount, ?_⟩
  · intro t ht
    rcases List.mem_append.1 ht with hacc | hlast
    · exact hall t hacc
    · rw [List.mem_singleton.1 hlast]
      exact hnow
  · simpa [List.countP_append, not_lt.2 hafter] using hbefore

/-- A short stretch that has the last event lies in two windows. -/
theorem Counted.countP_lt {s : Option (Opened T)} {J : T → Bool}
    (h : Counted W L acc s) (hJ : Short W J) (hlast : J now) (hmem : now ∈ acc)
    (hle : ∀ t ∈ acc, t ≤ now) : acc.countP J < 2 * L := by
  cases s with
  | none =>
    have hacc : acc = [] := h
    simp [hacc] at hmem
  | some w =>
    obtain ⟨hstart, -, hin, hcount, hbefore⟩ := h
    have hsplit := List.countP_eq_countP_filter_add acc J (fun t => decide (w.start ≤ t))
    simp only [List.countP_filter] at hsplit
    have hinside : acc.countP (fun t => J t && decide (w.start ≤ t)) ≤
        acc.countP fun t => w.start ≤ t := by
      apply List.countP_mono_left
      intro t _ ht
      exact (Bool.and_eq_true_iff.1 ht).2
    have hearlier : acc.countP (fun t => J t && !decide (w.start ≤ t)) ≤
        acc.countP fun t => w.start < t + W ∧ t < w.start := by
      apply List.countP_mono_left
      intro t _ ht
      simp only [Bool.and_eq_true, Bool.not_eq_true', decide_eq_false_iff_not,
        not_le] at ht
      have hnear : w.start < t + W := lt_of_le_of_lt (hle _ hstart) (hJ t now ht.1 hlast)
      simp [hnear, ht.2]
    omega

variable [IsOrderedAddMonoid T]

/-- A window that opens at an event: the admitted times near it are of the window before. -/
theorem counted_opened (hW : 0 < W) (hL : 1 ≤ L) (hlt : ∀ t ∈ acc, t < now)
    (hnear : acc.countP (fun t => now < t + W) < L) :
    Counted W L (acc ++ [now]) (some ⟨now, 1⟩) := by
  have hend : now < now + W := lt_add_of_pos_right now hW
  refine ⟨by simp, ?_, ?_, hL, ?_⟩
  · intro t ht
    rcases List.mem_append.1 ht with hacc | hlast
    · exact (hlt t hacc).trans hend
    · rw [List.mem_singleton.1 hlast]
      exact hend
  · have hbefore : acc.countP (fun t => now ≤ t) = 0 := by
      rw [List.countP_eq_zero]
      intro t ht
      simpa using hlt t ht
    simp [List.countP_append, hbefore]
  · have hsub : acc.countP (fun t => now < t + W ∧ t < now) ≤ acc.countP (fun t =>
        now < t + W) := by
      apply List.countP_mono_left
      intro t _ ht
      simp only [decide_eq_true_eq] at ht ⊢
      exact ht.1
    simp only [List.countP_append, List.countP_singleton, lt_irrefl, and_false, decide_false]
    simpa using lt_of_le_of_lt hsub hnear

/-- After the end of a window its first event is no longer near. -/
theorem countP_near_lt {w : Opened T} (h : Counted W L acc (some w)) (hend : w.start + W ≤ now) :
    acc.countP (fun t => now < t + W) < L := by
  obtain ⟨hstart, -, hcount, hle, -⟩ := h
  have hsplit := List.countP_eq_countP_filter_add acc (fun t => decide (w.start ≤ t))
    (fun t => decide (now < t + W))
  simp only [List.countP_filter] at hsplit
  have hfirst : 0 < acc.countP fun t => decide (w.start ≤ t) && !decide (now < t + W) := by
    rw [List.countP_pos_iff]
    exact ⟨w.start, hstart, by simpa using hend⟩
  have hnear : acc.countP (fun t => now < t + W) ≤
      acc.countP fun t => decide (w.start ≤ t) && decide (now < t + W) := by
    apply List.countP_mono_left
    intro t _ ht
    have hlt : w.start + W < t + W := lt_of_le_of_lt hend (of_decide_eq_true ht)
    simp [of_decide_eq_true ht, (lt_of_add_lt_add_right hlt).le]
  omega

theorem Counted.onEvent (hW : 0 < W) (hL : 1 ≤ L) {s : Option (Opened T)} (h : Counted W L acc s)
    (hle : ∀ t ∈ acc, t ≤ now) :
    Counted W L (extend acc now (onEvent W L s now).2) (onEvent W L s now).1 := by
  cases s with
  | none =>
    have hacc : acc = [] := h
    subst hacc
    exact counted_opened hW hL (by simp) (by simpa using Nat.lt_of_lt_of_le one_pos hL)
  | some w =>
    rw [Window.onEvent]
    by_cases hend : w.start + W ≤ now
    · rw [if_pos hend]
      exact counted_opened hW hL (fun t ht => (h.2.1 t ht).trans_le hend) (countP_near_lt h hend)
    · rw [if_neg hend]
      by_cases hfull : L ≤ w.count
      · rw [if_pos hfull]
        exact h
      · rw [if_neg hfull]
        exact counted_inside h hle (not_le.1 hend) (not_le.1 hfull)

/-- A refused event comes after as many admitted ones as the window takes. -/
theorem Counted.le_countP {s : Option (Opened T)} (h : Counted W L acc s)
    (hle : ∀ t ∈ acc, t ≤ now) (hrefused : (Window.onEvent W L s now).2 = false) :
    L ≤ acc.countP fun t => now - W < t ∧ t ≤ now := by
  cases s with
  | none => simp [Window.onEvent] at hrefused
  | some w =>
    obtain ⟨-, -, hin, -, -⟩ := h
    rw [Window.onEvent] at hrefused
    split_ifs at hrefused with hend hfull
    calc L ≤ acc.countP fun t => w.start ≤ t := hin ▸ hfull
      _ ≤ acc.countP fun t => now - W < t ∧ t ≤ now := by
        apply List.countP_mono_left
        intro t ht hin
        have hbefore : now < t + W :=
          (not_le.1 hend).trans_le (add_le_add_left (of_decide_eq_true hin) W)
        simp [sub_lt_iff_lt_add, hbefore, hle t ht]

/-! ## Runs -/

/-- The times admitted so far, with the open window and few of them in any short stretch. -/
structure Sound (W : T) (L : ℕ) (acc : List T) (s : Option (Opened T)) : Prop where
  counted : Counted W L acc s
  short : ∀ J, Short W J → acc.countP J < 2 * L

theorem Sound.onEvent (hW : 0 < W) (hL : 1 ≤ L) {s : Option (Opened T)} (h : Sound W L acc s)
    (hle : ∀ t ∈ acc, t ≤ now) :
    Sound W L (extend acc now (Window.onEvent W L s now).2) (Window.onEvent W L s now).1 := by
  have hcounted := h.counted.onEvent hW hL hle
  refine ⟨hcounted, fun J hJ => ?_⟩
  cases hreply : (Window.onEvent W L s now).2 with
  | false => exact h.short J hJ
  | true =>
    rw [hreply] at hcounted
    by_cases hnow : J now
    · apply hcounted.countP_lt hJ hnow
      · simp [extend]
      · intro t ht
        rcases List.mem_append.1 ht with hacc | hlast
        · exact hle t hacc
        · exact (List.mem_singleton.1 hlast).le
    · simpa [extend, List.countP_append, hnow] using h.short J hJ

theorem Sound.run (hW : 0 < W) (hL : 1 ≤ L) {s : Option (Opened T)} {ts : List T}
    (h : Sound W L acc s) (hle : ∀ t ∈ acc, ∀ u ∈ ts, t ≤ u) (hts : ts.Pairwise (· ≤ ·)) :
    Sound W L (acc ++ admitted ts (runFrom (Window.onEvent W L) s ts).2)
      (runFrom (Window.onEvent W L) s ts).1 := by
  induction ts generalizing acc s with
  | nil => simpa [admitted] using h
  | cons now ts ih =>
    obtain ⟨hnow, hts⟩ := List.pairwise_cons.1 hts
    have hstep := h.onEvent hW hL fun t ht => hle t ht now (by simp)
    have hrun := ih hstep (fun t ht u hu => ?_) hts
    · rw [runFrom_cons, admitted_cons, ← List.append_assoc]
      cases hreply : (Window.onEvent W L s now).2 <;>
        simpa [extend, hreply] using hrun
    · rw [extend] at ht
      split_ifs at ht
      · rcases List.mem_append.1 ht with hacc | hlast
        · exact hle t hacc u (by simp [hu])
        · rw [List.mem_singleton.1 hlast]
          exact hnow u hu
      · exact hle t ht u (by simp [hu])

/-- From no open window. -/
theorem sound_run (hW : 0 < W) (hL : 1 ≤ L) {ts : List T} (hts : ts.Pairwise (· ≤ ·)) :
    Sound W L (admitted ts (runFrom (Window.onEvent W L) none ts).2)
      (runFrom (Window.onEvent W L) none ts).1 := by
  have hstart : Sound W L ([] : List T) none := ⟨rfl, fun J _ => by simp; omega⟩
  simpa using hstart.run hW hL (by simp) hts

end PasswordHook.Window
