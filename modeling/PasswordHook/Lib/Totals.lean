import PasswordHook.Lib.Interleave

/-!
# Totals over the threads of a world

A reachable world has finitely many threads, so a quantity can be added up over them.  A step
changes one thread, and with it the total by the difference (`World.total_setThread`).
-/

namespace PasswordHook

section

variable {κ : Type} [DecidableEq κ] {I : κ → Interface} {α : κ → Type} {σ : Type}
  {S : System κ I α σ} {W W' : World I α σ} {k k' : κ} {i : ℕ} {t : Thread (I k) (α k)}

/-- Finitely many threads of each kind. -/
def World.Finite (W : World I α σ) : Prop := ∀ k, {i | W.pool k i ≠ none}.Finite

theorem World.Finite.setThread (h : W.Finite) (k : κ) (i : ℕ) (t : Thread (I k) (α k)) :
    (W.setThread k i t).Finite := by
  intro k'
  apply ((h k').insert i).subset
  intro i' hi'
  by_cases heq : k' = k ∧ i' = i
  · exact .inl heq.2
  · right
    rwa [Set.mem_ofPred_eq, World.setThread_pool_of_ne W t heq] at hi'

theorem World.Finite.step {ℓ : Label I α} (h : W.Finite) (hs : Step S W ℓ W') : W'.Finite := by
  cases hs with
  | spawn free allowed => exact h.setThread _ _ _
  | @call k i t c f r s thread next answer =>
    have hshared : World.Finite (⟨s, W.pool⟩ : World I α σ) := h
    exact hshared.setThread _ _ _
  | env change => exact h

/-- What every call of a kind has, every event in the past of such a thread has. -/
theorem Reach.forall_past {C : World I α σ → Label I α → Prop} {P : Event (I k) → Prop}
    (hC : ∀ W i e, C W (.call k i e) → P e) (h : Reach S C W) :
    ∀ i (t : Thread (I k) (α k)), W.pool k i = some t → ∀ e ∈ t.past, P e := by
  apply h.invariant (P := fun W => ∀ i (t : Thread (I k) (α k)), W.pool k i = some t →
    ∀ e ∈ t.past, P e)
  · intro s _ i t ht
    exact absurd ht (by simp)
  · intro W ℓ W' ih hℓ hs i t ht e he
    rcases hs.pool_cases ht with ⟨hpast, -⟩ | ⟨t₀, c, f, r, h₀, -, rfl, -, rfl⟩ | h₀
    · rw [hpast] at he
      exact absurd he List.not_mem_nil
    · rcases List.mem_append.1 he with he | he
      · exact ih i t₀ h₀ e he
      · rw [List.mem_singleton.1 he]
        exact hC W i _ hℓ
    · exact ih i t h₀ e he

/-! ## Totals -/

/-- The total of a quantity over the threads of a kind. -/
noncomputable def World.total (W : World I α σ) (k : κ) (f : Thread (I k) (α k) → ℕ) : ℕ :=
  ∑ᶠ i, (W.pool k i).elim 0 f

section

variable {f g : Thread (I k) (α k) → ℕ}

omit [DecidableEq κ] in
/-- The total over any set that has all threads. -/
theorem World.total_eq_sum {s : Finset ℕ} (hs : ∀ i, W.pool k i ≠ none → i ∈ s) :
    W.total k f = ∑ i ∈ s, (W.pool k i).elim 0 f := by
  apply finsum_eq_sum_of_support_subset
  intro i hi
  apply hs
  intro hnone
  rw [Function.mem_support, hnone] at hi
  exact hi rfl

theorem World.total_setThread (h : W.Finite) :
    (W.setThread k i t).total k f + (W.pool k i).elim 0 f = W.total k f + f t := by
  let s := insert i (h k).toFinset
  have hold : ∀ j, W.pool k j ≠ none → j ∈ s := fun j hj =>
    Finset.mem_insert_of_mem ((h k).mem_toFinset.2 hj)
  have hnew : ∀ j, (W.setThread k i t).pool k j ≠ none → j ∈ s := by
    intro j hj
    by_cases heq : j = i
    · rw [heq]
      exact Finset.mem_insert_self _ _
    · rw [World.setThread_pool_of_ne W t (fun h => heq h.2)] at hj
      exact hold j hj
  have hi : i ∈ s := Finset.mem_insert_self _ _
  rw [World.total_eq_sum hold, World.total_eq_sum hnew, ← Finset.add_sum_erase s _ hi,
    ← Finset.add_sum_erase s (fun j => (W.pool k j).elim 0 f) hi, World.setThread_pool_self]
  have hothers : ∑ j ∈ s.erase i, ((W.setThread k i t).pool k j).elim 0 f =
      ∑ j ∈ s.erase i, (W.pool k j).elim 0 f := by
    apply Finset.sum_congr rfl
    intro j hj
    rw [World.setThread_pool_of_ne W t (fun h => Finset.ne_of_mem_erase hj h.2)]
  rw [hothers]
  simp only [Option.elim_some]
  omega

/-- A new thread adds its own share. -/
theorem World.total_spawn (h : W.Finite) (free : W.pool k i = none) :
    (W.setThread k i t).total k f = W.total k f + f t := by
  have hset := World.total_setThread (i := i) (t := t) (f := f) h
  rwa [free, Option.elim_none, Nat.add_zero] at hset

/-- A thread that makes a call adds what its share grows by. -/
theorem World.total_call (h : W.Finite) {t₀ : Thread (I k) (α k)} (thread : W.pool k i = some t₀)
    {s : σ} {n : ℕ} (grows : f t = f t₀ + n) :
    (World.setThread ⟨s, W.pool⟩ k i t).total k f = W.total k f + n := by
  have hshared : World.Finite (⟨s, W.pool⟩ : World I α σ) := h
  have hset : (World.setThread ⟨s, W.pool⟩ k i t).total k f + (W.pool k i).elim 0 f =
      W.total k f + f t := World.total_setThread hshared
  rw [thread, Option.elim_some, grows] at hset
  omega

theorem World.total_setThread_of_ne (f : Thread (I k') (α k') → ℕ) (hne : k' ≠ k) :
    (W.setThread k i t).total k' f = W.total k' f := by
  unfold World.total
  congr 1
  funext j
  rw [World.setThread_pool_of_ne W t (fun h => hne h.1)]

omit [DecidableEq κ] in
theorem World.total_add (h : W.Finite) :
    W.total k (fun t => f t + g t) = W.total k f + W.total k g := by
  have hs : ∀ i, W.pool k i ≠ none → i ∈ (h k).toFinset := fun i hi => (h k).mem_toFinset.2 hi
  rw [World.total_eq_sum hs, World.total_eq_sum hs, World.total_eq_sum hs, ← Finset.sum_add_distrib]
  apply Finset.sum_congr rfl
  intro i _
  cases W.pool k i with
  | none => rfl
  | some t => rfl

omit [DecidableEq κ] in
theorem World.total_congr (h : ∀ i t, W.pool k i = some t → f t = g t) :
    W.total k f = W.total k g := by
  unfold World.total
  congr 1
  funext i
  cases ht : W.pool k i with
  | none => rfl
  | some t => exact h i t ht

omit [DecidableEq κ] in
theorem World.total_eq_zero_iff (h : W.Finite) :
    W.total k f = 0 ↔ ∀ i t, W.pool k i = some t → f t = 0 := by
  have hs : ∀ i, W.pool k i ≠ none → i ∈ (h k).toFinset := fun i hi => (h k).mem_toFinset.2 hi
  rw [World.total_eq_sum hs, Finset.sum_eq_zero_iff]
  constructor
  · intro hzero i t ht
    have hi := hzero i (hs i (by rw [ht]; simp))
    rwa [ht] at hi
  · intro hzero i _
    cases ht : W.pool k i with
    | none => rfl
    | some t => exact hzero i t ht

omit [DecidableEq κ] in
/-- The total over the threads of a kind that is started at most once. -/
theorem World.total_of_index (hothers : ∀ j, j ≠ i → W.pool k j = none) :
    W.total k f = (W.pool k i).elim 0 f := by
  have hs : ∀ j, W.pool k j ≠ none → j ∈ ({i} : Finset ℕ) := by
    intro j hj
    rw [Finset.mem_singleton]
    by_contra hne
    exact hj (hothers j hne)
  rw [World.total_eq_sum hs, Finset.sum_singleton]

omit [DecidableEq κ] in
/-- The total over a single thread. -/
theorem World.total_of_single (hi : W.pool k i = some t)
    (hothers : ∀ j, j ≠ i → W.pool k j = none) :
    W.total k f = f t := by
  have hs : ∀ j, W.pool k j ≠ none → j ∈ ({i} : Finset ℕ) := by
    intro j hj
    rw [Finset.mem_singleton]
    by_contra hne
    exact hj (hothers j hne)
  rw [World.total_eq_sum hs, Finset.sum_singleton, hi]
  rfl

end

end

end PasswordHook
