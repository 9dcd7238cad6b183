import PasswordHook.Lib.Totals

/-!
# Runs that come to an end

A program makes finitely many calls, whatever the answers, so threads can only go on for ever if new
ones are started for ever.  Steps that start threads in finitely many places and are not steps of
the environment are therefore well-founded (`acc_steps`): every run of them ends.
-/

namespace PasswordHook

section

variable {κ : Type} {I : κ → Interface} {α : κ → Type} {σ : Type}

/-- A place in the pool with what is left of its thread. -/
abbrev Place (I : κ → Interface) (α : κ → Type) := (k : κ) × Option (Prog (I k) (α k))

/-- A thread is started, or makes a call. -/
inductive Shrinks : Place I α → Place I α → Prop
  | start {k : κ} (p : Prog (I k) (α k)) : Shrinks ⟨k, some p⟩ ⟨k, none⟩
  | call {k : κ} (c : (I k).Call) (f : (I k).Resp c → Prog (I k) (α k)) (r : (I k).Resp c) :
      Shrinks ⟨k, some (f r)⟩ ⟨k, some (.call c f)⟩

theorem acc_some {k : κ} (p : Prog (I k) (α k)) : Acc Shrinks (⟨k, some p⟩ : Place I α) := by
  induction p with
  | ret a =>
    constructor
    rintro y ⟨⟩
  | call c f ih =>
    constructor
    rintro y ⟨⟩
    exact ih _

theorem wellFounded_shrinks : WellFounded (Shrinks : Place I α → Place I α → Prop) := by
  constructor
  rintro ⟨k, p⟩
  cases p with
  | some p => exact acc_some p
  | none =>
    constructor
    rintro y ⟨⟩
    exact acc_some _

variable [DecidableEq κ]

/-- What is left in each of these places. -/
def World.left (W : World I α σ) (places : Finset (κ × ℕ)) : Multiset (Place I α) :=
  places.val.map fun x => ⟨x.1, (W.pool x.1 x.2).map Thread.rest⟩

theorem World.left_setThread (W : World I α σ) {places : Finset (κ × ℕ)} {k : κ} {i : ℕ}
    {t : Thread (I k) (α k)} (hmem : (k, i) ∈ places)
    (shrinks : Shrinks (⟨k, some t.rest⟩ : Place I α) ⟨k, (W.pool k i).map Thread.rest⟩) :
    Relation.CutExpand Shrinks ((W.setThread k i t).left places) (W.left places) := by
  have hothers : ((W.setThread k i t).left (places.erase (k, i))) =
      W.left (places.erase (k, i)) := by
    apply Multiset.map_congr rfl
    rintro ⟨k', i'⟩ hx
    rw [World.setThread_pool_of_ne W t]
    rintro ⟨rfl, rfl⟩
    exact absurd rfl (Finset.ne_of_mem_erase hx)
  have hsplit : ∀ W : World I α σ, W.left places =
      {⟨k, (W.pool k i).map Thread.rest⟩} + W.left (places.erase (k, i)) := by
    intro W
    rw [World.left, ← Finset.insert_erase hmem, Finset.insert_val_of_notMem (by simp)]
    simp [World.left]
  rw [hsplit, hsplit W, hothers, World.setThread_pool_self]
  exact Relation.cutExpand_single_add shrinks _

/-- All threads are in these places. -/
def World.Within (W : World I α σ) (places : Finset (κ × ℕ)) : Prop :=
  ∀ k i, W.pool k i ≠ none → (k, i) ∈ places

/-- A label that starts a thread only in one of these places. -/
def Label.Within (ℓ : Label I α) (places : Finset (κ × ℕ)) : Prop :=
  ℓ ≠ .env ∧ ∀ k i p, ℓ = .spawn k i p → (k, i) ∈ places

variable {S : System κ I α σ} {W W' : World I α σ} {ℓ : Label I α} {places : Finset (κ × ℕ)}

theorem World.Within.step (h : W.Within places) (hs : Step S W ℓ W') (hℓ : ℓ.Within places) :
    W'.Within places ∧ Relation.CutExpand Shrinks (W'.left places) (W.left places) := by
  cases hs with
  | @spawn k i p free allowed =>
    have hmem := hℓ.2 k i p rfl
    refine ⟨fun k' i' hne => ?_, W.left_setThread hmem ?_⟩
    · by_cases heq : k' = k ∧ i' = i
      · obtain ⟨rfl, rfl⟩ := heq
        exact hmem
      · rw [World.setThread_pool_of_ne W _ heq] at hne
        exact h k' i' hne
    · rw [free]
      exact .start p
  | @call k i t c f r s thread next answer =>
    have hmem := h k i (by rw [thread]; simp)
    refine ⟨fun k' i' hne => ?_, World.left_setThread ⟨s, W.pool⟩ hmem ?_⟩
    · by_cases heq : k' = k ∧ i' = i
      · obtain ⟨rfl, rfl⟩ := heq
        exact hmem
      · rw [World.setThread_pool_of_ne _ _ heq] at hne
        exact h k' i' hne
    · show Shrinks _ (⟨k, (W.pool k i).map Thread.rest⟩ : Place I α)
      rw [thread, Option.map_some, next]
      exact .call c f r
  | env change => exact absurd rfl hℓ.1

variable (places) in
/-- Steps that start threads only in finitely many places lead to an end. -/
theorem acc_steps {C : World I α σ → Label I α → Prop} (hC : ∀ W ℓ, C W ℓ → ℓ.Within places)
    (h : W.Within places) : Acc (fun W' W => ∃ ℓ, Step S W ℓ W' ∧ C W ℓ) W := by
  have hacc := wellFounded_shrinks.cutExpand.apply (W.left places)
  generalize hleft : W.left places = left at hacc
  induction hacc generalizing W with
  | intro left _ ih =>
    constructor
    rintro W' ⟨ℓ, hs, hℓ⟩
    obtain ⟨hwithin, hcut⟩ := h.step hs (hC W ℓ hℓ)
    exact ih _ (hleft ▸ hcut) hwithin rfl

end

end PasswordHook
