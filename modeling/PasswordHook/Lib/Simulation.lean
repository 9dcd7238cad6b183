import Mathlib

/-!
# Machines that answer requests

A machine takes a state and a request to a state and a reply.  When a relation between the states
of two machines is kept by every request, with equal replies, the two give equal replies over whole
runs (`runFrom_simulation`).  The step may assume a condition on the concrete state and the request,
which the run then has to meet at every request (`Along`).
-/

namespace PasswordHook

variable {σ τ ι ω : Type*}

/-- The state after the requests, and the replies to them in order. -/
def runFrom (step : σ → ι → σ × ω) : σ → List ι → σ × List ω
  | s, [] => (s, [])
  | s, i :: is =>
    let r := runFrom step (step s i).1 is
    (r.1, (step s i).2 :: r.2)

@[simp] theorem runFrom_nil (step : σ → ι → σ × ω) (s : σ) : runFrom step s [] = (s, []) := rfl

@[simp] theorem runFrom_cons (step : σ → ι → σ × ω) (s : σ) (i : ι) (is : List ι) :
    runFrom step s (i :: is) =
      ((runFrom step (step s i).1 is).1, (step s i).2 :: (runFrom step (step s i).1 is).2) := rfl

theorem runFrom_map {ι' : Type*} (step : σ → ι → σ × ω) (f : ι' → ι) (s : σ) (is : List ι') :
    runFrom (fun s i => step s (f i)) s is = runFrom step s (is.map f) := by
  induction is generalizing s with
  | nil => rfl
  | cons i is ih => rw [List.map_cons, runFrom_cons, runFrom_cons, ih]

@[simp] theorem length_runFrom (step : σ → ι → σ × ω) (s : σ) (is : List ι) :
    (runFrom step s is).2.length = is.length := by
  induction is generalizing s with
  | nil => rfl
  | cons i is ih => simp [ih]

/-- What every request keeps, a run keeps. -/
theorem runFrom_invariant {step : σ → ι → σ × ω} {I : σ → Prop}
    (hstep : ∀ s i, I s → I (step s i).1) {s : σ} (h : I s) (is : List ι) :
    I (runFrom step s is).1 := by
  induction is generalizing s with
  | nil => exact h
  | cons i is ih => exact ih (hstep s i h)

/-- `C` holds of the state before each request and that request. -/
def Along (step : σ → ι → σ × ω) (C : σ → ι → Prop) (s : σ) (is : List ι) : Prop :=
  ∀ pre i post, is = pre ++ i :: post → C (runFrom step s pre).1 i

theorem along_nil (step : σ → ι → σ × ω) (C : σ → ι → Prop) (s : σ) : Along step C s [] := by
  intro pre i post h
  exact absurd h (by simp)

theorem along_cons_iff {step : σ → ι → σ × ω} {C : σ → ι → Prop} {s : σ} {i : ι} {is : List ι} :
    Along step C s (i :: is) ↔ C s i ∧ Along step C (step s i).1 is := by
  refine ⟨fun h => ⟨h [] i is rfl, fun pre j post e => ?_⟩, fun h pre j post e => ?_⟩
  · exact h (i :: pre) j post (by rw [e, List.cons_append])
  · cases pre with
    | nil =>
      obtain ⟨rfl, rfl⟩ := List.cons.inj e
      exact h.1
    | cons k pre =>
      obtain ⟨rfl, rfl⟩ := List.cons.inj e
      exact h.2 pre j post rfl

theorem Along.mono {step : σ → ι → σ × ω} {C D : σ → ι → Prop} {s : σ} {is : List ι}
    (h : Along step C s is) (hCD : ∀ s i, i ∈ is → C s i → D s i) : Along step D s is := by
  intro pre i post e
  exact hCD _ i (by rw [e]; simp) (h pre i post e)

theorem along_append_iff {step : σ → ι → σ × ω} {C : σ → ι → Prop} {s : σ} {is js : List ι} :
    Along step C s (is ++ js) ↔ Along step C s is ∧ Along step C (runFrom step s is).1 js := by
  induction is generalizing s with
  | nil => exact ⟨fun h => ⟨along_nil step C s, h⟩, fun h => h.2⟩
  | cons i is ih =>
    rw [List.cons_append, along_cons_iff, along_cons_iff, ih, runFrom_cons, and_assoc]

/-- Related states stay related along a run and give the same replies. -/
theorem runFrom_simulation {f : σ → ι → σ × ω} {g : τ → ι → τ × ω} {R : σ → τ → Prop}
    {C : σ → ι → Prop}
    (hstep : ∀ s t i, R s t → C s i → R (f s i).1 (g t i).1 ∧ (f s i).2 = (g t i).2)
    {s : σ} {t : τ} {is : List ι} (h : R s t) (hC : Along f C s is) :
    R (runFrom f s is).1 (runFrom g t is).1 ∧ (runFrom f s is).2 = (runFrom g t is).2 := by
  induction is generalizing s t with
  | nil => exact ⟨h, rfl⟩
  | cons i is ih =>
    obtain ⟨hi, his⟩ := along_cons_iff.1 hC
    obtain ⟨hR, hreply⟩ := hstep s t i h hi
    obtain ⟨hR', hreplies⟩ := ih hR his
    exact ⟨hR', congrArg₂ List.cons hreply hreplies⟩

end PasswordHook
