import PasswordHook.Lib.Simulation

/-!
# Machines with a state for each key

A request names a key and works on the state of that key alone.  Over a run, the requests for a key
see what they would see without the others (`runFrom_keyed`).
-/

namespace PasswordHook

variable {κ σ ι ω : Type*} [DecidableEq κ]

/-- The machine, at the state of the key. -/
def keyed (step : σ → ι → σ × ω) (m : κ → σ) (i : κ × ι) : (κ → σ) × ω :=
  let r := step (m i.1) i.2
  (Function.update m i.1 r.1, r.2)

/-- The requests for a key. -/
def requestsFor (k : κ) (is : List (κ × ι)) : List ι := (is.filter fun i => i.1 = k).map Prod.snd

/-- The replies to the requests for a key. -/
def repliesFor (k : κ) (is : List (κ × ι)) (rs : List ω) : List ω :=
  ((is.zip rs).filter fun r => r.1.1 = k).map Prod.snd

/-- The requests for a key beside their replies. -/
theorem zip_requestsFor (k : κ) {is : List (κ × ι)} {rs : List ω} (h : rs.length = is.length) :
    (requestsFor k is).zip (repliesFor k is rs) =
      ((is.zip rs).filter fun r => r.1.1 = k).map fun r => (r.1.2, r.2) := by
  induction is generalizing rs with
  | nil => rfl
  | cons i is ih =>
    cases rs with
    | nil => exact absurd h (by simp)
    | cons r rs =>
      have htail := ih (Nat.succ.inj h)
      by_cases hk : i.1 = k <;> simp_all [requestsFor, repliesFor]

theorem runFrom_keyed (step : σ → ι → σ × ω) (k : κ) (m : κ → σ) (is : List (κ × ι)) :
    (runFrom (keyed step) m is).1 k = (runFrom step (m k) (requestsFor k is)).1 ∧
      repliesFor k is (runFrom (keyed step) m is).2 =
        (runFrom step (m k) (requestsFor k is)).2 := by
  induction is generalizing m with
  | nil => exact ⟨rfl, rfl⟩
  | cons i is ih =>
    obtain ⟨hstate, hreplies⟩ := ih (keyed step m i).1
    rw [runFrom_cons]
    by_cases hk : i.1 = k
    · have hself : (keyed step m i).1 k = (step (m k) i.2).1 := by
        rw [← hk]
        exact Function.update_self _ _ _
      have hreply : (keyed step m i).2 = (step (m k) i.2).2 := by
        rw [← hk]
        rfl
      rw [hself] at hstate hreplies
      have hrequests : requestsFor k (i :: is) = i.2 :: requestsFor k is := by
        simp [requestsFor, hk]
      rw [hrequests, runFrom_cons]
      refine ⟨hstate, ?_⟩
      rw [← hreplies, ← hreply]
      simp [repliesFor, hk]
    · have hother : (keyed step m i).1 k = m k := Function.update_of_ne (Ne.symm hk) _ _
      rw [hother] at hstate hreplies
      have hrequests : requestsFor k (i :: is) = requestsFor k is := by
        simp [requestsFor, hk]
      rw [hrequests]
      refine ⟨hstate, ?_⟩
      rw [← hreplies]
      simp [repliesFor, hk]

end PasswordHook
