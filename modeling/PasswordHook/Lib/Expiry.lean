import Mathlib

/-!
# Maps whose entries expire

A map remembers for each key when it was claimed.  A claim first sweeps out the entries that are no
longer live and then succeeds if the key is not there.  An entry that has died stays dead, so a
sweep changes nothing that a later claim can see: two maps that are alike after a sweep are alike
from then on (`Alike.later`), and a claim that fails leaves a map alike to the one it found.
-/

namespace PasswordHook

namespace Expiry

variable {κ τ : Type} (live : τ → τ → Bool)

/-- The entries that are live at `now`. -/
def sweep (now : τ) (m : κ → Option τ) : κ → Option τ := fun k => (m k).filter (live now)

/-- Claim the key at `now`, with whether that succeeds. -/
def claim [DecidableEq κ] (m : κ → Option τ) (now : τ) (k : κ) : (κ → Option τ) × Bool :=
  if (sweep live now m k).isSome then (sweep live now m, false)
  else (Function.update (sweep live now m) k (some now), true)

/-- Nobody can tell the maps apart at `now`. -/
def Alike (now : τ) (m m' : κ → Option τ) : Prop := sweep live now m = sweep live now m'

variable {live} {now now' seen : τ} {m m' : κ → Option τ} {k : κ}

theorem sweep_eq_some {t : τ} : sweep live now m k = some t ↔ m k = some t ∧ live now t = true := by
  rw [sweep, Option.filter_eq_some_iff]

theorem Alike.refl (m : κ → Option τ) : Alike live now m m := rfl

theorem Alike.trans {m'' : κ → Option τ} (h : Alike live now m m') (h' : Alike live now m' m'') :
    Alike live now m m'' := Eq.trans h h'

section Claim

variable [DecidableEq κ]

/-- A claim sees no more of a map than its live entries. -/
theorem Alike.claim_eq (h : Alike live now m m') (k : κ) :
    claim live m now k = claim live m' now k := by
  unfold claim
  rw [show sweep live now m = sweep live now m' from h]

/-- A claim fails exactly if the key is there and live. -/
theorem claim_snd_eq_false :
    (claim live m now k).2 = false ↔ ∃ t, m k = some t ∧ live now t = true := by
  have hsome : (sweep live now m k).isSome = true ↔ ∃ t, m k = some t ∧ live now t = true := by
    rw [Option.isSome_iff_exists]
    simp only [sweep_eq_some]
  rw [← hsome, claim]
  split_ifs with h
  · simp [h]
  · simp [h]

theorem claim_of_failed (h : (claim live m now k).2 = false) :
    (claim live m now k).1 = sweep live now m := by
  unfold claim at h ⊢
  split_ifs at h ⊢
  rfl

theorem claim_of_succeeded (h : (claim live m now k).2 = true) :
    (claim live m now k).1 = Function.update (sweep live now m) k (some now) := by
  unfold claim at h ⊢
  split_ifs at h ⊢
  rfl

end Claim

section Aging

variable [Preorder τ]

variable (live) in
/-- What is live later is live before. -/
def Aging : Prop := ∀ ⦃now now' seen : τ⦄, now ≤ now' → live now' seen = true → live now seen = true

variable (aging : Aging live)

include aging

/-- A sweep takes nothing that a later one would leave. -/
theorem sweep_sweep (h : now ≤ now') (m : κ → Option τ) :
    sweep live now' (sweep live now m) = sweep live now' m := by
  funext k
  unfold sweep
  rw [Option.filter_filter]
  congr 1
  funext t
  cases hl : live now' t with
  | false => simp
  | true => simp [aging h hl]

theorem Alike.later (h : Alike live now m m') (hle : now ≤ now') : Alike live now' m m' := by
  unfold Alike at h ⊢
  rw [← sweep_sweep aging hle m, h, sweep_sweep aging hle]

/-- A claim that fails changes nothing that can be seen from then on. -/
theorem alike_claim_of_failed [DecidableEq κ] (h : (claim live m now k).2 = false) :
    Alike live now (claim live m now k).1 m := by
  unfold Alike
  rw [claim_of_failed h, sweep_sweep aging le_rfl]

end Aging

end Expiry

end PasswordHook
