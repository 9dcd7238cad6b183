import Mathlib

/-!
# Registers that keep the greatest write

A register holds at most one value.  A value offered to it replaces the held one only if its rank
is strictly greater.  Whatever the order in which values are offered, the rank held in the end is
the maximum of the ranks offered, so two orders of the same offers end with the same rank.
-/

namespace PasswordHook

namespace Register

variable {V κ : Type} (rank : V → κ)

/-- The rank a register holds, `⊥` when it is empty. -/
def held (cur : Option V) : WithBot κ :=
  match cur with
  | none => ⊥
  | some u => rank u

@[simp] theorem held_none : held rank none = ⊥ := rfl

@[simp] theorem held_some (u : V) : held rank (some u) = rank u := rfl

theorem held_eq_bot_iff {cur : Option V} : held rank cur = ⊥ ↔ cur = none := by
  cases cur <;> simp

variable [LinearOrder κ]

/-- Offer the value `v` to the register `cur`. -/
def offer (cur : Option V) (v : V) : Option V :=
  match cur with
  | none => some v
  | some u => if rank v ≤ rank u then some u else some v

variable {rank}

/-- An offer that does not raise the rank changes nothing. -/
theorem offer_of_le {cur : Option V} {v : V} (h : (rank v : WithBot κ) ≤ held rank cur) :
    offer rank cur v = cur := by
  cases cur with
  | none => simp at h
  | some u => rw [offer, if_pos (WithBot.coe_le_coe.1 h)]

theorem offer_of_lt {cur : Option V} {v : V} (h : held rank cur < rank v) :
    offer rank cur v = some v := by
  cases cur with
  | none => rfl
  | some u => rw [offer, if_neg (not_le.2 (WithBot.coe_lt_coe.1 h))]

/-- What the register holds after an offer was held before or offered. -/
theorem offer_eq_some {cur : Option V} {u v : V} (h : offer rank cur v = some u) :
    cur = some u ∨ (u = v ∧ held rank cur < rank v) := by
  rcases le_or_gt (rank v : WithBot κ) (held rank cur) with hv | hv
  · rw [offer_of_le hv] at h
    exact .inl h
  · rw [offer_of_lt hv, Option.some.injEq] at h
    exact .inr ⟨h.symm, hv⟩

theorem held_offer (cur : Option V) (v : V) :
    held rank (offer rank cur v) = max (held rank cur) (rank v) := by
  rcases le_or_gt (rank v : WithBot κ) (held rank cur) with h | h
  · rw [offer_of_le h, max_eq_left h]
  · rw [offer_of_lt h, max_eq_right h.le, held_some]

/-- After any offers the register holds the maximum of the ranks. -/
theorem held_foldl_offer (cur : Option V) (vs : List V) :
    held rank (vs.foldl (offer rank) cur) = max (held rank cur) (vs.map rank).maximum := by
  induction vs generalizing cur with
  | nil => simp
  | cons v vs ih =>
    rw [List.foldl_cons, ih, held_offer, List.map_cons, List.maximum_cons, max_assoc]

/-- What the register holds in the end was held before or offered. -/
theorem mem_of_foldl_offer {cur : Option V} {vs : List V} {u : V}
    (h : vs.foldl (offer rank) cur = some u) : cur = some u ∨ u ∈ vs := by
  induction vs generalizing cur with
  | nil => exact .inl h
  | cons v vs ih =>
    rcases ih h with h | h
    · rcases offer_eq_some h with h | ⟨rfl, -⟩
      · exact .inl h
      · exact .inr List.mem_cons_self
    · exact .inr (List.mem_cons_of_mem _ h)

end Register

end PasswordHook
