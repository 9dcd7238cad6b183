import PasswordHook.Lib.Prog

/-!
# Two runs that look the same

An observer of a program sees part of its calls, `shows`, and the environment lets part of the
answers be known, `tells`.  Two programs are in *lockstep* if they make calls that show the same as
long as they are told the same, and return related results; their complete runs then show the same
and end in related results (`Lockstep.shown_eq`).  What the programs hold apart from that, and what
the answers do not tell, is not seen.
-/

namespace PasswordHook

namespace Prog

variable {I : Interface} {α β O A : Type} (shows : I.Call → Option O) (tells : Event I → Option A)

/-- What the calls of a trace show. -/
def shown (τ : List (Event I)) : List O := τ.filterMap fun e => shows e.call

/-- What the answers of a trace tell. -/
def told (τ : List (Event I)) : List A := τ.filterMap tells

theorem shown_append (τ τ' : List (Event I)) :
    shown shows (τ ++ τ') = shown shows τ ++ shown shows τ' := List.filterMap_append

theorem told_append (τ τ' : List (Event I)) :
    told tells (τ ++ τ') = told tells τ ++ told tells τ' := List.filterMap_append

theorem shown_eq_nil {τ : List (Event I)} (h : ∀ e ∈ τ, shows e.call = none) :
    shown shows τ = [] := List.filterMap_eq_nil_iff.2 h

theorem told_eq_nil {τ : List (Event I)} (h : ∀ e ∈ τ, tells e = none) : told tells τ = [] :=
  List.filterMap_eq_nil_iff.2 h

/-- The programs make calls that show the same while they are told the same, apart from calls that
neither show nor tell anything, and return related results. -/
inductive Lockstep (R : α → β → Prop) : Prog I α → Prog I β → Prop
  | ret {a : α} {b : β} (related : R a b) : Lockstep R (.ret a) (.ret b)
  | call {c c' : I.Call} {k : I.Resp c → Prog I α} {k' : I.Resp c' → Prog I β}
      (shown : shows c = shows c')
      (both : ∀ r r', (tells ⟨c, r⟩).isSome = (tells ⟨c', r'⟩).isSome)
      (rest : ∀ r r', tells ⟨c, r⟩ = tells ⟨c', r'⟩ → Lockstep R (k r) (k' r')) :
      Lockstep R (.call c k) (.call c' k')
  | left {c : I.Call} {k : I.Resp c → Prog I α} {p' : Prog I β} (hidden : shows c = none)
      (mute : ∀ r, tells ⟨c, r⟩ = none) (rest : ∀ r, Lockstep R (k r) p') :
      Lockstep R (.call c k) p'
  | right {p : Prog I α} {c : I.Call} {k : I.Resp c → Prog I β} (hidden : shows c = none)
      (mute : ∀ r, tells ⟨c, r⟩ = none) (rest : ∀ r, Lockstep R p (k r)) :
      Lockstep R p (.call c k)

variable {shows tells}

theorem shown_cons (e : Event I) (τ : List (Event I)) :
    shown shows (e :: τ) = (shows e.call).toList ++ shown shows τ := by
  unfold shown
  cases h : shows e.call <;> simp [h]

theorem told_cons (e : Event I) (τ : List (Event I)) :
    told tells (e :: τ) = (tells e).toList ++ told tells τ := by
  unfold told
  cases h : tells e <;> simp [h]

/-- Heads that are told together or not at all can be taken off. -/
theorem told_cons_inj {e e' : Event I} {τ τ' : List (Event I)}
    (both : (tells e).isSome = (tells e').isSome)
    (same : told tells (e :: τ) = told tells (e' :: τ')) :
    tells e = tells e' ∧ told tells τ = told tells τ' := by
  rw [told_cons, told_cons] at same
  cases he : tells e with
  | none =>
    cases he' : tells e' with
    | none => simpa [he, he'] using same
    | some x' => simp [he, he'] at both
  | some x =>
    cases he' : tells e' with
    | none => simp [he, he'] at both
    | some x' => simpa [he, he'] using same

/-- Runs in lockstep that are told the same show the same and return related results. -/
theorem Lockstep.shown_eq {R : α → β → Prop} {p : Prog I α} {p' : Prog I β}
    (h : Lockstep shows tells R p p') {τ τ' : List (Event I)} {a : α} {b : β} (run : Exec p τ a)
    (run' : Exec p' τ' b) (same : told tells τ = told tells τ') :
    shown shows τ = shown shows τ' ∧ R a b := by
  induction h generalizing τ τ' with
  | ret related =>
    obtain ⟨rfl, rfl⟩ := exec_ret_iff.1 run
    obtain ⟨rfl, rfl⟩ := exec_ret_iff.1 run'
    exact ⟨rfl, related⟩
  | call hshown both rest ih =>
    obtain ⟨r, τ₁, rfl, hk⟩ := exec_call_iff.1 run
    obtain ⟨r', τ₁', rfl, hk'⟩ := exec_call_iff.1 run'
    obtain ⟨hhead, htail⟩ := told_cons_inj (both r r') same
    obtain ⟨hrest, hresult⟩ := ih r r' hhead hk hk' htail
    rw [shown_cons, shown_cons, hshown, hrest]
    exact ⟨rfl, hresult⟩
  | left hidden mute rest ih =>
    obtain ⟨r, τ₁, rfl, hk⟩ := exec_call_iff.1 run
    rw [told_cons, mute r] at same
    rw [shown_cons, hidden]
    exact ih r hk run' same
  | right hidden mute rest ih =>
    obtain ⟨r, τ₁', rfl, hk'⟩ := exec_call_iff.1 run'
    rw [told_cons, mute r] at same
    rw [shown_cons, hidden]
    exact ih r run hk' same

theorem Lockstep.bind {γ δ : Type} {R : α → β → Prop} {S : γ → δ → Prop} {p : Prog I α}
    {p' : Prog I β} {f : α → Prog I γ} {f' : β → Prog I δ} (h : Lockstep shows tells R p p')
    (hf : ∀ a b, R a b → Lockstep shows tells S (f a) (f' b)) :
    Lockstep shows tells S (p.bind f) (p'.bind f') := by
  induction h with
  | ret related => exact hf _ _ related
  | call hshown both rest ih => exact .call hshown both ih
  | left hidden mute rest ih => exact .left hidden mute ih
  | right hidden mute rest ih => exact .right hidden mute ih

theorem Lockstep.ite {R : α → β → Prop} {c : Prop} [Decidable c] {p q : Prog I α} {p' q' : Prog I β}
    (hp : Lockstep shows tells R p p') (hq : Lockstep shows tells R q q') :
    Lockstep shows tells R (if c then p else q) (if c then p' else q') := by
  split_ifs
  · exact hp
  · exact hq

end Prog

end PasswordHook
