import PasswordHook.Lib.Panic

/-!
# What a run shows

Each event shows a list of observations, and a run shows those of its events in order.  `Sees w p Q`
says that every complete run of `p` ends with a result and observations that satisfy `Q`; there is a
rule for each way to build a program that can panic.
-/

namespace PasswordHook

namespace Risky

variable {I J : Interface} {P α β O : Type}

/-- Every complete run satisfies `Q`, by what it ends with and what it shows. -/
def Sees (w : Event I → List O) (p : Risky I P α) (Q : Except P α → List O → Prop) : Prop :=
  ∀ τ r, p.Runs τ r → Q r (τ.flatMap w)

section Rules

variable {w : Event I → List O} {p : Risky I P α} {Q Q' : Except P α → List O → Prop}

theorem Sees.mono (h : Sees w p Q) (hQ : ∀ r o, Q r o → Q' r o) : Sees w p Q' :=
  fun τ r run => hQ r _ (h τ r run)

theorem sees_pure {a : α} (h : Q (.ok a) []) : Sees w (pure a) Q := by
  rintro τ r run
  obtain ⟨rfl, rfl⟩ := runs_pure_iff.1 run
  exact h

/-- One call, whose answer is or gives the result. -/
theorem sees_call {c : I.Call} {g : I.Resp c → Except P α} (h : ∀ r, Q (g r) (w ⟨c, r⟩)) :
    Sees w (Prog.call c fun r => .ret (g r) : Prog I (Except P α)) Q := by
  intro τ r run
  obtain ⟨a, τ', rfl, hret⟩ := Prog.exec_call_iff.1 run
  obtain ⟨rfl, rfl⟩ := Prog.exec_ret_iff.1 hret
  rw [List.flatMap_cons, List.flatMap_nil, List.append_nil]
  exact h a

theorem Sees.bind {f : α → Risky I P β} {Q' : Except P β → List O → Prop} (hp : Sees w p Q)
    (herror : ∀ e o, Q (.error e) o → Q' (.error e) o)
    (hok : ∀ a o, Q (.ok a) o → Sees w (f a) fun r o' => Q' r (o ++ o')) : Sees w (p >>= f) Q' := by
  intro τ r run
  rcases runs_bind run with ⟨e, rfl, hpanic⟩ | ⟨a, τ₁, τ₂, rfl, hfirst, hrest⟩
  · exact herror e _ (hp τ _ hpanic)
  · rw [List.flatMap_append]
    exact hok a _ (hp τ₁ _ hfirst) τ₂ r hrest

/-- A deferred call that shows nothing. -/
theorem Sees.deferring {cleanup : Prog I Unit} (hp : Sees w p Q)
    (hcleanup : cleanup.Only fun c => ∀ r, w ⟨c, r⟩ = []) : Sees w (deferring cleanup p) Q := by
  intro τ r run
  obtain ⟨τ₁, τ₂, rfl, hrun, hdone⟩ := runs_deferring run
  have hsilent : τ₂.flatMap w = [] :=
    List.flatMap_eq_nil_iff.2 fun e he => (hcleanup.steps hdone).1 e he e.resp
  rw [List.flatMap_append, hsilent, List.append_nil]
  exact hp τ₁ r hrun

theorem Sees.recovering {handler : P → Risky I P α} (hp : Sees w p Q)
    (hok : ∀ a o, Q (.ok a) o → Q' (.ok a) o)
    (hhandler : ∀ e o, Q (.error e) o → Sees w (handler e) fun r o' => Q' r (o ++ o')) :
    Sees w (recovering handler p) Q' := by
  intro τ r run
  rcases runs_recovering run with ⟨a, rfl, hrun⟩ | ⟨e, τ₁, τ₂, rfl, hpanic, hrun⟩
  · exact hok a _ (hp τ _ hrun)
  · rw [List.flatMap_append]
    exact hhandler e _ (hp τ₁ _ hpanic) τ₂ r hrun

/-- A state that follows what is shown. -/
theorem Sees.watching {σ : Type} {f : σ → Event I → σ} {g : σ → O → σ}
    {Q' : Except P σ → List O → Prop} (hf : ∀ s e, f s e = (w e).foldl g s) (s : σ)
    (hp : Sees w p Q) (herror : ∀ e o, Q (.error e) o → Q' (.error e) o)
    (hok : ∀ a o, Q (.ok a) o → Q' (.ok (o.foldl g s)) o) : Sees w (watching f s p) Q' := by
  have hfold : ∀ (τ : List (Event I)) (s : σ), τ.foldl f s = (τ.flatMap w).foldl g s := by
    intro τ
    induction τ with
    | nil => exact fun s => rfl
    | cons e τ ih =>
      intro s
      rw [List.foldl_cons, List.flatMap_cons, List.foldl_append, ih, hf]
  intro τ r run
  rcases runs_watching run with ⟨e, rfl, hpanic⟩ | ⟨a, rfl, hrun⟩
  · exact herror e _ (hp τ _ hpanic)
  · rw [hfold]
    exact hok a _ (hp τ _ hrun)

/-- Calls that show nothing unless they panic. -/
theorem sees_lift {h : (c : J.Call) → Risky I P (J.Resp c)} {B : List O → Prop}
    (hcall : ∀ c, Sees w (h c) fun r o => (∃ a, r = .ok a ∧ o = []) ∨ ∃ e, r = .error e ∧ B o)
    (q : Prog J α) :
    Sees w (lift h q) fun r o => (∃ a, r = .ok a ∧ o = []) ∨ ∃ e, r = .error e ∧ B o := by
  induction q with
  | ret a => exact sees_pure (.inl ⟨a, rfl, rfl⟩)
  | call c k ih =>
    refine (hcall c).bind (fun e o ho => ?_) fun a o ho => ?_
    · obtain ⟨a, ha, -⟩ | ⟨e', he, hB⟩ := ho
      · cases ha
      · cases he
        exact .inr ⟨e, rfl, hB⟩
    · obtain ⟨a', -, rfl⟩ | ⟨e, he, -⟩ := ho
      · exact ih a
      · cases he

end Rules

end Risky

end PasswordHook
