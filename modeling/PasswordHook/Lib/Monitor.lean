import PasswordHook.Lib.Prog

/-!
# Monitors

A monitor reads the events of a program one after the other.  `Tracked M Q p s` says that the
program `p`, started when the monitor `M` is in the state `s`, keeps the invariant of the monitor
after every event, and returns with `Q`, whatever answers it gets among those that are assumed.  It
is composed along the program (`tracked_bind_iff`) and holds of every run (`Tracked.steps`,
`Tracked.exec`).
-/

namespace PasswordHook

/-- A state that follows the events, the answers that are assumed, and what is to hold after each
event. -/
structure Monitor (I : Interface) (σ : Type) where
  next : σ → Event I → σ
  assumes : Event I → Prop
  inv : σ → Prop

namespace Prog

variable {I J : Interface} {α β σ : Type} {M : Monitor I σ} {N : Monitor J σ}

/-- From the state on, the program keeps the invariant of the monitor and returns with `Q`. -/
def Tracked (M : Monitor I σ) (Q : α → σ → Prop) : Prog I α → σ → Prop
  | .ret a, s => Q a s
  | .call c k, s =>
    ∀ r, M.assumes ⟨c, r⟩ → M.inv (M.next s ⟨c, r⟩) ∧ (k r).Tracked M Q (M.next s ⟨c, r⟩)

theorem tracked_call_iff {Q : α → σ → Prop} {c : I.Call} {k : I.Resp c → Prog I α} {s : σ} :
    (Prog.call c k).Tracked M Q s ↔
      ∀ r, M.assumes ⟨c, r⟩ → M.inv (M.next s ⟨c, r⟩) ∧ (k r).Tracked M Q (M.next s ⟨c, r⟩) :=
  Iff.rfl

theorem tracked_bind_iff {Q : β → σ → Prop} {p : Prog I α} {f : α → Prog I β} {s : σ} :
    (p.bind f).Tracked M Q s ↔ p.Tracked M (fun a s => (f a).Tracked M Q s) s := by
  induction p generalizing s with
  | ret a => exact Iff.rfl
  | call c k ih => exact forall₂_congr fun r _ => and_congr_right fun _ => ih r

theorem Tracked.mono {Q Q' : α → σ → Prop} {p : Prog I α} {s : σ} (h : p.Tracked M Q s)
    (hQ : ∀ a s, Q a s → Q' a s) : p.Tracked M Q' s := by
  induction p generalizing s with
  | ret a => exact hQ a s h
  | call c k ih => exact fun r assumed => ⟨(h r assumed).1, ih r (h r assumed).2⟩

/-- Along a run the invariant is kept and what is left of the program is tracked. -/
theorem Tracked.steps {Q : α → σ → Prop} {p q : Prog I α} {τ : List (Event I)} {s : σ}
    (h : p.Tracked M Q s) (hinv : M.inv s) (run : Steps p τ q) (assumed : ∀ e ∈ τ, M.assumes e) :
    M.inv (τ.foldl M.next s) ∧ q.Tracked M Q (τ.foldl M.next s) := by
  induction run generalizing s with
  | refl p => exact ⟨hinv, h⟩
  | call c k r run ih =>
    obtain ⟨hfirst, hrest⟩ := List.forall_mem_cons.1 assumed
    obtain ⟨hnext, hk⟩ := h r hfirst
    exact ih hk hnext hrest

theorem Tracked.exec {Q : α → σ → Prop} {p : Prog I α} {τ : List (Event I)} {a : α} {s : σ}
    (h : p.Tracked M Q s) (hinv : M.inv s) (run : Exec p τ a) (assumed : ∀ e ∈ τ, M.assumes e) :
    Q a (τ.foldl M.next s) :=
  (h.steps hinv run assumed).2

/-- Calls may be replaced by programs that do for the monitor what the calls did. -/
theorem Tracked.interp {h : (c : I.Call) → Prog J (I.Resp c)} {Q : α → σ → Prop}
    {p : Prog I α} {s : σ} (hp : p.Tracked M Q s)
    (hcall : ∀ c s (R : I.Resp c → σ → Prop),
      (∀ r, M.assumes ⟨c, r⟩ → M.inv (M.next s ⟨c, r⟩) ∧ R r (M.next s ⟨c, r⟩)) →
        (h c).Tracked N R s) :
    (p.interp h).Tracked N Q s := by
  induction p generalizing s with
  | ret a => exact hp
  | call c k ih =>
    rw [Prog.interp, tracked_bind_iff]
    exact hcall c s _ fun r assumed => ⟨(hp r assumed).1, ih r (hp r assumed).2⟩

end Prog

end PasswordHook
