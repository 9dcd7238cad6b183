import PasswordHook.Lib.Prog

/-!
# Programs that can panic

A `Risky` program ends with a value or with a panic.  A panic ends what follows it (`bind`), but not
deferred calls (`deferring`), and goes on to the caller unless it is recovered (`recovering`).
`watch` runs a program and follows its events with a state, as a wrapper around a collaborator does.
-/

namespace PasswordHook

/-- A program over `I` that returns a value or panics with a value of `P`. -/
def Risky (I : Interface) (P α : Type) : Type := Prog I (Except P α)

namespace Risky

variable {I J : Interface} {P α β : Type}

/-- Go on with a value, but not after a panic. -/
def next (f : α → Risky I P β) : Except P α → Prog I (Except P β)
  | .ok a => f a
  | .error e => .ret (.error e)

instance : Monad (Risky I P) where
  pure a := Prog.ret (.ok a)
  bind p f := Prog.bind p (next f)

/-- A program that does not panic. -/
def safely (p : Prog I α) : Risky I P α := Prog.bind p fun a => .ret (.ok a)

/-- A program that returns its panic. -/
def risk (p : Prog I (Except P α)) : Risky I P α := p

/-- A deferred call is made whether or not there is a panic. -/
def deferring (cleanup : Prog I Unit) (p : Risky I P α) : Risky I P α :=
  Prog.bind p fun r => Prog.bind cleanup fun _ => .ret r

/-- What is done about a panic. -/
def caught (handler : P → Risky I P α) : Except P α → Prog I (Except P α)
  | .ok a => .ret (.ok a)
  | .error e => handler e

/-- A deferred function that recovers. -/
def recovering (handler : P → Risky I P α) (p : Risky I P α) :
    Risky I P α := Prog.bind p (caught handler)

/-- A program over `J`, each call of it made by a risky program. -/
def lift (h : (c : J.Call) → Risky I P (J.Resp c)) : Prog J α → Risky I P α
  | .ret a => Prog.ret (.ok a)
  | .call c k => Prog.bind (h c) (next fun r => lift h (k r))

/-! ## Complete runs -/

/-- Answered as in the trace, the program has ended with the value or the panic. -/
def Runs (p : Risky I P α) (τ : List (Event I)) (r : Except P α) : Prop := Prog.Exec p τ r

variable {p : Risky I P α} {f : α → Risky I P β} {τ : List (Event I)} {r : Except P α}

theorem runs_pure_iff {a : α} : Runs (pure a : Risky I P α) τ r ↔ τ = [] ∧ .ok a = r :=
  Prog.exec_ret_iff

theorem runs_bind {r : Except P β} (h : Runs (p >>= f) τ r) :
    (∃ e, r = .error e ∧ p.Runs τ (.error e)) ∨
      ∃ a τ₁ τ₂, τ = τ₁ ++ τ₂ ∧ p.Runs τ₁ (.ok a) ∧ (f a).Runs τ₂ r := by
  obtain ⟨r₁, τ₁, τ₂, rfl, h₁, h₂⟩ := Prog.exec_bind_iff.1 h
  cases r₁ with
  | ok a => exact .inr ⟨a, τ₁, τ₂, rfl, h₁, h₂⟩
  | error e =>
    obtain ⟨rfl, rfl⟩ := Prog.exec_ret_iff.1 h₂
    exact .inl ⟨e, rfl, by rwa [List.append_nil]⟩

theorem runs_safely {p : Prog I α} (h : Runs (safely p : Risky I P α) τ r) :
    ∃ a, r = .ok a ∧ Prog.Exec p τ a := by
  obtain ⟨a, τ₁, τ₂, rfl, h₁, h₂⟩ := Prog.exec_bind_iff.1 h
  obtain ⟨rfl, rfl⟩ := Prog.exec_ret_iff.1 h₂
  exact ⟨a, rfl, by rwa [List.append_nil]⟩

theorem runs_safely_call {c : I.Call} {f : I.Resp c → Risky I P β} {r : Except P β}
    (h : Runs (safely (Prog.perform c) >>= f) τ r) :
    ∃ a rest, τ = ⟨c, a⟩ :: rest ∧ (f a).Runs rest r :=
  Prog.exec_call_iff.1 h

theorem runs_deferring {cleanup : Prog I Unit} (h : Runs (deferring cleanup p) τ r) :
    ∃ τ₁ τ₂, τ = τ₁ ++ τ₂ ∧ p.Runs τ₁ r ∧ Prog.Exec cleanup τ₂ () := by
  obtain ⟨r₁, τ₁, τ₂, rfl, h₁, h₂⟩ := Prog.exec_bind_iff.1 h
  obtain ⟨u, τ₃, τ₄, rfl, h₃, h₄⟩ := Prog.exec_bind_iff.1 h₂
  obtain ⟨rfl, rfl⟩ := Prog.exec_ret_iff.1 h₄
  exact ⟨τ₁, τ₃, by rw [List.append_nil], h₁, h₃⟩

theorem runs_recovering {handler : P → Risky I P α} (h : Runs (recovering handler p) τ r) :
    (∃ a, r = .ok a ∧ p.Runs τ (.ok a)) ∨
      ∃ e τ₁ τ₂, τ = τ₁ ++ τ₂ ∧ p.Runs τ₁ (.error e) ∧ (handler e).Runs τ₂ r := by
  obtain ⟨r₁, τ₁, τ₂, rfl, h₁, h₂⟩ := Prog.exec_bind_iff.1 h
  cases r₁ with
  | error e => exact .inr ⟨e, τ₁, τ₂, rfl, h₁, h₂⟩
  | ok a =>
    obtain ⟨rfl, rfl⟩ := Prog.exec_ret_iff.1 h₂
    exact .inl ⟨a, rfl, by rwa [List.append_nil]⟩

/-- A trace of a lifted program is made of the traces of its calls; the last of them may panic. -/
inductive Lifts (h : (c : J.Call) → Risky I P (J.Resp c)) : List (Event J) → List (Event I) → Prop
  | nil : Lifts h [] []
  | cons {c : J.Call} {r : J.Resp c} {σ τ' : List (Event I)} {τ : List (Event J)}
      (run : (h c).Runs σ (.ok r)) (rest : Lifts h τ τ') : Lifts h (⟨c, r⟩ :: τ) (σ ++ τ')

theorem runs_lift {h : (c : J.Call) → Risky I P (J.Resp c)} {q : Prog J α}
    (run : Runs (lift h q) τ r) :
    (∃ a τ', r = .ok a ∧ Prog.Exec q τ' a ∧ Lifts h τ' τ) ∨
      ∃ e τ' c k τ₁ τ₂, r = .error e ∧ τ = τ₁ ++ τ₂ ∧ Prog.Steps q τ' (.call c k) ∧ Lifts h τ' τ₁ ∧
        (h c).Runs τ₂ (.error e) := by
  induction q generalizing τ with
  | ret a =>
    obtain ⟨rfl, rfl⟩ := Prog.exec_ret_iff.1 run
    exact .inl ⟨a, [], rfl, .refl _, .nil⟩
  | call c k ih =>
    rcases runs_bind run with ⟨e, rfl, hpanic⟩ | ⟨a, τ₁, τ₂, rfl, hcall, hrest⟩
    · exact .inr ⟨e, [], c, k, [], τ, rfl, rfl, .refl _, .nil, hpanic⟩
    · rcases ih a hrest with ⟨b, τ', rfl, hexec, hlifts⟩ |
        ⟨e, τ', c', k', τ₃, τ₄, rfl, rfl, hsteps, hlifts, hpanic⟩
      · exact .inl ⟨b, ⟨c, a⟩ :: τ', rfl, .call c k a hexec, .cons hcall hlifts⟩
      · exact .inr ⟨e, ⟨c, a⟩ :: τ', c', k', τ₁ ++ τ₃, τ₄, rfl, by rw [List.append_assoc],
          .call c k a hsteps, .cons hcall hlifts, hpanic⟩

/-! ## Calls -/

/-- Every call that the program can make is one of these. -/
def Only (C : I.Call → Prop) (p : Risky I P α) : Prop := Prog.Only C p

section

variable {C : I.Call → Prop}

theorem only_pure (a : α) : Only C (pure a : Risky I P α) := trivial

theorem Only.bind (hp : p.Only C) (hf : ∀ a, (f a).Only C) : Only C (p >>= f) :=
  Prog.Only.bind hp fun r => by
    cases r with
    | ok a => exact hf a
    | error e => trivial

theorem only_safely {q : Prog I α} (h : Prog.Only C q) : Only C (safely q : Risky I P α) :=
  Prog.Only.bind h fun _ => trivial

theorem Only.deferring {cleanup : Prog I Unit} (hp : p.Only C) (hcleanup : Prog.Only C cleanup) :
    Only C (deferring cleanup p) :=
  Prog.Only.bind hp fun _ => Prog.Only.bind hcleanup fun _ => trivial

theorem Only.recovering {handler : P → Risky I P α} (hp : p.Only C)
    (hhandler : ∀ e, (handler e).Only C) :
    Only C (recovering handler p) :=
  Prog.Only.bind hp fun r => by
    cases r with
    | ok a => trivial
    | error e => exact hhandler e

theorem only_lift {D : J.Call → Prop} {h : (c : J.Call) → Risky I P (J.Resp c)}
    (hC : ∀ c, D c → (h c).Only C) {q : Prog J α} (hq : q.Only D) : (lift h q).Only C := by
  induction q with
  | ret a => trivial
  | call c k ih => exact (hC c hq.1).bind fun r => ih r (hq.2 r)

theorem Only.runs (hp : p.Only C) (h : p.Runs τ r) : ∀ e ∈ τ, C e.call := (Prog.Only.steps hp h).1

end

end Risky

/-! ## Watching -/

namespace Prog

variable {I : Interface} {α σ : Type}

/-- The program with a state that follows its events. -/
def watch (f : σ → Event I → σ) : σ → Prog I α → Prog I (σ × α)
  | s, .ret a => .ret (s, a)
  | s, .call c k => .call c fun r => (k r).watch f (f s ⟨c, r⟩)

theorem Only.watch {C : I.Call → Prop} {p : Prog I α} (h : p.Only C) (f : σ → Event I → σ) (s : σ) :
    (p.watch f s).Only C := by
  induction p generalizing s with
  | ret a => trivial
  | call c k ih => exact ⟨h.1, fun r => ih r (h.2 r) _⟩

theorem exec_watch {f : σ → Event I → σ} {s s' : σ} {p : Prog I α} {τ : List (Event I)} {a : α}
    (h : Exec (p.watch f s) τ (s', a)) : Exec p τ a ∧ s' = τ.foldl f s := by
  induction p generalizing s τ with
  | ret b =>
    obtain ⟨rfl, hpair⟩ := exec_ret_iff.1 h
    obtain ⟨rfl, rfl⟩ := Prod.mk.inj hpair
    exact ⟨.refl _, rfl⟩
  | call c k ih =>
    obtain ⟨r, τ', rfl, h'⟩ := exec_call_iff.1 h
    obtain ⟨hexec, hstate⟩ := ih r h'
    exact ⟨.call c k r hexec, hstate⟩

end Prog

namespace Risky

variable {I : Interface} {P α σ : Type}

/-- The state that has followed the events of the program, unless it panicked. -/
def watched (r : σ × Except P α) : Prog I (Except P σ) :=
  match r.2 with
  | .ok _ => .ret (.ok r.1)
  | .error e => .ret (.error e)

/-- Run a program and return the state that has followed its events. -/
def watching (f : σ → Event I → σ) (s : σ) (p : Risky I P α) : Risky I P σ :=
  Prog.bind (Prog.watch f s p) watched

theorem Only.watching {C : I.Call → Prop} {p : Risky I P α} (hp : p.Only C)
    (f : σ → Event I → σ) (s : σ) :
    Only C (watching f s p) :=
  Prog.Only.bind (Prog.Only.watch hp f s) fun r => by
    obtain ⟨s', r⟩ := r
    cases r <;> trivial

theorem runs_watching {f : σ → Event I → σ} {s : σ} {p : Risky I P α} {τ : List (Event I)}
    {r : Except P σ} (h : Runs (watching f s p) τ r) :
    (∃ e, r = .error e ∧ p.Runs τ (.error e)) ∨ ∃ a, r = .ok (τ.foldl f s) ∧ p.Runs τ (.ok a) := by
  obtain ⟨⟨s', r'⟩, τ₁, τ₂, rfl, h₁, h₂⟩ := Prog.exec_bind_iff.1 h
  obtain ⟨hexec, rfl⟩ := Prog.exec_watch h₁
  cases r' with
  | error e =>
    obtain ⟨rfl, rfl⟩ := Prog.exec_ret_iff.1 h₂
    exact .inl ⟨e, rfl, by rwa [List.append_nil]⟩
  | ok a =>
    obtain ⟨rfl, rfl⟩ := Prog.exec_ret_iff.1 h₂
    exact .inr ⟨a, by rw [List.append_nil], by rwa [List.append_nil]⟩

end Risky

end PasswordHook
