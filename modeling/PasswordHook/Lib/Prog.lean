import Mathlib

/-!
# Programs that call the outside

A program over an interface `I` returns a value or makes a call of `I` and continues with the
answer, so one term holds every branch the program can take.  A *trace* is the list of calls made
so far, each with its answer: `Steps p τ q` says that `p`, answered as in `τ`, has become `q`, and
`Exec p τ a` that it has returned `a`.  Nothing is assumed about the answers, so a statement about
every trace of a program holds whatever its collaborators do.

`Precedes P Q τ` is the ordering property used throughout: every event of `τ` that satisfies `Q`
comes after one that satisfies `P`.
-/

namespace PasswordHook

/-- The calls a program can make, with the type of each answer. -/
structure Interface where
  Call : Type
  Resp : Call → Type

/-- A program over the interface `I` with results in `α`. -/
inductive Prog (I : Interface) (α : Type) where
  | ret (a : α)
  | call (c : I.Call) (k : I.Resp c → Prog I α)

/-- A call together with its answer. -/
structure Event (I : Interface) where
  call : I.Call
  resp : I.Resp call

namespace Prog

variable {I : Interface} {α β γ : Type}

/-- Sequential composition. -/
def bind : Prog I α → (α → Prog I β) → Prog I β
  | .ret a, f => f a
  | .call c k, f => .call c fun r => (k r).bind f

/-- The program that makes one call and returns the answer. -/
def perform (c : I.Call) : Prog I (I.Resp c) := .call c .ret

instance : Monad (Prog I) where
  pure := .ret
  bind := Prog.bind

@[simp] theorem call_bind (c : I.Call) (k : I.Resp c → Prog I α) (f : α → Prog I β) :
    (Prog.call c k).bind f = .call c fun r => (k r).bind f := rfl

theorem bind_assoc (p : Prog I α) (f : α → Prog I β) (g : β → Prog I γ) :
    (p.bind f).bind g = p.bind fun a => (f a).bind g := by
  induction p with
  | ret a => rfl
  | call c k ih => exact congrArg (Prog.call c) (funext ih)

/-! ## Traces -/

/-- Answered as in the trace, the first program has become the second. -/
inductive Steps : Prog I α → List (Event I) → Prog I α → Prop
  | refl (p : Prog I α) : Steps p [] p
  | call (c : I.Call) (k : I.Resp c → Prog I α) (r : I.Resp c) {τ : List (Event I)}
      {q : Prog I α} (h : Steps (k r) τ q) : Steps (.call c k) (⟨c, r⟩ :: τ) q

/-- Answered as in the trace, the program has returned the value. -/
def Exec (p : Prog I α) (τ : List (Event I)) (a : α) : Prop := Steps p τ (.ret a)

theorem steps_ret_iff {a : α} {τ : List (Event I)} {q : Prog I α} :
    Steps (.ret a) τ q ↔ τ = [] ∧ q = .ret a := by
  constructor
  · intro h
    cases h
    exact ⟨rfl, rfl⟩
  · rintro ⟨rfl, rfl⟩
    exact .refl _

theorem exec_ret_iff {a b : α} {τ : List (Event I)} : Exec (.ret a) τ b ↔ τ = [] ∧ a = b := by
  rw [Exec, steps_ret_iff, Prog.ret.injEq, eq_comm (a := b)]

theorem exec_call_iff {c : I.Call} {k : I.Resp c → Prog I α} {τ : List (Event I)} {a : α} :
    Exec (.call c k) τ a ↔ ∃ r τ', τ = ⟨c, r⟩ :: τ' ∧ Exec (k r) τ' a := by
  constructor
  · intro h
    cases h with
    | call c k r h => exact ⟨r, _, rfl, h⟩
  · rintro ⟨r, τ', rfl, h⟩
    exact .call c k r h

theorem Steps.trans {p q s : Prog I α} {τ₁ τ₂ : List (Event I)} (h₁ : Steps p τ₁ q)
    (h₂ : Steps q τ₂ s) : Steps p (τ₁ ++ τ₂) s := by
  induction h₁ with
  | refl p => exact h₂
  | call c k r h ih => exact .call c k r (ih h₂)

theorem Steps.snoc {p : Prog I α} {τ : List (Event I)} {c : I.Call} {k : I.Resp c → Prog I α}
    (h : Steps p τ (.call c k)) (r : I.Resp c) : Steps p (τ ++ [⟨c, r⟩]) (k r) :=
  h.trans (.call c k r (.refl _))

/-- A complete run of a sequence is a complete run of its first part followed by one of its
second. -/
theorem exec_bind_iff {p : Prog I α} {f : α → Prog I β} {τ : List (Event I)} {b : β} :
    Exec (p.bind f) τ b ↔ ∃ a τ₁ τ₂, τ = τ₁ ++ τ₂ ∧ Exec p τ₁ a ∧ Exec (f a) τ₂ b := by
  induction p generalizing τ with
  | ret a =>
    constructor
    · intro h
      exact ⟨a, [], τ, rfl, .refl _, h⟩
    · rintro ⟨a', τ₁, τ₂, rfl, h₁, h₂⟩
      obtain ⟨rfl, rfl⟩ := exec_ret_iff.1 h₁
      exact h₂
  | call c k ih =>
    rw [call_bind, exec_call_iff]
    constructor
    · rintro ⟨r, τ', rfl, h⟩
      obtain ⟨a, τ₁, τ₂, rfl, h₁, h₂⟩ := (ih r).1 h
      exact ⟨a, ⟨c, r⟩ :: τ₁, τ₂, rfl, .call c k r h₁, h₂⟩
    · rintro ⟨a, τ₁, τ₂, rfl, h₁, h₂⟩
      obtain ⟨r, τ', rfl, h⟩ := exec_call_iff.1 h₁
      exact ⟨r, τ' ++ τ₂, rfl, (ih r).2 ⟨a, τ', τ₂, rfl, h, h₂⟩⟩

theorem steps_call_iff {c : I.Call} {k : I.Resp c → Prog I α} {τ : List (Event I)} {q : Prog I α} :
    Steps (.call c k) τ q ↔
      (τ = [] ∧ q = .call c k) ∨ ∃ r τ', τ = ⟨c, r⟩ :: τ' ∧ Steps (k r) τ' q := by
  constructor
  · intro h
    cases h with
    | refl => exact .inl ⟨rfl, rfl⟩
    | call c k r h => exact .inr ⟨r, _, rfl, h⟩
  · rintro (⟨rfl, rfl⟩ | ⟨r, τ', rfl, h⟩)
    · exact .refl _
    · exact .call c k r h

theorem steps_perform_iff {c : I.Call} {τ : List (Event I)} {q : Prog I (I.Resp c)} :
    Steps (perform c) τ q ↔ (τ = [] ∧ q = perform c) ∨ ∃ r, τ = [⟨c, r⟩] ∧ q = .ret r := by
  rw [perform, steps_call_iff]
  apply or_congr_right
  constructor
  · rintro ⟨r, τ', rfl, h⟩
    obtain ⟨rfl, rfl⟩ := steps_ret_iff.1 h
    exact ⟨r, rfl, rfl⟩
  · rintro ⟨r, rfl, rfl⟩
    exact ⟨r, [], rfl, .refl _⟩

/-- A run of a sequence is still in the first part, or it has completed it. -/
theorem steps_bind_iff {p : Prog I α} {f : α → Prog I β} {τ : List (Event I)} {q : Prog I β} :
    Steps (p.bind f) τ q ↔ (∃ p', Steps p τ p' ∧ q = p'.bind f) ∨
      ∃ a τ₁ τ₂, τ = τ₁ ++ τ₂ ∧ Exec p τ₁ a ∧ Steps (f a) τ₂ q := by
  constructor
  · intro h
    induction p generalizing τ with
    | ret a => exact .inr ⟨a, [], τ, rfl, .refl _, h⟩
    | call c k ih =>
      rcases steps_call_iff.1 h with ⟨rfl, rfl⟩ | ⟨r, τ', rfl, hk⟩
      · exact .inl ⟨_, .refl _, rfl⟩
      · rcases ih r hk with ⟨p', h', rfl⟩ | ⟨a, τ₁, τ₂, rfl, h₁, h₂⟩
        · exact .inl ⟨p', .call c k r h', rfl⟩
        · exact .inr ⟨a, ⟨c, r⟩ :: τ₁, τ₂, rfl, .call c k r h₁, h₂⟩
  · rintro (⟨p', h, rfl⟩ | ⟨a, τ₁, τ₂, rfl, h₁, h₂⟩)
    · induction h with
      | refl p => exact .refl _
      | call c k r h ih => exact .call c _ r ih
    · have hfirst : Steps (p.bind f) τ₁ (f a) := by
        unfold Exec at h₁
        generalize hq : Prog.ret a = q₁ at h₁
        induction h₁ with
        | refl p =>
          rw [← hq]
          exact .refl _
        | call c k r h ih => exact .call c _ r (ih hq)
      exact hfirst.trans h₂

/-- Every run can be completed, when every call has some answer. -/
theorem exists_exec (hI : ∀ c, Nonempty (I.Resp c)) (p : Prog I α) : ∃ τ a, Exec p τ a := by
  induction p with
  | ret a => exact ⟨[], a, .refl _⟩
  | call c k ih =>
    obtain ⟨r⟩ := hI c
    obtain ⟨τ, a, h⟩ := ih r
    exact ⟨_, a, .call c k r h⟩

theorem Steps.exists_exec (hI : ∀ c, Nonempty (I.Resp c)) {p q : Prog I α} {τ : List (Event I)}
    (h : Steps p τ q) : ∃ τ' a, Exec p (τ ++ τ') a := by
  obtain ⟨τ', a, h'⟩ := Prog.exists_exec hI q
  exact ⟨τ', a, h.trans h'⟩

/-! ## Implementing one interface by another -/

section Interp

variable {J : Interface}

/-- The program with every call replaced by a program over another interface. -/
def interp (h : (c : I.Call) → Prog J (I.Resp c)) : Prog I α → Prog J α
  | .ret a => .ret a
  | .call c k => (h c).bind fun r => (k r).interp h

/-- A trace over `J` made of one run for each event of a trace over `I`. -/
inductive Implements (h : (c : I.Call) → Prog J (I.Resp c)) : List (Event I) → List (Event J) → Prop
  | nil : Implements h [] []
  | cons {c : I.Call} {r : I.Resp c} {σ τ' : List (Event J)} {τ : List (Event I)}
      (run : Exec (h c) σ r) (rest : Implements h τ τ') : Implements h (⟨c, r⟩ :: τ) (σ ++ τ')

theorem exec_interp {h : (c : I.Call) → Prog J (I.Resp c)} {p : Prog I α} {τ' : List (Event J)}
    {a : α} (hp : Exec (p.interp h) τ' a) : ∃ τ, Exec p τ a ∧ Implements h τ τ' := by
  induction p generalizing τ' with
  | ret b =>
    obtain ⟨rfl, rfl⟩ := exec_ret_iff.1 hp
    exact ⟨[], .refl _, .nil⟩
  | call c k ih =>
    obtain ⟨r, σ, τ₂, rfl, h₁, h₂⟩ := exec_bind_iff.1 hp
    obtain ⟨τ, hk, himpl⟩ := ih r h₂
    exact ⟨⟨c, r⟩ :: τ, .call c k r hk, .cons h₁ himpl⟩

/-- Every event of the implementing trace is part of the run for an event of the other. -/
theorem Implements.exists_run {h : (c : I.Call) → Prog J (I.Resp c)} {τ : List (Event I)}
    {τ' : List (Event J)} (himpl : Implements h τ τ') {e : Event J} (he : e ∈ τ') :
    ∃ e' ∈ τ, ∃ σ, Exec (h e'.call) σ e'.resp ∧ e ∈ σ := by
  induction himpl with
  | nil => exact absurd he List.not_mem_nil
  | cons run rest ih =>
    rcases List.mem_append.1 he with he | he
    · exact ⟨_, List.mem_cons_self, _, run, he⟩
    · obtain ⟨e', he', σ, hσ, hmem⟩ := ih he
      exact ⟨e', List.mem_cons_of_mem _ he', σ, hσ, hmem⟩

end Interp

/-! ## The calls a program makes -/

/-- Every call that the program can make is one of these. -/
def Only (C : I.Call → Prop) : Prog I α → Prop
  | .ret _ => True
  | .call c k => C c ∧ ∀ r, (k r).Only C

section Only

variable {C : I.Call → Prop}

theorem only_perform {c : I.Call} (h : C c) : (perform c).Only C := ⟨h, fun _ => trivial⟩

theorem Only.bind {p : Prog I α} {f : α → Prog I β} (hp : p.Only C) (hf : ∀ a, (f a).Only C) :
    (p.bind f).Only C := by
  induction p with
  | ret a => exact hf a
  | call c k ih => exact ⟨hp.1, fun r => ih r (hp.2 r)⟩

theorem only_true (p : Prog I α) : p.Only fun _ => True := by
  induction p with
  | ret a => trivial
  | call c k ih => exact ⟨trivial, ih⟩

theorem only_interp {J : Interface} {C : J.Call → Prop} {h : (c : I.Call) → Prog J (I.Resp c)}
    (hC : ∀ c, (h c).Only C) (p : Prog I α) : (p.interp h).Only C := by
  induction p with
  | ret a => trivial
  | call c k ih => exact (hC c).bind ih

theorem Only.steps {p q : Prog I α} {τ : List (Event I)} (h : p.Only C) (run : Steps p τ q) :
    (∀ e ∈ τ, C e.call) ∧ q.Only C := by
  induction run with
  | refl p => exact ⟨fun e he => absurd he List.not_mem_nil, h⟩
  | call c k r run ih =>
    obtain ⟨hevents, hrest⟩ := ih (h.2 r)
    exact ⟨List.forall_mem_cons.2 ⟨h.1, hevents⟩, hrest⟩

end Only

/-! ## Running against a state -/

/-- The result of a program whose calls a state answers, with the state it leaves. -/
def runWith {σ : Type} (answer : (c : I.Call) → σ → σ × I.Resp c) : Prog I α → σ → σ × α
  | .ret a, s => (s, a)
  | .call c k, s => (k (answer c s).2).runWith answer (answer c s).1

theorem runWith_bind {σ : Type} (answer : (c : I.Call) → σ → σ × I.Resp c) (p : Prog I α)
    (f : α → Prog I β) (s : σ) :
    (p.bind f).runWith answer s =
      (f (p.runWith answer s).2).runWith answer (p.runWith answer s).1 := by
  induction p generalizing s with
  | ret a => rfl
  | call c k ih => exact ih _ _

/-- The calls of such a run, with their answers. -/
def traceWith {σ : Type} (answer : (c : I.Call) → σ → σ × I.Resp c) :
    Prog I α → σ → List (Event I)
  | .ret _, _ => []
  | .call c k, s => ⟨c, (answer c s).2⟩ :: (k (answer c s).2).traceWith answer (answer c s).1

theorem exec_runWith {σ : Type} (answer : (c : I.Call) → σ → σ × I.Resp c) (p : Prog I α) (s : σ) :
    Exec p (p.traceWith answer s) (p.runWith answer s).2 := by
  induction p generalizing s with
  | ret a => exact .refl _
  | call c k ih => exact .call c k _ (ih _ _)

/-- A run whose calls are all answered by `f` returns what `f` makes of the program. -/
theorem runWith_of_answered {f : (c : I.Call) → I.Resp c} {p : Prog I α}
    {τ : List (Event I)} {a : α} (run : Exec p τ a) (answered : ∀ e ∈ τ, e.resp = f e.call) :
    (p.runWith (fun c (u : Unit) => (u, f c)) ()).2 = a := by
  induction p generalizing τ with
  | ret b => exact (exec_ret_iff.1 run).2
  | call c k ih =>
    obtain ⟨r, τ', rfl, hrest⟩ := exec_call_iff.1 run
    obtain ⟨hr, hrest'⟩ := List.forall_mem_cons.1 answered
    obtain rfl : r = f c := hr
    exact ih _ hrest hrest'

theorem exists_of_mem_traceWith {σ : Type} {answer : (c : I.Call) → σ → σ × I.Resp c} {p : Prog I α}
    {s : σ} {e : Event I} (h : e ∈ p.traceWith answer s) : ∃ s', e.resp = (answer e.call s').2 := by
  induction p generalizing s with
  | ret a => exact absurd h List.not_mem_nil
  | call c k ih =>
    rcases List.mem_cons.1 h with rfl | h
    · exact ⟨s, rfl⟩
    · exact ih _ h

/-- An implementation that is answered by a state answers for the calls it implements. -/
theorem runWith_interp {σ : Type} {J : Interface} (h : (c : I.Call) → Prog J (I.Resp c))
    (answer : (c : J.Call) → σ → σ × J.Resp c) (p : Prog I α) (s : σ) :
    (p.interp h).runWith answer s = p.runWith (fun c => (h c).runWith answer) s := by
  induction p generalizing s with
  | ret a => rfl
  | call c k ih =>
    rw [interp, runWith_bind, ih]
    rfl

end Prog

/-! ## Order of events -/

section Precedes

variable {ε : Type} {P P' Q : ε → Prop}

/-- Every event of the trace that satisfies `Q` comes after one that satisfies `P`. -/
def Precedes (P Q : ε → Prop) (τ : List ε) : Prop :=
  ∀ τ₁ e τ₂, τ = τ₁ ++ e :: τ₂ → Q e → ∃ e' ∈ τ₁, P e'

theorem precedes_of_forall_not {τ : List ε} (h : ∀ e ∈ τ, ¬ Q e) : Precedes P Q τ := by
  rintro τ₁ e τ₂ rfl hQ
  exact absurd hQ (h e (by simp))

theorem Precedes.of_append {τ₁ τ₂ : List ε} (h : Precedes P Q (τ₁ ++ τ₂)) : Precedes P Q τ₁ := by
  rintro σ₁ e σ₂ rfl hQ
  exact h σ₁ e (σ₂ ++ τ₂) (by simp) hQ

/-- A trace whose first part holds a `P` event and no `Q` event is ordered. -/
theorem precedes_append {τ₁ τ₂ : List ε} (h₁ : ∀ e ∈ τ₁, ¬ Q e) (h₂ : ∃ e ∈ τ₁, P e) :
    Precedes P Q (τ₁ ++ τ₂) := by
  intro σ₁ e σ₂ heq hQ
  obtain ⟨e', he', hP⟩ := h₂
  rcases List.append_eq_append_iff.1 heq with ⟨τ, rfl, -⟩ | ⟨τ, rfl, hτ⟩
  · exact ⟨e', List.mem_append_left _ he', hP⟩
  · rcases τ with _ | ⟨e₀, τ⟩
    · exact ⟨e', by simpa using he', hP⟩
    · obtain ⟨rfl, -⟩ := List.cons.inj hτ
      exact absurd hQ (h₁ e (by simp))

/-- What an event is set apart from comes before it. -/
theorem prefix_of_forall {τ₁ τ₂ σ₁ σ₂ : List ε} {e : ε} (h : τ₁ ++ τ₂ = σ₁ ++ e :: σ₂)
    (hP : ∀ e ∈ τ₁, P e) (he : ¬ P e) : τ₁ <+: σ₁ := by
  rcases List.append_eq_append_iff.1 h with ⟨τ, rfl, -⟩ | ⟨τ, rfl, hτ⟩
  · exact List.prefix_append _ _
  · rcases τ with _ | ⟨e₀, τ⟩
    · rw [List.append_nil]
    · obtain ⟨rfl, -⟩ := List.cons.inj hτ
      exact absurd (hP e (by simp)) he

/-- What an event is set apart from comes after it. -/
theorem suffix_of_forall {τ₁ τ₂ σ₁ σ₂ : List ε} {e : ε} (h : τ₁ ++ τ₂ = σ₁ ++ e :: σ₂)
    (hP : ∀ e ∈ τ₂, P e) (he : ¬ P e) : τ₂ <:+ σ₂ := by
  rcases List.append_eq_append_iff.1 h with ⟨τ, rfl, rfl⟩ | ⟨τ, rfl, hτ⟩
  · exact absurd (hP e (by simp)) he
  · rcases τ with _ | ⟨e₀, τ⟩
    · rw [List.nil_append] at hτ
      exact absurd (hP e (by rw [← hτ]; exact List.mem_cons_self)) he
    · obtain ⟨-, rfl⟩ := List.cons.inj hτ
      exact List.suffix_append _ _

end Precedes

end PasswordHook
