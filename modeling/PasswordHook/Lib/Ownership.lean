import PasswordHook.Lib.Monitor

/-!
# Ownership of resources

A call of a program may acquire a resource or release one.  The `ownership` monitor follows what is
held, and fails for good when something is released that is not held.  `Carries effect m p res` says
of a fallible program `p`, started with `m` in hand, that whatever its calls answer it never
releases anything else, that its value owns what is held when it returns one, and that nothing is
held when it returns an error.  What is held besides `m` is not touched, so such programs can be put
together (`Carries.bind`).
-/

namespace PasswordHook

/-- What a call does to the resources of type `ρ`. -/
inductive OwnerEffect (ρ : Type) where
  | none
  | acquire (r : ρ)
  | release (r : ρ)

section

variable {I : Interface} {ρ α β ε : Type} [DecidableEq ρ]

/-- What is held after a call; nothing is known once something was released that was not held. -/
def OwnerEffect.apply (held : Multiset ρ) : OwnerEffect ρ → Option (Multiset ρ)
  | .none => some held
  | .acquire r => some (r ::ₘ held)
  | .release r => if r ∈ held then some (held.erase r) else Option.none

/-- The monitor that follows what is held. -/
def ownership (effect : Event I → OwnerEffect ρ) : Monitor I (Option (Multiset ρ)) where
  next s e := s.bind fun held => (effect e).apply held
  assumes _ := True
  inv s := s ≠ none

/-- What is held after a trace. -/
def heldAfter (effect : Event I → OwnerEffect ρ) (held : Multiset ρ) (τ : List (Event I)) :
    Option (Multiset ρ) :=
  τ.foldl (ownership effect).next (some held)

/-- What a result owns: an error owns nothing. -/
def owned (res : α → Multiset ρ) : Except ε α → Multiset ρ
  | .ok a => res a
  | .error _ => 0

variable {effect : Event I → OwnerEffect ρ} {m m' : Multiset ρ} {res : α → Multiset ρ}
  {res' : β → Multiset ρ}

variable (effect) in
/-- Started with `m` in hand, the program ends with what its result owns in hand. -/
def Carries (m : Multiset ρ) (p : Prog I (Except ε α)) (res : α → Multiset ρ) : Prop :=
  ∀ held, p.Tracked (ownership effect) (fun r s => s = some (held + owned res r)) (some (held + m))

variable (effect) in
/-- Started with `m` in hand, the program gives all of it up. -/
def Releases (m : Multiset ρ) (p : Prog I α) : Prop :=
  ∀ held, p.Tracked (ownership effect) (fun _ s => s = some held) (some (held + m))

/-! ## Rules -/

theorem carries_ok {a : α} (h : m = res a) :
    Carries effect m (.ret (.ok a) : Prog I (Except ε α)) res :=
  fun held => by rw [h]; rfl

theorem carries_error {e : ε} : Carries effect 0 (.ret (.error e) : Prog I (Except ε α)) res :=
  fun _ => rfl

/-- The effects that a call can have, one answer at a time. -/
inductive Moves (m : Multiset ρ) : OwnerEffect ρ → Multiset ρ → Prop
  | none : Moves m .none m
  | acquire (r : ρ) : Moves m (.acquire r) (r ::ₘ m)
  | release {r : ρ} {m' : Multiset ρ} (h : m = r ::ₘ m') : Moves m (.release r) m'

theorem Moves.apply {e : OwnerEffect ρ} (h : Moves m e m') (held : Multiset ρ) :
    e.apply (held + m) = some (held + m') := by
  cases h with
  | none => rfl
  | acquire r => rw [OwnerEffect.apply, Multiset.add_cons]
  | @release r m' h =>
    subst h
    have hmem : r ∈ held + r ::ₘ m' := by simp
    rw [OwnerEffect.apply, if_pos hmem, Multiset.add_cons, Multiset.erase_cons_head]

theorem carries_call {c : I.Call} {k : I.Resp c → Prog I (Except ε α)}
    (h : ∀ r, ∃ m', Moves m (effect ⟨c, r⟩) m' ∧ Carries effect m' (k r) res) :
    Carries effect m (.call c k) res := by
  intro held r _
  obtain ⟨m', hmoves, hrest⟩ := h r
  have hnext : (ownership effect).next (some (held + m)) ⟨c, r⟩ = some (held + m') :=
    hmoves.apply held
  rw [hnext]
  exact ⟨Option.some_ne_none _, hrest held⟩

theorem releases_call {c : I.Call} {k : I.Resp c → Prog I α}
    (h : ∀ r, ∃ m', Moves m (effect ⟨c, r⟩) m' ∧ Releases effect m' (k r)) :
    Releases effect m (.call c k) := by
  intro held r _
  obtain ⟨m', hmoves, hrest⟩ := h r
  have hnext : (ownership effect).next (some (held + m)) ⟨c, r⟩ = some (held + m') :=
    hmoves.apply held
  rw [hnext]
  exact ⟨Option.some_ne_none _, hrest held⟩

theorem releases_ret {a : α} : Releases effect 0 (.ret a : Prog I α) := fun held => by
  rw [add_zero]
  rfl

theorem Releases.bind {p : Prog I α} {f : α → Prog I β} (hp : Releases effect m p)
    (hf : ∀ a, Releases effect m' (f a)) : Releases effect (m + m') (p.bind f) := by
  intro held
  rw [Prog.tracked_bind_iff]
  have hheld : held + (m + m') = held + m' + m := by rw [add_comm m, add_assoc]
  rw [hheld]
  refine (hp (held + m')).mono fun a s hs => ?_
  rw [hs]
  exact hf a held

/-- A program that gives everything up, and then fails. -/
theorem Releases.carries {p : Prog I α} {f : α → Prog I (Except ε β)} (hp : Releases effect m p)
    (hf : ∀ a, Carries effect 0 (f a) res') : Carries effect m (p.bind f) res' := by
  intro held
  rw [Prog.tracked_bind_iff]
  refine (hp held).mono fun a s hs => ?_
  rw [hs]
  simpa using hf a held

/-- One constructor after the other: the second starts with what the first has acquired. -/
theorem Carries.bind {p : Prog I (Except ε α)} {f : Except ε α → Prog I (Except ε β)}
    (hp : Carries effect 0 p res) (hok : ∀ a, Carries effect (m + res a) (f (.ok a)) res')
    (herror : ∀ e, Carries effect m (f (.error e)) res') : Carries effect m (p.bind f) res' := by
  intro held
  rw [Prog.tracked_bind_iff]
  have hstart := hp (held + m)
  rw [add_zero] at hstart
  refine hstart.mono fun r s hs => ?_
  subst hs
  cases r with
  | ok a =>
    have hrest := hok a held
    rwa [← add_assoc] at hrest
  | error e => simpa [owned] using herror e held

/-! ## Runs -/

theorem Carries.heldAfter {p : Prog I (Except ε α)} (h : Carries effect 0 p res)
    {τ : List (Event I)} {r : Except ε α} (run : Prog.Exec p τ r) :
    heldAfter effect 0 τ = some (owned res r) := by
  have hstart := h 0
  rw [add_zero] at hstart
  have hend := hstart.exec (Option.some_ne_none _) run fun _ _ => trivial
  rwa [zero_add] at hend

theorem Releases.heldAfter {p : Prog I α} (h : Releases effect m p) {τ : List (Event I)} {a : α}
    (run : Prog.Exec p τ a) : heldAfter effect m τ = some 0 := by
  have hstart := h 0
  rw [zero_add] at hstart
  exact hstart.exec (Option.some_ne_none _) run fun _ _ => trivial

end

end PasswordHook
