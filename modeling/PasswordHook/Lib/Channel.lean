import PasswordHook.Lib.Totals

/-!
# Channels between threads

A `Channel` is a part of the shared state that some calls put a value into and others take a value
out of.  Nothing is lost and nothing is made up on the way: among the values of any kind, those that
were sent are those that were received and those still in the channel (`Channel.conserved`).
-/

namespace PasswordHook

section

variable {κ : Type} [DecidableEq κ] [Fintype κ] {I : κ → Interface} {α : κ → Type} {σ V : Type}
  {S : System κ I α σ} {W W' : World I α σ} {k : κ} {i : ℕ} {t : Thread (I k) (α k)}

/-- The total of a quantity over all threads. -/
noncomputable def World.sum (W : World I α σ) (f : (k : κ) → Thread (I k) (α k) → ℕ) : ℕ :=
  ∑ k, W.total k (f k)

theorem World.sum_spawn (h : W.Finite) (f : (k : κ) → Thread (I k) (α k) → ℕ)
    (free : W.pool k i = none) : (W.setThread k i t).sum f = W.sum f + f k t := by
  unfold World.sum
  rw [← Finset.add_sum_erase _ _ (Finset.mem_univ k),
    ← Finset.add_sum_erase _ (fun k => W.total k (f k)) (Finset.mem_univ k),
    World.total_spawn h free]
  have hothers : ∑ k' ∈ Finset.univ.erase k, (W.setThread k i t).total k' (f k') =
      ∑ k' ∈ Finset.univ.erase k, W.total k' (f k') :=
    Finset.sum_congr rfl fun k' hk' =>
      World.total_setThread_of_ne (f k') (Finset.ne_of_mem_erase hk')
  omega

theorem World.sum_call (h : W.Finite) (f : (k : κ) → Thread (I k) (α k) → ℕ)
    {t₀ : Thread (I k) (α k)} (thread : W.pool k i = some t₀) {s : σ} {n : ℕ}
    (grows : f k t = f k t₀ + n) :
    (World.setThread ⟨s, W.pool⟩ k i t).sum f = W.sum f + n := by
  unfold World.sum
  rw [← Finset.add_sum_erase _ _ (Finset.mem_univ k),
    ← Finset.add_sum_erase _ (fun k => W.total k (f k)) (Finset.mem_univ k),
    World.total_call h thread grows]
  have hothers : ∑ k' ∈ Finset.univ.erase k, (World.setThread ⟨s, W.pool⟩ k i t).total k' (f k') =
      ∑ k' ∈ Finset.univ.erase k, W.total k' (f k') :=
    Finset.sum_congr rfl fun k' hk' =>
      (World.total_setThread_of_ne (f k') (Finset.ne_of_mem_erase hk')).trans rfl
  omega

/-! ## Values that are passed on -/

/-- Values that calls put into the shared state and take out of it. -/
structure Channel (S : System κ I α σ) (V : Type) where
  chan : σ → List V
  sent : (k : κ) → Event (I k) → Option V
  received : (k : κ) → Event (I k) → Option V
  init : ∀ {s}, S.init s → chan s = []
  call : ∀ {k c s r s'}, S.call k c s r s' →
    ((received k ⟨c, r⟩).toList ++ chan s').Perm (chan s ++ (sent k ⟨c, r⟩).toList)
  env : ∀ {s s'}, S.env s s' → (chan s').Perm (chan s)

/-- The events of a trace that pass a value of the kind. -/
def tally {J : Interface} (f : Event J → Option V) (P : V → Bool) (τ : List (Event J)) : ℕ :=
  τ.countP fun e => (f e).any P

theorem tally_nil {J : Interface} (f : Event J → Option V) (P : V → Bool) : tally f P [] = 0 := rfl

theorem tally_append {J : Interface} (f : Event J → Option V) (P : V → Bool)
    (τ τ' : List (Event J)) :
    tally f P (τ ++ τ') = tally f P τ + tally f P τ' := List.countP_append

theorem tally_cons {J : Interface} (f : Event J → Option V) (P : V → Bool) (e : Event J)
    (τ : List (Event J)) : tally f P (e :: τ) = (f e).toList.countP P + tally f P τ := by
  cases hv : f e with
  | none => simp [tally, hv]
  | some v => simp [tally, hv, List.countP_cons, Nat.add_comm]

theorem tally_snoc {J : Interface} (f : Event J → Option V) (P : V → Bool) (τ : List (Event J))
    (e : Event J) : tally f P (τ ++ [e]) = tally f P τ + (f e).toList.countP P := by
  rw [tally_append, tally_cons, tally_nil, Nat.add_zero]

theorem tally_single {J : Interface} {f : Event J → Option V} {e : Event J} {v : V}
    (h : f e = some v) (P : V → Bool) : tally f P [e] = if P v then 1 else 0 := by
  rw [tally_cons, tally_nil, h, Option.toList_some, List.countP_singleton, Nat.add_zero]

/-- What a thread sends when only its second part does. -/
theorem tally_of_steps_bind {J : Interface} {β γ : Type} {p : Prog J β} {f : β → Prog J γ}
    {g : Event J → Option V} (quiet : p.Only fun c => ∀ r, g ⟨c, r⟩ = none) {τ : List (Event J)}
    {q : Prog J γ} (h : Prog.Steps (p.bind f) τ q) :
    (∀ P, tally g P τ = 0) ∨ ∃ b τ₁ τ₂, τ = τ₁ ++ τ₂ ∧ Prog.Exec p τ₁ b ∧ Prog.Steps (f b) τ₂ q ∧
      ∀ P, tally g P τ = tally g P τ₂ := by
  have hquiet : ∀ {τ q}, Prog.Steps p τ q → ∀ P, tally g P τ = 0 := by
    intro τ q run P
    apply List.countP_eq_zero.2
    intro e he
    have hnone : g e = none := (quiet.steps run).1 e he e.resp
    simp [hnone]
  rcases Prog.steps_bind_iff.1 h with ⟨p', hp, -⟩ | ⟨b, τ₁, τ₂, rfl, h₁, h₂⟩
  · exact .inl (hquiet hp)
  · refine .inr ⟨b, τ₁, τ₂, rfl, h₁, h₂, fun P => ?_⟩
    rw [tally_append, hquiet h₁ P, Nat.zero_add]

namespace Channel

variable (c : Channel S V)

/-- The values of the kind that were sent, over all threads. -/
noncomputable def sentIn (P : V → Bool) (W : World I α σ) : ℕ :=
  W.sum fun k t => tally (c.sent k) P t.past

/-- The values of the kind that were received, over all threads. -/
noncomputable def receivedIn (P : V → Bool) (W : World I α σ) : ℕ :=
  W.sum fun k t => tally (c.received k) P t.past

theorem conserved {C : World I α σ → Label I α → Prop} (h : Reach S C W) (P : V → Bool) :
    W.Finite ∧ c.sentIn P W = (c.chan W.shared).countP P + c.receivedIn P W := by
  refine h.invariant (P := fun W => W.Finite ∧
    c.sentIn P W = (c.chan W.shared).countP P + c.receivedIn P W) (fun s hs => ?_) ?_
  · refine ⟨fun k => ?_, ?_⟩
    · simp
    · have hchan : (c.chan s).countP P = 0 := by rw [c.init hs, List.countP_nil]
      simp [sentIn, receivedIn, World.sum, World.total, hchan]
  · intro W ℓ W' ⟨hfinite, hsum⟩ _ hstep
    refine ⟨hfinite.step hstep, ?_⟩
    cases hstep with
    | @spawn k i p free allowed =>
      unfold sentIn receivedIn at hsum ⊢
      rw [World.sum_spawn hfinite _ free, World.sum_spawn hfinite _ free, World.setThread_shared]
      simp only [tally_nil]
      omega
    | @call k i t e f r s thread next answer =>
      have hperm := (c.call answer).countP_eq P
      rw [List.countP_append, List.countP_append] at hperm
      unfold sentIn receivedIn at hsum ⊢
      rw [World.sum_call hfinite _ thread (tally_snoc (c.sent k) P t.past ⟨e, r⟩),
        World.sum_call hfinite _ thread (tally_snoc (c.received k) P t.past ⟨e, r⟩),
        World.setThread_shared]
      dsimp only
      omega
    | @env s change =>
      have hperm := (c.env change).countP_eq P
      show c.sentIn P W = (c.chan s).countP P + c.receivedIn P W
      omega

end Channel

end

end PasswordHook
