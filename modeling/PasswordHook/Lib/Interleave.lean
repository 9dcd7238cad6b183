import PasswordHook.Lib.Prog

/-!
# Interleaved programs over a shared state

A `System` runs any number of programs, of several kinds, against one shared state.  A world is
the shared state with a pool of threads; a thread remembers the program it was started with and
its trace so far.  A step starts a thread, lets one thread make its next call, or lets the
environment change the shared state by itself.

`Reach S C W` says that `W` is reached from an initial state by steps that all meet the condition
`C`; `Reach.invariant` is the induction over such runs.  Every thread stays where its trace puts it
(`World.Threaded`), which turns a statement about all traces of one program into a statement about
every interleaving.
-/

namespace PasswordHook

/-- A running program: what it started as, its trace, and what is left of it. -/
structure Thread (I : Interface) (α : Type) where
  start : Prog I α
  past : List (Event I)
  rest : Prog I α

/-- Programs of the kinds `κ` over a shared state `σ`. -/
structure System (κ : Type) (I : κ → Interface) (α : κ → Type) (σ : Type) where
  /-- The initial shared states. -/
  init : σ → Prop
  /-- The programs that may be started in a shared state. -/
  spawn : σ → (k : κ) → Prog (I k) (α k) → Prop
  /-- The answers to a call, with the shared state each leaves. -/
  call : (k : κ) → (c : (I k).Call) → σ → (I k).Resp c → σ → Prop
  /-- The changes that happen without any thread. -/
  env : σ → σ → Prop

/-- The shared state with the pool of threads. -/
structure World {κ : Type} (I : κ → Interface) (α : κ → Type) (σ : Type) where
  shared : σ
  pool : (k : κ) → ℕ → Option (Thread (I k) (α k))

/-- What a step does. -/
inductive Label {κ : Type} (I : κ → Interface) (α : κ → Type) where
  | spawn (k : κ) (i : ℕ) (p : Prog (I k) (α k))
  | call (k : κ) (i : ℕ) (e : Event (I k))
  | env

section

variable {κ : Type} [DecidableEq κ] {I : κ → Interface} {α : κ → Type} {σ : Type}

/-- Put a thread into the pool. -/
def World.setThread (W : World I α σ) (k : κ) (i : ℕ) (t : Thread (I k) (α k)) : World I α σ :=
  { W with pool := Function.update W.pool k (Function.update (W.pool k) i (some t)) }

@[simp] theorem World.setThread_shared (W : World I α σ) (k : κ) (i : ℕ)
    (t : Thread (I k) (α k)) : (W.setThread k i t).shared = W.shared := rfl

@[simp] theorem World.setThread_pool_self (W : World I α σ) (k : κ) (i : ℕ)
    (t : Thread (I k) (α k)) : (W.setThread k i t).pool k i = some t := by
  simp [World.setThread]

theorem World.setThread_pool_of_ne (W : World I α σ) {k k' : κ} {i i' : ℕ}
    (t : Thread (I k) (α k)) (h : ¬ (k' = k ∧ i' = i)) :
    (W.setThread k i t).pool k' i' = W.pool k' i' := by
  unfold World.setThread
  by_cases hk : k' = k
  · subst hk
    have hi : i' ≠ i := fun e => h ⟨rfl, e⟩
    simp [hi]
  · simp [hk]

/-- A thread of the updated pool is the new one or was there before. -/
theorem World.setThread_pool_cases {W : World I α σ} {k k' : κ} {i i' : ℕ}
    {t : Thread (I k) (α k)} {t' : Thread (I k') (α k')}
    (h : (W.setThread k i t).pool k' i' = some t') :
    (∃ hk : k = k', i' = i ∧ hk ▸ t = t') ∨ (¬ (k' = k ∧ i' = i) ∧ W.pool k' i' = some t') := by
  by_cases he : k' = k ∧ i' = i
  · obtain ⟨rfl, rfl⟩ := he
    rw [World.setThread_pool_self, Option.some.injEq] at h
    exact .inl ⟨rfl, rfl, h⟩
  · rw [World.setThread_pool_of_ne W t he] at h
    exact .inr ⟨he, h⟩

variable (S : System κ I α σ)

/-- One step of the system. -/
inductive Step : World I α σ → Label I α → World I α σ → Prop
  | spawn {W : World I α σ} {k : κ} {i : ℕ} {p : Prog (I k) (α k)} (free : W.pool k i = none)
      (allowed : S.spawn W.shared k p) : Step W (.spawn k i p) (W.setThread k i ⟨p, [], p⟩)
  | call {W : World I α σ} {k : κ} {i : ℕ} {t : Thread (I k) (α k)} {c : (I k).Call}
      {f : (I k).Resp c → Prog (I k) (α k)} {r : (I k).Resp c} {s : σ}
      (thread : W.pool k i = some t) (next : t.rest = .call c f)
      (answer : S.call k c W.shared r s) :
      Step W (.call k i ⟨c, r⟩)
        (World.setThread ⟨s, W.pool⟩ k i ⟨t.start, t.past ++ [⟨c, r⟩], f r⟩)
  | env {W : World I α σ} {s : σ} (change : S.env W.shared s) :
      Step W .env ⟨s, W.pool⟩

/-- The worlds reached by steps that all meet the condition `C`. -/
inductive Reach (C : World I α σ → Label I α → Prop) : World I α σ → Prop
  | init {s : σ} (h : S.init s) : Reach C ⟨s, fun _ _ => none⟩
  | step {W W' : World I α σ} {ℓ : Label I α} (h : Reach C W) (hC : C W ℓ) (hs : Step S W ℓ W') :
      Reach C W'

/-- The condition every step meets. -/
def anyStep : World I α σ → Label I α → Prop := fun _ _ => True

variable {S}

/-- What holds initially and is kept by every step that meets the condition holds of every world
reached by such steps. -/
theorem Reach.invariant {C : World I α σ → Label I α → Prop} {P : World I α σ → Prop}
    (hinit : ∀ s, S.init s → P ⟨s, fun _ _ => none⟩)
    (hstep : ∀ W ℓ W', P W → C W ℓ → Step S W ℓ W' → P W') {W : World I α σ}
    (h : Reach S C W) : P W := by
  induction h with
  | init h => exact hinit _ h
  | step _ hC hs ih => exact hstep _ _ _ ih hC hs

theorem Reach.mono {C C' : World I α σ → Label I α → Prop} (hC : ∀ W ℓ, C W ℓ → C' W ℓ)
    {W : World I α σ} (h : Reach S C W) : Reach S C' W := by
  induction h with
  | init h => exact .init h
  | step _ hc hs ih => exact .step ih (hC _ _ hc) hs

/-- The threads of the world after a step: the one that moved, and the others as before. -/
theorem Step.pool_of_ne {W W' : World I α σ} {ℓ : Label I α} (h : Step S W ℓ W') {k : κ} {i : ℕ}
    {t : Thread (I k) (α k)} (ht : W.pool k i = some t)
    (hne : ∀ e, ℓ ≠ .call k i e) : W'.pool k i = some t := by
  cases h with
  | @spawn k' i' p free allowed =>
    rw [World.setThread_pool_of_ne _ _ ?_, ht]
    rintro ⟨rfl, rfl⟩
    rw [free] at ht
    exact absurd ht (by simp)
  | @call k' i' t' c f r s thread next answer =>
    rw [World.setThread_pool_of_ne _ _ ?_]
    · exact ht
    · rintro ⟨rfl, rfl⟩
      exact hne _ rfl
  | env change => exact ht

/-- Where a thread of the world after a step comes from: it was just started, it has just made a
call, or it did not move. -/
theorem Step.pool_cases {W W' : World I α σ} {ℓ : Label I α} (h : Step S W ℓ W') {k : κ} {i : ℕ}
    {t : Thread (I k) (α k)} (ht : W'.pool k i = some t) :
    (t.past = [] ∧ t.rest = t.start ∧ W'.shared = W.shared ∧ S.spawn W.shared k t.start) ∨
    (∃ t₀ c f r, W.pool k i = some t₀ ∧ t₀.rest = .call c f ∧ ℓ = .call k i ⟨c, r⟩ ∧
      S.call k c W.shared r W'.shared ∧ t = ⟨t₀.start, t₀.past ++ [⟨c, r⟩], f r⟩) ∨
    W.pool k i = some t := by
  cases h with
  | @spawn k' i' p free allowed =>
    rcases World.setThread_pool_cases ht with ⟨rfl, rfl, rfl⟩ | ⟨-, h⟩
    · exact .inl ⟨rfl, rfl, rfl, allowed⟩
    · exact .inr (.inr h)
  | @call k' i' t' c f r s thread next answer =>
    rcases World.setThread_pool_cases ht with ⟨rfl, rfl, rfl⟩ | ⟨-, h⟩
    · exact .inr (.inl ⟨t', c, f, r, thread, next, rfl, answer, rfl⟩)
    · exact .inr (.inr h)
  | env change => exact .inr (.inr ht)

/-- A thread never disappears and its trace only grows. -/
theorem Step.thread_mono {W W' : World I α σ} {ℓ : Label I α} (h : Step S W ℓ W') {k : κ} {i : ℕ}
    {t : Thread (I k) (α k)} (ht : W.pool k i = some t) :
    ∃ t', W'.pool k i = some t' ∧ t'.start = t.start ∧ t.past <+: t'.past := by
  cases h with
  | @spawn k' i' p free allowed =>
    refine ⟨t, ?_, rfl, List.prefix_rfl⟩
    exact Step.pool_of_ne (Step.spawn (S := S) free allowed) ht (by simp)
  | @call k' i' t₀ c f r s thread next answer =>
    by_cases he : k = k' ∧ i = i'
    · obtain ⟨rfl, rfl⟩ := he
      rw [thread, Option.some.injEq] at ht
      subst ht
      exact ⟨_, World.setThread_pool_self _ _ _ _, rfl, List.prefix_append _ _⟩
    · exact ⟨t, by rw [World.setThread_pool_of_ne _ _ he]; exact ht, rfl, List.prefix_rfl⟩
  | env change => exact ⟨t, ht, rfl, List.prefix_rfl⟩

/-- A thread that has returned does not move any more. -/
theorem Step.returned {W W' : World I α σ} {ℓ : Label I α} (h : Step S W ℓ W') {k : κ} {i : ℕ}
    {t : Thread (I k) (α k)} (ht : W.pool k i = some t) {a : α k} (hret : t.rest = .ret a) :
    W'.pool k i = some t := by
  apply h.pool_of_ne ht
  rintro e rfl
  cases h with
  | call thread next answer =>
    rw [thread, Option.some.injEq] at ht
    rw [ht, hret] at next
    exact absurd next (by simp)

/-- Every thread is where its trace puts it. -/
def World.Threaded (W : World I α σ) : Prop :=
  ∀ k i (t : Thread (I k) (α k)), W.pool k i = some t → Prog.Steps t.start t.past t.rest

theorem World.Threaded.step {W W' : World I α σ} (hW : W.Threaded) {ℓ : Label I α}
    (h : Step S W ℓ W') : W'.Threaded := by
  intro k i t ht
  rcases h.pool_cases ht with ⟨hp, hr, -, -⟩ | ⟨t₀, c, f, r, h₀, hnext, -, -, rfl⟩ | h₀
  · rw [hp, hr]
    exact .refl _
  · have hsteps := hW k i t₀ h₀
    rw [hnext] at hsteps
    exact hsteps.snoc r
  · exact hW k i t h₀

theorem Reach.threaded {C : World I α σ → Label I α → Prop} {W : World I α σ} (h : Reach S C W) :
    W.Threaded :=
  h.invariant (fun _ _ k i t ht => absurd ht (by simp)) fun _ _ _ hW _ hs => hW.step hs

/-- Every thread was started as one that may be started. -/
theorem Reach.started {C : World I α σ → Label I α → Prop} {W : World I α σ} (h : Reach S C W)
    {k : κ} {i : ℕ} {t : Thread (I k) (α k)} (ht : W.pool k i = some t) :
    ∃ s, S.spawn s k t.start := by
  refine h.invariant (P := fun W => ∀ k i (t : Thread (I k) (α k)), W.pool k i = some t →
    ∃ s, S.spawn s k t.start) ?_ ?_ k i t ht
  · exact fun _ _ k i t ht => absurd ht (by simp)
  · intro W ℓ W' hW _ hs k i t ht
    rcases hs.pool_cases ht with ⟨-, -, -, hstart⟩ | ⟨t₀, c, f, r, h₀, -, -, -, rfl⟩ | h₀
    · exact ⟨_, hstart⟩
    · exact hW k i t₀ h₀
    · exact hW k i t h₀

/-- What every answer and every change by the environment keep holds of every shared state. -/
theorem Reach.shared {C : World I α σ → Label I α → Prop} {F : σ → Prop}
    (init : ∀ s, S.init s → F s) (call : ∀ k c s r s', S.call k c s r s' → F s → F s')
    (env : ∀ s s', S.env s s' → F s → F s') {W : World I α σ} (h : Reach S C W) : F W.shared := by
  refine h.invariant (P := fun W => F W.shared) init fun W ℓ W' hW _ hs => ?_
  cases hs with
  | spawn free allowed => exact hW
  | call thread next answer => exact call _ _ _ _ _ answer hW
  | env change => exact env _ _ change hW

/-- What an event of a thread brings about and nothing ends is so in every world where the event is
past. -/
theorem Reach.lasting {C : World I α σ → Label I α → Prop} {F : σ → Prop} {k : κ}
    {E : Event (I k) → Prop} (sets : ∀ c s r s', S.call k c s r s' → E ⟨c, r⟩ → F s')
    (call : ∀ k c s r s', S.call k c s r s' → F s → F s') (env : ∀ s s', S.env s s' → F s → F s')
    {W : World I α σ} (h : Reach S C W) {i : ℕ} {t : Thread (I k) (α k)} (ht : W.pool k i = some t)
    {e : Event (I k)} (he : e ∈ t.past) (hE : E e) : F W.shared := by
  refine h.invariant (P := fun W => ∀ i (t : Thread (I k) (α k)), W.pool k i = some t →
    ∀ e ∈ t.past, E e → F W.shared) ?_ ?_ i t ht e he hE
  · exact fun _ _ i t ht => absurd ht (by simp)
  · intro W ℓ W' hW _ hs i t ht e he hE
    have stays : F W.shared → F W'.shared := fun hF => by
      cases hs with
      | spawn free allowed => exact hF
      | call thread next answer => exact call _ _ _ _ _ answer hF
      | env change => exact env _ _ change hF
    rcases hs.pool_cases ht with ⟨hpast, -⟩ | ⟨t₀, c, f, r, h₀, -, -, answer, rfl⟩ | h₀
    · rw [hpast] at he
      exact absurd he List.not_mem_nil
    · rcases List.mem_append.1 he with he | he
      · exact stays (hW i t₀ h₀ e he hE)
      · rw [List.mem_singleton.1 he] at hE
        exact sets c _ r _ answer hE
    · exact stays (hW i t h₀ e he hE)

/-! ## Runs of one thread -/

variable (S) in
/-- The shared states a program goes through when its calls are answered one after the other. -/
inductive Answers (k : κ) :
    σ → Prog (I k) (α k) → List (Event (I k)) → σ → Prog (I k) (α k) → Prop
  | nil (s : σ) (p : Prog (I k) (α k)) : Answers k s p [] s p
  | call {s s' s'' : σ} {c : (I k).Call} {f : (I k).Resp c → Prog (I k) (α k)} {r : (I k).Resp c}
      {τ : List (Event (I k))} {q : Prog (I k) (α k)} (answer : S.call k c s r s')
      (rest : Answers k s' (f r) τ s'' q) : Answers k s (.call c f) (⟨c, r⟩ :: τ) s'' q

omit [DecidableEq κ] in
/-- Calls that are answered without a change of the shared state. -/
theorem answers_of_steps {k : κ} {s : σ} {p q : Prog (I k) (α k)} {τ : List (Event (I k))}
    (h : Prog.Steps p τ q) (answered : ∀ e ∈ τ, S.call k e.call s e.resp s) :
    Answers S k s p τ s q := by
  induction h with
  | refl p => exact .nil s p
  | call c f r h ih =>
    obtain ⟨hfirst, hrest⟩ := List.forall_mem_cons.1 answered
    exact .call hfirst (ih hrest)

/-- The other threads are where they were. -/
def World.SameBut (W W' : World I α σ) (k : κ) (i : ℕ) : Prop :=
  ∀ k' i', ¬ (k' = k ∧ i' = i) → W'.pool k' i' = W.pool k' i'

/-- A thread can be run for as long as its calls are answered and meet the condition, and no other
thread moves. -/
theorem Reach.answers {C : World I α σ → Label I α → Prop} {W : World I α σ} (h : Reach S C W)
    {k : κ} {i : ℕ} {start : Prog (I k) (α k)} {past : List (Event (I k))} {s s' : σ}
    {p q : Prog (I k) (α k)} {τ : List (Event (I k))} (run : Answers S k s p τ s' q)
    (meets : ∀ W, ∀ e ∈ τ, C W (.call k i e)) (hs : W.shared = s)
    (ht : W.pool k i = some ⟨start, past, p⟩) :
    ∃ W', Reach S C W' ∧ W'.shared = s' ∧ W'.pool k i = some ⟨start, past ++ τ, q⟩ ∧
      W.SameBut W' k i := by
  induction run generalizing W past with
  | nil s p => exact ⟨W, h, hs, by simpa using ht, fun _ _ _ => rfl⟩
  | @call s s₁ s₂ c f r τ q answer rest ih =>
    subst hs
    have hstep := h.step (meets W _ List.mem_cons_self) (Step.call ht rfl answer)
    obtain ⟨W', hreach, hshared, hthread, hframe⟩ := ih hstep
      (fun W e he => meets W e (List.mem_cons_of_mem _ he)) rfl (World.setThread_pool_self _ _ _ _)
    refine ⟨W', hreach, hshared, by simpa using hthread, fun k' i' hne => ?_⟩
    rw [hframe k' i' hne, World.setThread_pool_of_ne _ _ hne]

/-- A thread can be started and run. -/
theorem Reach.spawn_answers {C : World I α σ → Label I α → Prop} {W : World I α σ}
    (h : Reach S C W) {k : κ} {i : ℕ} {s' : σ} {p q : Prog (I k) (α k)} {τ : List (Event (I k))}
    (free : W.pool k i = none) (allowed : S.spawn W.shared k p)
    (run : Answers S k W.shared p τ s' q) (starts : C W (.spawn k i p))
    (meets : ∀ W, ∀ e ∈ τ, C W (.call k i e)) :
    ∃ W', Reach S C W' ∧ W'.shared = s' ∧ W'.pool k i = some ⟨p, τ, q⟩ ∧ W.SameBut W' k i := by
  obtain ⟨W', hreach, hshared, hthread, hframe⟩ := Reach.answers
    (h.step starts (Step.spawn free allowed)) run meets rfl (World.setThread_pool_self _ _ _ _)
  refine ⟨W', hreach, hshared, by simpa using hthread, fun k' i' hne => ?_⟩
  rw [hframe k' i' hne, World.setThread_pool_of_ne _ _ hne]

/-! ## Pools as lists -/

/-- The threads of a kind are these, numbered in order. -/
def World.ThreadsAre (W : World I α σ) (k : κ) (ts : List (Thread (I k) (α k))) : Prop :=
  ∀ i, W.pool k i = ts[i]?

section ThreadsAre

variable {W W' : World I α σ} {k k' : κ} {i : ℕ} {ts : List (Thread (I k) (α k))}
  {t : Thread (I k) (α k)}

omit [DecidableEq κ] in
theorem World.ThreadsAre.add (h : W.ThreadsAre k ts) (frame : W.SameBut W' k ts.length)
    (thread : W'.pool k ts.length = some t) : W'.ThreadsAre k (ts ++ [t]) := by
  intro i
  by_cases heq : i = ts.length
  · rw [heq, thread, List.getElem?_concat_length]
  · rw [frame k i (fun hi => heq hi.2), h i]
    rcases lt_or_gt_of_ne heq with hlt | hgt
    · rw [List.getElem?_append_left hlt]
    · rw [List.getElem?_eq_none hgt.le, List.getElem?_eq_none (by simpa using hgt)]

omit [DecidableEq κ] in
theorem World.ThreadsAre.set (h : W.ThreadsAre k ts) (frame : W.SameBut W' k i)
    (thread : W'.pool k i = some t) (hi : i < ts.length) : W'.ThreadsAre k (ts.set i t) := by
  intro i'
  by_cases heq : i' = i
  · rw [heq, thread, List.getElem?_set_self hi]
  · rw [frame k i' (fun hi => heq hi.2), h i', List.getElem?_set_ne (Ne.symm heq)]

omit [DecidableEq κ] in
theorem World.ThreadsAre.of_other (h : W.ThreadsAre k ts) (frame : W.SameBut W' k' i)
    (hne : k ≠ k') : W'.ThreadsAre k ts := by
  intro i'
  rw [frame k i' (fun hi => hne hi.1), h i']

end ThreadsAre

end

end PasswordHook
