import PasswordHook.Go.Errors
import PasswordHook.Lib.Simulation

/-!
# Credential subscriptions

`ownedCredentialsProvider` of package `syncstatus`.  The provider keeps one entry for a listener
however often it subscribes, and every unsubscribe function takes that entry away.  So a listener is
notified as its subscriptions say just as long as no subscription is given up beside another one of
the same listener that is still wanted (`subscriptions_independent_iff`).
-/

namespace PasswordHook

variable {L T : Type}

/-! ## The provider -/

/-- `ownedCredentialsProvider`; `stops` counts the calls of the stop function of the token
manager. -/
structure OwnedCredentialsProvider (L : Type) where
  listeners : List L
  closed : Bool
  closeOnce : Bool
  closeErr : Option Err
  stops : ℕ

/-- A provider whose token manager has started. -/
def OwnedCredentialsProvider.started : OwnedCredentialsProvider L := ⟨[], false, false, none, 0⟩

/-- `newOwnedCredentialsProvider`, with the answer of `Start` if there is a token manager. -/
def newOwnedCredentialsProvider (tokenManager : Option (Option Err)) :
    Except Err (OwnedCredentialsProvider L) :=
  match tokenManager with
  | none => .error (.new "token manager is required")
  | some (some err) => .error (.wrap "start token manager" err)
  | some none => .ok .started

namespace OwnedCredentialsProvider

variable [DecidableEq L]

/-- `Subscribe`, with the answer of `GetToken`. -/
def subscribe (p : OwnedCredentialsProvider L) (listener : L) (current : Except Err T) :
    OwnedCredentialsProvider L × Except Err T :=
  if p.closed then (p, .error (.new "credentials provider is closed"))
  else
    match current with
    | .error err => (p, .error (.wrap "get Redis credentials" err))
    | .ok token =>
      if listener ∈ p.listeners then (p, .ok token)
      else ({ p with listeners := p.listeners ++ [listener] }, .ok token)

/-- The function that `Subscribe` returned for the listener. -/
def unsubscribe (p : OwnedCredentialsProvider L) (listener : L) : OwnedCredentialsProvider L :=
  { p with listeners := p.listeners.erase listener }

/-- The listeners that are called, with what they are told. -/
def notify {N : Type} (p : OwnedCredentialsProvider L) (n : N) : List (L × N) :=
  p.listeners.map fun listener => (listener, n)

def onNext (p : OwnedCredentialsProvider L) (next : T) : List (L × T) := p.notify next

def onError (p : OwnedCredentialsProvider L) (err : Err) : List (L × Err) := p.notify err

/-- `Close`, with the answer of the stop function. -/
def close (p : OwnedCredentialsProvider L) (stop : Option Err) :
    OwnedCredentialsProvider L × Option Err :=
  if p.closeOnce then (p, p.closeErr)
  else (⟨[], true, true, stop, p.stops + 1⟩, stop)

end OwnedCredentialsProvider

/-! ## Runs -/

/-- A provider with the subscriptions it gave out, each with its listener; `true` for those whose
function was not called yet. -/
structure CredentialSession (L : Type) where
  provider : OwnedCredentialsProvider L
  subscriptions : List (L × Bool)

/-- A call of the provider, or of the function that a subscription came with. -/
inductive ProviderCall (L T : Type) where
  | subscribe (listener : L) (current : Except Err T)
  | unsubscribe (i : ℕ)
  | close (stop : Option Err)

inductive ProviderReply (T : Type) where
  | subscribed (r : Except Err T)
  | returned (err : Option Err)

namespace CredentialSession

variable [DecidableEq L]

def start : CredentialSession L := ⟨.started, []⟩

def step (s : CredentialSession L) : ProviderCall L T → CredentialSession L × ProviderReply T
  | .subscribe listener current =>
    match s.provider.subscribe listener current with
    | (p, .ok token) => (⟨p, s.subscriptions ++ [(listener, true)]⟩, .subscribed (.ok token))
    | (p, .error err) => (⟨p, s.subscriptions⟩, .subscribed (.error err))
  | .unsubscribe i =>
    match s.subscriptions[i]? with
    | none => (s, .returned none)
    | some (listener, _) =>
      (⟨s.provider.unsubscribe listener, s.subscriptions.set i (listener, false)⟩, .returned none)
  | .close stop => (⟨(s.provider.close stop).1, s.subscriptions⟩,
      .returned (s.provider.close stop).2)

/-- The listener has a subscription that was not given up. -/
def Live (s : CredentialSession L) (listener : L) : Prop := (listener, true) ∈ s.subscriptions

instance (s : CredentialSession L) (listener : L) : Decidable (s.Live listener) :=
  inferInstanceAs (Decidable ((listener, true) ∈ s.subscriptions))

/-- A notification reaches every listener with a live subscription once, and nobody else. -/
def NotifiesLive (T : Type) (s : CredentialSession L) : Prop :=
  s.provider.closed = false → ∀ listener,
    (∀ next : T, (s.provider.onNext next).countP (fun d => d.1 = listener) =
      if s.Live listener then 1 else 0) ∧
    ∀ err, (s.provider.onError err).countP (fun d => d.1 = listener) =
      if s.Live listener then 1 else 0

/-- Before and after the call notifications reach those with a live subscription, and a function
that was called before changes nothing. -/
structure IndependentAt (s : CredentialSession L) (call : ProviderCall L T) : Prop where
  before : s.NotifiesLive T
  after : (s.step call).1.NotifiesLive T
  again : ∀ i listener, call = .unsubscribe i → s.subscriptions[i]? = some (listener, false) →
    (s.step call).1.provider = s.provider

/-- If the call gives a subscription up, no other one of the same listener is live. -/
def LastOfListener (s : CredentialSession L) (call : ProviderCall L T) : Prop :=
  ∀ i, call = .unsubscribe i → s.provider.closed = false → ∀ j listener b, j ≠ i →
    s.subscriptions[i]? = some (listener, b) → s.subscriptions[j]? ≠ some (listener, true)

/-- No listener is registered, none can subscribe, and the token manager was stopped once. -/
def ShutDown (T : Type) (s : CredentialSession L) : Prop :=
  s.provider.listeners = [] ∧ s.provider.stops = 1 ∧
    ∀ (listener : L) (current : Except Err T), ∃ err,
      (s.provider.subscribe listener current).2 = .error err

/-! ## What one call does -/

variable {s : CredentialSession L}

theorem countP_notify {N : Type} (p : OwnedCredentialsProvider L) (n : N) (listener : L) :
    (p.notify n).countP (fun d => d.1 = listener) = p.listeners.count listener := by
  unfold OwnedCredentialsProvider.notify
  rw [List.countP_map, List.count]
  congr 1

/-- The listeners are those with a live subscription, each once; a closed provider has none. -/
structure Kept (s : CredentialSession L) : Prop where
  nodup : s.provider.listeners.Nodup
  live : s.provider.closed = false → ∀ listener, listener ∈ s.provider.listeners ↔ s.Live listener
  closed : s.provider.closed = true → s.provider.listeners = []

omit [DecidableEq L] in
theorem kept_start : (start : CredentialSession L).Kept where
  nodup := List.nodup_nil
  live _ listener := by simp [start, OwnedCredentialsProvider.started, Live]
  closed h := by cases h

theorem Kept.notifiesLive (h : s.Kept) : s.NotifiesLive T := by
  intro hopen listener
  have hcount : s.provider.listeners.count listener = if s.Live listener then 1 else 0 := by
    rw [h.nodup.count]
    simp only [h.live hopen listener]
  exact ⟨fun next => (countP_notify _ next listener).trans hcount,
    fun err => (countP_notify _ err listener).trans hcount⟩

omit [DecidableEq L] in
theorem live_iff_getElem? {listener : L} :
    s.Live listener ↔ ∃ j : ℕ, s.subscriptions[j]? = some (listener, true) :=
  List.mem_iff_getElem?

omit [DecidableEq L] in
/-- Giving up a subscription leaves the live ones of other listeners and, if it was the last of its
own, none of that. -/
theorem live_set_iff {i : ℕ} {listener listener' : L} {b : Bool}
    (hi : s.subscriptions[i]? = some (listener, b))
    (last : ∀ j, j ≠ i → s.subscriptions[j]? ≠ some (listener, true)) :
    (listener', true) ∈ s.subscriptions.set i (listener, false) ↔
      listener' ≠ listener ∧ s.Live listener' := by
  rw [live_iff_getElem?, List.mem_iff_getElem?]
  constructor
  · rintro ⟨j, hj⟩
    by_cases hij : j = i
    · subst hij
      rw [List.getElem?_set_self' , hi] at hj
      simp at hj
    · rw [List.getElem?_set_ne (Ne.symm hij)] at hj
      refine ⟨?_, j, hj⟩
      rintro rfl
      exact last j hij hj
  · rintro ⟨hne, j, hj⟩
    refine ⟨j, ?_⟩
    have hij : i ≠ j := by
      rintro rfl
      rw [hi] at hj
      cases hj
      exact hne rfl
    rw [List.getElem?_set_ne hij]
    exact hj

theorem Kept.subscribe (h : s.Kept) (listener : L) (current : Except Err T) :
    (s.step (.subscribe listener current)).1.Kept := by
  simp only [step, OwnedCredentialsProvider.subscribe]
  cases hclosed : s.provider.closed with
  | true => exact h
  | false =>
    cases current with
    | error err => exact h
    | ok token =>
      have hlive : ∀ l, (⟨s.provider, s.subscriptions ++ [(listener, true)]⟩ :
          CredentialSession L).Live l ↔ s.Live l ∨ l = listener := by
        intro l
        simp [Live]
      by_cases hmem : listener ∈ s.provider.listeners
      · simp only [Bool.false_eq_true, if_false, if_pos hmem]
        refine ⟨h.nodup, fun hopen l => ?_, h.closed⟩
        rw [hlive, ← h.live hopen l]
        exact ⟨.inl, fun hl => hl.elim id fun he => he ▸ hmem⟩
      · simp only [Bool.false_eq_true, if_false, if_neg hmem]
        refine ⟨?_, fun hopen l => ?_, fun hc => ?_⟩
        · show (s.provider.listeners ++ [listener]).Nodup
          rw [List.nodup_append]
          refine ⟨h.nodup, List.nodup_singleton _, fun a ha b hb he => hmem ?_⟩
          rwa [← List.mem_singleton.1 hb, ← he]
        · rw [List.mem_append, List.mem_singleton, h.live hclosed l]
          exact (hlive l).symm
        · cases hc

theorem Kept.unsubscribe (h : s.Kept) {i : ℕ} (last : s.LastOfListener (T := T) (.unsubscribe i)) :
    (s.step (T := T) (.unsubscribe i)).1.Kept := by
  simp only [step]
  cases hi : s.subscriptions[i]? with
  | none => exact h
  | some subscription =>
    obtain ⟨listener, b⟩ := subscription
    refine ⟨h.nodup.erase listener, fun hopen l => ?_, fun hc => ?_⟩
    · have hlast := fun j hj => last i rfl hopen j listener b hj hi
      show l ∈ s.provider.listeners.erase listener ↔
        (l, true) ∈ s.subscriptions.set i (listener, false)
      rw [live_set_iff hi hlast, h.nodup.mem_erase_iff, h.live hopen l]
    · show s.provider.listeners.erase listener = []
      rw [h.closed hc]
      rfl

theorem Kept.close (h : s.Kept) (stop : Option Err) :
    (s.step (T := T) (.close stop)).1.Kept := by
  simp only [step, OwnedCredentialsProvider.close]
  split_ifs
  · exact h
  · exact ⟨List.nodup_nil, fun hopen => absurd hopen (by simp), fun _ => rfl⟩

/-- The step lemma: a call that gives up no subscription beside a live one keeps the listeners in
step with the subscriptions. -/
theorem Kept.step (h : s.Kept) {call : ProviderCall L T} (last : s.LastOfListener call) :
    (s.step call).1.Kept := by
  cases call with
  | subscribe listener current => exact h.subscribe listener current
  | unsubscribe i => exact h.unsubscribe last
  | close stop => exact h.close stop

theorem Kept.independentAt (h : s.Kept) {call : ProviderCall L T} (last : s.LastOfListener call) :
    s.IndependentAt call where
  before := h.notifiesLive
  after := (h.step last).notifiesLive
  again := by
    rintro i listener rfl hi
    have habsent : listener ∉ s.provider.listeners := by
      intro hmem
      cases hclosed : s.provider.closed with
      | true => simp [h.closed hclosed] at hmem
      | false =>
        obtain ⟨j, hj⟩ := live_iff_getElem?.1 ((h.live hclosed listener).1 hmem)
        have hij : j ≠ i := by
          rintro rfl
          rw [hi] at hj
          cases hj
        exact last i rfl hclosed j listener false hij hi hj
    simp only [CredentialSession.step, hi, OwnedCredentialsProvider.unsubscribe,
      List.erase_of_not_mem habsent]

/-- A subscription that is given up beside a live one of its listener takes the notifications from
that one. -/
theorem IndependentAt.lastOfListener {call : ProviderCall L T} (h : s.IndependentAt call) :
    s.LastOfListener call := by
  rintro i rfl hopen j listener b hij hi hj
  have hlive : s.Live listener := live_iff_getElem?.2 ⟨j, hj⟩
  have hstep : (s.step (T := T) (.unsubscribe i)).1 =
      ⟨s.provider.unsubscribe listener, s.subscriptions.set i (listener, false)⟩ := by
    simp only [step, hi]
  have hlive' : (s.step (T := T) (.unsubscribe i)).1.Live listener := by
    rw [hstep]
    apply List.mem_iff_getElem?.2
    exact ⟨j, (List.getElem?_set_ne (Ne.symm hij)).trans hj⟩
  have hbefore := (h.before hopen listener).2 .nil
  have hafter := (h.after (by rw [hstep]; exact hopen) listener).2 .nil
  rw [OwnedCredentialsProvider.onError, countP_notify, if_pos hlive] at hbefore
  rw [OwnedCredentialsProvider.onError, countP_notify, if_pos hlive', hstep] at hafter
  simp only [OwnedCredentialsProvider.unsubscribe, List.count_erase_self] at hafter
  omega

/-! ## Whole runs -/

/-- The run lemma: calls that give up no subscription beside a live one are independent. -/
theorem Kept.along (h : s.Kept) {calls : List (ProviderCall L T)}
    (last : Along CredentialSession.step LastOfListener s calls) :
    Along CredentialSession.step IndependentAt s calls := by
  induction calls generalizing s with
  | nil => exact along_nil _ _ _
  | cons call calls ih =>
    obtain ⟨hcall, hcalls⟩ := along_cons_iff.1 last
    exact along_cons_iff.2 ⟨h.independentAt hcall, ih (h.step hcall) hcalls⟩

/-- The token manager is stopped by the first `Close`, which leaves no listener. -/
structure Stopping (s : CredentialSession L) : Prop where
  once : s.provider.closed = s.provider.closeOnce
  stops : s.provider.stops = if s.provider.closeOnce then 1 else 0
  closed : s.provider.closed = true → s.provider.listeners = []

theorem Stopping.step (h : s.Stopping) (call : ProviderCall L T) : (s.step call).1.Stopping := by
  cases call with
  | subscribe listener current =>
    simp only [CredentialSession.step, OwnedCredentialsProvider.subscribe]
    cases hclosed : s.provider.closed with
    | true => exact h
    | false =>
      cases current with
      | error err => exact h
      | ok token =>
        simp only [Bool.false_eq_true, if_false]
        split_ifs
        · exact ⟨h.once, h.stops, h.closed⟩
        · refine ⟨hclosed ▸ h.once, h.stops, fun hc => ?_⟩
          cases hc
  | unsubscribe i =>
    simp only [CredentialSession.step]
    cases s.subscriptions[i]? with
    | none => exact h
    | some subscription =>
      refine ⟨h.once, h.stops, fun hc => ?_⟩
      show s.provider.listeners.erase subscription.1 = []
      rw [h.closed hc]
      rfl
  | close stop =>
    simp only [CredentialSession.step, OwnedCredentialsProvider.close]
    split_ifs with hdone
    · exact h
    · refine ⟨rfl, ?_, fun _ => rfl⟩
      show s.provider.stops + 1 = 1
      rw [h.stops, if_neg hdone]

/-- A closed provider stays closed. -/
theorem closed_step (hclosed : s.provider.closed = true) (call : ProviderCall L T) :
    (s.step call).1.provider.closed = true := by
  cases call with
  | subscribe listener current =>
    simp only [CredentialSession.step, OwnedCredentialsProvider.subscribe, if_pos hclosed]
    exact hclosed
  | unsubscribe i =>
    simp only [CredentialSession.step]
    cases s.subscriptions[i]? <;> exact hclosed
  | close stop =>
    simp only [CredentialSession.step, OwnedCredentialsProvider.close]
    split_ifs
    · exact hclosed
    · rfl

theorem Stopping.closed_close (h : s.Stopping) (stop : Option Err) :
    (s.step (T := T) (.close stop)).1.provider.closed = true := by
  simp only [CredentialSession.step, OwnedCredentialsProvider.close]
  split_ifs with hdone
  · rw [h.once, hdone]
  · rfl

/-- A provider that was closed, or is closed on the way, is closed in the end. -/
theorem Stopping.run (h : s.Stopping) (calls : List (ProviderCall L T)) :
    (runFrom CredentialSession.step s calls).1.Stopping ∧
      ((s.provider.closed = true ∨ ∃ stop, .close stop ∈ calls) →
        (runFrom CredentialSession.step s calls).1.provider.closed = true) := by
  induction calls generalizing s with
  | nil => exact ⟨h, fun hc => by simpa using hc⟩
  | cons call calls ih =>
    obtain ⟨hrun, hclosed⟩ := ih (h.step call)
    refine ⟨hrun, fun hc => hclosed ?_⟩
    rcases hc with hc | ⟨stop, hmem⟩
    · exact .inl (closed_step hc call)
    · rcases List.mem_cons.1 hmem with rfl | hmem
      · exact .inl (h.closed_close stop)
      · exact .inr ⟨stop, hmem⟩

theorem Stopping.shutDown (h : s.Stopping) (hclosed : s.provider.closed = true) : s.ShutDown T := by
  refine ⟨h.closed hclosed, ?_, fun listener current => ?_⟩
  · rw [h.stops, ← h.once, hclosed]
    rfl
  · rw [OwnedCredentialsProvider.subscribe.eq_def, if_pos hclosed]
    exact ⟨_, rfl⟩

/-- Along a run the subscriptions are independent just if no subscription is given up while another
one of the same listener is live; and whatever was called, after a `Close` the provider is shut
down. -/
theorem subscriptions_independent_iff (calls : List (ProviderCall L T)) :
    (Along CredentialSession.step IndependentAt start calls ↔
      Along CredentialSession.step LastOfListener start calls) ∧
    ∀ stop, .close stop ∈ calls →
      (runFrom CredentialSession.step start calls).1.ShutDown T := by
  refine ⟨⟨fun h => h.mono fun s call _ => IndependentAt.lastOfListener, kept_start.along⟩, ?_⟩
  intro stop hmem
  have hstart : (start : CredentialSession L).Stopping := ⟨rfl, rfl, fun h => by cases h⟩
  obtain ⟨hrun, hclosed⟩ := hstart.run calls
  exact hrun.shutDown (hclosed (.inr ⟨stop, hmem⟩))

/-- One listener subscribes twice and gives the first subscription up. -/
def droppedCalls : List (ProviderCall Unit Unit) :=
  [.subscribe () (.ok ()), .subscribe () (.ok ()), .unsubscribe 0]

/-- The second subscription is live, but the listener is not notified any more. -/
theorem second_subscription_dropped :
    let s := (runFrom CredentialSession.step start droppedCalls).1
    s.Live () ∧ s.provider.closed = false ∧ s.provider.onNext () = [] ∧
      ¬ Along CredentialSession.step IndependentAt start droppedCalls := by
  refine ⟨by decide, rfl, rfl, fun h => ?_⟩
  have hlast := h [.subscribe () (.ok ()), .subscribe () (.ok ())] (.unsubscribe 0) [] rfl
  exact hlast.lastOfListener 0 rfl rfl 1 () true (by decide) rfl rfl

end CredentialSession

end PasswordHook
