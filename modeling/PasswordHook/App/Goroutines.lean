import PasswordHook.App.Channels

/-!
# The goroutines in every run

Each `go` statement starts one goroutine, and nothing that is sent is lost.  So the counter of the
server has the handlers that run, and none runs once `Shutdown` has returned; `ListenAndServe`
returns `ErrServerClosed` to `Server.Run` only when it was shut down; and `App.Run` closes when the
server and the worker have returned (`waited_of_closing`).
-/

namespace PasswordHook

open Prog

section

variable {J : Json} {w : Worker} {closers : List (Option Closer)} {W W' : RunWorld} {ℓ : RunLabel}

/-! ## One goroutine for each `go` statement -/

theorem index_eq_zero (h : Reach (lifecycle J w closers) StartedOnce W) {k : Goroutine}
    (hk : k ≠ .handler) {i : ℕ} (hi : i ≠ 0) : W.pool k i = none := by
  refine h.invariant (P := fun W => ∀ k i, k ≠ Goroutine.handler → i ≠ 0 → W.pool k i = none)
    (fun _ _ _ _ _ _ => rfl) ?_ k i hk hi
  intro W ℓ W' hW hℓ hs k i hk hi
  cases hs with
  | @spawn k' i' p free allowed =>
    rw [World.setThread_pool_of_ne W _ ?_]
    · exact hW k i hk hi
    · rintro ⟨rfl, rfl⟩
      exact hi (hℓ k i p rfl hk)
  | @call k' i' t c f r s thread next answer =>
    rw [World.setThread_pool_of_ne _ _ ?_]
    · exact hW k i hk hi
    · rintro ⟨rfl, rfl⟩
      rw [hW k i hk hi] at thread
      exact absurd thread (by simp)
  | env change => exact hW k i hk hi

theorem server_steps (h : Reach (lifecycle J w closers) StartedOnce W) {i : ℕ} {t : ServerThread}
    (ht : W.pool .server i = some t) : Steps serverThread t.past t.rest := by
  obtain ⟨s, -, hstart⟩ := h.started ht
  exact hstart ▸ h.threaded .server i t ht

theorem listener_steps (h : Reach (lifecycle J w closers) StartedOnce W) {i : ℕ}
    {t : ListenerThread} (ht : W.pool .listener i = some t) :
    Steps listenerThread t.past t.rest := by
  obtain ⟨s, -, hstart⟩ := h.started ht
  exact hstart ▸ h.threaded .listener i t ht

theorem worker_steps (h : Reach (lifecycle J w closers) StartedOnce W) {i : ℕ} {t : WorkerRunThread}
    (ht : W.pool .worker i = some t) : ∃ rounds, Steps (workerThread J w rounds) t.past t.rest := by
  obtain ⟨s, -, rounds, hstart⟩ := h.started ht
  exact ⟨rounds + 1, hstart ▸ h.threaded .worker i t ht⟩

theorem app_steps (h : Reach (lifecycle J w closers) StartedOnce W) {i : ℕ} {t : AppThread}
    (ht : W.pool .app i = some t) : Steps (runApp closers) t.past t.rest := by
  obtain ⟨s, hstart⟩ := h.started ht
  have hstart : t.start = runApp closers := hstart
  exact hstart ▸ h.threaded .app i t ht

theorem handler_steps (h : Reach (lifecycle J w closers) StartedOnce W) {i : ℕ} {t : HandlerThread}
    (ht : W.pool .handler i = some t) : ∃ body, Steps (handlerThread body) t.past t.rest := by
  obtain ⟨s, body, hstart⟩ := h.started ht
  exact ⟨body, hstart ▸ h.threaded .handler i t ht⟩

/-! ## The channels in every run -/

theorem sum_goroutines (W : RunWorld) (f : (k : Goroutine) → Thread k.interface k.Result → ℕ) :
    W.sum f = W.total .app (f .app) +
      (W.total .server (f .server) + (W.total .listener (f .listener) +
      (W.total .worker (f .worker) + W.total .handler (f .handler)))) := by
  have huniv : (Finset.univ : Finset Goroutine) = {.app, .server, .listener, .worker, .handler} :=
    rfl
  rw [World.sum, huniv, Finset.sum_insert (by decide), Finset.sum_insert (by decide),
    Finset.sum_insert (by decide), Finset.sum_insert (by decide), Finset.sum_singleton]

theorem total_none {V : Type} (h : W.Finite) (k : Goroutine) (P : V → Bool) :
    (W.total k fun t => tally (fun _ => none) P t.past) = 0 :=
  (World.total_eq_zero_iff h).2 fun _ _ _ => List.countP_eq_zero.2 fun _ _ => by simp

theorem total_once (h : Reach (lifecycle J w closers) StartedOnce W) {k : Goroutine}
    (hk : k ≠ .handler) (f : Thread k.interface k.Result → ℕ) :
    W.total k f = (W.pool k 0).elim 0 f :=
  World.total_of_index fun _ hj => index_eq_zero h hk hj

/-- The results that were sent are those that were received and those still on the way. -/
theorem errCh_conserved (h : Reach (lifecycle J w closers) StartedOnce W) (P : Option Err → Bool) :
    ((W.pool .server 0).elim 0 fun t : ServerThread => tally ServerRunEvent.sent P t.past) +
        ((W.pool .worker 0).elim 0 fun t : WorkerRunThread => tally WorkerRunEvent.sent P t.past) =
      W.shared.errCh.countP P +
        ((W.pool .app 0).elim 0 fun t : AppThread => tally AppRunEvent.received P t.past) := by
  obtain ⟨hfinite, hsum⟩ := (errChannel J w closers).conserved h P
  have hnone := fun k => total_none hfinite k P
  rw [Channel.sentIn, Channel.receivedIn, sum_goroutines, sum_goroutines] at hsum
  dsimp only [errChannel] at hsum
  simp only [hnone, Nat.zero_add, Nat.add_zero] at hsum
  rw [total_once h (by decide), total_once h (by decide), total_once h (by decide)] at hsum
  exact hsum

theorem listenCh_conserved (h : Reach (lifecycle J w closers) StartedOnce W) (P : Err → Bool) :
    ((W.pool .listener 0).elim 0 fun t : ListenerThread => tally ListenerEvent.sent P t.past) =
      W.shared.listenCh.countP P +
        ((W.pool .server 0).elim 0 fun t : ServerThread =>
          tally ServerRunEvent.received P t.past) := by
  obtain ⟨hfinite, hsum⟩ := (listenChannel J w closers).conserved h P
  have hnone := fun k => total_none hfinite k P
  rw [Channel.sentIn, Channel.receivedIn, sum_goroutines, sum_goroutines] at hsum
  dsimp only [listenChannel] at hsum
  simp only [hnone, Nat.zero_add, Nat.add_zero] at hsum
  rw [total_once h (by decide), total_once h (by decide)] at hsum
  exact hsum

/-- The counter of the server has the handlers that run. -/
theorem active_eq_running (h : Reach (lifecycle J w closers) StartedOnce W) :
    W.Finite ∧ W.shared.active = W.total .handler HandlerThread.running := by
  obtain ⟨hfinite, hsum⟩ := (handlerChannel J w closers).conserved h fun _ => true
  refine ⟨hfinite, ?_⟩
  have hnone := fun k => total_none hfinite k fun _ : Unit => true
  rw [Channel.sentIn, Channel.receivedIn, sum_goroutines, sum_goroutines] at hsum
  dsimp only [handlerChannel] at hsum
  simp only [hnone, List.countP_replicate, if_true, Nat.zero_add] at hsum
  have hrunning : (W.total .handler fun t : HandlerThread =>
      tally HandlerEvent.entered (fun _ => true) t.past) =
      W.total .handler fun t : HandlerThread =>
        tally HandlerEvent.left (fun _ => true) t.past + HandlerThread.running t :=
    World.total_congr fun i t ht => by
      obtain ⟨body, hsteps⟩ := handler_steps h ht
      exact (handler_running hsteps).1
  have hflow :
      (W.total .handler fun t : HandlerThread => tally HandlerEvent.left (fun _ => true) t.past) +
      W.total .handler HandlerThread.running = W.shared.active +
        W.total .handler fun t : HandlerThread => tally HandlerEvent.left (fun _ => true) t.past :=
    ((World.total_add hfinite).symm.trans hrunning.symm).trans hsum
  omega

/-! ## No handler runs after `Shutdown` -/

theorem idle_call {k : Goroutine} {c : k.interface.Call} {s s' : RunState} {r : k.interface.Resp c}
    (h : (lifecycle J w closers).call k c s r s') (idle : s.shutdown = true → s.active = 0) :
    s'.shutdown = true → s'.active = 0 := by
  cases k with
  | app =>
    obtain ⟨_, _, _, _, -, -, -, rfl⟩ := appRunAnswer_frame h
    exact idle
  | server =>
    rcases serverRunAnswer_cases h with ⟨-, rfl⟩ | ⟨-, hactive, rfl⟩ | ⟨_, _, _, -, rfl⟩
    · exact idle
    · exact fun _ => hactive
    · exact idle
  | listener =>
    obtain ⟨_, _, rfl⟩ := listenerAnswer_frame h
    exact idle
  | worker =>
    obtain ⟨_, rfl⟩ := workerRunAnswer_frame h
    exact idle
  | handler =>
    cases c with
    | enter =>
      obtain ⟨-, hopen, rfl⟩ := h
      exact fun hshutdown => absurd (hopen.symm.trans hshutdown) Bool.false_ne_true
    | hook c =>
      obtain rfl := h
      exact idle
    | leave =>
      obtain ⟨hactive, hs'⟩ := h
      intro hshutdown
      rw [hs'] at hshutdown
      have := idle hshutdown
      omega

theorem idle_of_shutdown (h : Reach (lifecycle J w closers) StartedOnce W) :
    W.shared.shutdown = true → W.shared.active = 0 := by
  refine h.shared (F := fun s => s.shutdown = true → s.active = 0) ?_ ?_ ?_
  · rintro s rfl
    exact fun _ => rfl
  · exact fun k c s r s' hcall idle => idle_call hcall idle
  · rintro s s' rfl idle
    exact idle

/-- Once `Shutdown` has returned, every handler has returned or will never be started. -/
theorem handlers_returned (h : Reach (lifecycle J w closers) StartedOnce W)
    (hshutdown : W.shared.shutdown = true) {i : ℕ} {t : HandlerThread}
    (ht : W.pool .handler i = some t) : t.past = [] ∨ t.rest = .ret () := by
  obtain ⟨hfinite, hactive⟩ := active_eq_running h
  rw [idle_of_shutdown h hshutdown] at hactive
  have hzero : HandlerThread.running t = 0 :=
    (World.total_eq_zero_iff hfinite).1 hactive.symm i t ht
  obtain ⟨body, hsteps⟩ := handler_steps h ht
  rcases handlerAt_of_steps hsteps with hpast | ⟨τ, c, k, hpast, hinside, -, -⟩ | ⟨τ, -, -, hrest⟩
  · exact .inl hpast
  · obtain ⟨hentered, hleft⟩ := tally_inside hinside
    rw [HandlerThread.running, hpast, tally_cons, tally_cons, hentered, hleft] at hzero
    exact absurd hzero Nat.one_ne_zero
  · exact .inr hrest

/-! ## `ListenAndServe` that fails by itself -/

/-- The error that `ListenAndServe` returns. -/
def ListenerEvent.failed : ListenerEvent → Option Err
  | ⟨.listen, err⟩ => err
  | ⟨.serve, err⟩ => some err
  | _ => none

/-- Before `Shutdown` is called, `ListenAndServe` returns other errors than `ErrServerClosed`. -/
structure ListensAlone (W : RunWorld) : Prop where
  stopped : W.shared.inShutdown = true →
    ∃ t : ServerThread, W.pool .server 0 = some t ∧ (⟨.beginShutdown, ()⟩ : ServerRunEvent) ∈ t.past
  sent : W.shared.inShutdown = false → ∀ err ∈ W.shared.listenCh, err.is errServerClosed = false
  failed : W.shared.inShutdown = false → ∀ i (t : ListenerThread), W.pool .listener i = some t →
    ∀ e ∈ t.past, ∀ err ∈ ListenerEvent.failed e, err.is errServerClosed = false
  selected : ∀ t : ServerThread, W.pool .server 0 = some t →
    ∀ err, (⟨.selectDone, some err⟩ : ServerRunEvent) ∈ t.past → err.is errServerClosed = false

/-- A call that begins the shutdown is one of the server. -/
theorem beginShutdown_of_call {k : Goroutine} {c : k.interface.Call} {s s' : RunState}
    {r : k.interface.Resp c} (h : (lifecycle J w closers).call k c s r s')
    (hbefore : s.inShutdown = false) (hafter : s'.inShutdown = true) :
    (⟨k, c⟩ : (k : Goroutine) × k.interface.Call) = ⟨.server, ServerRunCall.beginShutdown⟩ := by
  have same : s'.inShutdown = s.inShutdown → False := fun heq =>
    absurd (hbefore.symm.trans (heq.symm.trans hafter)) Bool.false_ne_true
  cases k with
  | app =>
    obtain ⟨_, _, _, _, -, -, -, rfl⟩ := appRunAnswer_frame h
    exact (same rfl).elim
  | server =>
    rcases serverRunAnswer_cases h with ⟨rfl, -⟩ | ⟨-, -, rfl⟩ | ⟨_, _, _, -, rfl⟩
    · rfl
    · exact (same rfl).elim
    · exact (same rfl).elim
  | listener =>
    obtain ⟨_, _, rfl⟩ := listenerAnswer_frame h
    exact (same rfl).elim
  | worker =>
    obtain ⟨_, rfl⟩ := workerRunAnswer_frame h
    exact (same rfl).elim
  | handler =>
    obtain ⟨_, rfl⟩ := handlerAnswer_frame h
    exact (same rfl).elim

theorem ListensAlone.stopped_step (hW : ListensAlone W)
    (hreach : Reach (lifecycle J w closers) StartedOnce W)
    (hs : Step (lifecycle J w closers) W ℓ W') (hin : W'.shared.inShutdown = true) :
    ∃ t : ServerThread, W'.pool .server 0 = some t ∧
      (⟨.beginShutdown, ()⟩ : ServerRunEvent) ∈ t.past := by
  by_cases hbefore : W.shared.inShutdown = true
  · obtain ⟨t, ht, hpast⟩ := hW.stopped hbefore
    obtain ⟨t', ht', -, hprefix⟩ := hs.thread_mono ht
    exact ⟨t', ht', hprefix.subset hpast⟩
  · rw [Bool.not_eq_true] at hbefore
    cases hs with
    | spawn free allowed => exact absurd (hbefore.symm.trans hin) Bool.false_ne_true
    | @call k i t c f r s thread next answer =>
      cases beginShutdown_of_call answer hbefore hin
      have hi : i = 0 := by
        by_contra hi
        exact absurd (thread.symm.trans (index_eq_zero hreach (by decide) hi)) (by simp)
      subst hi
      exact ⟨_, World.setThread_pool_self _ _ _ _, List.mem_append_right _ List.mem_cons_self⟩
    | env change =>
      obtain rfl := change
      exact absurd (hbefore.symm.trans hin) Bool.false_ne_true

theorem advances_step (hs : Step (lifecycle J w closers) W ℓ W') : W.shared.Advances W'.shared := by
  cases hs with
  | spawn free allowed => exact ⟨id, id, id, id, id, id⟩
  | call thread next answer => exact advances_call answer
  | env change => exact advances_env change

theorem before_step (hs : Step (lifecycle J w closers) W ℓ W') (h : W'.shared.inShutdown = false) :
    W.shared.inShutdown = false := by
  by_contra hin
  rw [Bool.not_eq_false] at hin
  exact absurd (h.symm.trans ((advances_step hs).inShutdown hin)) Bool.false_ne_true

/-- The goroutine of the listener sends the error that it got. -/
theorem failed_of_send {past : List ListenerEvent} {err : Err} (h : ListenerAt past (.send err)) :
    ∃ e ∈ past, ListenerEvent.failed e = some err := by
  cases h with
  | refused => exact ⟨_, List.mem_cons_self, rfl⟩
  | served => exact ⟨_, List.mem_cons_of_mem _ List.mem_cons_self, rfl⟩

theorem ListensAlone.sent_step (hW : ListensAlone W)
    (hreach : Reach (lifecycle J w closers) StartedOnce W)
    (hs : Step (lifecycle J w closers) W ℓ W') (hin : W'.shared.inShutdown = false) {err : Err}
    (herr : err ∈ W'.shared.listenCh) :
    err.is errServerClosed = false := by
  have hbefore := before_step hs hin
  cases hs with
  | spawn free allowed => exact hW.sent hbefore err herr
  | @call k i t c f r s thread next answer =>
    cases k with
    | app =>
      obtain ⟨_, _, _, _, -, -, -, rfl⟩ := appRunAnswer_frame answer
      exact hW.sent hbefore err herr
    | server =>
      have hch := serverRunAnswer_listenCh answer
      exact hW.sent hbefore err (hch ▸ List.mem_append_right _ herr)
    | listener =>
      have hch : s.listenCh = _ := listenerAnswer_listenCh answer
      rw [World.setThread_shared, hch] at herr
      rcases List.mem_append.1 herr with herr | herr
      · exact hW.sent hbefore err herr
      · cases c with
        | send err' =>
          obtain rfl := List.mem_singleton.1 herr
          rcases listenerAt_of_steps (listener_steps hreach thread) with ⟨c, f', hrest, hat⟩ |
            ⟨_, _, -, hrest, -⟩
          · rw [next] at hrest
            cases hrest
            obtain ⟨e, he, hfailed⟩ := failed_of_send hat
            exact hW.failed hbefore i t thread e he err hfailed
          · rw [next] at hrest
            cases hrest
        | _ => exact absurd herr List.not_mem_nil
    | worker =>
      obtain ⟨_, rfl⟩ := workerRunAnswer_frame answer
      exact hW.sent hbefore err herr
    | handler =>
      obtain ⟨_, rfl⟩ := handlerAnswer_frame answer
      exact hW.sent hbefore err herr
  | env change =>
    obtain rfl := change
    exact hW.sent hbefore err herr

/-- Before `Shutdown` is called, an answer to the listener is an error of its own. -/
theorem listenerAnswer_failed {c : ListenerCall} {s s' : RunState} {r : c.Resp}
    (h : listenerAnswer c s r s') (hin : s.inShutdown = false) {err : Err}
    (hfailed : ListenerEvent.failed ⟨c, r⟩ = some err) : err.is errServerClosed = false := by
  have own : ListenErr s err → err.is errServerClosed = false := by
    rintro (⟨hshutdown, -⟩ | hown)
    · exact absurd (hin.symm.trans hshutdown) Bool.false_ne_true
    · exact hown
  cases c with
  | listen =>
    cases r with
    | none => cases hfailed
    | some err' =>
      cases hfailed
      exact own h.1
  | serve =>
    cases hfailed
    exact own h.1
  | send err' => cases hfailed

theorem ListensAlone.failed_step (hW : ListensAlone W) (hs : Step (lifecycle J w closers) W ℓ W')
    (hin : W'.shared.inShutdown = false) {i : ℕ} {t : ListenerThread}
    (ht : W'.pool .listener i = some t) {e : ListenerEvent} (he : e ∈ t.past) {err : Err}
    (herr : ListenerEvent.failed e = some err) : err.is errServerClosed = false := by
  have hbefore := before_step hs hin
  rcases hs.pool_cases ht with ⟨hpast, -⟩ | ⟨t₀, c, f, r, h₀, -, -, answer, rfl⟩ | h₀
  · rw [hpast] at he
    exact absurd he List.not_mem_nil
  · rcases List.mem_append.1 he with he | he
    · exact hW.failed hbefore i t₀ h₀ e he err herr
    · rw [List.mem_singleton.1 he] at herr
      exact listenerAnswer_failed answer hbefore herr
  · exact hW.failed hbefore i t h₀ e he err herr

theorem not_stopped_of_select {past : List ServerRunEvent} (h : ServerAt past .selectDone) :
    (⟨.beginShutdown, ()⟩ : ServerRunEvent) ∉ past := by
  cases h with
  | select =>
    intro hmem
    cases List.mem_singleton.1 hmem

theorem ListensAlone.selected_step (hW : ListensAlone W)
    (hreach : Reach (lifecycle J w closers) StartedOnce W)
    (hs : Step (lifecycle J w closers) W ℓ W') {t : ServerThread} (ht : W'.pool .server 0 = some t)
    {err : Err} (herr : (⟨.selectDone, some err⟩ : ServerRunEvent) ∈ t.past) :
    err.is errServerClosed = false := by
  rcases hs.pool_cases ht with ⟨hpast, -⟩ | ⟨t₀, c, f, r, h₀, hnext, -, answer, rfl⟩ | h₀
  · rw [hpast] at herr
    exact absurd herr List.not_mem_nil
  · rcases List.mem_append.1 herr with herr | herr
    · exact hW.selected t₀ h₀ err herr
    · obtain ⟨rfl, hr⟩ := Event.mk.inj (List.mem_singleton.1 herr)
      obtain rfl := eq_of_heq hr
      -- the server has not called `Shutdown` yet, so nobody has
      have hbefore : W.shared.inShutdown = false := by
        by_contra hin
        obtain ⟨t', ht', hstopped⟩ := hW.stopped (by rwa [Bool.not_eq_false] at hin)
        rw [h₀, Option.some.injEq] at ht'
        subst ht'
        rcases serverAt_of_steps (server_steps hreach h₀) with ⟨c, f', hrest, hat⟩ |
          ⟨_, _, -, hrest, -⟩
        · rw [hnext] at hrest
          cases hrest
          exact not_stopped_of_select hat hstopped
        · rw [hnext] at hrest
          cases hrest
      obtain ⟨rest, hch, -⟩ := answer
      exact hW.sent hbefore err (hch ▸ List.mem_cons_self)
  · exact hW.selected t h₀ err herr

theorem listensAlone_of_reach (h : Reach (lifecycle J w closers) StartedOnce W) :
    ListensAlone W := by
  induction h with
  | init hinit =>
    obtain rfl := hinit
    exact
      { stopped := fun hin => absurd hin Bool.false_ne_true
        sent := fun _ err herr => absurd herr List.not_mem_nil
        failed := fun _ i t ht => absurd ht (by simp)
        selected := fun t ht => absurd ht (by simp) }
  | step hreach _ hs hW =>
    exact
      { stopped := hW.stopped_step hreach hs
        sent := fun hin err herr => hW.sent_step hreach hs hin herr
        failed := fun hin i t ht e he err herr => hW.failed_step hs hin ht he herr
        selected := fun t ht err herr => hW.selected_step hreach hs ht herr }

/-! ## Closing -/

def AppRunEvent.isWiring : AppRunEvent → Bool
  | ⟨.wiring _, _⟩ => true
  | _ => false

/-- `App.Run` has called a closer or has returned. -/
def AppThread.Closing (t : AppThread) : Prop :=
  (∃ e ∈ t.past, AppRunEvent.isWiring e = true) ∨ ∃ result, t.rest = .ret result

theorem not_wiring_of_appAt {past : List AppRunEvent} {c : AppRunCall} (h : AppAt past c) :
    past.any AppRunEvent.isWiring = false := by
  cases h <;> rfl

/-- Then it has received two results. -/
theorem received_of_closing (h : Reach (lifecycle J w closers) StartedOnce W) {i : ℕ}
    {t : AppThread} (ht : W.pool .app i = some t) (hclosing : AppThread.Closing t) :
    ∃ err err' τ, t.past = waited err err' ++ τ ∧
      Steps (closing closers (err.or err')) τ t.rest := by
  rcases appAt_of_steps (app_steps h ht) with ⟨c, k, hrest, hat⟩ | hwaited
  · exfalso
    rcases hclosing with ⟨e, he, hwiring⟩ | ⟨result, hresult⟩
    · exact absurd (List.any_eq_true.2 ⟨e, he, hwiring⟩) (by rw [not_wiring_of_appAt hat]; simp)
    · rw [hrest] at hresult
      cases hresult
  · exact hwaited

theorem only_closing (closers : List (Option Closer)) (runtimeErr : Option Err) :
    (closing closers runtimeErr).Only fun c : AppRunCall => ∃ c', c = .wiring c' := by
  refine Only.bind (only_interp (fun c => ?_) _) fun _ => trivial
  exact ⟨⟨c, rfl⟩, fun _ => trivial⟩

/-- What was received by then. -/
theorem tally_waited {runtimeErr : Option Err} {τ : List AppRunEvent}
    {rest : AppRunProg (Option Err)} (h : Steps (closing closers runtimeErr) τ rest)
    (err err' : Option Err) (P : Option Err → Bool) :
    tally AppRunEvent.received P (waited err err' ++ τ) =
      (if P err then 1 else 0) + if P err' then 1 else 0 := by
  have hclosing : tally AppRunEvent.received P τ = 0 := by
    apply List.countP_eq_zero.2
    intro e he
    obtain ⟨c', hc'⟩ := ((only_closing closers runtimeErr).steps h).1 e he
    obtain ⟨c, r⟩ := e
    obtain rfl : c = .wiring c' := hc'
    simp [AppRunEvent.received]
  rw [tally_append, hclosing]
  cases hP : P err <;> cases hP' : P err' <;> simp [tally, waited, AppRunEvent.received, hP, hP']

/-- The goroutine of the server at a time when it has sent its result, or its share is nothing. -/
theorem server_share (h : Reach (lifecycle J w closers) StartedOnce W) :
    (∀ P, ((W.pool .server 0).elim 0 fun t : ServerThread =>
      tally ServerRunEvent.sent P t.past) = 0) ∨
      ∃ (t : ServerThread) (τ : List ServerRunEvent) (err : Option Err), W.pool .server 0 = some t ∧
        t.past = τ ++ [⟨.send err, ()⟩] ∧ t.rest = .ret () ∧ ServerAt τ (.send err) ∧
        ∀ P, ((W.pool .server 0).elim 0 fun t : ServerThread =>
          tally ServerRunEvent.sent P t.past) = if P err then 1 else 0 := by
  cases ht : W.pool .server 0 with
  | none => exact .inl fun P => rfl
  | some t =>
    rcases server_sent (server_steps h ht) with ⟨-, hnone⟩ | ⟨τ, err, hpast, hrest, hat, hshare⟩
    · exact .inl hnone
    · exact .inr ⟨t, τ, err, rfl, hpast, hrest, hat, hshare⟩

theorem worker_share (h : Reach (lifecycle J w closers) StartedOnce W) :
    (∀ P, ((W.pool .worker 0).elim 0 fun t : WorkerRunThread =>
      tally WorkerRunEvent.sent P t.past) = 0) ∨
      ∃ (t : WorkerRunThread) (τ : List WorkerRunEvent) (err : Option Err),
        W.pool .worker 0 = some t ∧ t.past = τ ++ [⟨.send err, ()⟩] ∧ t.rest = .ret () ∧
        ∀ P, ((W.pool .worker 0).elim 0 fun t : WorkerRunThread =>
          tally WorkerRunEvent.sent P t.past) = if P err then 1 else 0 := by
  cases ht : W.pool .worker 0 with
  | none => exact .inl fun P => rfl
  | some t =>
    obtain ⟨rounds, hsteps⟩ := worker_steps h ht
    rcases worker_sent hsteps with hnone | ⟨τ, err, hpast, hrest, hshare⟩
    · exact .inl hnone
    · exact .inr ⟨t, τ, err, rfl, hpast, hrest, hshare⟩

/-- What is known once `App.Run` closes: both goroutines have returned, and it has received both
results. -/
structure Waited (closers : List (Option Closer)) (W : RunWorld) (t : AppThread)
    (serverErr workerErr : Option Err) : Prop where
  server : ∃ (v : ServerThread) (τ : List ServerRunEvent), W.pool .server 0 = some v ∧
    v.past = τ ++ [⟨.send serverErr, ()⟩] ∧ v.rest = .ret () ∧ ServerAt τ (.send serverErr)
  worker : ∃ (u : WorkerRunThread) (τ : List WorkerRunEvent), W.pool .worker 0 = some u ∧
    u.past = τ ++ [⟨.send workerErr, ()⟩] ∧ u.rest = .ret ()
  app : ∃ err err' τ, t.past = waited err err' ++ τ ∧
    Steps (closing closers (err.or err')) τ t.rest ∧
    (err.or err' = none ↔ serverErr = none ∧ workerErr = none)

theorem waited_of_closing (h : Reach (lifecycle J w closers) StartedOnce W) {t : AppThread}
    (ht : W.pool .app 0 = some t) (hclosing : AppThread.Closing t) :
    ∃ serverErr workerErr, Waited closers W t serverErr workerErr := by
  obtain ⟨err, err', τ, hpast, hsteps⟩ := received_of_closing h ht hclosing
  have hreceived :
      ∀ P, ((W.pool .app 0).elim 0 fun t : AppThread => tally AppRunEvent.received P t.past) =
      (if P err then 1 else 0) + if P err' then 1 else 0 := by
    intro P
    rw [ht, Option.elim_some, hpast]
    exact tally_waited hsteps err err' P
  have hall := errCh_conserved h fun _ => true
  have hsome := errCh_conserved h fun e => e.isSome
  rw [hreceived] at hall hsome
  simp only [if_true] at hall
  rcases server_share h with hserver | ⟨v, τ₁, serverErr, hv, hvpast, hvrest, hat, hserver⟩
  · rcases worker_share h with hworker | ⟨u, τ₂, workerErr, -, -, -, hworker⟩
    · rw [hserver, hworker] at hall
      omega
    · rw [hserver, hworker] at hall
      simp only [if_true] at hall
      omega
  · rcases worker_share h with hworker | ⟨u, τ₂, workerErr, hu, hupast, hurest, hworker⟩
    · rw [hserver, hworker] at hall
      simp only [if_true] at hall
      omega
    · rw [hserver, hworker] at hall hsome
      simp only [if_true] at hall
      rw [List.countP_true] at hall
      have hempty : W.shared.errCh = [] := List.length_eq_zero_iff.1 (by omega)
      refine ⟨serverErr, workerErr, ⟨v, τ₁, hv, hvpast, hvrest, hat⟩, ⟨u, τ₂, hu, hupast, hurest⟩,
        err, err', τ, hpast, hsteps, ?_⟩
      rw [hempty] at hsome
      cases err <;> cases err' <;> cases serverErr <;> cases workerErr <;> simp_all

/-! ## The channels never fill up -/

theorem errCh_length_le (h : Reach (lifecycle J w closers) StartedOnce W) :
    W.shared.errCh.length ≤ 2 := by
  have hall := errCh_conserved h fun _ => true
  rw [List.countP_true] at hall
  have hserver : ((W.pool .server 0).elim 0 fun t : ServerThread =>
      tally ServerRunEvent.sent (fun _ => true) t.past) ≤ 1 := by
    rcases server_share h with hserver | ⟨_, _, _, -, -, -, -, hserver⟩ <;> simp [hserver]
  have hworker : ((W.pool .worker 0).elim 0 fun t : WorkerRunThread =>
      tally WorkerRunEvent.sent (fun _ => true) t.past) ≤ 1 := by
    rcases worker_share h with hworker | ⟨_, _, _, -, -, -, hworker⟩ <;> simp [hworker]
  omega

theorem listenCh_length_le (h : Reach (lifecycle J w closers) StartedOnce W) :
    W.shared.listenCh.length ≤ 1 := by
  have hall := listenCh_conserved h fun _ => true
  rw [List.countP_true] at hall
  cases ht : W.pool .listener 0 with
  | none =>
    rw [ht, Option.elim_none] at hall
    omega
  | some t =>
    rw [ht, Option.elim_some] at hall
    rcases listener_sent (listener_steps h ht) with ⟨-, hnone⟩ | ⟨_, _, -, -, -, hshare⟩
    · rw [hnone] at hall
      omega
    · rw [hshare, if_pos rfl] at hall
      omega

end

end PasswordHook
