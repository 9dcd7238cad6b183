import PasswordHook.App.Goroutines
import PasswordHook.Lib.Termination

/-!
# The service stops

After the context is done the goroutines wait for each other: `App.Run` for the results of the
server and the worker, the server for the handlers and for `ListenAndServe`.  None of them waits in
vain (`exists_stopStep`) and none goes on for ever, so `App.Run` returns (`shutdown_completes`),
unless requests come in for ever before the server begins to shut down.
-/

namespace PasswordHook

open Prog

/-- The steps of the goroutines while no request comes in: all but those of the environment and the
start of another handler. -/
def RunLabel.Stops : RunLabel → Prop
  | .env => False
  | .spawn k _ _ => k ≠ .handler
  | .call _ _ _ => True

section

variable {J : Json} {w : Worker} {closers : List (Option Closer)} {W W' : RunWorld} {ℓ : RunLabel}

/-- A step of some goroutine while no request comes in. -/
def StopStep (J : Json) (w : Worker) (closers : List (Option Closer)) (W W' : RunWorld) : Prop :=
  ∃ ℓ, Step (lifecycle J w closers) W ℓ W' ∧ StartedOnce W ℓ ∧ RunLabel.Stops ℓ

/-- Some goroutine can go on. -/
def CanStop (J : Json) (w : Worker) (closers : List (Option Closer)) (W : RunWorld) : Prop :=
  ∃ W', StopStep J w closers W W'

theorem canStop_call {k : Goroutine} {i : ℕ} {t : Thread k.interface k.Result}
    {c : k.interface.Call} {f : k.interface.Resp c → Prog k.interface k.Result} {s : RunState}
    (ht : W.pool k i = some t) (hrest : t.rest = .call c f) (r : k.interface.Resp c)
    (answer : (lifecycle J w closers).call k c W.shared r s) : CanStop J w closers W := by
  refine ⟨_, _, Step.call ht hrest answer, ?_, True.intro⟩
  rintro _ _ _ ⟨⟩

theorem canStop_spawn {k : Goroutine} {p : Prog k.interface k.Result} (hk : k ≠ .handler)
    (free : W.pool k 0 = none) (allowed : (lifecycle J w closers).spawn W.shared k p) :
    CanStop J w closers W := by
  refine ⟨_, .spawn k 0 p, Step.spawn free allowed, ?_, hk⟩
  rintro k' i' p' heq -
  cases heq
  rfl

/-! ## The listener -/

theorem canStop_listener (h : Reach (lifecycle J w closers) StartedOnce W)
    (hgo : W.shared.listenerGo = true) (hin : W.shared.inShutdown = true) :
    CanStop J w closers W ∨ ∃ t : ListenerThread, W.pool .listener 0 = some t ∧
      tally ListenerEvent.sent (fun _ => true) t.past = 1 := by
  cases ht : W.pool .listener 0 with
  | none => exact .inl (canStop_spawn (k := .listener) (by decide) ht ⟨hgo, rfl⟩)
  | some t =>
    rcases listener_sent (listener_steps h ht) with ⟨⟨c, f, hrest, hat⟩, -⟩ |
      ⟨_, err, -, -, -, hshare⟩
    · left
      have hclosed : ListenErr W.shared errServerClosed := .inl ⟨hin, rfl⟩
      cases c with
      | listen => exact canStop_call (k := .listener) ht hrest (some errServerClosed) ⟨hclosed, rfl⟩
      | serve => exact canStop_call (k := .listener) ht hrest errServerClosed ⟨hclosed, rfl⟩
      | send err => exact canStop_call (k := .listener) ht hrest () rfl
    · exact .inr ⟨t, rfl, hshare fun _ => true⟩

/-! ## The handlers -/

theorem canStop_handler (h : Reach (lifecycle J w closers) StartedOnce W)
    (hactive : W.shared.active ≠ 0) : CanStop J w closers W := by
  obtain ⟨hfinite, hrunning⟩ := active_eq_running h
  obtain ⟨i, t, ht, hone⟩ : ∃ i, ∃ t : HandlerThread, W.pool .handler i = some t ∧
      HandlerThread.running t ≠ 0 := by
    by_contra hnone
    push Not at hnone
    exact hactive (hrunning.trans ((World.total_eq_zero_iff hfinite).2 hnone))
  obtain ⟨body, hsteps⟩ := handler_steps h ht
  rcases (handler_running hsteps).2 with ⟨hzero, -⟩ | ⟨c, f, hrest, hc⟩
  · exact absurd hzero hone
  · cases c with
    | enter => exact absurd rfl hc
    | hook c =>
      obtain ⟨r⟩ := hook_resp_nonempty c
      exact canStop_call (k := .handler) ht hrest r rfl
    | leave =>
      refine canStop_call (k := .handler) (s := { W.shared with active := W.shared.active - 1 }) ht
        hrest () ⟨?_, rfl⟩
      show W.shared.active = W.shared.active - 1 + 1
      omega

/-! ## The server -/

theorem listenerGo_of_past (h : Reach (lifecycle J w closers) StartedOnce W) {i : ℕ}
    {t : ServerThread} (ht : W.pool .server i = some t)
    (hpast : (⟨.goListener, ()⟩ : ServerRunEvent) ∈ t.past) :
    W.shared.listenerGo = true := by
  refine h.lasting (k := .server) (F := fun s => s.listenerGo = true)
    (E := fun e : ServerRunEvent => e.call = .goListener) ?_ ?_ ?_ ht hpast rfl
  · rintro c s r s' answer rfl
    obtain rfl := answer
    rfl
  · exact fun k c s r s' answer => (advances_call answer).listenerGo
  · exact fun s s' change => (advances_env change).listenerGo

theorem inShutdown_of_past (h : Reach (lifecycle J w closers) StartedOnce W) {i : ℕ}
    {t : ServerThread} (ht : W.pool .server i = some t)
    (hpast : (⟨.beginShutdown, ()⟩ : ServerRunEvent) ∈ t.past) :
    W.shared.inShutdown = true := by
  refine h.lasting (k := .server) (F := fun s => s.inShutdown = true)
    (E := fun e : ServerRunEvent => e.call = .beginShutdown) ?_ ?_ ?_ ht hpast rfl
  · rintro c s r s' answer rfl
    obtain rfl := answer
    rfl
  · exact fun k c s r s' answer => (advances_call answer).inShutdown
  · exact fun s s' change => (advances_env change).inShutdown

theorem collect_past {past : List ServerRunEvent} (h : ServerAt past .receiveListen) :
    (⟨.goListener, ()⟩ : ServerRunEvent) ∈ past ∧ (⟨.beginShutdown, ()⟩ : ServerRunEvent) ∈ past ∧
      tally ServerRunEvent.received (fun _ => true) past = 0 := by
  cases h with
  | collect => exact ⟨by simp, by simp, rfl⟩

theorem canStop_server (h : Reach (lifecycle J w closers) StartedOnce W)
    (hdone : W.shared.done = true) (hgo : W.shared.serverGo = true)
    (hsent : ((W.pool .server 0).elim 0 fun t : ServerThread =>
      tally ServerRunEvent.sent (fun _ => true) t.past) = 0) : CanStop J w closers W := by
  cases ht : W.pool .server 0 with
  | none => exact canStop_spawn (k := .server) (by decide) ht ⟨hgo, rfl⟩
  | some t =>
    rw [ht, Option.elim_some] at hsent
    rcases server_sent (server_steps h ht) with ⟨⟨c, f, hrest, hat⟩, -⟩ | ⟨_, err, -, -, -, hshare⟩
    · cases c with
      | goListener => exact canStop_call (k := .server) ht hrest () rfl
      | selectDone => exact canStop_call (k := .server) ht hrest none ⟨hdone, rfl⟩
      | beginShutdown => exact canStop_call (k := .server) ht hrest () rfl
      | awaitIdle =>
        by_cases hactive : W.shared.active = 0
        · exact canStop_call (k := .server) ht hrest none ⟨hactive, rfl⟩
        · exact canStop_handler h hactive
      | receiveListen =>
        obtain ⟨hlaunched, hstopped, hreceived⟩ := collect_past hat
        rcases canStop_listener h (listenerGo_of_past h ht hlaunched)
          (inShutdown_of_past h ht hstopped)
          with hcan | ⟨t', ht', hone⟩
        · exact hcan
        · have hall := listenCh_conserved h fun _ => true
          rw [ht, ht', Option.elim_some, Option.elim_some, hone, hreceived,
            List.countP_true] at hall
          obtain ⟨err, rest, hch⟩ :=
            List.exists_cons_of_length_pos (l := W.shared.listenCh) (by omega)
          exact canStop_call (k := .server) ht hrest err ⟨rest, hch, rfl⟩
      | send err => exact canStop_call (k := .server) ht hrest () rfl
    · rw [hshare] at hsent
      exact absurd hsent (by simp)

/-! ## The worker -/

/-- The check of the context that finds it alive. -/
def WorkerCall.live : (c : WorkerCall) → c.Resp → Bool
  | .ctxErr, none => true
  | _, _ => false

/-- Each round of the loop has found the context alive. -/
theorem rounds_le_live {rounds : ℕ} {τ : List WorkerEvent} (h : Exec (run J w rounds) τ none) :
    rounds ≤ τ.countP fun e => WorkerCall.live e.call e.resp := by
  induction rounds generalizing τ with
  | zero => exact Nat.zero_le _
  | succ rounds ih =>
    obtain ⟨alive, τ₁, rfl, h₁⟩ := exec_call_iff.1 h
    cases alive with
    | some err => exact absurd (exec_ret_iff.1 h₁).2 (by simp)
    | none =>
      -- the other rounds are at the end of what follows
      obtain ⟨τ₂, hτ₂, hround⟩ : ∃ τ₂, τ₂ <:+ τ₁ ∧ Exec (run J w rounds) τ₂ none := by
        obtain ⟨received, τ₂, rfl, h₂⟩ := exec_call_iff.1 h₁
        cases received with
        | error err =>
          obtain ⟨alive, τ₃, rfl, h₃⟩ := exec_call_iff.1 h₂
          cases alive with
          | some err => exact absurd (exec_ret_iff.1 h₃).2 (by simp)
          | none => exact absurd (exec_ret_iff.1 h₃).2 (by simp)
        | ok msgs =>
          cases msgs with
          | nil =>
            obtain ⟨slept, τ₃, rfl, h₃⟩ := exec_call_iff.1 h₂
            cases slept with
            | some err => exact absurd (exec_ret_iff.1 h₃).2 (by simp)
            | none => exact ⟨τ₃, ⟨[_, _], rfl⟩, h₃⟩
          | cons msg msgs =>
            obtain ⟨result, τ₃, τ₄, rfl, -, h₃⟩ :=
              (exec_bind_iff (p := processBatch J w (msg :: msgs))).1 h₂
            cases result with
            | some result => exact absurd (exec_ret_iff.1 h₃).2 (by simp)
            | none => exact ⟨τ₄, ⟨_ :: τ₃, rfl⟩, h₃⟩
      rw [List.countP_cons_of_pos rfl]
      exact Nat.succ_le_succ ((ih hround).trans hτ₂.sublist.countP_le)

def WorkerRunEvent.live : WorkerRunEvent → Bool
  | ⟨.worker c, r⟩ => WorkerCall.live c r
  | _ => false

theorem live_implements {τ : List WorkerEvent} {τ' : List WorkerRunEvent}
    (h : Implements (fun c => (WorkerRunCall.worker c).perform) τ τ') :
    τ'.countP WorkerRunEvent.live = τ.countP fun e => WorkerCall.live e.call e.resp := by
  induction h with
  | nil => rfl
  | cons exec rest ih =>
    obtain ⟨r, τ₁, rfl, hret⟩ := exec_call_iff.1 exec
    obtain ⟨rfl, rfl⟩ := exec_ret_iff.1 hret
    rw [List.countP_append, ih, List.countP_singleton, List.countP_cons, Nat.add_comm]
    rfl

variable (J w) in
/-- The goroutine of the worker was started with more rounds than it has begun. -/
def Fueled (W : RunWorld) : Prop :=
  ∀ t : WorkerRunThread, W.pool .worker 0 = some t →
    ∃ rounds, t.start = workerThread J w rounds ∧ t.past.countP WorkerRunEvent.live < rounds

/-- Once the context is done, no further round is begun. -/
theorem Fueled.step (fueled : Fueled J w W) (hdone : W.shared.done = true)
    (hs : Step (lifecycle J w closers) W ℓ W') : Fueled J w W' := by
  intro t ht
  rcases hs.pool_cases ht with ⟨hpast, -, -, hspawn⟩ | ⟨t₀, c, f, r, h₀, -, -, answer, rfl⟩ | h₀
  · obtain ⟨-, rounds, hstart⟩ := hspawn
    exact ⟨rounds + 1, hstart, by simp [hpast]⟩
  · obtain ⟨rounds, hstart, hlt⟩ := fueled t₀ h₀
    refine ⟨rounds, hstart, ?_⟩
    have hdead : WorkerRunEvent.live ⟨c, r⟩ = false := by
      cases c with
      | send err => rfl
      | worker c =>
        cases c with
        | ctxErr =>
          cases r with
          | none => exact absurd rfl (answer.1.2 hdone)
          | some err => rfl
        | _ => rfl
    rw [List.countP_append, List.countP_singleton, hdead]
    exact hlt
  · exact fueled t h₀

/-- Such a goroutine returns after it has sent its result. -/
theorem Fueled.sent (fueled : Fueled J w W) (h : Reach (lifecycle J w closers) StartedOnce W)
    {t : WorkerRunThread} (ht : W.pool .worker 0 = some t) (hrest : t.rest = .ret ()) :
    ∃ err, (⟨.send err, ()⟩ : WorkerRunEvent) ∈ t.past := by
  obtain ⟨rounds, hstart, hlt⟩ := fueled t ht
  have hexec : Exec (workerThread J w rounds) t.past () := by
    have hsteps := h.threaded .worker 0 t ht
    rwa [hstart, hrest] at hsteps
  obtain ⟨result, τ₁, τ₂, hpast, hrun, hsend⟩ := exec_bind_iff.1 hexec
  cases result with
  | some err =>
    obtain ⟨r, τ, rfl, -⟩ := exec_call_iff.1 hsend
    exact ⟨err, hpast ▸ List.mem_append_right _ List.mem_cons_self⟩
  | none =>
    obtain ⟨τ, hrun', himpl⟩ := exec_interp hrun
    have hrounds := rounds_le_live hrun'
    rw [← live_implements himpl] at hrounds
    rw [hpast, List.countP_append] at hlt
    omega

theorem worker_answered {s : RunState} (hdone : s.done = true) (c : WorkerCall) :
    ∃ r : c.Resp, workerRunAnswer (.worker c) s r s := by
  obtain ⟨r⟩ := worker_resp_nonempty c
  cases c with
  | ctxErr => exact ⟨some .canceled, iff_of_true (Option.some_ne_none _) hdone, rfl⟩
  | _ => exact ⟨r, rfl⟩

theorem canStop_worker (h : Reach (lifecycle J w closers) StartedOnce W)
    (hdone : W.shared.done = true) (hgo : W.shared.workerGo = true) (fueled : Fueled J w W)
    (hsent : ((W.pool .worker 0).elim 0 fun t : WorkerRunThread =>
      tally WorkerRunEvent.sent (fun _ => true) t.past) = 0) : CanStop J w closers W := by
  cases ht : W.pool .worker 0 with
  | none => exact canStop_spawn (k := .worker) (by decide) ht ⟨hgo, 0, rfl⟩
  | some t =>
    rw [ht, Option.elim_some] at hsent
    cases hrest : t.rest with
    | ret a =>
      obtain ⟨err, hpast⟩ := fueled.sent h ht hrest
      have hnone := List.countP_eq_zero.1 hsent _ hpast
      exact absurd rfl hnone
    | call c f =>
      cases c with
      | send err => exact canStop_call (k := .worker) ht hrest () rfl
      | worker c =>
        obtain ⟨r, answer⟩ := worker_answered hdone c
        exact canStop_call (k := .worker) ht hrest r answer

/-! ## `App.Run` -/

theorem serverGo_of_past (h : Reach (lifecycle J w closers) StartedOnce W) {i : ℕ} {t : AppThread}
    (ht : W.pool .app i = some t) (hpast : (⟨.goServer, ()⟩ : AppRunEvent) ∈ t.past) :
    W.shared.serverGo = true := by
  refine h.lasting (k := .app) (F := fun s => s.serverGo = true)
    (E := fun e : AppRunEvent => e.call = .goServer) ?_ ?_ ?_ ht hpast rfl
  · rintro c s r s' answer rfl
    obtain rfl := answer
    rfl
  · exact fun k c s r s' answer => (advances_call answer).serverGo
  · exact fun s s' change => (advances_env change).serverGo

theorem workerGo_of_past (h : Reach (lifecycle J w closers) StartedOnce W) {i : ℕ} {t : AppThread}
    (ht : W.pool .app i = some t) (hpast : (⟨.goWorker, ()⟩ : AppRunEvent) ∈ t.past) :
    W.shared.workerGo = true := by
  refine h.lasting (k := .app) (F := fun s => s.workerGo = true)
    (E := fun e : AppRunEvent => e.call = .goWorker) ?_ ?_ ?_ ht hpast rfl
  · rintro c s r s' answer rfl
    obtain rfl := answer
    rfl
  · exact fun k c s r s' answer => (advances_call answer).workerGo
  · exact fun s s' change => (advances_env change).workerGo

theorem receive_past {past : List AppRunEvent} (h : AppAt past .receive) :
    (⟨.goServer, ()⟩ : AppRunEvent) ∈ past ∧ (⟨.goWorker, ()⟩ : AppRunEvent) ∈ past ∧
      tally AppRunEvent.received (fun _ => true) past ≤ 1 := by
  cases h with
  | first => exact ⟨by simp, by simp, Nat.zero_le 1⟩
  | second => exact ⟨by simp, by simp, Nat.le_refl 1⟩

theorem canStop_receive (h : Reach (lifecycle J w closers) StartedOnce W)
    (hdone : W.shared.done = true) (fueled : Fueled J w W) {t : AppThread}
    (ht : W.pool .app 0 = some t) {f : Option Err → AppRunProg (Option Err)}
    (hrest : t.rest = .call AppRunCall.receive f) (hat : AppAt t.past .receive) :
    CanStop J w closers W := by
  obtain ⟨hserver, hworker, hreceived⟩ := receive_past hat
  cases hch : W.shared.errCh with
  | cons err rest => exact canStop_call (k := .app) ht hrest err ⟨rest, hch, rfl⟩
  | nil =>
    have hall := errCh_conserved h fun _ => true
    rw [hch, ht, Option.elim_some, List.countP_nil] at hall
    -- one of the two results has not been sent
    rcases server_share h with hnone | ⟨_, _, _, -, -, -, -, hone⟩
    · exact canStop_server h hdone (serverGo_of_past h ht hserver) (hnone _)
    · rcases worker_share h with hnone | ⟨_, _, _, -, -, -, hone'⟩
      · exact canStop_worker h hdone (workerGo_of_past h ht hworker) fueled (hnone _)
      · rw [hone, hone', if_pos rfl] at hall
        omega

theorem not_wiring_at {past : List AppRunEvent} {c : WiringCall} (h : AppAt past (.wiring c)) :
    False := by
  cases h

/-- Once the context is done, and until `App.Run` has returned, some goroutine can go on. -/
theorem exists_stopStep (h : Reach (lifecycle J w closers) StartedOnce W)
    (hdone : W.shared.done = true) (fueled : Fueled J w W) {t : AppThread}
    (ht : W.pool .app 0 = some t) (running : ∀ result, t.rest ≠ .ret result) :
    CanStop J w closers W := by
  rcases appAt_of_steps (app_steps h ht) with ⟨c, f, hrest, hat⟩ | ⟨err, err', τ, -, hsteps⟩
  · cases c with
    | goServer => exact canStop_call (k := .app) ht hrest () rfl
    | goWorker => exact canStop_call (k := .app) ht hrest () rfl
    | receive => exact canStop_receive h hdone fueled ht hrest hat
    | cancel => exact canStop_call (k := .app) ht hrest () rfl
    | wiring c => exact (not_wiring_at hat).elim
  · cases hrest : t.rest with
    | ret result => exact absurd hrest (running result)
    | call c f =>
      rw [hrest] at hsteps
      obtain ⟨⟨c', rfl⟩, -⟩ := ((only_closing closers _).steps hsteps).2
      obtain ⟨r⟩ := wiring_resp_nonempty c'
      exact canStop_call (k := .app) ht hrest r rfl

/-! ## The end -/

/-- The goroutines that there are or may be started. -/
theorem acc_stopStep (h : Reach (lifecycle J w closers) StartedOnce W) :
    Acc (fun W' W => StopStep J w closers W W') W := by
  have hfinite := (active_eq_running h).1 .handler
  refine acc_steps ((Goroutine.all ×ˢ {0}) ∪ hfinite.toFinset.image (Prod.mk .handler))
    (C := fun W ℓ => StartedOnce W ℓ ∧ RunLabel.Stops ℓ) ?_ ?_
  · rintro W ℓ ⟨honce, hstops⟩
    refine ⟨?_, ?_⟩
    · rintro rfl
      exact hstops
    · rintro k i p rfl
      obtain rfl := honce k i p rfl hstops
      simp [Goroutine.mem_all]
  · intro k i hne
    by_cases hk : k = .handler
    · subst hk
      simp [hne]
    · have hi : i = 0 := by
        by_contra hi
        exact hne (index_eq_zero h hk hi)
      simp [hi, Goroutine.mem_all]

/-- What such a step keeps. -/
structure Ending (J : Json) (w : Worker) (closers : List (Option Closer)) (W : RunWorld) :
    Prop where
  reach : Reach (lifecycle J w closers) StartedOnce W
  done : W.shared.done = true
  fueled : Fueled J w W
  app : ∃ t : AppThread, W.pool .app 0 = some t

theorem Ending.step (h : Ending J w closers W) (hs : StopStep J w closers W W') :
    Ending J w closers W' := by
  obtain ⟨ℓ, hstep, honce, -⟩ := hs
  obtain ⟨t, ht⟩ := h.app
  obtain ⟨t', ht', -⟩ := hstep.thread_mono ht
  exact ⟨h.reach.step honce hstep, (advances_step hstep).done h.done,
    h.fueled.step h.done hstep, t', ht'⟩

/-- `App.Run` has returned. -/
def AppReturned (W : RunWorld) : Prop :=
  ∃ (t : AppThread) (result : Option Err), W.pool .app 0 = some t ∧ t.rest = .ret result

theorem Ending.returned (h : Ending J w closers W) (hstuck : ∀ W', ¬ StopStep J w closers W W') :
    AppReturned W := by
  obtain ⟨t, ht⟩ := h.app
  cases hrest : t.rest with
  | ret result => exact ⟨t, result, ht, hrest⟩
  | call c f =>
    obtain ⟨W', hs⟩ := exists_stopStep h.reach h.done h.fueled ht (fun result hret => by
      rw [hrest] at hret
      cases hret)
    exact absurd hs (hstuck W')

/-- There is a run to the end. -/
theorem Ending.exists_returned (h : Ending J w closers W) :
    ∃ W', Ending J w closers W' ∧ AppReturned W' := by
  have hacc := acc_stopStep h.reach
  induction hacc with
  | intro W _ ih =>
    by_cases hstuck : ∀ W', ¬ StopStep J w closers W W'
    · exact ⟨W, h, h.returned hstuck⟩
    · push Not at hstuck
      obtain ⟨W', hs⟩ := hstuck
      exact ih W' hs (h.step hs)

/-! ## A service that is stopped -/

theorem reach_spawn (h : Reach (lifecycle J w closers) StartedOnce W) {k : Goroutine}
    {p : Prog k.interface k.Result} (free : W.pool k 0 = none)
    (allowed : (lifecycle J w closers).spawn W.shared k p) :
    Reach (lifecycle J w closers) StartedOnce (W.setThread k 0 ⟨p, [], p⟩) := by
  refine h.step ?_ (Step.spawn free allowed)
  rintro _ _ _ ⟨⟩ -
  rfl

theorem reach_call (h : Reach (lifecycle J w closers) StartedOnce W) {k : Goroutine}
    {t : Thread k.interface k.Result} {c : k.interface.Call}
    {f : k.interface.Resp c → Prog k.interface k.Result} (ht : W.pool k 0 = some t)
    (hrest : t.rest = .call c f) (r : k.interface.Resp c) {s : RunState}
    (answer : (lifecycle J w closers).call k c W.shared r s) :
    Reach (lifecycle J w closers) StartedOnce
      (World.setThread ⟨s, W.pool⟩ k 0 ⟨t.start, t.past ++ [⟨c, r⟩], f r⟩) := by
  refine h.step ?_ (Step.call ht hrest answer)
  rintro _ _ _ ⟨⟩

/-- The server, the worker and one handler run. -/
def Serving (W : RunWorld) : Prop :=
  (W.pool .server 0).isSome ∧ (W.pool .worker 0).isSome ∧ W.shared.active = 1

/-- The context is cancelled while the service serves a request. -/
theorem exists_ending (J : Json) (w : Worker) (closers : List (Option Closer)) :
    ∃ W : RunWorld, Ending J w closers W ∧ Serving W ∧ ¬ AppReturned W := by
  have h₀ : Reach (lifecycle J w closers) StartedOnce ⟨.start, fun _ _ => none⟩ := .init rfl
  have hrun := reach_spawn h₀ (k := .app) (p := runApp closers) rfl rfl
  have hgoServer := reach_call hrun (k := .app) rfl rfl () rfl
  have hgoWorker := reach_call hgoServer (k := .app) rfl rfl () rfl
  have hserver := reach_spawn hgoWorker (k := .server) rfl ⟨rfl, rfl⟩
  have hgoListener := reach_call hserver (k := .server) rfl rfl () rfl
  have hlistener := reach_spawn hgoListener (k := .listener) rfl ⟨rfl, rfl⟩
  have hlistening := reach_call hlistener (k := .listener) rfl rfl none ⟨rfl, rfl⟩
  have hworker := reach_spawn hlistening (k := .worker) rfl ⟨rfl, 0, rfl⟩
  have hhandler := reach_spawn hworker (k := .handler) rfl ⟨.ret (), rfl⟩
  have hentered := reach_call hhandler (k := .handler) rfl rfl () ⟨rfl, rfl, rfl⟩
  have hcanceled := hentered.step (by rintro _ _ _ ⟨⟩) (.env rfl)
  refine ⟨_, ⟨hcanceled, rfl, ?_, _, rfl⟩, ⟨rfl, rfl, rfl⟩, ?_⟩
  · rintro t ⟨⟩
    exact ⟨1, rfl, Nat.one_pos⟩
  · rintro ⟨t, result, ⟨⟩, ⟨⟩⟩

end

/-- Once the context is done and no request comes in any more, `App.Run` returns, from every world
that can be reached: there is no endless run of steps, whatever the goroutines do, and where no step
is left `App.Run` has returned. -/
theorem shutdown_completes {J : Json} {w : Worker} {closers : List (Option Closer)} {W : RunWorld}
    (h : Reach (lifecycle J w closers) StartedOnce W) (hdone : W.shared.done = true)
    (fueled : Fueled J w W) (started : ∃ t : AppThread, W.pool .app 0 = some t) :
    Acc (fun W' W => StopStep J w closers W W') W ∧
      ∀ W', Relation.ReflTransGen (StopStep J w closers) W W' →
        (∀ W'', ¬ StopStep J w closers W' W'') → AppReturned W' := by
  have hending : ∀ W', Relation.ReflTransGen (StopStep J w closers) W W' →
      Ending J w closers W' := by
    intro W' hsteps
    induction hsteps with
    | refl => exact ⟨h, hdone, fueled, started⟩
    | tail _ hs ih => exact ih.step hs
  exact ⟨acc_stopStep h, fun W' hsteps hstuck => (hending W' hsteps).returned hstuck⟩

/-- The context is cancelled while the server, the worker and a handler run. -/
theorem shutdown_completes_serving : ∃ W : RunWorld,
    Reach (lifecycle .flat (newWorker 0 0 0 []) [some (.bus .queue)]) StartedOnce W ∧
      W.shared.done = true ∧ Serving W ∧ ¬ AppReturned W ∧
      Acc (fun W' W => StopStep .flat (newWorker 0 0 0 []) [some (.bus .queue)] W W') W := by
  obtain ⟨W, h, hserving, hreturned⟩ :=
    exists_ending .flat (newWorker 0 0 0 []) [some (.bus .queue)]
  exact ⟨W, h.reach, h.done, hserving, hreturned,
    (shutdown_completes h.reach h.done h.fueled h.app).1⟩

end PasswordHook
