import PasswordHook.App.Ownership
import PasswordHook.App.Progress

/-!
# Shutting down

`App.Run` closes the resources after everything that uses them has stopped
(`closes_after_quiescence`).  Together with what `New` opened this accounts for the life of the
process: every resource is closed once, and an error of any of the parts is reported
(`run_releases_everything`).
-/

namespace PasswordHook

open Prog

section

variable {J : Json} {w : Worker} {closers : List (Option Closer)} {W : RunWorld}

/-! ## Resources are closed last -/

theorem joinErrs_eq_none_iff {errs : List (Option Err)} :
    joinErrs errs = none ↔ ∀ err ∈ errs, err = none := by
  unfold joinErrs
  split
  · next hnil => simpa [List.filterMap_eq_nil_iff] using hnil
  · next err errs' hcons =>
    constructor
    · exact fun h => absurd h (by simp)
    · intro h
      have hnil : errs.filterMap id = [] := List.filterMap_eq_nil_iff.2 h
      exact absurd (hnil.symm.trans hcons) (by simp)

/-- What closing returns: the error of the run, joined with that of the closers. -/
theorem exec_closing {runtimeErr result : Option Err} {τ : List AppRunEvent}
    (h : Exec (closing closers runtimeErr) τ result) :
    ∃ closeErr, Exec ((closeAppResources closers).interp (J := appRunInterface)
      fun c => (AppRunCall.wiring c).perform) τ closeErr ∧
        result = joinErrs [runtimeErr, closeErr] := by
  obtain ⟨closeErr, τ₁, τ₂, rfl, hclose, hret⟩ := exec_bind_iff.1 h
  obtain ⟨rfl, rfl⟩ := exec_ret_iff.1 hret
  exact ⟨closeErr, by rwa [List.append_nil], rfl⟩

/-- The result of a server that has returned. -/
theorem ServerAt.outcome {τ : List ServerRunEvent} {err : Option Err} (h : ServerAt τ (.send err)) :
    (∃ result, (⟨.awaitIdle, result⟩ : ServerRunEvent) ∈ τ) ∨
      ∃ listenErr, (⟨.selectDone, some listenErr⟩ : ServerRunEvent) ∈ τ ∧
        err = listenResult listenErr := by
  cases h with
  | failed listenErr => exact .inr ⟨listenErr, by simp, rfl⟩
  | unclosed err => exact .inl ⟨some err, by simp⟩
  | closed listenErr => exact .inl ⟨none, by simp⟩

theorem shutdown_of_awaitIdle (h : Reach (lifecycle J w closers) StartedOnce W) {i : ℕ}
    {t : ServerThread} (ht : W.pool .server i = some t) {result : Option Err}
    (hpast : (⟨.awaitIdle, result⟩ : ServerRunEvent) ∈ t.past) : W.shared.shutdown = true := by
  refine h.lasting (k := .server) (F := fun s => s.shutdown = true)
    (E := fun e : ServerRunEvent => e.call = .awaitIdle) ?_ ?_ ?_ ht hpast rfl
  · rintro c s r s' answer rfl
    obtain ⟨-, rfl⟩ := answer
    rfl
  · exact fun k c s r s' answer => (advances_call answer).shutdown
  · exact fun s s' change => (advances_env change).shutdown

end

/-- `App.Run` calls the closers when the worker has returned and the server has: then no handler
runs and none is started any more, unless `ListenAndServe` failed by itself, and in that case
`App.Run` returns an error.  The channels never hold more than their buffers, so no goroutine is
left behind in a send. -/
theorem closes_after_quiescence {J : Json} {w : Worker} {closers : List (Option Closer)}
    {W : RunWorld} (h : Reach (lifecycle J w closers) StartedOnce W) :
    W.shared.errCh.length ≤ 2 ∧ W.shared.listenCh.length ≤ 1 ∧
    ∀ t : AppThread, W.pool .app 0 = some t → AppThread.Closing t →
      (∃ u : WorkerRunThread, W.pool .worker 0 = some u ∧ u.rest = .ret ()) ∧
      ∃ v : ServerThread, W.pool .server 0 = some v ∧ v.rest = .ret () ∧
        ((W.shared.shutdown = true ∧ ∀ i (x : HandlerThread), W.pool .handler i = some x →
            x.past = [] ∨ x.rest = .ret ()) ∨
          ∃ err, (⟨.selectDone, some err⟩ : ServerRunEvent) ∈ v.past ∧
            err.is errServerClosed = false ∧ ∀ result, t.rest = .ret result → result ≠ none) := by
  refine ⟨errCh_length_le h, listenCh_length_le h, fun t ht hclosing => ?_⟩
  obtain ⟨serverErr, workerErr, ⟨v, τ, hv, hpast, hvrest, hat⟩, ⟨u, _, hu, -, hurest⟩,
    err, err', τ', -, hsteps, hruntime⟩ := waited_of_closing h ht hclosing
  refine ⟨⟨u, hu, hurest⟩, v, hv, hvrest, ?_⟩
  rcases hat.outcome with ⟨result, hidle⟩ | ⟨listenErr, hselected, rfl⟩
  · have hshutdown := shutdown_of_awaitIdle h hv (hpast ▸ List.mem_append_left _ hidle)
    exact .inl ⟨hshutdown, fun i x hx => handlers_returned h hshutdown hx⟩
  · have hmem : (⟨.selectDone, some listenErr⟩ : ServerRunEvent) ∈ v.past :=
      hpast ▸ List.mem_append_left _ hselected
    have hown := (listensAlone_of_reach h).selected v hv listenErr hmem
    refine .inr ⟨listenErr, hmem, hown, ?_⟩
    rintro result hresult rfl
    rw [hresult] at hsteps
    obtain ⟨closeErr, -, hjoin⟩ := exec_closing hsteps
    have hnone := hruntime.1 (joinErrs_eq_none_iff.1 hjoin.symm _ List.mem_cons_self)
    rw [listenResult, hown] at hnone
    exact absurd hnone.1 (by simp)

/-- The end of a run with a context that is done when it starts. -/
theorem closes_after_quiescence_canceled : ∃ (W : RunWorld) (t : AppThread) (result : Option Err),
    Reach (lifecycle .flat (newWorker 0 0 0 []) [some (.bus .queue)]) StartedOnce W ∧
      W.pool .app 0 = some t ∧ t.rest = .ret result ∧
      ∃ u : WorkerRunThread, W.pool .worker 0 = some u ∧ u.rest = .ret () := by
  obtain ⟨W₀, hending, -, -⟩ := exists_ending .flat (newWorker 0 0 0 []) [some (.bus .queue)]
  obtain ⟨W, h, t, result, ht, hrest⟩ := hending.exists_returned
  exact ⟨W, t, result, h.reach, ht, hrest,
    ((closes_after_quiescence h.reach).2.2 t ht (.inr ⟨result, hrest⟩)).1⟩

/-! ## Closing reports every error -/

/-- No resource failed to close. -/
def AllClosed (τ : List WiringEvent) : Prop :=
  ∀ (r : Resource) (err : Option Err), (⟨.close r, err⟩ : WiringEvent) ∈ τ → err = none

theorem allClosed_nil : AllClosed [] := fun _ _ h => absurd h List.not_mem_nil

theorem allClosed_append {τ τ' : List WiringEvent} :
    AllClosed (τ ++ τ') ↔ AllClosed τ ∧ AllClosed τ' := by
  simp only [AllClosed, List.mem_append, or_imp, forall_and]

theorem allClosed_cons {r : Resource} {err : Option Err} {τ : List WiringEvent} :
    AllClosed (⟨.close r, err⟩ :: τ) ↔ err = none ∧ AllClosed τ := by
  constructor
  · exact fun h =>
      ⟨h r err List.mem_cons_self, fun r' err' h' => h r' err' (List.mem_cons_of_mem _ h')⟩
  · rintro ⟨rfl, h⟩ r' err' h'
    rcases List.mem_cons.1 h' with heq | h'
    · cases heq
      rfl
    · exact h r' err' h'

theorem closed_iff (r : Resource) (err : Option Err) :
    err = none ↔ AllClosed [⟨.close r, err⟩] :=
  (and_iff_left allClosed_nil).symm.trans allClosed_cons.symm

/-- Two closed one after the other, with their errors joined. -/
theorem bothClosed_iff (r r' : Resource) (err err' : Option Err) (f g : Err → Err) :
    joinErrs [err.map f, err'.map g] = none ↔ AllClosed [⟨.close r, err⟩, ⟨.close r', err'⟩] := by
  rw [joinErrs_eq_none_iff, allClosed_cons, ← closed_iff]
  simp

theorem exec_close {closer : Closer} {τ : List WiringEvent} {err : Option Err}
    (h : Exec closer.close τ err) : err = none ↔ AllClosed τ := by
  cases closer with
  | shutdown installed =>
    cases installed with
    | false =>
      obtain ⟨rfl, rfl⟩ := exec_ret_iff.1 h
      exact iff_of_true rfl allClosed_nil
    | true =>
      obtain ⟨closeErr, τ₁, rfl, hret⟩ := exec_call_iff.1 h
      obtain ⟨rfl, rfl⟩ := exec_ret_iff.1 hret
      exact closed_iff _ closeErr
  | periodicMetricFlusher =>
    obtain ⟨closeErr, τ₁, rfl, hret⟩ := exec_call_iff.1 h
    obtain ⟨rfl, rfl⟩ := exec_ret_iff.1 hret
    exact closed_iff _ closeErr
  | bus role =>
    obtain ⟨linkErr, τ₁, rfl, h₁⟩ := exec_call_iff.1 h
    obtain ⟨clientErr, τ₂, rfl, h₂⟩ := exec_call_iff.1 h₁
    obtain ⟨rfl, rfl⟩ := exec_ret_iff.1 h₂
    exact bothClosed_iff _ _ linkErr clientErr _ _
  | redisStore =>
    obtain ⟨clientErr, τ₁, rfl, h₁⟩ := exec_call_iff.1 h
    obtain ⟨credentialsErr, τ₂, rfl, h₂⟩ := exec_call_iff.1 h₁
    obtain ⟨rfl, rfl⟩ := exec_ret_iff.1 h₂
    have hboth := bothClosed_iff .redisClient .tokenManager clientErr credentialsErr id id
    rw [Option.map_id] at hboth
    exact hboth

theorem exec_closeEach {closers : List (Option Closer)} {closeErrs : List (Option Err)}
    {τ : List WiringEvent} {err : Option Err} (h : Exec (closeEach closers closeErrs) τ err) :
    err = none ↔ (∀ e ∈ closeErrs, e = none) ∧ AllClosed τ := by
  induction closers generalizing closeErrs τ with
  | nil =>
    obtain ⟨rfl, rfl⟩ := exec_ret_iff.1 h
    rw [joinErrs_eq_none_iff]
    exact (and_iff_left allClosed_nil).symm
  | cons closer closers ih =>
    cases closer with
    | none => exact ih h
    | some closer =>
      obtain ⟨closeErr, τ₁, τ₂, rfl, hclose, hrest⟩ := exec_bind_iff.1 h
      rw [ih hrest, allClosed_append, ← exec_close hclose, List.forall_mem_append,
        List.forall_mem_singleton, and_assoc]

/-! ## The life of the process -/

def AppRunEvent.wiring? : AppRunEvent → Option WiringEvent
  | ⟨.wiring c, r⟩ => some ⟨c, r⟩
  | _ => none

/-- The calls of the closers by `App.Run`. -/
def AppThread.closings (t : AppThread) : List WiringEvent := t.past.filterMap AppRunEvent.wiring?

theorem closings_implements {τ : List WiringEvent} {τ' : List AppRunEvent}
    (h : Implements (fun c => (AppRunCall.wiring c).perform) τ τ') :
    τ'.filterMap AppRunEvent.wiring? = τ := by
  induction h with
  | nil => rfl
  | cons exec rest ih =>
    obtain ⟨r, τ₁, rfl, hret⟩ := exec_call_iff.1 exec
    obtain ⟨rfl, rfl⟩ := exec_ret_iff.1 hret
    rw [List.filterMap_append, ih]
    rfl

/-- `App.Run` at its end: what it has closed, and what that came to. -/
theorem exec_closings {closers : List (Option Closer)} {err err' : Option Err}
    {τ : List AppRunEvent} {t : AppThread} {result : Option Err}
    (hpast : t.past = waited err err' ++ τ) (h : Exec (closing closers (err.or err')) τ result) :
    ∃ closeErr, Exec (closeAppResources closers) (AppThread.closings t) closeErr ∧
      result = joinErrs [err.or err', closeErr] := by
  obtain ⟨closeErr, hclose, hresult⟩ := exec_closing h
  obtain ⟨τ₀, hexec, himpl⟩ := exec_interp hclose
  refine ⟨closeErr, ?_, hresult⟩
  rw [AppThread.closings, hpast, List.filterMap_append, closings_implements himpl]
  exact hexec

/-- The whole life of the process: if `New` succeeds and `App.Run` has returned, in whatever order
its goroutines ran, then everything that `New` opened has been closed, each resource once, and the
result is nil exactly if the server and the worker returned nil and nothing failed to close. -/
theorem run_releases_everything (c : ServiceConfig) (gcm : Bytes → Aead) (quote : Bytes → String)
    (uuidValidate : String → Bool) (U : Unicode) {τ : List WiringEvent} {app : App}
    (wired : Exec (c.newApp gcm quote uuidValidate U) τ (.ok app))
    {J : Json} {w : Worker} {W : RunWorld} (h : Reach (lifecycle J w app.closers) StartedOnce W)
    {t : AppThread} (ht : W.pool .app 0 = some t) {result : Option Err}
    (hret : t.rest = .ret result) :
    heldAfter wiringEffect 0 (τ ++ AppThread.closings t) = some 0 ∧
    ∃ (v : ServerThread) (u : WorkerRunThread) (serverErr workerErr : Option Err),
      W.pool .server 0 = some v ∧ (⟨.send serverErr, ()⟩ : ServerRunEvent) ∈ v.past ∧
      W.pool .worker 0 = some u ∧ (⟨.send workerErr, ()⟩ : WorkerRunEvent) ∈ u.past ∧
      (result = none ↔ serverErr = none ∧ workerErr = none ∧ AllClosed (AppThread.closings t)) := by
  obtain ⟨serverErr, workerErr, ⟨v, τ₁, hv, hvpast, -, -⟩, ⟨u, τ₂, hu, hupast, -⟩, err,
    err', τ₃, hpast, hsteps, hruntime⟩ := waited_of_closing h ht (.inr ⟨result, hret⟩)
  rw [hret] at hsteps
  obtain ⟨closeErr, hclose, rfl⟩ := exec_closings hpast hsteps
  constructor
  · have hheld : heldAfter wiringEffect 0 τ = some (closerResources app.closers) :=
      (carries_newApp c gcm quote uuidValidate U).heldAfter wired
    rw [heldAfter, List.foldl_append]
    change List.foldl _ (heldAfter wiringEffect 0 τ) _ = _
    rw [hheld]
    exact (releases_closeAppResources app.closers).heldAfter hclose
  · refine ⟨v, u, serverErr, workerErr, hv, hvpast ▸ List.mem_append_right _ List.mem_cons_self, hu,
      hupast ▸ List.mem_append_right _ List.mem_cons_self, ?_⟩
    have hclosed := exec_closeEach hclose
    rw [joinErrs_eq_none_iff, List.forall_mem_cons, List.forall_mem_singleton, hruntime,
      hclosed, and_assoc]
    simp

/-- A service with Redis and Azure Monitor that is wired and then stopped. -/
theorem run_releases_everything_sample : ∃ (τ : List WiringEvent) (app : App) (W : RunWorld)
    (t : AppThread) (result : Option Err),
    Exec (ServiceConfig.sample.newApp (fun _ => .clear) (fun _ => "") sampleUUID .ascii)
      τ (.ok app) ∧
      Reach (lifecycle .flat (newWorker 0 0 0 []) app.closers) StartedOnce W ∧
      W.pool .app 0 = some t ∧ t.rest = .ret result ∧
      heldAfter wiringEffect 0 (τ ++ AppThread.closings t) = some 0 := by
  let answer (c : WiringCall) (u : Unit) : Unit × c.Resp := (u, c.succeed)
  have run := exec_runWith answer
    (ServiceConfig.sample.newApp (fun _ => .clear) (fun _ => "") sampleUUID .ascii) ()
  have hok :
      ((ServiceConfig.sample.newApp (fun _ => .clear) (fun _ => "") sampleUUID .ascii).runWith
      answer ()).2.isOk = true := by decide +kernel
  cases hresult :
    ((ServiceConfig.sample.newApp (fun _ => .clear) (fun _ => "") sampleUUID .ascii).runWith
      answer ()).2 with
  | error err =>
    rw [hresult] at hok
    cases hok
  | ok app =>
    rw [hresult] at run
    obtain ⟨W₀, hending, -, -⟩ := exists_ending .flat (newWorker 0 0 0 []) app.closers
    obtain ⟨W, h, t, result, ht, hret⟩ := hending.exists_returned
    exact ⟨_, app, W, t, result, run, h.reach, ht, hret,
      (run_releases_everything _ _ _ _ _ run h.reach ht hret).1⟩

end PasswordHook
