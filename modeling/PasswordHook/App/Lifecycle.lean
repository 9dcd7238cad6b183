import PasswordHook.App.Wiring
import PasswordHook.Handler.Serve
import PasswordHook.Lib.Interleave

/-!
# The goroutines of a running service

`App.Run` starts `Server.Run` and `Worker.Run`, waits for both and closes the resources;
`Server.Run` starts `ListenAndServe`, and that a handler for every request.  Each is a program, and
they share the channels, the context and the state of the HTTP server.

Of package `net/http` the model has what `Server.Run` relies on: a handler runs from the time the
server listens until `Shutdown` has returned, `Shutdown` returns when no handler runs, and
`ListenAndServe` returns `ErrServerClosed` after a call of `Shutdown` only.  It may return another
error at any time.
-/

namespace PasswordHook

/-! ## `App.Run` -/

inductive AppRunCall where
  /-- `go func() { errCh <- a.server.Run(runCtx) }()` -/
  | goServer
  /-- `go func() { errCh <- a.worker.Run(runCtx) }()` -/
  | goWorker
  /-- `<-errCh` -/
  | receive
  | cancel
  | wiring (c : WiringCall)

def AppRunCall.Resp : AppRunCall → Type
  | .goServer => Unit
  | .goWorker => Unit
  | .receive => Option Err
  | .cancel => Unit
  | .wiring c => c.Resp

def appRunInterface : Interface := ⟨AppRunCall, AppRunCall.Resp⟩

abbrev AppRunProg := Prog appRunInterface

abbrev AppRunEvent := Event appRunInterface

def AppRunCall.perform (c : AppRunCall) : AppRunProg c.Resp := Prog.perform (I := appRunInterface) c

/-- The loop of `runServerAndWorker`, with the turns that are left. -/
def collectErrs : ℕ → Option Err → AppRunProg (Option Err)
  | 0, runtimeErr => return runtimeErr
  | turns + 1, runtimeErr => do
    let err : Option Err ← AppRunCall.receive.perform
    AppRunCall.cancel.perform
    collectErrs turns (if err ≠ none ∧ runtimeErr = none then err else runtimeErr)

/-- `runServerAndWorker`; `cancel` is called once more on the way out. -/
def runServerAndWorker : AppRunProg (Option Err) := do
  AppRunCall.goServer.perform
  AppRunCall.goWorker.perform
  let runtimeErr ← collectErrs 2 none
  AppRunCall.cancel.perform
  return runtimeErr

/-- `App.Run`, for an application with a worker. -/
def runApp (closers : List (Option Closer)) : AppRunProg (Option Err) := do
  let runtimeErr ← runServerAndWorker
  let closeErr ← (closeAppResources closers).interp (J := appRunInterface)
    fun c => (AppRunCall.wiring c).perform
  return joinErrs [runtimeErr, closeErr]

/-! ## `Server.Run` -/

/-- `http.ErrServerClosed` -/
def errServerClosed : Err := .new "http: Server closed"

inductive ServerRunCall where
  /-- `go func() { errCh <- s.server.ListenAndServe() }()` -/
  | goListener
  /-- The `select`: nothing when the context is done, or what `ListenAndServe` returned. -/
  | selectDone
  /-- `Shutdown` begins. -/
  | beginShutdown
  /-- `Shutdown` returns, when no handler runs. -/
  | awaitIdle
  /-- `<-errCh` -/
  | receiveListen
  /-- `errCh <-` of `runServerAndWorker`. -/
  | send (err : Option Err)

def ServerRunCall.Resp : ServerRunCall → Type
  | .goListener => Unit
  | .selectDone => Option Err
  | .beginShutdown => Unit
  | .awaitIdle => Option Err
  | .receiveListen => Err
  | .send _ => Unit

def serverRunInterface : Interface := ⟨ServerRunCall, ServerRunCall.Resp⟩

abbrev ServerRunProg := Prog serverRunInterface

abbrev ServerRunEvent := Event serverRunInterface

def ServerRunCall.perform (c : ServerRunCall) : ServerRunProg c.Resp :=
  Prog.perform (I := serverRunInterface) c

/-- What `Server.Run` makes of the error of `ListenAndServe`. -/
def listenResult (err : Err) : Option Err := if err.is errServerClosed then none else some err

/-- `Server.Run` when the context is done. -/
def shutdownServer : ServerRunProg (Option Err) := do
  ServerRunCall.beginShutdown.perform
  match ← ServerRunCall.awaitIdle.perform with
  | some err => return some err
  | none =>
    let err : Err ← ServerRunCall.receiveListen.perform
    return listenResult err

/-- `Server.Run` after the `select`. -/
def serverSelected : Option Err → ServerRunProg (Option Err)
  | none => shutdownServer
  | some err => return listenResult err

/-- `Server.Run` -/
def runServer : ServerRunProg (Option Err) := do
  ServerRunCall.goListener.perform
  let selected : Option Err ← ServerRunCall.selectDone.perform
  serverSelected selected

/-- The goroutine of the server. -/
def serverThread : ServerRunProg Unit := do
  let err ← runServer
  (ServerRunCall.send err).perform

/-! ## `ListenAndServe` -/

inductive ListenerCall where
  /-- The port is opened, or `ListenAndServe` returns at once. -/
  | listen
  /-- `Serve` returns. -/
  | serve
  | send (err : Err)

def ListenerCall.Resp : ListenerCall → Type
  | .listen => Option Err
  | .serve => Err
  | .send _ => Unit

def listenerInterface : Interface := ⟨ListenerCall, ListenerCall.Resp⟩

def ListenerCall.perform (c : ListenerCall) : Prog listenerInterface c.Resp :=
  Prog.perform (I := listenerInterface) c

def listenAndServe : Prog listenerInterface Err := do
  match ← ListenerCall.listen.perform with
  | some err => return err
  | none =>
    let err : Err ← ListenerCall.serve.perform
    return err

/-- The goroutine of the listener. -/
def listenerThread : Prog listenerInterface Unit := do
  let err ← listenAndServe
  (ListenerCall.send err).perform

/-! ## The worker and the handlers -/

inductive WorkerRunCall where
  | worker (c : WorkerCall)
  | send (err : Option Err)

def WorkerRunCall.Resp : WorkerRunCall → Type
  | .worker c => c.Resp
  | .send _ => Unit

def workerRunInterface : Interface := ⟨WorkerRunCall, WorkerRunCall.Resp⟩

abbrev WorkerRunEvent := Event workerRunInterface

def WorkerRunCall.perform (c : WorkerRunCall) : Prog workerRunInterface c.Resp :=
  Prog.perform (I := workerRunInterface) c

/-- What the goroutine of the worker does with the result of `Run`; without one the loop goes on
after the turns that are looked at. -/
def sendResult : Option (Option Err) → Prog workerRunInterface Unit
  | some err => (WorkerRunCall.send err).perform
  | none => return ()

/-- The goroutine of the worker, for a number of rounds of the loop of `Run`. -/
def workerThread (J : Json) (w : Worker) (rounds : ℕ) : Prog workerRunInterface Unit := do
  let result ← (run J w rounds).interp (J := workerRunInterface) fun c =>
    (WorkerRunCall.worker c).perform
  sendResult result

inductive HandlerCall where
  /-- The handler is started for a request. -/
  | enter
  | hook (c : HookCall)
  | leave

def HandlerCall.Resp : HandlerCall → Type
  | .enter => Unit
  | .hook c => c.Resp
  | .leave => Unit

def handlerInterface : Interface := ⟨HandlerCall, HandlerCall.Resp⟩

def HandlerCall.perform (c : HandlerCall) : Prog handlerInterface c.Resp :=
  Prog.perform (I := handlerInterface) c

/-- A handler, by what it does with the collaborators of the hook. -/
def handlerThread (body : HookProg Unit) : Prog handlerInterface Unit := do
  HandlerCall.enter.perform
  body.interp (J := handlerInterface) fun c => (HandlerCall.hook c).perform
  HandlerCall.leave.perform

/-! ## The system -/

inductive Goroutine where
  | app
  | server
  | listener
  | worker
  | handler
  deriving DecidableEq

def Goroutine.all : Finset Goroutine := {.app, .server, .listener, .worker, .handler}

theorem Goroutine.mem_all (k : Goroutine) : k ∈ Goroutine.all := by cases k <;> decide

instance : Fintype Goroutine := ⟨Goroutine.all, Goroutine.mem_all⟩

abbrev Goroutine.interface : Goroutine → Interface
  | .app => appRunInterface
  | .server => serverRunInterface
  | .listener => listenerInterface
  | .worker => workerRunInterface
  | .handler => handlerInterface

abbrev Goroutine.Result : Goroutine → Type
  | .app => Option Err
  | .server => Unit
  | .listener => Unit
  | .worker => Unit
  | .handler => Unit

structure RunState where
  /-- The `go` statements that were executed. -/
  serverGo : Bool
  workerGo : Bool
  listenerGo : Bool
  /-- The context of `App.Run` is done, or was cancelled. -/
  done : Bool
  /-- The channel of `runServerAndWorker`. -/
  errCh : List (Option Err)
  /-- The channel of `Server.Run`. -/
  listenCh : List Err
  listening : Bool
  inShutdown : Bool
  /-- `Shutdown` has returned. -/
  shutdown : Bool
  /-- The handlers that run. -/
  active : ℕ

def RunState.start : RunState := ⟨false, false, false, false, [], [], false, false, false, 0⟩

def appRunAnswer : (c : AppRunCall) → RunState → c.Resp → RunState → Prop
  | .goServer, s, _, s' => s' = { s with serverGo := true }
  | .goWorker, s, _, s' => s' = { s with workerGo := true }
  | .receive, s, err, s' => ∃ rest, s.errCh = err :: rest ∧ s' = { s with errCh := rest }
  | .cancel, s, _, s' => s' = { s with done := true }
  | .wiring _, s, _, s' => s' = s

def serverRunAnswer : (c : ServerRunCall) → RunState → c.Resp → RunState → Prop
  | .goListener, s, _, s' => s' = { s with listenerGo := true }
  | .selectDone, s, none, s' => s.done = true ∧ s' = s
  | .selectDone, s, some err, s' =>
    ∃ rest, s.listenCh = err :: rest ∧ s' = { s with listenCh := rest }
  | .beginShutdown, s, _, s' => s' = { s with inShutdown := true }
  | .awaitIdle, s, _, s' => s.active = 0 ∧ s' = { s with shutdown := true }
  | .receiveListen, s, err, s' =>
    ∃ rest, s.listenCh = err :: rest ∧ s' = { s with listenCh := rest }
  | .send err, s, _, s' => s' = { s with errCh := s.errCh ++ [err] }

/-- The errors that `ListenAndServe` may return. -/
def ListenErr (s : RunState) (err : Err) : Prop :=
  (s.inShutdown = true ∧ err = errServerClosed) ∨ err.is errServerClosed = false

def listenerAnswer : (c : ListenerCall) → RunState → c.Resp → RunState → Prop
  | .listen, s, none, s' => s.inShutdown = false ∧ s' = { s with listening := true }
  | .listen, s, some err, s' => ListenErr s err ∧ s' = s
  | .serve, s, err, s' => ListenErr s err ∧ s' = s
  | .send err, s, _, s' => s' = { s with listenCh := s.listenCh ++ [err] }

def workerRunAnswer : (c : WorkerRunCall) → RunState → c.Resp → RunState → Prop
  | .worker .ctxErr, s, err, s' => ((err : Option Err) ≠ none ↔ s.done = true) ∧ s' = s
  | .worker _, s, _, s' => s' = s
  | .send err, s, _, s' => s' = { s with errCh := s.errCh ++ [err] }

def handlerAnswer : (c : HandlerCall) → RunState → c.Resp → RunState → Prop
  | .enter, s, _, s' =>
    s.listening = true ∧ s.shutdown = false ∧ s' = { s with active := s.active + 1 }
  | .hook _, s, _, s' => s' = s
  | .leave, s, _, s' => s.active = s'.active + 1 ∧ s' = { s with active := s'.active }

/-- The goroutines of `App.Run`, for a worker and the closers of an application. -/
def lifecycle (J : Json) (w : Worker) (closers : List (Option Closer)) :
    System Goroutine Goroutine.interface Goroutine.Result RunState where
  init s := s = .start
  spawn s
    | .app, p => p = runApp closers
    | .server, p => s.serverGo = true ∧ p = serverThread
    | .listener, p => s.listenerGo = true ∧ p = listenerThread
    | .worker, p => s.workerGo = true ∧ ∃ rounds, p = workerThread J w (rounds + 1)
    | .handler, p => ∃ body, p = handlerThread body
  call
    | .app => appRunAnswer
    | .server => serverRunAnswer
    | .listener => listenerAnswer
    | .worker => workerRunAnswer
    | .handler => handlerAnswer
  env s s' := s' = { s with done := true }

abbrev RunWorld := World Goroutine.interface Goroutine.Result RunState

abbrev RunLabel := Label Goroutine.interface Goroutine.Result

/-- `App.Run` is called once, and each `go` statement starts one goroutine. -/
def StartedOnce (_ : RunWorld) (ℓ : RunLabel) : Prop :=
  ∀ k i p, ℓ = .spawn k i p → k ≠ .handler → i = 0

abbrev AppThread := Thread appRunInterface (Option Err)

abbrev ServerThread := Thread serverRunInterface Unit

abbrev ListenerThread := Thread listenerInterface Unit

abbrev WorkerRunThread := Thread workerRunInterface Unit

abbrev HandlerThread := Thread handlerInterface Unit

/-! ## What an answer leaves alone -/

theorem listenerAnswer_frame {c : ListenerCall} {s s' : RunState} {r : c.Resp}
    (h : listenerAnswer c s r s') :
    ∃ listening listenCh, s' = { s with listening := listening, listenCh := listenCh } := by
  cases c with
  | listen =>
    cases r with
    | none => exact ⟨true, s.listenCh, h.2⟩
    | some err => exact ⟨s.listening, s.listenCh, h.2⟩
  | serve => exact ⟨s.listening, s.listenCh, h.2⟩
  | send err => exact ⟨s.listening, _, h⟩

theorem workerRunAnswer_frame {c : WorkerRunCall} {s s' : RunState} {r : c.Resp}
    (h : workerRunAnswer c s r s') : ∃ errCh, s' = { s with errCh := errCh } := by
  cases c with
  | worker c =>
    cases c with
    | ctxErr => exact ⟨s.errCh, h.2⟩
    | _ => exact ⟨s.errCh, h⟩
  | send err => exact ⟨_, h⟩

theorem handlerAnswer_frame {c : HandlerCall} {s s' : RunState} {r : c.Resp}
    (h : handlerAnswer c s r s') : ∃ active, s' = { s with active := active } := by
  cases c with
  | enter => exact ⟨_, h.2.2⟩
  | hook c => exact ⟨s.active, h⟩
  | leave => exact ⟨_, h.2⟩

theorem appRunAnswer_frame {c : AppRunCall} {s s' : RunState} {r : c.Resp}
    (h : appRunAnswer c s r s') :
    ∃ serverGo workerGo done errCh, (s.serverGo = true → serverGo = true) ∧
      (s.workerGo = true → workerGo = true) ∧ (s.done = true → done = true) ∧
      s' = { s with serverGo := serverGo, workerGo := workerGo, done := done, errCh := errCh } := by
  cases c with
  | goServer => exact ⟨true, s.workerGo, s.done, s.errCh, fun _ => rfl, id, id, h⟩
  | goWorker => exact ⟨s.serverGo, true, s.done, s.errCh, id, fun _ => rfl, id, h⟩
  | receive =>
    obtain ⟨rest, -, h⟩ := h
    exact ⟨s.serverGo, s.workerGo, s.done, rest, id, id, id, h⟩
  | cancel => exact ⟨s.serverGo, s.workerGo, true, s.errCh, id, id, fun _ => rfl, h⟩
  | wiring c => exact ⟨s.serverGo, s.workerGo, s.done, s.errCh, id, id, id, h⟩

theorem serverRunAnswer_cases {c : ServerRunCall} {s s' : RunState} {r : c.Resp}
    (h : serverRunAnswer c s r s') :
    (c = .beginShutdown ∧ s' = { s with inShutdown := true }) ∨
    (c = .awaitIdle ∧ s.active = 0 ∧ s' = { s with shutdown := true }) ∨
    ∃ listenerGo errCh listenCh, (s.listenerGo = true → listenerGo = true) ∧
      s' = { s with listenerGo := listenerGo, errCh := errCh, listenCh := listenCh } := by
  cases c with
  | beginShutdown => exact .inl ⟨rfl, h⟩
  | awaitIdle => exact .inr (.inl ⟨rfl, h⟩)
  | goListener => exact .inr (.inr ⟨true, s.errCh, s.listenCh, fun _ => rfl, h⟩)
  | selectDone =>
    cases r with
    | none => exact .inr (.inr ⟨s.listenerGo, s.errCh, s.listenCh, id, h.2⟩)
    | some err =>
      obtain ⟨rest, -, h⟩ := h
      exact .inr (.inr ⟨s.listenerGo, s.errCh, rest, id, h⟩)
  | receiveListen =>
    obtain ⟨rest, -, h⟩ := h
    exact .inr (.inr ⟨s.listenerGo, s.errCh, rest, id, h⟩)
  | send err => exact .inr (.inr ⟨s.listenerGo, _, s.listenCh, id, h⟩)

section Advances

variable {J : Json} {w : Worker} {closers : List (Option Closer)}

/-- What is set once and for all. -/
structure RunState.Advances (s s' : RunState) : Prop where
  serverGo : s.serverGo = true → s'.serverGo = true
  workerGo : s.workerGo = true → s'.workerGo = true
  listenerGo : s.listenerGo = true → s'.listenerGo = true
  done : s.done = true → s'.done = true
  inShutdown : s.inShutdown = true → s'.inShutdown = true
  shutdown : s.shutdown = true → s'.shutdown = true

theorem advances_call {k : Goroutine} {c : k.interface.Call} {s s' : RunState}
    {r : k.interface.Resp c} (h : (lifecycle J w closers).call k c s r s') : s.Advances s' := by
  cases k with
  | app =>
    obtain ⟨_, _, _, _, hserver, hworker, hdone, rfl⟩ := appRunAnswer_frame h
    exact ⟨hserver, hworker, id, hdone, id, id⟩
  | server =>
    rcases serverRunAnswer_cases h with ⟨-, rfl⟩ | ⟨-, -, rfl⟩ | ⟨_, _, _, hlistener, rfl⟩
    · exact ⟨id, id, id, id, fun _ => rfl, id⟩
    · exact ⟨id, id, id, id, id, fun _ => rfl⟩
    · exact ⟨id, id, hlistener, id, id, id⟩
  | listener =>
    obtain ⟨_, _, rfl⟩ := listenerAnswer_frame h
    exact ⟨id, id, id, id, id, id⟩
  | worker =>
    obtain ⟨_, rfl⟩ := workerRunAnswer_frame h
    exact ⟨id, id, id, id, id, id⟩
  | handler =>
    obtain ⟨_, rfl⟩ := handlerAnswer_frame h
    exact ⟨id, id, id, id, id, id⟩

theorem advances_env {s s' : RunState} (h : (lifecycle J w closers).env s s') : s.Advances s' := by
  obtain rfl := h
  exact ⟨id, id, id, fun _ => rfl, id, id⟩

end Advances

end PasswordHook
