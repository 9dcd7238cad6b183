import PasswordHook.App.Lifecycle
import PasswordHook.Lib.Channel

/-!
# What the goroutines tell each other

The channels of `App.Run` and `Server.Run`, the handlers that run as a third, and the places in its
code where a goroutine can be.
-/

namespace PasswordHook

open Prog

abbrev ListenerEvent := Event listenerInterface

abbrev HandlerEvent := Event handlerInterface

/-! ## The channels -/

/-- The result that the goroutine of the server sends. -/
def ServerRunEvent.sent : ServerRunEvent → Option (Option Err)
  | ⟨.send err, _⟩ => some err
  | _ => none

def WorkerRunEvent.sent : WorkerRunEvent → Option (Option Err)
  | ⟨.send err, _⟩ => some err
  | _ => none

def AppRunEvent.received : AppRunEvent → Option (Option Err)
  | ⟨.receive, err⟩ => some err
  | _ => none

def ListenerEvent.sent : ListenerEvent → Option Err
  | ⟨.send err, _⟩ => some err
  | _ => none

/-- What `Server.Run` takes from the channel of `ListenAndServe`. -/
def ServerRunEvent.received : ServerRunEvent → Option Err
  | ⟨.selectDone, selected⟩ => selected
  | ⟨.receiveListen, err⟩ => some err
  | _ => none

def HandlerEvent.entered : HandlerEvent → Option Unit
  | ⟨.enter, _⟩ => some ()
  | _ => none

def HandlerEvent.left : HandlerEvent → Option Unit
  | ⟨.leave, _⟩ => some ()
  | _ => none

/-! ### Each channel passes on what is sent -/

theorem appRunAnswer_errCh {c : AppRunCall} {s s' : RunState} {r : c.Resp}
    (h : appRunAnswer c s r s') :
    (AppRunEvent.received ⟨c, r⟩).toList ++ s'.errCh = s.errCh := by
  cases c with
  | receive =>
    obtain ⟨rest, hrest, rfl⟩ := h
    exact hrest.symm
  | _ =>
    obtain rfl := h
    rfl

theorem serverRunAnswer_errCh {c : ServerRunCall} {s s' : RunState} {r : c.Resp}
    (h : serverRunAnswer c s r s') :
    s'.errCh = s.errCh ++ (ServerRunEvent.sent ⟨c, r⟩).toList := by
  cases c with
  | send err =>
    obtain rfl := h
    rfl
  | selectDone =>
    rw [show (ServerRunEvent.sent ⟨.selectDone, r⟩).toList = [] from rfl, List.append_nil]
    cases r with
    | none => rw [h.2]
    | some err =>
      obtain ⟨rest, -, rfl⟩ := h
      rfl
  | receiveListen =>
    obtain ⟨rest, -, rfl⟩ := h
    exact (List.append_nil _).symm
  | awaitIdle =>
    obtain ⟨-, rfl⟩ := h
    exact (List.append_nil _).symm
  | _ =>
    obtain rfl := h
    exact (List.append_nil _).symm

theorem serverRunAnswer_listenCh {c : ServerRunCall} {s s' : RunState} {r : c.Resp}
    (h : serverRunAnswer c s r s') :
    (ServerRunEvent.received ⟨c, r⟩).toList ++ s'.listenCh = s.listenCh := by
  cases c with
  | selectDone =>
    cases r with
    | none =>
      obtain ⟨-, rfl⟩ := h
      rfl
    | some err =>
      obtain ⟨rest, hrest, rfl⟩ := h
      exact hrest.symm
  | receiveListen =>
    obtain ⟨rest, hrest, rfl⟩ := h
    exact hrest.symm
  | awaitIdle =>
    obtain ⟨-, rfl⟩ := h
    rfl
  | _ =>
    obtain rfl := h
    rfl

theorem listenerAnswer_listenCh {c : ListenerCall} {s s' : RunState} {r : c.Resp}
    (h : listenerAnswer c s r s') :
    s'.listenCh = s.listenCh ++ (ListenerEvent.sent ⟨c, r⟩).toList := by
  cases c with
  | listen =>
    rw [show (ListenerEvent.sent ⟨.listen, r⟩).toList = [] from rfl, List.append_nil]
    cases r with
    | none => rw [h.2]
    | some err => rw [h.2]
  | serve =>
    obtain ⟨-, rfl⟩ := h
    exact (List.append_nil _).symm
  | send err =>
    obtain rfl := h
    rfl

theorem workerRunAnswer_errCh {c : WorkerRunCall} {s s' : RunState} {r : c.Resp}
    (h : workerRunAnswer c s r s') :
    s'.errCh = s.errCh ++ (WorkerRunEvent.sent ⟨c, r⟩).toList := by
  cases c with
  | send err =>
    obtain rfl := h
    rfl
  | worker c =>
    rw [show (WorkerRunEvent.sent ⟨.worker c, r⟩).toList = [] from rfl, List.append_nil]
    cases c with
    | ctxErr => rw [h.2]
    | _ => rw [show s' = s from h]

theorem handlerAnswer_active {c : HandlerCall} {s s' : RunState} {r : c.Resp}
    (h : handlerAnswer c s r s') :
    (HandlerEvent.left ⟨c, r⟩).toList ++ List.replicate s'.active () =
      List.replicate s.active () ++ (HandlerEvent.entered ⟨c, r⟩).toList := by
  cases c with
  | enter =>
    obtain ⟨-, -, rfl⟩ := h
    exact List.replicate_succ'
  | hook c =>
    obtain rfl := h
    exact (List.append_nil _).symm
  | leave =>
    rw [h.1]
    exact (List.append_nil _).symm

section Channels

variable (J : Json) (w : Worker) (closers : List (Option Closer))

/-- The channel of `runServerAndWorker`. -/
def errChannel : Channel (lifecycle J w closers) (Option Err) where
  chan s := s.errCh
  sent
    | .server => ServerRunEvent.sent
    | .worker => WorkerRunEvent.sent
    | _ => fun _ => none
  received
    | .app => AppRunEvent.received
    | _ => fun _ => none
  init := by
    rintro s rfl
    rfl
  call := by
    intro k c s r s' h
    cases k with
    | app => exact .of_eq ((appRunAnswer_errCh h).trans (List.append_nil _).symm)
    | server => exact .of_eq (serverRunAnswer_errCh h)
    | listener =>
      obtain ⟨_, _, rfl⟩ := listenerAnswer_frame h
      exact .of_eq (List.append_nil _).symm
    | worker => exact .of_eq (workerRunAnswer_errCh h)
    | handler =>
      obtain ⟨_, rfl⟩ := handlerAnswer_frame h
      exact .of_eq (List.append_nil _).symm
  env := by
    rintro s s' rfl
    exact .refl _

/-- The channel of `Server.Run`. -/
def listenChannel : Channel (lifecycle J w closers) Err where
  chan s := s.listenCh
  sent
    | .listener => ListenerEvent.sent
    | _ => fun _ => none
  received
    | .server => ServerRunEvent.received
    | _ => fun _ => none
  init := by
    rintro s rfl
    rfl
  call := by
    intro k c s r s' h
    cases k with
    | app =>
      obtain ⟨_, _, _, _, -, -, -, rfl⟩ := appRunAnswer_frame h
      exact .of_eq (List.append_nil _).symm
    | server => exact .of_eq ((serverRunAnswer_listenCh h).trans (List.append_nil _).symm)
    | listener => exact .of_eq (listenerAnswer_listenCh h)
    | worker =>
      obtain ⟨_, rfl⟩ := workerRunAnswer_frame h
      exact .of_eq (List.append_nil _).symm
    | handler =>
      obtain ⟨_, rfl⟩ := handlerAnswer_frame h
      exact .of_eq (List.append_nil _).symm
  env := by
    rintro s s' rfl
    exact .refl _

/-- The handlers that run: one is put in when a handler starts, and taken out when it ends. -/
def handlerChannel : Channel (lifecycle J w closers) Unit where
  chan s := List.replicate s.active ()
  sent
    | .handler => HandlerEvent.entered
    | _ => fun _ => none
  received
    | .handler => HandlerEvent.left
    | _ => fun _ => none
  init := by
    rintro s rfl
    rfl
  call := by
    intro k c s r s' h
    cases k with
    | app =>
      obtain ⟨_, _, _, _, -, -, -, rfl⟩ := appRunAnswer_frame h
      exact .of_eq (List.append_nil _).symm
    | server =>
      rcases serverRunAnswer_cases h with ⟨-, rfl⟩ | ⟨-, -, rfl⟩ | ⟨_, _, _, -, rfl⟩ <;>
        exact .of_eq (List.append_nil _).symm
    | listener =>
      obtain ⟨_, _, rfl⟩ := listenerAnswer_frame h
      exact .of_eq (List.append_nil _).symm
    | worker =>
      obtain ⟨_, rfl⟩ := workerRunAnswer_frame h
      exact .of_eq (List.append_nil _).symm
    | handler => exact .of_eq (handlerAnswer_active h)
  env := by
    rintro s s' rfl
    exact .refl _

end Channels

/-! ## Where a goroutine can be -/

/-- The next call of the goroutine of the server, after a trace. -/
inductive ServerAt : List ServerRunEvent → ServerRunCall → Prop
  | launch : ServerAt [] .goListener
  | select : ServerAt [⟨.goListener, ()⟩] .selectDone
  | stop : ServerAt [⟨.goListener, ()⟩, ⟨.selectDone, none⟩] .beginShutdown
  | await : ServerAt [⟨.goListener, ()⟩, ⟨.selectDone, none⟩, ⟨.beginShutdown, ()⟩] .awaitIdle
  | collect : ServerAt
      [⟨.goListener, ()⟩, ⟨.selectDone, none⟩, ⟨.beginShutdown, ()⟩, ⟨.awaitIdle, none⟩]
        .receiveListen
  | failed (err : Err) :
      ServerAt [⟨.goListener, ()⟩, ⟨.selectDone, some err⟩] (.send (listenResult err))
  | unclosed (err : Err) : ServerAt
      [⟨.goListener, ()⟩, ⟨.selectDone, none⟩, ⟨.beginShutdown, ()⟩, ⟨.awaitIdle, some err⟩]
      (.send (some err))
  | closed (err : Err) : ServerAt
      [⟨.goListener, ()⟩, ⟨.selectDone, none⟩, ⟨.beginShutdown, ()⟩, ⟨.awaitIdle, none⟩,
        ⟨.receiveListen, err⟩] (.send (listenResult err))

theorem serverAt_of_steps {past : List ServerRunEvent} {rest : ServerRunProg Unit}
    (h : Steps serverThread past rest) :
    (∃ c k, rest = .call c k ∧ ServerAt past c) ∨
      ∃ τ err, past = τ ++ [⟨.send err, ()⟩] ∧ rest = .ret () ∧ ServerAt τ (.send err) := by
  have last : ∀ {err τ τ'}, Steps (ServerRunCall.send err).perform τ' rest →
      ServerAt τ (.send err) →
      (∃ c k, rest = .call c k ∧ ServerAt (τ ++ τ') c) ∨
        ∃ τ₁ err, τ ++ τ' = τ₁ ++ [⟨.send err, ()⟩] ∧ rest = .ret () ∧ ServerAt τ₁ (.send err) := by
    intro err τ τ' run at_
    rcases steps_perform_iff.1 run with ⟨rfl, rfl⟩ | ⟨_, rfl, rfl⟩
    · exact .inl ⟨_, _, rfl, by rwa [List.append_nil]⟩
    · exact .inr ⟨τ, err, rfl, rfl, at_⟩
  rcases steps_call_iff.1 h with ⟨rfl, rfl⟩ | ⟨_, τ, rfl, h₁⟩
  · exact .inl ⟨_, _, rfl, .launch⟩
  rcases steps_call_iff.1 h₁ with ⟨rfl, rfl⟩ | ⟨selected, τ, rfl, h₂⟩
  · exact .inl ⟨_, _, rfl, .select⟩
  cases selected with
  | some err => exact last h₂ (.failed err)
  | none =>
    rcases steps_call_iff.1 h₂ with ⟨rfl, rfl⟩ | ⟨_, τ, rfl, h₃⟩
    · exact .inl ⟨_, _, rfl, .stop⟩
    rcases steps_call_iff.1 h₃ with ⟨rfl, rfl⟩ | ⟨result, τ, rfl, h₄⟩
    · exact .inl ⟨_, _, rfl, .await⟩
    cases result with
    | some err => exact last h₄ (.unclosed err)
    | none =>
      rcases steps_call_iff.1 h₄ with ⟨rfl, rfl⟩ | ⟨err, τ, rfl, h₅⟩
      · exact .inl ⟨_, _, rfl, .collect⟩
      · exact last h₅ (.closed err)

/-- The next call of the goroutine of the listener. -/
inductive ListenerAt : List ListenerEvent → ListenerCall → Prop
  | listen : ListenerAt [] .listen
  | serve : ListenerAt [⟨.listen, none⟩] .serve
  | refused (err : Err) : ListenerAt [⟨.listen, some err⟩] (.send err)
  | served (err : Err) : ListenerAt [⟨.listen, none⟩, ⟨.serve, err⟩] (.send err)

theorem listenerAt_of_steps {past : List ListenerEvent} {rest : Prog listenerInterface Unit}
    (h : Steps listenerThread past rest) :
    (∃ c k, rest = .call c k ∧ ListenerAt past c) ∨
      ∃ τ err, past = τ ++ [⟨.send err, ()⟩] ∧ rest = .ret () ∧ ListenerAt τ (.send err) := by
  have last : ∀ {err τ τ'}, Steps (ListenerCall.send err).perform τ' rest →
      ListenerAt τ (.send err) →
      (∃ c k, rest = .call c k ∧ ListenerAt (τ ++ τ') c) ∨
        ∃ τ₁ err, τ ++ τ' = τ₁ ++ [⟨.send err, ()⟩] ∧ rest = .ret () ∧
          ListenerAt τ₁ (.send err) := by
    intro err τ τ' run at_
    rcases steps_perform_iff.1 run with ⟨rfl, rfl⟩ | ⟨_, rfl, rfl⟩
    · exact .inl ⟨_, _, rfl, by rwa [List.append_nil]⟩
    · exact .inr ⟨τ, err, rfl, rfl, at_⟩
  rcases steps_call_iff.1 h with ⟨rfl, rfl⟩ | ⟨result, τ, rfl, h₁⟩
  · exact .inl ⟨_, _, rfl, .listen⟩
  cases result with
  | some err => exact last h₁ (.refused err)
  | none =>
    rcases steps_call_iff.1 h₁ with ⟨rfl, rfl⟩ | ⟨err, τ, rfl, h₂⟩
    · exact .inl ⟨_, _, rfl, .serve⟩
    · exact last h₂ (.served err)

/-- The next call of `runServerAndWorker`. -/
inductive AppAt : List AppRunEvent → AppRunCall → Prop
  | goServer : AppAt [] .goServer
  | goWorker : AppAt [⟨.goServer, ()⟩] .goWorker
  | first : AppAt [⟨.goServer, ()⟩, ⟨.goWorker, ()⟩] .receive
  | cancel (err : Option Err) : AppAt [⟨.goServer, ()⟩, ⟨.goWorker, ()⟩, ⟨.receive, err⟩] .cancel
  | second (err : Option Err) :
      AppAt [⟨.goServer, ()⟩, ⟨.goWorker, ()⟩, ⟨.receive, err⟩, ⟨.cancel, ()⟩] .receive
  | again (err err' : Option Err) : AppAt
      [⟨.goServer, ()⟩, ⟨.goWorker, ()⟩, ⟨.receive, err⟩, ⟨.cancel, ()⟩, ⟨.receive, err'⟩] .cancel
  | deferred (err err' : Option Err) : AppAt
      [⟨.goServer, ()⟩, ⟨.goWorker, ()⟩, ⟨.receive, err⟩, ⟨.cancel, ()⟩, ⟨.receive, err'⟩,
        ⟨.cancel, ()⟩]
      .cancel

/-- The trace of `runServerAndWorker`, with the two results it received. -/
def waited (err err' : Option Err) : List AppRunEvent :=
  [⟨.goServer, ()⟩, ⟨.goWorker, ()⟩, ⟨.receive, err⟩, ⟨.cancel, ()⟩, ⟨.receive, err'⟩,
    ⟨.cancel, ()⟩, ⟨.cancel, ()⟩]

/-- What is left of `App.Run` then. -/
def closing (closers : List (Option Closer)) (runtimeErr : Option Err) : AppRunProg (Option Err) :=
  ((closeAppResources closers).interp (J := appRunInterface) fun c =>
    (AppRunCall.wiring c).perform).bind
    fun closeErr => .ret (joinErrs [runtimeErr, closeErr])

theorem first_err (err err' : Option Err) :
    (if err' ≠ none ∧ (if err ≠ none ∧ none = (none : Option Err) then err else none) = none
      then err'
      else if err ≠ none ∧ none = (none : Option Err) then err else none) = err.or err' := by
  cases err <;> cases err' <;> rfl

theorem appAt_of_steps {closers : List (Option Closer)} {past : List AppRunEvent}
    {rest : AppRunProg (Option Err)} (h : Steps (runApp closers) past rest) :
    (∃ c k, rest = .call c k ∧ AppAt past c) ∨
      ∃ err err' τ, past = waited err err' ++ τ ∧ Steps (closing closers (err.or err')) τ rest := by
  rcases steps_call_iff.1 h with ⟨rfl, rfl⟩ | ⟨_, τ, rfl, h₁⟩
  · exact .inl ⟨_, _, rfl, .goServer⟩
  rcases steps_call_iff.1 h₁ with ⟨rfl, rfl⟩ | ⟨_, τ, rfl, h₂⟩
  · exact .inl ⟨_, _, rfl, .goWorker⟩
  rcases steps_call_iff.1 h₂ with ⟨rfl, rfl⟩ | ⟨err, τ, rfl, h₃⟩
  · exact .inl ⟨_, _, rfl, .first⟩
  rcases steps_call_iff.1 h₃ with ⟨rfl, rfl⟩ | ⟨_, τ, rfl, h₄⟩
  · exact .inl ⟨_, _, rfl, .cancel err⟩
  rcases steps_call_iff.1 h₄ with ⟨rfl, rfl⟩ | ⟨err', τ, rfl, h₅⟩
  · exact .inl ⟨_, _, rfl, .second err⟩
  rcases steps_call_iff.1 h₅ with ⟨rfl, rfl⟩ | ⟨_, τ, rfl, h₆⟩
  · exact .inl ⟨_, _, rfl, .again err err'⟩
  rcases steps_call_iff.1 h₆ with ⟨rfl, rfl⟩ | ⟨_, τ, rfl, h₇⟩
  · exact .inl ⟨_, _, rfl, .deferred err err'⟩
  have hfirst := congrArg (fun e => Steps (closing closers e) τ rest) (first_err err err')
  exact .inr ⟨err, err', τ, rfl, hfirst.mp h₇⟩

/-! ## What a goroutine has sent -/

/-- The goroutine of the server has sent nothing yet, or it has returned. -/
theorem server_sent {past : List ServerRunEvent} {rest : ServerRunProg Unit}
    (h : Steps serverThread past rest) :
    ((∃ c k, rest = .call c k ∧ ServerAt past c) ∧ ∀ P, tally ServerRunEvent.sent P past = 0) ∨
      ∃ τ err, past = τ ++ [⟨.send err, ()⟩] ∧ rest = .ret () ∧ ServerAt τ (.send err) ∧
        ∀ P, tally ServerRunEvent.sent P past = if P err then 1 else 0 := by
  have quiet : ∀ {τ c}, ServerAt τ c → ∀ P, tally ServerRunEvent.sent P τ = 0 := by
    intro τ c at_ P
    cases at_ <;> rfl
  rcases serverAt_of_steps h with ⟨c, k, hrest, at_⟩ | ⟨τ, err, rfl, hrest, at_⟩
  · exact .inl ⟨⟨c, k, hrest, at_⟩, quiet at_⟩
  · refine .inr ⟨τ, err, rfl, hrest, at_, fun P => ?_⟩
    rw [tally_append, quiet at_, Nat.zero_add]
    exact tally_single (f := ServerRunEvent.sent) rfl P

theorem listener_sent {past : List ListenerEvent} {rest : Prog listenerInterface Unit}
    (h : Steps listenerThread past rest) :
    ((∃ c k, rest = .call c k ∧ ListenerAt past c) ∧ ∀ P, tally ListenerEvent.sent P past = 0) ∨
      ∃ τ err, past = τ ++ [⟨.send err, ()⟩] ∧ rest = .ret () ∧ ListenerAt τ (.send err) ∧
        ∀ P, tally ListenerEvent.sent P past = if P err then 1 else 0 := by
  have quiet : ∀ {τ c}, ListenerAt τ c → ∀ P, tally ListenerEvent.sent P τ = 0 := by
    intro τ c at_ P
    cases at_ <;> rfl
  rcases listenerAt_of_steps h with ⟨c, k, hrest, at_⟩ | ⟨τ, err, rfl, hrest, at_⟩
  · exact .inl ⟨⟨c, k, hrest, at_⟩, quiet at_⟩
  · refine .inr ⟨τ, err, rfl, hrest, at_, fun P => ?_⟩
    rw [tally_append, quiet at_, Nat.zero_add]
    exact tally_single (f := ListenerEvent.sent) rfl P

theorem worker_sent {J : Json} {w : Worker} {rounds : ℕ} {past : List WorkerRunEvent}
    {rest : Prog workerRunInterface Unit} (h : Steps (workerThread J w rounds) past rest) :
    (∀ P, tally WorkerRunEvent.sent P past = 0) ∨
      ∃ τ err, past = τ ++ [⟨.send err, ()⟩] ∧ rest = .ret () ∧
        ∀ P, tally WorkerRunEvent.sent P past = if P err then 1 else 0 := by
  have quiet : ((run J w rounds).interp (J := workerRunInterface)
      fun c => (WorkerRunCall.worker c).perform).Only
        fun c => ∀ r, WorkerRunEvent.sent ⟨c, r⟩ = none := by
    refine only_interp (fun c => ?_) _
    exact ⟨fun _ => rfl, fun _ => trivial⟩
  rcases tally_of_steps_bind quiet h with hnone | ⟨result, τ₁, τ₂, rfl, -, hsend, htally⟩
  · exact .inl hnone
  · cases result with
    | none =>
      obtain ⟨rfl, -⟩ := steps_ret_iff.1 hsend
      exact .inl fun P => htally P
    | some err =>
      rcases steps_perform_iff.1 hsend with ⟨rfl, -⟩ | ⟨_, rfl, rfl⟩
      · exact .inl fun P => htally P
      · exact .inr ⟨τ₁, err, rfl, rfl, fun P =>
          (htally P).trans (tally_single (f := WorkerRunEvent.sent) rfl P)⟩

/-! ## The handlers that run -/

/-- Whether a handler has been started and has not ended, as a number. -/
def HandlerThread.running (t : HandlerThread) : ℕ :=
  tally HandlerEvent.entered (fun _ => true) t.past - tally HandlerEvent.left (fun _ => true) t.past

/-- A trace between the start and the end of a handler. -/
def Inside (τ : List HandlerEvent) : Prop := ∀ e ∈ τ, ∃ c, e.call = .hook c

theorem handlerAt_of_steps {body : HookProg Unit} {past : List HandlerEvent}
    {rest : Prog handlerInterface Unit} (h : Steps (handlerThread body) past rest) :
    past = [] ∨
      (∃ τ, ∃ c : HandlerCall, ∃ k, past = ⟨.enter, ()⟩ :: τ ∧ Inside τ ∧ rest = .call c k ∧
        c ≠ .enter) ∨
      ∃ τ, past = ⟨.enter, ()⟩ :: (τ ++ [⟨.leave, ()⟩]) ∧ Inside τ ∧ rest = .ret () := by
  have hbody : (body.interp (J := handlerInterface) fun c => (HandlerCall.hook c).perform).Only
      fun c : HandlerCall => ∃ c', c = .hook c' := by
    refine only_interp (fun c => ?_) _
    exact ⟨⟨c, rfl⟩, fun _ => trivial⟩
  rcases steps_call_iff.1 h with ⟨rfl, -⟩ | ⟨_, τ, rfl, h₁⟩
  · exact .inl rfl
  right
  have hthen :
      Steps ((body.interp (J := handlerInterface) fun c => (HandlerCall.hook c).perform).bind
      fun _ => HandlerCall.leave.perform) τ rest := h₁
  rcases steps_bind_iff.1 hthen with ⟨p', hp', rfl⟩ | ⟨_, τ₁, τ₂, rfl, hexec, hleave⟩
  · obtain ⟨hinside, honly⟩ := hbody.steps hp'
    left
    cases p' with
    | ret a => exact ⟨τ, .leave, .ret, rfl, hinside, rfl, HandlerCall.noConfusion⟩
    | call c k =>
      obtain ⟨c', rfl⟩ := honly.1
      exact ⟨τ, _, _, rfl, hinside, rfl, HandlerCall.noConfusion⟩
  · have hinside := (hbody.steps hexec).1
    rcases steps_perform_iff.1 hleave with ⟨rfl, rfl⟩ | ⟨_, rfl, rfl⟩
    · rw [List.append_nil]
      exact .inl ⟨τ₁, .leave, .ret, rfl, hinside, rfl, HandlerCall.noConfusion⟩
    · exact .inr ⟨τ₁, rfl, hinside, rfl⟩

/-- What the trace of a handler tells of its start and its end. -/
theorem tally_inside {τ : List HandlerEvent} (h : Inside τ) :
    tally HandlerEvent.entered (fun _ => true) τ = 0 ∧
    tally HandlerEvent.left (fun _ => true) τ = 0 := by
  constructor <;>
  · apply List.countP_eq_zero.2
    intro e he
    obtain ⟨c', hc'⟩ := h e he
    obtain ⟨c, r⟩ := e
    obtain rfl : c = .hook c' := hc'
    simp [HandlerEvent.entered, HandlerEvent.left]

/-- A handler that does not run has not been started or has returned; one that runs goes on. -/
theorem handler_running {body : HookProg Unit} {t : HandlerThread}
    (h : Steps (handlerThread body) t.past t.rest) :
    tally HandlerEvent.entered (fun _ => true) t.past =
        tally HandlerEvent.left (fun _ => true) t.past + HandlerThread.running t ∧
      ((HandlerThread.running t = 0 ∧ (t.past = [] ∨ t.rest = .ret ())) ∨
        ∃ c : HandlerCall, ∃ k, t.rest = .call c k ∧ c ≠ .enter) := by
  unfold HandlerThread.running
  rcases handlerAt_of_steps h with hpast | ⟨τ, c, k, hpast, hinside, hrest, hc⟩ |
    ⟨τ, hpast, hinside, hrest⟩
  · rw [hpast]
    exact ⟨rfl, .inl ⟨rfl, .inl rfl⟩⟩
  · obtain ⟨-, hleft⟩ := tally_inside hinside
    have hnone : tally HandlerEvent.left (fun _ => true) t.past = 0 := by
      rw [hpast, tally_cons, hleft]
      rfl
    rw [hnone]
    exact ⟨by omega, .inr ⟨c, k, hrest, hc⟩⟩
  · obtain ⟨hentered, hleft⟩ := tally_inside hinside
    have hone : tally HandlerEvent.entered (fun _ => true) t.past = 1 ∧
        tally HandlerEvent.left (fun _ => true) t.past = 1 := by
      rw [hpast, tally_cons, tally_cons, tally_append, tally_append, hentered, hleft]
      exact ⟨rfl, rfl⟩
    rw [hone.1, hone.2]
    exact ⟨rfl, .inl ⟨rfl, .inr hrest⟩⟩

end PasswordHook
