import PasswordHook.App.Configured
import PasswordHook.Lib.Ownership

/-!
# No resource is leaked

`New` opens connections and starts goroutines one after the other, and any of these calls can fail.
When it fails it has closed what it had opened, each resource once; when it succeeds the closers of
the `App` own what is open (`wiring_owns_resources`).
-/

namespace PasswordHook

open Prog

/-! ## What is open -/

def WiringCall.effect : (c : WiringCall) → c.Resp → OwnerEffect Resource
  | .exporter _, none => .acquire .tracerProvider
  | .startFlusher, _ => .acquire .metricFlusher
  | .busClient role _, none => .acquire (.client role)
  | .busLink role _, none => .acquire (.link role)
  | .startTokenManager, none => .acquire .tokenManager
  | .clusterClient _ _, _ => .acquire .redisClient
  | .close r, _ => .release r
  | _, _ => .none

def wiringEffect (e : WiringEvent) : OwnerEffect Resource := WiringCall.effect e.call e.resp

/-- What a closer closes. -/
def Closer.resources : Closer → Multiset Resource
  | .shutdown installed => if installed then {.tracerProvider} else 0
  | .periodicMetricFlusher => {.metricFlusher}
  | .bus role => {.link role, .client role}
  | .redisStore => {.redisClient, .tokenManager}

def closerResources (closers : List (Option Closer)) : Multiset Resource :=
  (closers.map fun closer => closer.elim 0 Closer.resources).sum

def App.resources (a : App) : Multiset Resource := closerResources a.closers

@[simp] theorem closerResources_nil : closerResources [] = 0 := rfl

@[simp] theorem closerResources_append (closers closers' : List (Option Closer)) :
    closerResources (closers ++ closers') = closerResources closers + closerResources closers' := by
  simp [closerResources]

@[simp] theorem closerResources_none (closers : List (Option Closer)) :
    closerResources (none :: closers) = closerResources closers := by
  simp [closerResources]

@[simp] theorem closerResources_some (closer : Closer) (closers : List (Option Closer)) :
    closerResources (some closer :: closers) = closer.resources + closerResources closers := by
  simp [closerResources]

/-! ## Closing -/

theorem releases_close (r : Resource) : Releases wiringEffect {r} (WiringCall.perform (.close r)) :=
  releases_call fun _ => ⟨0, .release rfl, releases_ret⟩

theorem releases_closeBus (role : BusRole) :
    Releases wiringEffect {.link role, .client role} (closeBus role) :=
  releases_call fun _ => ⟨{.client role}, .release rfl,
    releases_call fun _ => ⟨0, .release rfl, releases_ret⟩⟩

theorem releases_closeRedisStore :
    Releases wiringEffect {.redisClient, .tokenManager} closeRedisStore :=
  releases_call fun _ => ⟨{.tokenManager}, .release rfl,
    releases_call fun _ => ⟨0, .release rfl, releases_ret⟩⟩

theorem Closer.releases (closer : Closer) :
    Releases wiringEffect closer.resources closer.close := by
  cases closer with
  | shutdown installed =>
    cases installed with
    | true => exact releases_close _
    | false => exact releases_ret
  | periodicMetricFlusher => exact releases_close _
  | bus role => exact releases_closeBus role
  | redisStore => exact releases_closeRedisStore

theorem releases_closeEach (closers : List (Option Closer)) (closeErrs : List (Option Err)) :
    Releases wiringEffect (closerResources closers) (closeEach closers closeErrs) := by
  induction closers generalizing closeErrs with
  | nil => exact releases_ret
  | cons closer closers ih =>
    cases closer with
    | none =>
      rw [closerResources_none]
      exact ih closeErrs
    | some closer =>
      rw [closerResources_some]
      exact closer.releases.bind fun err => ih (closeErrs ++ [err])

theorem releases_closeAppResources (closers : List (Option Closer)) :
    Releases wiringEffect (closerResources closers) (closeAppResources closers) :=
  releases_closeEach closers []

theorem carries_closeAfterWiringError {α : Type} {res : α → Multiset Resource} (err : Err)
    (closers : List (Option Closer)) :
    Carries wiringEffect (closerResources closers) (closeAfterWiringError err closers) res :=
  (releases_closeAppResources closers).carries fun _ => carries_error

/-- What follows such an error starts with nothing in hand. -/
theorem carries_closeAfterWiringError_bind {α β : Type} {res : β → Multiset Resource} {err : Err}
    {closers : List (Option Closer)} {f : Except Err α → WiringProg (Except Err β)}
    (hf : ∀ err, Carries wiringEffect 0 (f (.error err)) res) :
    Carries wiringEffect (closerResources closers) ((closeAfterWiringError err closers).bind f)
      res := by
  show Carries wiringEffect _
    (((closeAppResources closers).bind fun closeErr => .ret (.error (joinErr err closeErr))).bind f)
      res
  rw [Prog.bind_assoc]
  exact (releases_closeAppResources closers).carries fun _ => hf _

/-! ## Service Bus -/

theorem carries_newBusLink (role : BusRole) (queueName : String) :
    Carries wiringEffect {.client role} (newBusLink role queueName) Closer.resources := by
  refine carries_call fun (r : Option Err) => ?_
  cases r with
  | some err =>
    exact ⟨_, .none, carries_call fun _ => ⟨0, .release rfl, carries_error⟩⟩
  | none => exact ⟨_, .acquire _, carries_ok rfl⟩

theorem carries_newBusFromConnectionString (role : BusRole) (connectionString queueName : String) :
    Carries wiringEffect 0 (newBusFromConnectionString role connectionString queueName)
      Closer.resources := by
  refine carries_call fun (r : Option Err) => ?_
  cases r with
  | some err => exact ⟨_, .none, carries_error⟩
  | none => exact ⟨_, .acquire _, carries_newBusLink role queueName⟩

theorem carries_newBusFromNamespace (role : BusRole) (namespaceFQDN queueName : String) :
    Carries wiringEffect 0 (newBusFromNamespace role namespaceFQDN queueName) Closer.resources := by
  unfold newBusFromNamespace
  dsimp only
  split_ifs
  · exact carries_error
  · exact carries_error
  · refine carries_call fun (r : Option Err) => ?_
    cases r with
    | some err => exact ⟨_, .none, carries_error⟩
    | none => exact ⟨_, .acquire _, carries_newBusLink role queueName⟩

theorem carries_newBusClients {new : BusRole → WiringProg (Except Err Closer)}
    (hnew : ∀ role, Carries wiringEffect 0 (new role) Closer.resources) (roles : List BusRole)
    (closers : List (Option Closer)) :
    Carries wiringEffect (closerResources closers) (newBusClients new roles closers)
      closerResources := by
  induction roles generalizing closers with
  | nil => exact carries_ok rfl
  | cons role roles ih =>
    refine (hnew role).bind (fun closer => ?_) fun err => carries_closeAfterWiringError err closers
    have hclosers : closerResources closers + closer.resources =
        closerResources (closers ++ [some closer]) := by simp
    rw [hclosers]
    exact ih _

theorem carries_newServiceBusRuntime (c : ServiceConfig) :
    Carries wiringEffect 0 c.newServiceBusRuntime closerResources := by
  unfold ServiceConfig.newServiceBusRuntime
  split_ifs
  · exact carries_newBusClients (fun role => carries_newBusFromConnectionString role _ _)
      busRoles []
  · refine carries_call fun (r : Option Err) => ?_
    cases r with
    | some err => exact ⟨_, .none, carries_error⟩
    | none =>
      exact ⟨_, .none,
        carries_newBusClients (fun role => carries_newBusFromNamespace role _ _) busRoles []⟩
  · exact carries_error

/-! ## The status store -/

theorem carries_newStreamingCredentialsProvider :
    Carries wiringEffect 0 newStreamingCredentialsProvider fun _ => {.tokenManager} := by
  refine carries_call fun (r : Option Err) => ?_
  cases r with
  | some err => exact ⟨_, .none, carries_error⟩
  | none =>
    refine ⟨_, .none, carries_call fun (r : Option Err) => ?_⟩
    cases r with
    | some err => exact ⟨_, .none, carries_error⟩
    | none => exact ⟨_, .acquire _, carries_ok rfl⟩

theorem carries_connectRedisStore (opts : RedisOptions) :
    Carries wiringEffect {.redisClient, .tokenManager} (connectRedisStore opts)
      Closer.resources := by
  unfold connectRedisStore
  split
  · exact carries_call fun _ => ⟨{.tokenManager}, .release rfl,
      carries_call fun _ => ⟨0, .release rfl, carries_error⟩⟩
  · refine carries_call fun (r : Option Err) => ?_
    cases r with
    | some err => exact ⟨_, .none, releases_closeRedisStore.carries fun _ => carries_error⟩
    | none => exact ⟨_, .none, carries_ok rfl⟩

theorem carries_newManagedIdentityRedisStore (uuidValidate : String → Bool) (opts : RedisOptions) :
    Carries wiringEffect 0 (newManagedIdentityRedisStore uuidValidate opts) Closer.resources := by
  unfold newManagedIdentityRedisStore
  split
  · exact carries_error
  · refine carries_call fun (r : Option Err) => ?_
    cases r with
    | some err => exact ⟨_, .none, carries_error⟩
    | none =>
      refine ⟨_, .none, carries_newStreamingCredentialsProvider.bind (fun _ => ?_)
        fun err => carries_error⟩
      exact carries_call fun _ => ⟨_, .acquire _, carries_connectRedisStore opts⟩

theorem carries_newSyncStatusRuntime (c : ServiceConfig) (quote : Bytes → String)
    (uuidValidate : String → Bool) :
    Carries wiringEffect 0 (c.newSyncStatusRuntime quote uuidValidate) fun closer =>
      closer.elim 0 Closer.resources := by
  unfold ServiceConfig.newSyncStatusRuntime
  split_ifs
  · exact carries_ok rfl
  · exact (carries_newManagedIdentityRedisStore uuidValidate _).bind (fun closer =>
      carries_ok (zero_add _))
      fun err => carries_error
  · exact carries_error

/-! ## Observability -/

theorem carries_setupOTel (otlpEndpoint : String) :
    Carries wiringEffect 0 (ServiceConfig.setupOTel otlpEndpoint) Closer.resources := by
  unfold ServiceConfig.setupOTel
  dsimp only
  split_ifs
  · exact carries_ok rfl
  · refine carries_call fun (r : Option Err) => ?_
    cases r with
    | some err => exact ⟨_, .none, carries_error⟩
    | none => exact ⟨_, .acquire _, carries_ok rfl⟩

theorem carries_newObservabilityRuntime (c : ServiceConfig) :
    Carries wiringEffect 0 c.newObservabilityRuntime closerResources := by
  unfold ServiceConfig.newObservabilityRuntime
  split_ifs
  · exact carries_ok rfl
  · refine (carries_setupOTel _).bind (fun shutdown => ?_) fun err => carries_error
    rw [zero_add]
    refine carries_call fun (r : Option Err) => ?_
    cases r with
    | some err => exact ⟨_, .none, shutdown.releases.carries fun _ => carries_error⟩
    | none =>
      refine ⟨_, .none, carries_call fun _ => ⟨_, .acquire _, carries_ok ?_⟩⟩
      simp [Closer.resources, add_comm]

/-! ## The application -/

/-- `newWithQueueWithRecorder` has closed the closers it was given, or hands them on. -/
theorem newWithQueueWithRecorder_cases (c : ServiceConfig) (d : Dependencies)
    (closers : List (Option Closer)) :
    (∃ err, c.newWithQueueWithRecorder d closers = closeAfterWiringError err closers) ∨
      ∃ app : App, app.closers = closers ∧ c.newWithQueueWithRecorder d closers =
        .ret (.ok app) := by
  unfold ServiceConfig.newWithQueueWithRecorder
  split_ifs
  · exact .inl ⟨_, rfl⟩
  · split
    · exact .inl ⟨_, rfl⟩
    · exact .inr ⟨_, rfl, rfl⟩

/-- Also with collaborators that are not set, the closers are closed once or handed on. -/
theorem carries_newWithWorkerDependencies (c : ServiceConfig) (d : Dependencies)
    (closers : List (Option Closer)) :
    Carries wiringEffect (closerResources closers) (c.newWithWorkerDependencies d closers)
      App.resources := by
  unfold ServiceConfig.newWithWorkerDependencies
  split_ifs
  · exact carries_closeAfterWiringError _ closers
  · exact carries_closeAfterWiringError _ closers
  · rcases newWithQueueWithRecorder_cases c d closers with ⟨err, heq⟩ |
      ⟨app, hclosers, heq⟩ <;> rw [heq]
    · -- the error is passed on, and the closers are not closed again
      exact carries_closeAfterWiringError_bind fun _ => carries_error
    · show Carries wiringEffect _ (ServiceConfig.attachWorker d closers app) _
      unfold ServiceConfig.attachWorker
      split
      · exact carries_closeAfterWiringError _ closers
      · exact carries_ok (by rw [← hclosers]; rfl)

section New

variable (c : ServiceConfig) (gcm : Bytes → Aead) (quote : Bytes → String)
  (uuidValidate : String → Bool)

theorem carries_newProcessing (closers : List (Option Closer)) :
    Carries wiringEffect (closerResources closers) (c.newProcessing gcm closers) App.resources := by
  refine carries_call fun (r : Option Err) => ?_
  cases r with
  | some err => exact ⟨_, .none, carries_closeAfterWiringError _ closers⟩
  | none =>
    refine ⟨_, .none, ?_⟩
    show Carries wiringEffect _ (c.newWithCodec gcm closers) _
    unfold ServiceConfig.newWithCodec
    split
    · exact carries_closeAfterWiringError _ closers
    · exact carries_newWithWorkerDependencies c _ closers

theorem carries_newStatusStore (closers : List (Option Closer)) :
    Carries wiringEffect (closerResources closers) (c.newStatusStore gcm quote uuidValidate closers)
      App.resources := by
  refine (carries_newSyncStatusRuntime c quote uuidValidate).bind (fun closer => ?_)
    fun err => carries_closeAfterWiringError err closers
  cases closer with
  | none =>
    rw [Option.elim_none, add_zero]
    exact carries_newProcessing c gcm closers
  | some closer =>
    have hclosers : closerResources closers + closer.resources =
        closerResources (closers ++ [some closer]) := by simp
    rw [Option.elim_some, hclosers]
    exact carries_newProcessing c gcm _

theorem carries_newConnections (closers : List (Option Closer)) :
    Carries wiringEffect (closerResources closers) (c.newConnections gcm quote uuidValidate closers)
      App.resources := by
  refine (carries_newServiceBusRuntime c).bind (fun serviceBus => ?_)
    fun err => carries_closeAfterWiringError err closers
  rw [← closerResources_append]
  exact carries_newStatusStore c gcm quote uuidValidate _

theorem carries_newApp (U : Unicode) :
    Carries wiringEffect 0 (c.newApp gcm quote uuidValidate U) App.resources := by
  unfold ServiceConfig.newApp
  split
  · exact carries_error
  · refine (carries_newObservabilityRuntime c).bind (fun closers => ?_) fun err => carries_error
    rw [zero_add]
    exact carries_newConnections c gcm quote uuidValidate closers

end New

/-- Whatever fails while the service is wired, nothing is released that is not open, an error leaves
nothing open, and an application has in its closers just what is open, so that closing them at the
end leaves nothing open, also if closing fails. -/
theorem wiring_owns_resources (c : ServiceConfig) (gcm : Bytes → Aead) (quote : Bytes → String)
    (uuidValidate : String → Bool) (U : Unicode) :
    (∀ τ p, Steps (c.newApp gcm quote uuidValidate U) τ p → heldAfter wiringEffect 0 τ ≠ none) ∧
    (∀ τ err, Exec (c.newApp gcm quote uuidValidate U) τ (.error err) →
      heldAfter wiringEffect 0 τ = some 0) ∧
    ∀ τ app, Exec (c.newApp gcm quote uuidValidate U) τ (.ok app) →
      heldAfter wiringEffect 0 τ = some (closerResources app.closers) ∧
      ∀ τ' err, Exec (closeAppResources app.closers) τ' err →
        heldAfter wiringEffect 0 (τ ++ τ') = some 0 := by
  have hcarries := carries_newApp c gcm quote uuidValidate U
  refine ⟨fun τ p run => ?_, fun τ err run => hcarries.heldAfter run, fun τ app run => ?_⟩
  · exact ((hcarries 0).steps (Option.some_ne_none _) run fun _ _ => trivial).1
  · have hheld : heldAfter wiringEffect 0 τ = some (closerResources app.closers) :=
      hcarries.heldAfter run
    refine ⟨hheld, fun τ' err closing => ?_⟩
    rw [heldAfter, List.foldl_append]
    change List.foldl _ (heldAfter wiringEffect 0 τ) τ' = _
    rw [hheld]
    exact (releases_closeAppResources app.closers).heldAfter closing

def OwnerEffect.isRelease : OwnerEffect Resource → Bool
  | .release _ => true
  | _ => false

/-- Answers under which only the ping of Redis fails, and closing does. -/
def pingFails : (c : WiringCall) → c.Resp
  | .ping _ => some (.new "i/o timeout")
  | .close _ => some (.new "closed")
  | c => c.succeed

theorem wiring_owns_resources_ping : ∃ τ err,
    Exec (ServiceConfig.sample.newApp (fun _ => .clear) (fun _ => "") sampleUUID .ascii) τ
      (.error err) ∧
      (τ.filter fun e => (wiringEffect e).isRelease).length = 10 ∧
      heldAfter wiringEffect 0 τ = some 0 := by
  let answer (c : WiringCall) (u : Unit) : Unit × c.Resp := (u, pingFails c)
  have run := exec_runWith answer
    (ServiceConfig.sample.newApp (fun _ => .clear) (fun _ => "") sampleUUID .ascii) ()
  have herr :
      ((ServiceConfig.sample.newApp (fun _ => .clear) (fun _ => "") sampleUUID .ascii).runWith
      answer ()).2.isOk = false := by decide +kernel
  cases hresult :
    ((ServiceConfig.sample.newApp (fun _ => .clear) (fun _ => "") sampleUUID .ascii).runWith
      answer ()).2 with
  | ok app =>
    rw [hresult] at herr
    cases herr
  | error err =>
    rw [hresult] at run
    exact ⟨_, err, run, by decide +kernel, (wiring_owns_resources _ _ _ _ _).2.1 _ err run⟩

end PasswordHook
