import PasswordHook.App.Wiring
import PasswordHook.Config.Overlap

/-!
# What `Validate` accepts can be wired

The constructors of the service check their arguments again, and replace some of them by defaults.
For a configuration that `Validate` accepts, with a key of 32 bytes, they find nothing to complain
about and nothing to replace: `New` fails only if a library or a server that it calls does
(`validated_config_suffices`).
-/

namespace PasswordHook

open Prog

/-! ## What `Validate` accepts -/

/-- What the service relies on: `uuid.Validate` accepts no text with white space around it. -/
def UUIDsTrimmed (uuidValidate : String → Bool) : Prop :=
  ∀ value, uuidValidate value = true → trimSpace value = value

/-- The facts about an accepted configuration that the constructors rely on. -/
structure ServiceConfig.Validated (uuidValidate : String → Bool) (c : ServiceConfig) : Prop where
  networks : c.toConfig.Accepted
  hmacSecret : trimSpaceBytes c.hmacSecret ≠ []
  hmacClockSkew : 0 < c.hmacClockSkew
  nonceTTL : 0 < c.nonceTTL
  rateLimitPerIP : 0 < c.rateLimitPerIP
  rateLimitWindow : 0 < c.rateLimitWindow
  hookMaxBodyBytes : 0 < c.hookMaxBodyBytes
  serviceBusAuth : (c.serviceBusAuthMode = "" ∨
      c.serviceBusAuthMode = serviceBusAuthConnectionString) ∨
    (c.serviceBusAuthMode = serviceBusAuthManagedIdentity ∧
      trimSpace c.serviceBusNamespaceFQDN ≠ "")
  queueName : ∀ role, isBlank (c.busQueueName role) = false
  passwordMessageTTL : 0 < c.passwordMessageTTL
  syncStatus : c.syncStatusStore = syncStatusStoreMemory ∨
    (c.syncStatusStore = syncStatusStoreRedis ∧
      validateRedisOptions uuidValidate c.redisOptions = none)
  observability : c.observabilityExporter = observabilityExporterAzureMonitor →
    trimSpace c.otlpExporterEndpoint ≠ ""

variable {U : Unicode} {quote : Bytes → String} {uuidValidate : String → Bool} {c : ServiceConfig}

theorem validateRedisOptions_of_validateRedis (trimmed : UUIDsTrimmed uuidValidate)
    (h : c.validateRedis uuidValidate = none) :
    validateRedisOptions uuidValidate c.redisOptions = none := by
  simp only [ServiceConfig.validateRedis, case_eq_none_iff, and_true] at h
  obtain ⟨hhost, hsyntax, hport, hprefix, hpending, hterminal, hclient, huuid⟩ := h
  rw [Bool.not_eq_true, Bool.or_eq_false_iff] at hsyntax
  have huuid' : uuidValidate c.azureClientID = true := by simpa using huuid
  rw [validateRedisOptions, Option.or_eq_none_iff]
  constructor
  · simp only [validateRedisStoreOptions, case_eq_none_iff, and_true]
    exact ⟨by simpa [isBlank, ServiceConfig.redisOptions] using hprefix, hpending, hterminal⟩
  · simp only [case_eq_none_iff, and_true]
    refine ⟨hhost, by simp [ServiceConfig.redisOptions, hsyntax.1],
      by simp [ServiceConfig.redisOptions, hsyntax.2], hport, hclient, ?_,
      (by decide : ¬ redisPingTimeout ≤ 0)⟩
    simp [ServiceConfig.redisOptions, trimmed _ huuid', huuid']

theorem validateServiceBus_eq_none (h : c.validateServiceBus U = none) :
    ((c.serviceBusAuthMode = "" ∨ c.serviceBusAuthMode = serviceBusAuthConnectionString) ∨
      (c.serviceBusAuthMode = serviceBusAuthManagedIdentity ∧
        trimSpace c.serviceBusNamespaceFQDN ≠ "")) ∧
      (∀ role, isBlank (c.busQueueName role) = false) ∧ 0 < c.passwordMessageTTL := by
  unfold ServiceConfig.validateServiceBus at h
  by_cases hparsed : c.passwordMessageTTLErr = none
  · rw [if_neg (not_not.2 hparsed), Option.or_eq_none_iff] at h
    obtain ⟨hauth, hrest⟩ := h
    simp only [case_eq_none_iff, and_true, Bool.not_eq_true, not_le] at hrest
    obtain ⟨hqueue, hdead, httl⟩ := hrest
    refine ⟨?_, fun role => ?_, httl⟩
    · unfold ServiceConfig.validateServiceBusAuth at hauth
      by_cases hmode : c.serviceBusAuthMode = "" ∨
        c.serviceBusAuthMode = serviceBusAuthConnectionString
      · exact .inl hmode
      · rw [if_neg hmode] at hauth
        by_cases hmanaged : c.serviceBusAuthMode = serviceBusAuthManagedIdentity
        · rw [if_pos hmanaged] at hauth
          simp only [case_eq_none_iff] at hauth
          refine .inr ⟨hmanaged, fun hblank => hauth.1 ?_⟩
          rw [hblank]
          rfl
        · rw [if_neg hmanaged] at hauth
          exact absurd hauth (by simp)
    · cases role <;> assumption
  · rw [if_pos hparsed] at h
    exact absurd h hparsed

theorem validateSyncStatus_eq_none (trimmed : UUIDsTrimmed uuidValidate)
    (h : c.validateSyncStatus uuidValidate = none) :
    c.syncStatusStore = syncStatusStoreMemory ∨
      (c.syncStatusStore = syncStatusStoreRedis ∧
      validateRedisOptions uuidValidate c.redisOptions = none) := by
  unfold ServiceConfig.validateSyncStatus at h
  split_ifs at h with h₁ h₂ hmemory hredis
  · exact absurd h h₁
  · exact absurd h h₂
  · exact .inl hmemory
  · exact .inr ⟨hredis, validateRedisOptions_of_validateRedis trimmed h⟩

theorem validateObservability_eq_none (h : c.validateObservability = none)
    (hazure : c.observabilityExporter = observabilityExporterAzureMonitor) :
    trimSpace c.otlpExporterEndpoint ≠ "" := by
  have hother :
      ¬ (c.observabilityExporter = "" ∨ c.observabilityExporter = observabilityExporterNone) := by
    rw [hazure]
    decide
  rw [ServiceConfig.validateObservability, if_neg hother, if_pos hazure] at h
  simp only [case_eq_none_iff] at h
  simpa [isBlank] using h.1

theorem validated_of_validate (trimmed : UUIDsTrimmed uuidValidate)
    (h : c.validate U quote uuidValidate = none) : c.Validated uuidValidate := by
  simp only [ServiceConfig.validate, Option.or_eq_none_iff] at h
  obtain ⟨-, hhttp, hbus, hstatus, hobservability, -⟩ := h
  obtain ⟨hauth, hqueue, httl⟩ := validateServiceBus_eq_none hbus
  have hnetworks := accepted_of_validateHTTP hhttp
  rw [Config.validateHTTP] at hhttp
  by_cases herr : c.directClientModeErr = none
  · rw [if_neg (not_not.2 herr)] at hhttp
    simp only [case_eq_none_iff, not_le] at hhttp
    obtain ⟨-, hsecret, -, -, -, -, hskew, hnonce, -, -, -, hlimit, hwindow, hbody, -⟩ := hhttp
    exact ⟨hnetworks, hsecret, hskew, hnonce, hlimit, hwindow, hbody, hauth, hqueue, httl,
      validateSyncStatus_eq_none trimmed hstatus, validateObservability_eq_none hobservability⟩
  · rw [if_pos herr] at hhttp
    exact absurd hhttp herr

/-! ## Runs in which nothing fails -/

/-- The answer of a call that succeeds. -/
def WiringCall.succeed : (c : WiringCall) → c.Resp
  | .startFlusher => ()
  | .clusterClient _ _ => ()
  | .exporter _ => none
  | .defaultAzureCredential => none
  | .busClient _ _ => none
  | .busLink _ _ => none
  | .managedIdentityCredential _ => none
  | .newTokenManager => none
  | .startTokenManager => none
  | .ping _ => none
  | .clientSecretCredential _ _ _ => none
  | .close _ => none

/-- The call succeeded. -/
def WiringEvent.Succeeded (e : WiringEvent) : Prop := e.resp = WiringCall.succeed e.call

/-- What a program comes to when every call succeeds. -/
def built {α : Type} (p : WiringProg α) : α :=
  (p.runWith (fun (c : WiringCall) (u : Unit) => (u, c.succeed)) ()).2

theorem built_bind {α β : Type} (p : WiringProg α) (f : α → WiringProg β) :
    built (p.bind f) = built (f (built p)) :=
  congrArg Prod.snd (runWith_bind _ p f ())

theorem built_perform_bind {α : Type} (c : WiringCall) (f : c.Resp → WiringProg α) :
    built ((WiringCall.perform c).bind f) = built (f c.succeed) := rfl

theorem built_newBusLink (role : BusRole) (queueName : String) :
    built (newBusLink role queueName) = .ok (.bus role) := rfl

theorem built_newBusFromConnectionString (role : BusRole) (connectionString queueName : String) :
    built (newBusFromConnectionString role connectionString queueName) = .ok (.bus role) :=
  (built_perform_bind _ _).trans (built_newBusLink role queueName)

theorem built_newBusFromNamespace (role : BusRole) {namespaceFQDN queueName : String}
    (hqueue : isBlank queueName = false) (hname : trimSpace namespaceFQDN ≠ "") :
    built (newBusFromNamespace role namespaceFQDN queueName) = .ok (.bus role) := by
  rw [newBusFromNamespace, if_neg (by rw [hqueue]; decide)]
  dsimp only
  rw [if_neg hname]
  exact (built_perform_bind _ _).trans (built_newBusLink role queueName)

theorem built_newBusClients {new : BusRole → WiringProg (Except Err Closer)}
    (hnew : ∀ role, built (new role) = .ok (.bus role)) (roles : List BusRole)
    (closers : List (Option Closer)) :
    built (newBusClients new roles closers) =
      .ok (closers ++ roles.map fun role => some (.bus role)) := by
  induction roles generalizing closers with
  | nil => exact congrArg Except.ok (List.append_nil closers).symm
  | cons role roles ih =>
    refine (built_bind (new role) _).trans ?_
    rw [hnew]
    refine (ih (closers ++ [some (.bus role)])).trans ?_
    rw [List.append_assoc]
    rfl

/-- The closers of an application with this configuration. -/
def ServiceConfig.expectedClosers (c : ServiceConfig) : List (Option Closer) :=
  (if c.observabilityExporter = observabilityExporterAzureMonitor then
      [some (.shutdown true), some .periodicMetricFlusher]
    else []) ++
  busRoles.map (fun role => some (.bus role)) ++
  if c.syncStatusStore = syncStatusStoreRedis then [some .redisStore] else []

namespace ServiceConfig.Validated

theorem built_newServiceBusRuntime (h : c.Validated uuidValidate) :
    built c.newServiceBusRuntime = .ok (busRoles.map fun role => some (.bus role)) := by
  unfold ServiceConfig.newServiceBusRuntime
  rcases h.serviceBusAuth with hmode | ⟨hmode, hname⟩
  · rw [if_pos hmode, ServiceConfig.newConnectionStringServiceBusRuntime,
      built_newBusClients fun role => built_newBusFromConnectionString role _ _]
    rfl
  · have hother : ¬ (c.serviceBusAuthMode = "" ∨
        c.serviceBusAuthMode = serviceBusAuthConnectionString) := by
      rw [hmode]
      decide
    rw [if_neg hother, if_pos hmode, ServiceConfig.newManagedIdentityServiceBusRuntime]
    refine (built_perform_bind _ _).trans ?_
    refine (built_newBusClients (fun role => ?_) busRoles []).trans rfl
    exact built_newBusFromNamespace role (h.queueName role) hname

theorem built_connectRedisStore (h : validateRedisOptions uuidValidate c.redisOptions = none) :
    built (connectRedisStore c.redisOptions) = .ok .redisStore := by
  have hstore : validateRedisStoreOptions c.redisOptions.keyPrefix c.redisOptions.pendingTTL
      c.redisOptions.terminalTTL = none := (Option.or_eq_none_iff.1 h).1
  unfold connectRedisStore
  rw [hstore]
  exact built_perform_bind _ _

theorem built_newManagedIdentityRedisStore
    (h : validateRedisOptions uuidValidate c.redisOptions = none) :
    built (newManagedIdentityRedisStore uuidValidate c.redisOptions) = .ok .redisStore := by
  unfold newManagedIdentityRedisStore
  rw [h]
  refine (built_perform_bind _ _).trans ?_
  refine (built_bind newStreamingCredentialsProvider _).trans ?_
  exact (built_perform_bind _ _).trans (built_connectRedisStore h)

theorem built_newObservabilityRuntime (h : c.Validated uuidValidate) :
    built c.newObservabilityRuntime =
      .ok (if c.observabilityExporter = observabilityExporterAzureMonitor then
        [some (.shutdown true), some .periodicMetricFlusher] else []) := by
  unfold ServiceConfig.newObservabilityRuntime
  by_cases hazure : c.observabilityExporter = observabilityExporterAzureMonitor
  · rw [if_neg (not_not.2 hazure), if_pos hazure]
    refine (built_bind (ServiceConfig.setupOTel c.otlpExporterEndpoint) _).trans ?_
    have hsetup : built (ServiceConfig.setupOTel c.otlpExporterEndpoint) =
        .ok (.shutdown true) := by
      unfold ServiceConfig.setupOTel
      dsimp only
      rw [if_neg (h.observability hazure)]
      rfl
    rw [hsetup]
    rfl
  · rw [if_pos hazure, if_neg hazure]
    rfl

theorem built_newSyncStatusRuntime (h : c.Validated uuidValidate) :
    built (c.newSyncStatusRuntime quote uuidValidate) =
      .ok (if c.syncStatusStore = syncStatusStoreRedis then some .redisStore else none) := by
  unfold ServiceConfig.newSyncStatusRuntime
  rcases h.syncStatus with hmemory | ⟨hredis, hoptions⟩
  · have hother : c.syncStatusStore ≠ syncStatusStoreRedis := by
      rw [hmemory]
      decide
    rw [if_pos hmemory, if_neg hother]
    rfl
  · have hother : c.syncStatusStore ≠ syncStatusStoreMemory := by
      rw [hredis]
      decide
    rw [if_neg hother, if_pos hredis, if_pos hredis]
    refine (built_bind (newManagedIdentityRedisStore uuidValidate c.redisOptions) _).trans ?_
    rw [built_newManagedIdentityRedisStore hoptions]
    rfl

theorem newHMAC_eq (h : c.Validated uuidValidate) :
    ∃ m : HMAC, c.newHMAC = .ok m ∧ m.secret = c.hmacSecret ∧ m.nonces = true ∧
      m.skew = c.hmacClockSkew ∧ m.nonceTTL = c.nonceTTL ∧ m.maxBodyBytes = c.hookMaxBodyBytes := by
  have hbody := h.hookMaxBodyBytes
  rw [ServiceConfig.newHMAC, newHMACWithOptions, if_neg h.hmacSecret,
    dif_neg (not_le.2 h.hmacClockSkew), dif_neg (by omega)]
  refine ⟨_, rfl, rfl, rfl, rfl, ?_, if_neg (by omega)⟩
  show PasswordHook.nonceTTL (some (newMemoryNonceStoreTTL c.nonceTTL)) = c.nonceTTL
  rw [newMemoryNonceStoreTTL, if_neg (not_le.2 h.nonceTTL)]
  exact if_pos h.nonceTTL

end ServiceConfig.Validated

/-! ## The application -/

/-- The application has the values of the configuration, none of them replaced by a default, and a
network for every entry that is not blank; the domain is meant to be valid UTF-8. -/
structure ServiceConfig.Configures (c : ServiceConfig) (app : App) : Prop where
  service : ∀ domain, c.entraPrimaryDomain = bytesOf domain →
    app.service = ⟨domain, true, true, true, c.passwordMessageTTL⟩
  secret : app.hmac.secret = c.hmacSecret
  nonces : app.hmac.nonces = true
  skew : app.hmac.skew = c.hmacClockSkew
  nonceTTL : app.hmac.nonceTTL = c.nonceTTL
  maxBodyBytes : app.hmac.maxBodyBytes = c.hookMaxBodyBytes
  limitPerIP : app.rateLimiter.limitPerIP = c.rateLimitPerIP
  window : app.rateLimiter.window = c.rateLimitWindow
  allowed : app.rateLimiter.allowedCIDRs.map some =
    (c.portalAllowedCIDRs.filter fun value => trimSpaceBytes value ≠ []).map
      fun value => parseCIDR (trimSpaceBytes value)
  trusted : app.rateLimiter.trustedProxyCIDRs.map some =
    (c.trustedProxyCIDRs.filter fun value => trimSpaceBytes value ≠ []).map
      fun value => parseCIDR (trimSpaceBytes value)
  worker : app.worker = some (newWorker 0 0 0 [])
  closers : app.closers = c.expectedClosers

namespace ServiceConfig.Validated

variable {gcm : Bytes → Aead} {codec : Codec}

theorem configures_newProcessing (h : c.Validated uuidValidate)
    (key : newCodecFromBase64 gcm c.passwordEncryptionKeyB64 c.passwordEncryptionKeyID =
      .ok codec) :
    ∃ app, built (c.newProcessing gcm c.expectedClosers) = .ok app ∧ c.Configures app := by
  obtain ⟨m, hm, hsecret, hnonces, hskew, hnonceTTL, hbody⟩ := h.newHMAC_eq
  have hlimit : c.rateLimiter.limitPerIP = c.rateLimitPerIP := if_neg (not_le.2 h.rateLimitPerIP)
  have hwindow : c.rateLimiter.window = c.rateLimitWindow := if_neg (not_le.2 h.rateLimitWindow)
  have hservice : ∀ domain, c.entraPrimaryDomain = bytesOf domain →
      c.newMigrationService ⟨true, true, true, true, true, true⟩ =
        ⟨domain, true, true, true, c.passwordMessageTTL⟩ := by
    intro domain hdomain
    rw [ServiceConfig.newMigrationService, newService, if_neg (not_le.2 h.passwordMessageTTL),
      hdomain, jsonText_bytesOf]
  refine ⟨⟨c.newMigrationService ⟨true, true, true, true, true, true⟩, m, c.rateLimiter,
    some (newWorker 0 0 0 []), c.expectedClosers⟩, ?_, hservice, hsecret, hnonces, hskew, hnonceTTL,
    hbody, hlimit, hwindow, map_parseCIDRs h.networks.portal, map_parseCIDRs h.networks.trusted,
    rfl, rfl⟩
  refine (built_perform_bind _ _).trans ?_
  show built (c.newWithCodec gcm c.expectedClosers) = _
  have hqueue : c.newWithQueueWithRecorder ⟨true, true, true, true, true, true⟩ c.expectedClosers =
      .ret (.ok ⟨c.newMigrationService ⟨true, true, true, true, true, true⟩, m, c.rateLimiter, none,
        c.expectedClosers⟩) := by
    rw [ServiceConfig.newWithQueueWithRecorder, hm]
    rfl
  rw [ServiceConfig.newWithCodec, key]
  dsimp only
  rw [ServiceConfig.newWithWorkerDependencies, if_neg (by decide), if_neg (by decide), hqueue]
  rfl

theorem configures_newApp (trimmed : UUIDsTrimmed uuidValidate)
    (accepted : c.validate U quote uuidValidate = none)
    (key : newCodecFromBase64 gcm c.passwordEncryptionKeyB64 c.passwordEncryptionKeyID =
      .ok codec) :
    ∃ app, built (c.newApp gcm quote uuidValidate U) = .ok app ∧ c.Configures app := by
  have h := validated_of_validate trimmed accepted
  obtain ⟨app, happ, hconfigures⟩ := h.configures_newProcessing key
  refine ⟨app, ?_, hconfigures⟩
  rw [ServiceConfig.newApp, accepted]
  refine (built_bind c.newObservabilityRuntime _).trans ?_
  rw [h.built_newObservabilityRuntime]
  refine (built_bind c.newServiceBusRuntime _).trans ?_
  rw [h.built_newServiceBusRuntime]
  refine (built_bind (c.newSyncStatusRuntime quote uuidValidate) _).trans ?_
  rw [h.built_newSyncStatusRuntime]
  rw [← happ, ServiceConfig.expectedClosers]
  by_cases hredis : c.syncStatusStore = syncStatusStoreRedis
  · rw [if_pos hredis, if_pos hredis]
  · rw [if_neg hredis, if_neg hredis, List.append_nil]

end ServiceConfig.Validated

/-- For a configuration that `Validate` accepts, with a key of 32 bytes, `New` fails only if
something that it calls fails; the application it returns otherwise has the values of the
configuration. -/
theorem validated_config_suffices {gcm : Bytes → Aead} {codec : Codec}
    (trimmed : UUIDsTrimmed uuidValidate) (accepted : c.validate U quote uuidValidate = none)
    (key : newCodecFromBase64 gcm c.passwordEncryptionKeyB64 c.passwordEncryptionKeyID = .ok codec)
    {τ : List WiringEvent} {r : Except Err App} (run : Exec (c.newApp gcm quote uuidValidate U) τ r)
    (up : ∀ e ∈ τ, WiringEvent.Succeeded e) : ∃ app, r = .ok app ∧ c.Configures app := by
  obtain ⟨app, happ, hconfigures⟩ := ServiceConfig.Validated.configures_newApp trimmed accepted key
  exact ⟨app, (runWith_of_answered run up).symm.trans happ, hconfigures⟩

theorem sampleSkew_le : 30 * second ≤ maxInt64 := by decide

/-- A service with all that can be configured: Redis, Azure Monitor and a connection string. -/
def ServiceConfig.sample : ServiceConfig where
  toConfig := Config.sample
  secretsSource := secretsSourceEnv
  keyVaultURL := ""
  keyVaultSecretNames := ⟨"", "", "", ""⟩
  serviceBusAuthMode := serviceBusAuthConnectionString
  serviceBusNamespaceFQDN := ""
  serviceBusConnectionString := "Endpoint=sb://hook.servicebus.windows.net/"
  serviceBusQueueName := "password-sync"
  serviceBusDeadLetterQueueName := "password-sync-dlq"
  passwordMessageTTL := 300 * second
  syncStatusStore := syncStatusStoreRedis
  redisHost := "hook.redis.azure.net"
  redisPort := 10000
  redisKeyPrefix := "password-hook:sync-status:"
  syncStatusTerminalTTL := 3600 * second
  azureClientID := "00000000-0000-4000-8000-00000000000A"
  passwordEncryptionKeyB64 := "QUFBQUFBQUFBQUFBQUFBQUFBQUFBQUFBQUFBQUFBQUE="
  passwordEncryptionKeyID := "password-payload-key-v1"
  graphTenantID := "tenant"
  graphClientID := "client"
  graphClientSecret := "secret"
  observabilityExporter := observabilityExporterAzureMonitor
  otlpExporterEndpoint := "http://localhost:4317"
  azureMonitorMetricResourceID := "/subscriptions/s"
  azureMonitorMetricRegion := "eastasia"
  azureMonitorMetricNamespace := "password-hook-service"
  redisPortErr := none
  passwordMessageTTLErr := none
  syncStatusTerminalTTLErr := none
  hmacClockSkew_le := sampleSkew_le

/-- A check that knows one UUID. -/
def sampleUUID (value : String) : Bool := value = ServiceConfig.sample.azureClientID

theorem sampleUUID_trimmed : UUIDsTrimmed sampleUUID := by
  intro value h
  rw [of_decide_eq_true h]
  decide +kernel

theorem validate_sample :
    ServiceConfig.sample.validate .ascii (fun _ => "") sampleUUID = none := by
  decide +kernel

theorem newCodec_sample (gcm : Bytes → Aead) : ∃ codec, newCodecFromBase64 gcm
    ServiceConfig.sample.passwordEncryptionKeyB64 ServiceConfig.sample.passwordEncryptionKeyID =
      .ok codec := by
  have hkey : base64Decode ServiceConfig.sample.passwordEncryptionKeyB64.toList =
      some (List.replicate 32 0x41) := by decide +kernel
  have hid : ServiceConfig.sample.passwordEncryptionKeyID ≠ "" := by decide
  rw [newCodecFromBase64, hkey]
  dsimp only
  rw [if_neg (by simp), dif_neg hid]
  exact ⟨_, rfl⟩

theorem validated_config_suffices_sample :
    ∃ τ app, Exec (ServiceConfig.sample.newApp (fun _ => .clear) (fun _ => "") sampleUUID .ascii)
      τ (.ok app) ∧
      app.closers.length = 6 ∧ app.hmac.skew = 30 * second ∧ app.rateLimiter.limitPerIP = 500 := by
  obtain ⟨codec, key⟩ := newCodec_sample fun _ => .clear
  have run := exec_runWith (fun (c : WiringCall) (u : Unit) => (u, c.succeed))
    (ServiceConfig.sample.newApp (fun _ => .clear) (fun _ => "") sampleUUID .ascii) ()
  obtain ⟨app, happ, hconfigures⟩ := validated_config_suffices sampleUUID_trimmed validate_sample
    key run fun e he => (exists_of_mem_traceWith he).elim fun _ h => h
  rw [happ] at run
  refine ⟨_, app, run, ?_, hconfigures.skew, hconfigures.limitPerIP⟩
  rw [hconfigures.closers]
  decide +kernel

end PasswordHook
