import PasswordHook.Config.Service
import PasswordHook.Crypto.Codec
import PasswordHook.Middleware.HMAC
import PasswordHook.Migration.Service
import PasswordHook.SyncStatus.Redis
import PasswordHook.Worker.Process

/-!
# Wiring the service

`app.New` with the constructors it calls, as a program over the libraries that open connections and
start goroutines.  A resource is named by what it is for: no constructor opens one twice.
-/

namespace PasswordHook

/-- What a Service Bus client is for. -/
inductive BusRole where
  | queue
  | receiver
  | deadLetterQueue
  deriving DecidableEq

/-- What has to be closed: a sender or receiver is the `link` of its client. -/
inductive Resource where
  | tracerProvider
  | metricFlusher
  | client (role : BusRole)
  | link (role : BusRole)
  | redisClient
  | tokenManager
  deriving DecidableEq

/-- What a Service Bus client is made from. -/
inductive BusAuth where
  | connectionString (value : String)
  | namespaceFQDN (value : String)
  deriving DecidableEq

/-! ## Calls -/

inductive WiringCall where
  /-- `otlptracegrpc.New`; if it succeeds, the provider of the exporter is installed. -/
  | exporter (endpoint : String)
  /-- `newPeriodicMetricFlusher` -/
  | startFlusher
  | defaultAzureCredential
  /-- `azservicebus.NewClientFromConnectionString` or `azservicebus.NewClient`. -/
  | busClient (role : BusRole) (auth : BusAuth)
  /-- `NewSender` or `NewReceiverForQueue` of the client. -/
  | busLink (role : BusRole) (queueName : String)
  | managedIdentityCredential (clientID : String)
  | newTokenManager
  | startTokenManager
  /-- `redis.NewClusterClient` -/
  | clusterClient (host : String) (port : ℤ)
  | ping (timeout : ℤ)
  | clientSecretCredential (tenantID clientID clientSecret : String)
  | close (r : Resource)
  deriving DecidableEq

def WiringCall.Resp : WiringCall → Type
  | .startFlusher => Unit
  | .clusterClient _ _ => Unit
  | _ => Option Err

def wiringInterface : Interface := ⟨WiringCall, WiringCall.Resp⟩

abbrev WiringProg := Prog wiringInterface

abbrev WiringEvent := Event wiringInterface

def WiringCall.perform (c : WiringCall) : WiringProg c.Resp := Prog.perform (I := wiringInterface) c

theorem wiring_resp_nonempty (c : WiringCall) : Nonempty c.Resp := by
  cases c with
  | startFlusher => exact ⟨()⟩
  | clusterClient host port => exact ⟨()⟩
  | _ => exact ⟨(none : Option Err)⟩

/-! ## Closing -/

/-- `errors.Join` -/
def joinErrs (errs : List (Option Err)) : Option Err :=
  match errs.filterMap id with
  | [] => none
  | err :: errs => some (errs.foldl .join err)

/-- `errors.Join` of an error with what closing came to. -/
def joinErr (err : Err) (closeErr : Option Err) : Err :=
  match closeErr with
  | none => err
  | some closeErr => .join err closeErr

/-- The resource behind an `appCloser`. -/
inductive Closer where
  /-- The function that `SetupOTel` returned, and whether a provider was installed. -/
  | shutdown (installed : Bool)
  | periodicMetricFlusher
  | bus (role : BusRole)
  | redisStore
  deriving DecidableEq

def BusRole.linkText : BusRole → String
  | .queue => "service bus sender"
  | .receiver => "service bus receiver"
  | .deadLetterQueue => "service bus dead-letter sender"

/-- `Close` of a queue, receiver or dead-letter queue: both are closed, whatever the first says. -/
def closeBus (role : BusRole) : WiringProg (Option Err) := do
  let linkErr : Option Err ← WiringCall.perform (.close (.link role))
  let clientErr : Option Err ← WiringCall.perform (.close (.client role))
  return joinErrs [linkErr.map (.wrap ("close " ++ role.linkText)),
    clientErr.map (.wrap "close service bus client")]

/-- `RedisStore.Close` -/
def closeRedisStore : WiringProg (Option Err) := do
  let clientErr : Option Err ← WiringCall.perform (.close .redisClient)
  let credentialsErr : Option Err ← WiringCall.perform (.close .tokenManager)
  return joinErrs [clientErr, credentialsErr]

def Closer.close : Closer → WiringProg (Option Err)
  | .shutdown installed =>
    if installed then WiringCall.perform (.close .tracerProvider) else return none
  | .periodicMetricFlusher => WiringCall.perform (.close .metricFlusher)
  | .bus role => closeBus role
  | .redisStore => closeRedisStore

/-- The loop of `closeAppResources`, with the errors so far. -/
def closeEach : List (Option Closer) → List (Option Err) → WiringProg (Option Err)
  | [], closeErrs => return joinErrs closeErrs
  | none :: closers, closeErrs => closeEach closers closeErrs
  | some closer :: closers, closeErrs => do
    let err ← closer.close
    closeEach closers (closeErrs ++ [err])

def closeAppResources (closers : List (Option Closer)) :
    WiringProg (Option Err) := closeEach closers []

/-- `closeAfterWiringError` -/
def closeAfterWiringError {α : Type} (err : Err) (closers : List (Option Closer)) :
    WiringProg (Except Err α) := do
  let closeErr ← closeAppResources closers
  return .error (joinErr err closeErr)

/-! ## Service Bus -/

/-- A client that got no sender or receiver is closed. -/
def newBusLink (role : BusRole) (queueName : String) : WiringProg (Except Err Closer) := do
  match ← WiringCall.perform (.busLink role queueName) with
  | some err =>
    let closeErr : Option Err ← WiringCall.perform (.close (.client role))
    return .error (joinErr (.wrap ("create " ++ role.linkText) err) closeErr)
  | none => return .ok (.bus role)

/-- `NewFromConnectionString`, `NewReceiverFromConnectionString` and
`NewDeadLetterQueueFromConnectionString`. -/
def newBusFromConnectionString (role : BusRole) (connectionString queueName : String) :
    WiringProg (Except Err Closer) := do
  match ← WiringCall.perform (.busClient role (.connectionString connectionString)) with
  | some err => return .error (.wrap "create service bus client" err)
  | none => newBusLink role queueName

def BusRole.nameText : BusRole → String
  | .deadLetterQueue => "service bus dead-letter queue name is required"
  | _ => "service bus queue name is required"

/-- `NewFromNamespace`, `NewReceiverFromNamespace` and `NewDeadLetterQueueFromNamespace`, with
`newClientFromNamespace`; the credential is set. -/
def newBusFromNamespace (role : BusRole) (namespaceFQDN queueName : String) :
    WiringProg (Except Err Closer) :=
  if isBlank queueName then return .error (.new role.nameText)
  else
    let namespaceFQDN := trimSpace namespaceFQDN
    if namespaceFQDN = "" then return .error (.new "service bus namespace FQDN is required")
    else do
      match ← WiringCall.perform (.busClient role (.namespaceFQDN namespaceFQDN)) with
      | some err => return .error (.wrap "create service bus client" err)
      | none => newBusLink role queueName

/-- The three clients in turn, with the closers of those that are there. -/
def newBusClients (new : BusRole → WiringProg (Except Err Closer)) :
    List BusRole → List (Option Closer) → WiringProg (Except Err (List (Option Closer)))
  | [], closers => return .ok closers
  | role :: roles, closers => do
    match ← new role with
    | .error err => closeAfterWiringError err closers
    | .ok closer => newBusClients new roles (closers ++ [some closer])

/-- The roles in the order of the source. -/
def busRoles : List BusRole := [.queue, .receiver, .deadLetterQueue]

namespace ServiceConfig

variable (c : ServiceConfig)

def busQueueName : BusRole → String
  | .deadLetterQueue => c.serviceBusDeadLetterQueueName
  | _ => c.serviceBusQueueName

def newConnectionStringServiceBusRuntime : WiringProg (Except Err (List (Option Closer))) :=
  newBusClients
    (fun role => newBusFromConnectionString role c.serviceBusConnectionString (c.busQueueName role))
    busRoles []

def newManagedIdentityServiceBusRuntime : WiringProg (Except Err (List (Option Closer))) := do
  match ← WiringCall.perform .defaultAzureCredential with
  | some err => return .error (.wrap "create Azure credential" err)
  | none =>
    newBusClients
      (fun role => newBusFromNamespace role c.serviceBusNamespaceFQDN (c.busQueueName role))
        busRoles []

def newServiceBusRuntime : WiringProg (Except Err (List (Option Closer))) :=
  if c.serviceBusAuthMode = "" ∨ c.serviceBusAuthMode = serviceBusAuthConnectionString then
    c.newConnectionStringServiceBusRuntime
  else if c.serviceBusAuthMode = serviceBusAuthManagedIdentity then
    c.newManagedIdentityServiceBusRuntime
  else return .error (.new "SERVICEBUS_AUTH_MODE must be connection_string or managed_identity")

/-! ## The status store -/

end ServiceConfig

structure RedisOptions where
  host : String
  port : ℤ
  keyPrefix : String
  pendingTTL : ℤ
  terminalTTL : ℤ
  managedIdentityClientID : String
  pingTimeout : ℤ

def validateRedisOptions (uuidValidate : String → Bool) (opts : RedisOptions) : Option Err :=
  (validateRedisStoreOptions opts.keyPrefix opts.pendingTTL opts.terminalTTL).or <|
    if isBlank opts.host then some (.new "Redis host is required")
    else if hasScheme opts.host then
      some (.new "Redis host must not include a URL scheme")
    else if hasHostSyntax opts.host then
      some (.new "Redis host must not include a path, user info, or port")
    else if opts.port ≤ 0 || 65535 < opts.port then
      some (.new "Redis port must be between 1 and 65535")
    else if isBlank opts.managedIdentityClientID then
      some (.new "Redis managed identity client ID is required")
    else if !uuidValidate (trimSpace opts.managedIdentityClientID) then
      some (.new "Redis managed identity client ID must be a valid UUID")
    else if opts.pingTimeout ≤ 0 then some (.new "Redis ping timeout must be positive")
    else none

/-- `newStreamingCredentialsProvider` -/
def newStreamingCredentialsProvider : WiringProg (Except Err Unit) := do
  match ← WiringCall.perform .newTokenManager with
  | some err => return .error err
  | none =>
    match ← WiringCall.perform .startTokenManager with
    | some err => return .error (.wrap "start token manager" err)
    | none => return .ok ()

/-- `NewManagedIdentityRedisStore` once the client is there. -/
def connectRedisStore (opts : RedisOptions) : WiringProg (Except Err Closer) :=
  match validateRedisStoreOptions opts.keyPrefix opts.pendingTTL opts.terminalTTL with
  | some err => do
    let clientErr : Option Err ← WiringCall.perform (.close .redisClient)
    let providerErr : Option Err ← WiringCall.perform (.close .tokenManager)
    return .error (joinErr err (joinErrs [clientErr, providerErr]))
  | none => do
    match ← WiringCall.perform (.ping opts.pingTimeout) with
    | some err =>
      let closeErr ← closeRedisStore
      return .error (joinErr (.wrap "ping Redis" err) closeErr)
    | none => return .ok .redisStore

def newManagedIdentityRedisStore (uuidValidate : String → Bool) (opts : RedisOptions) :
    WiringProg (Except Err Closer) :=
  match validateRedisOptions uuidValidate opts with
  | some err => return .error err
  | none => do
    match ← WiringCall.perform
        (.managedIdentityCredential (trimSpace opts.managedIdentityClientID)) with
    | some err => return .error (.wrap "create Redis managed identity credential" err)
    | none =>
      match ← newStreamingCredentialsProvider with
      | .error err => return .error (.wrap "create Redis streaming credentials provider" err)
      | .ok () =>
        WiringCall.perform (.clusterClient (trimSpace opts.host) opts.port)
        connectRedisStore opts

def redisPingTimeout : ℤ := 5 * second

namespace ServiceConfig

variable (c : ServiceConfig)

def redisOptions : RedisOptions where
  host := c.redisHost
  port := c.redisPort
  keyPrefix := c.redisKeyPrefix
  pendingTTL := c.passwordMessageTTL
  terminalTTL := c.syncStatusTerminalTTL
  managedIdentityClientID := c.azureClientID
  pingTimeout := redisPingTimeout

/-- `newSyncStatusRuntime`, by the closer of the store; a memory store has none. -/
def newSyncStatusRuntime (quote : Bytes → String) (uuidValidate : String → Bool) :
    WiringProg (Except Err (Option Closer)) :=
  if c.syncStatusStore = syncStatusStoreMemory then return .ok none
  else if c.syncStatusStore = syncStatusStoreRedis then do
    match ← newManagedIdentityRedisStore uuidValidate c.redisOptions with
    | .error err => return .error err
    | .ok closer => return .ok (some closer)
  else return .error (.new ("unsupported sync status store " ++ quote (bytesOf c.syncStatusStore)))

/-! ## Observability -/

/-- `SetupOTel`, for the service name of `newObservabilityRuntime`. -/
def setupOTel (otlpEndpoint : String) : WiringProg (Except Err Closer) :=
  let endpoint := trimSpace otlpEndpoint
  if endpoint = "" then return .ok (.shutdown false)
  else do
    match ← WiringCall.perform (.exporter endpoint) with
    | some err => return .error err
    | none => return .ok (.shutdown true)

def newObservabilityRuntime : WiringProg (Except Err (List (Option Closer))) :=
  if c.observabilityExporter ≠ observabilityExporterAzureMonitor then return .ok []
  else do
    match ← setupOTel c.otlpExporterEndpoint with
    | .error err => return .error err
    | .ok shutdown =>
      match ← WiringCall.perform .defaultAzureCredential with
      | some err =>
        let closeErr ← shutdown.close
        return .error (joinErr err closeErr)
      | none =>
        WiringCall.perform .startFlusher
        return .ok [some shutdown, some .periodicMetricFlusher]

end ServiceConfig

/-! ## The application -/

/-- An `App`: what the handler of the hook is made of, the worker if there is one, and the
closers. -/
structure App where
  service : Service
  hmac : HMAC
  rateLimiter : RateLimiter
  worker : Option Worker
  closers : List (Option Closer)

/-- The collaborators that are set. -/
structure Dependencies where
  queue : Bool
  receiver : Bool
  processor : Bool
  deadLetterSink : Bool
  passwordCodec : Bool
  syncStatusStore : Bool

/-- `worker.New`, with the options of `App`. -/
def newAppWorker (d : Dependencies) : Except Err Worker :=
  if !d.receiver then .error (.new "worker receiver is required")
  else if !d.processor then .error (.new "worker processor is required")
  else if !d.deadLetterSink then .error (.new "worker dead-letter sink is required")
  else if !d.passwordCodec then .error (.new "worker password decrypter is required")
  else if !d.syncStatusStore then .error (.new "worker sync status recorder is required")
  else .ok (newWorker 0 0 0 [])

namespace ServiceConfig

variable (c : ServiceConfig)

/-- `migration.NewService`, with the options of `App`, for a domain in valid UTF-8; `jsonText`
changes no valid UTF-8. -/
def newMigrationService (d : Dependencies) : Service :=
  newService (jsonText c.entraPrimaryDomain) d.queue d.passwordCodec d.syncStatusStore
    c.passwordMessageTTL

/-- `NewHMACWithOptions`, with a memory store for the nonces. -/
def newHMAC : Except Err HMAC :=
  newHMACWithOptions c.hmacSecret (some (newMemoryNonceStoreTTL c.nonceTTL)) c.hmacClockSkew
    c.hmacClockSkew_le c.hookMaxBodyBytes

/-- `newWithQueueWithRecorder` -/
def newWithQueueWithRecorder (d : Dependencies) (closers : List (Option Closer)) :
    WiringProg (Except Err App) :=
  if !d.passwordCodec then closeAfterWiringError (.new "password encrypter is required") closers
  else
    match c.newHMAC with
    | .error err => closeAfterWiringError err closers
    | .ok hmac => return .ok ⟨c.newMigrationService d, hmac, c.rateLimiter, none, closers⟩

/-- The application with its worker. -/
def attachWorker (d : Dependencies) (closers : List (Option Closer)) (application : App) :
    WiringProg (Except Err App) :=
  match newAppWorker d with
  | .error err => closeAfterWiringError err closers
  | .ok worker => return .ok { application with worker := some worker }

/-- `newWithWorkerDependenciesWithSyncStatusAndRecorder` -/
def newWithWorkerDependencies (d : Dependencies) (closers : List (Option Closer)) :
    WiringProg (Except Err App) :=
  if !d.passwordCodec then closeAfterWiringError (.new "password codec is required") closers
  else if !d.syncStatusStore then
    closeAfterWiringError (.new "sync status store is required") closers
  else do
    match ← c.newWithQueueWithRecorder d closers with
    | .error err => return .error err
    | .ok application => attachWorker d closers application

variable (gcm : Bytes → Aead)

/-- `New` from the codec on. -/
def newWithCodec (closers : List (Option Closer)) : WiringProg (Except Err App) :=
  match newCodecFromBase64 gcm c.passwordEncryptionKeyB64 c.passwordEncryptionKeyID with
  | .error err => closeAfterWiringError err closers
  | .ok _ => c.newWithWorkerDependencies ⟨true, true, true, true, true, true⟩ closers

/-- `New` once the connections are there. -/
def newProcessing (closers : List (Option Closer)) : WiringProg (Except Err App) := do
  match ← WiringCall.perform
      (.clientSecretCredential c.graphTenantID c.graphClientID c.graphClientSecret) with
  | some err => closeAfterWiringError err closers
  | none => c.newWithCodec gcm closers

variable (quote : Bytes → String) (uuidValidate : String → Bool)

/-- `New` from the status store on. -/
def newStatusStore (closers : List (Option Closer)) : WiringProg (Except Err App) := do
  match ← c.newSyncStatusRuntime quote uuidValidate with
  | .error err => closeAfterWiringError err closers
  | .ok none => c.newProcessing gcm closers
  | .ok (some closer) => c.newProcessing gcm (closers ++ [some closer])

/-- `New` from the Service Bus on. -/
def newConnections (closers : List (Option Closer)) : WiringProg (Except Err App) := do
  match ← c.newServiceBusRuntime with
  | .error err => closeAfterWiringError err closers
  | .ok serviceBus => c.newStatusStore gcm quote uuidValidate (closers ++ serviceBus)

/-- `New`.  The Graph client and its processor get a credential and a client, so their constructors
do not fail. -/
def newApp (U : Unicode) : WiringProg (Except Err App) :=
  match c.validate U quote uuidValidate with
  | some err => return .error (.new err)
  | none => do
    match ← c.newObservabilityRuntime with
    | .error err => return .error err
    | .ok closers => c.newConnections gcm quote uuidValidate closers

end ServiceConfig

end PasswordHook
