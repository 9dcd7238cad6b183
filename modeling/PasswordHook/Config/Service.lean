import PasswordHook.Config.HTTP
import PasswordHook.Go.Runes

/-!
# Configuration of the whole service

`config.Config` with `Validate`, which checks the fields in groups and stops at the first error.
The library function `uuid.Validate` is a parameter, true where it returns nil.
-/

namespace PasswordHook

/-! ## The configuration -/

structure KeyVaultSecretNames where
  hmacSecret : String
  serviceBusConnectionString : String
  graphClientSecret : String
  passwordEncryptionKey : String
  deriving DecidableEq

/-- `config.Config`; the fields that `ValidateHTTP` reads are those of `Config`, the others are
valid UTF-8. -/
structure ServiceConfig extends Config where
  secretsSource : String
  keyVaultURL : String
  keyVaultSecretNames : KeyVaultSecretNames
  serviceBusAuthMode : String
  serviceBusNamespaceFQDN : String
  serviceBusConnectionString : String
  serviceBusQueueName : String
  serviceBusDeadLetterQueueName : String
  passwordMessageTTL : ℤ
  syncStatusStore : String
  redisHost : String
  redisPort : ℤ
  redisKeyPrefix : String
  syncStatusTerminalTTL : ℤ
  azureClientID : String
  passwordEncryptionKeyB64 : String
  passwordEncryptionKeyID : String
  graphTenantID : String
  graphClientID : String
  graphClientSecret : String
  observabilityExporter : String
  otlpExporterEndpoint : String
  azureMonitorMetricResourceID : String
  azureMonitorMetricRegion : String
  azureMonitorMetricNamespace : String
  redisPortErr : Option String
  passwordMessageTTLErr : Option String
  syncStatusTerminalTTLErr : Option String
  hmacClockSkew_le : hmacClockSkew ≤ maxInt64

def secretsSourceEnv : String := "env"

def secretsSourceKeyVault : String := "keyvault"

def serviceBusAuthConnectionString : String := "connection_string"

def serviceBusAuthManagedIdentity : String := "managed_identity"

def observabilityExporterNone : String := "none"

def observabilityExporterAzureMonitor : String := "azure_monitor"

def syncStatusStoreMemory : String := "memory"

def syncStatusStoreRedis : String := "redis"

/-- `strings.TrimSpace(value) == ""` -/
def isBlank (value : String) : Bool := trimSpace value = ""

/-- `strings.Contains(value, "://")` -/
def hasScheme (value : String) : Bool := "://".toList <:+: value.toList

/-- `strings.ContainsAny(value, "/@:")` -/
def hasHostSyntax (value : String) : Bool := value.toList.any fun c => c = '/' || c = '@' || c = ':'

/-- `strings.HasPrefix(value, "https://")` -/
def isHTTPS (value : String) : Bool := "https://".toList <+: value.toList

namespace ServiceConfig

variable (c : ServiceConfig)

def validateSecretLoadingInputs : Option String :=
  if c.secretsSource = "" then some "SECRETS_SOURCE is required (env or keyvault)"
  else if c.secretsSource = secretsSourceEnv then none
  else if c.secretsSource = secretsSourceKeyVault then
    if isBlank c.keyVaultURL then some "KEY_VAULT_URL is required when SECRETS_SOURCE=keyvault"
    else if !isHTTPS c.keyVaultURL then
      some "KEY_VAULT_URL must start with https://"
    else if isBlank c.keyVaultSecretNames.hmacSecret then
      some "KEY_VAULT_HMAC_SECRET_NAME is required when SECRETS_SOURCE=keyvault"
    else if c.serviceBusAuthMode ≠ serviceBusAuthManagedIdentity &&
        isBlank c.keyVaultSecretNames.serviceBusConnectionString then
      some "KEY_VAULT_SERVICEBUS_CONNECTION_STRING_NAME is required when SECRETS_SOURCE=keyvault"
    else if isBlank c.keyVaultSecretNames.graphClientSecret then
      some "KEY_VAULT_GRAPH_CLIENT_SECRET_NAME is required when SECRETS_SOURCE=keyvault"
    else if isBlank c.keyVaultSecretNames.passwordEncryptionKey then
      some "KEY_VAULT_PASSWORD_ENCRYPTION_KEY_NAME is required when SECRETS_SOURCE=keyvault"
    else none
  else some "SECRETS_SOURCE must be env or keyvault"

/-- The check of the fields that the authentication mode needs. -/
def validateServiceBusAuth (U : Unicode) : Option String :=
  if c.serviceBusAuthMode = "" ∨ c.serviceBusAuthMode = serviceBusAuthConnectionString then
    if isBlank c.serviceBusConnectionString then some "SERVICEBUS_CONNECTION_STRING is required"
    else none
  else if c.serviceBusAuthMode = serviceBusAuthManagedIdentity then
    let namespaceFQDN := toLower U (trimSpace c.serviceBusNamespaceFQDN)
    if namespaceFQDN = "" then
      some "SERVICEBUS_NAMESPACE_FQDN is required when SERVICEBUS_AUTH_MODE=managed_identity"
    else if hasScheme namespaceFQDN ||
        !decide (".servicebus.windows.net".toList <:+ namespaceFQDN.toList) then
      some "SERVICEBUS_NAMESPACE_FQDN must be a Service Bus namespace host name"
    else none
  else some "SERVICEBUS_AUTH_MODE must be connection_string or managed_identity"

def validateServiceBus (U : Unicode) : Option String :=
  if c.passwordMessageTTLErr ≠ none then c.passwordMessageTTLErr
  else (c.validateServiceBusAuth U).or <|
    if isBlank c.serviceBusQueueName then some "SERVICEBUS_QUEUE_NAME is required"
    else if isBlank c.serviceBusDeadLetterQueueName then
      some "SERVICEBUS_DEADLETTER_QUEUE_NAME is required"
    else if c.passwordMessageTTL ≤ 0 then some "PasswordMessageTTL must be positive"
    else none

/-- The check of the fields that the Redis store needs. -/
def validateRedis (uuidValidate : String → Bool) : Option String :=
  if isBlank c.redisHost then some "REDIS_HOST is required when SYNC_STATUS_STORE=redis"
  else if hasScheme c.redisHost || hasHostSyntax c.redisHost then
    some "REDIS_HOST must be a host name without a scheme, path, or port"
  else if c.redisPort ≤ 0 || 65535 < c.redisPort then
    some "REDIS_PORT must be between 1 and 65535 when SYNC_STATUS_STORE=redis"
  else if isBlank c.redisKeyPrefix then
    some "REDIS_KEY_PREFIX is required when SYNC_STATUS_STORE=redis"
  else if c.passwordMessageTTL < millisecond then
    some "PASSWORD_MESSAGE_TTL must be at least 1ms when SYNC_STATUS_STORE=redis"
  else if c.syncStatusTerminalTTL < millisecond then
    some "SYNC_STATUS_TERMINAL_TTL must be at least 1ms when SYNC_STATUS_STORE=redis"
  else if isBlank c.azureClientID then
    some "AZURE_CLIENT_ID is required when SYNC_STATUS_STORE=redis"
  else if !uuidValidate c.azureClientID then
    some "AZURE_CLIENT_ID must be a valid UUID when SYNC_STATUS_STORE=redis"
  else none

def validateSyncStatus (uuidValidate : String → Bool) : Option String :=
  if c.redisPortErr ≠ none then c.redisPortErr
  else if c.syncStatusTerminalTTLErr ≠ none then c.syncStatusTerminalTTLErr
  else if c.syncStatusStore = syncStatusStoreMemory then none
  else if c.syncStatusStore = syncStatusStoreRedis then c.validateRedis uuidValidate
  else some "SYNC_STATUS_STORE must be memory or redis"

def validateObservability : Option String :=
  if c.observabilityExporter = "" ∨ c.observabilityExporter = observabilityExporterNone then none
  else if c.observabilityExporter = observabilityExporterAzureMonitor then
    if isBlank c.otlpExporterEndpoint then
      some "OTEL_EXPORTER_OTLP_ENDPOINT is required when OBSERVABILITY_EXPORTER=azure_monitor"
    else if isBlank c.azureMonitorMetricResourceID then
      some "AZURE_MONITOR_METRIC_RESOURCE_ID is required when OBSERVABILITY_EXPORTER=azure_monitor"
    else if isBlank c.azureMonitorMetricRegion then
      some "AZURE_MONITOR_METRIC_REGION is required when OBSERVABILITY_EXPORTER=azure_monitor"
    else if isBlank c.azureMonitorMetricNamespace then
      some "AZURE_MONITOR_METRIC_NAMESPACE is required when OBSERVABILITY_EXPORTER=azure_monitor"
    else none
  else some "OBSERVABILITY_EXPORTER must be none or azure_monitor"

/-- The last checks of `Validate`. -/
def validateCredentials : Option String :=
  if isBlank c.passwordEncryptionKeyB64 then some "PASSWORD_ENCRYPTION_KEY_B64 is required"
  else if isBlank c.passwordEncryptionKeyID then some "PASSWORD_ENCRYPTION_KEY_ID is required"
  else if isBlank c.graphTenantID then some "GRAPH_TENANT_ID is required"
  else if isBlank c.graphClientID then some "GRAPH_CLIENT_ID is required"
  else if isBlank c.graphClientSecret then some "GRAPH_CLIENT_SECRET is required"
  else none

def validate (U : Unicode) (quote : Bytes → String) (uuidValidate : String → Bool) :
    Option String :=
  c.validateSecretLoadingInputs.or <| (c.validateHTTP quote).or <| (c.validateServiceBus U).or <|
    (c.validateSyncStatus uuidValidate).or <| c.validateObservability.or c.validateCredentials

end ServiceConfig

end PasswordHook
