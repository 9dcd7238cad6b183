import PasswordHook.Middleware.RateLimit

/-!
# Configuration of the HTTP service

`Config` has the fields that `ValidateHTTP` reads.  Values come from the environment, so they are
byte strings.  An error is its text, and `quote` is the verb `%q`.
-/

namespace PasswordHook

structure Config where
  httpAddr : Bytes
  hmacSecret : Bytes
  entraPrimaryDomain : Bytes
  entraFallbackDomain : Bytes
  problemBaseURL : Bytes
  hmacClockSkew : ℤ
  nonceTTL : ℤ
  portalAllowedCIDRs : List Bytes
  trustedProxyCIDRs : List Bytes
  directClientMode : Bool
  rateLimitPerIP : ℤ
  rateLimitWindow : ℤ
  hookMaxBodyBytes : ℤ
  directClientModeErr : Option String
  rateLimitWindow_le : rateLimitWindow ≤ maxInt64

def hasNonBlank (values : List Bytes) : Bool := values.any fun value => trimSpaceBytes value ≠ []

section

variable (quote : Bytes → String)

def validateCIDRs (envName : String) : List Bytes → Option String
  | [] => none
  | value :: values =>
    let value := trimSpaceBytes value
    if value = [] then validateCIDRs envName values
    else
      match parseCIDR value with
      | none => some (envName ++ " contains invalid CIDR " ++ quote value)
      | some _ => validateCIDRs envName values

/-- The inner loop of `rejectOverlappingCIDRs`. -/
def rejectOverlapping (t : Bytes) (trustedNet : IPNet) : List Bytes → Option String
  | [] => none
  | p :: portal =>
    let p := trimSpaceBytes p
    if p = [] then rejectOverlapping t trustedNet portal
    else
      match parseCIDR p with
      | none => some ("PORTAL_ALLOWED_CIDRS contains invalid CIDR " ++ quote p)
      | some portalNet =>
        if trustedNet.contains portalNet.ip || portalNet.contains trustedNet.ip then
          some ("TRUSTED_PROXY_CIDRS " ++ quote t ++ " must not overlap PORTAL_ALLOWED_CIDRS " ++
            quote p)
        else rejectOverlapping t trustedNet portal

def rejectOverlappingCIDRs (trusted portal : List Bytes) : Option String :=
  match trusted with
  | [] => none
  | t :: trusted =>
    let t := trimSpaceBytes t
    if t = [] then rejectOverlappingCIDRs trusted portal
    else
      match parseCIDR t with
      | none => some ("TRUSTED_PROXY_CIDRS contains invalid CIDR " ++ quote t)
      | some trustedNet =>
        match rejectOverlapping quote t trustedNet portal with
        | some err => some err
        | none => rejectOverlappingCIDRs trusted portal

def rejectUnrestrictedCIDRs (envName : String) : List Bytes → Option String
  | [] => none
  | value :: values =>
    let value := trimSpaceBytes value
    if value = [] then rejectUnrestrictedCIDRs envName values
    else
      match parseCIDR value with
      | none => some (envName ++ " contains invalid CIDR " ++ quote value)
      | some network =>
        if maskOnes network.mask = 0 then
          some (envName ++ " must not contain unrestricted CIDR " ++ quote value)
        else rejectUnrestrictedCIDRs envName values

/-- The checks of the lists of networks, at the end of `ValidateHTTP`. -/
def Config.validateNetworks (c : Config) : Option String :=
  (validateCIDRs quote "PORTAL_ALLOWED_CIDRS" c.portalAllowedCIDRs).or <|
  (validateCIDRs quote "TRUSTED_PROXY_CIDRS" c.trustedProxyCIDRs).or <|
  (rejectUnrestrictedCIDRs quote "TRUSTED_PROXY_CIDRS" c.trustedProxyCIDRs).or <|
  rejectOverlappingCIDRs quote c.trustedProxyCIDRs c.portalAllowedCIDRs

def Config.validateHTTP (c : Config) : Option String :=
  if c.directClientModeErr ≠ none then c.directClientModeErr
  else if trimSpaceBytes c.httpAddr = [] then some "HTTP_ADDR is required"
  else if trimSpaceBytes c.hmacSecret = [] then some "HOOK_HMAC_SECRET is required"
  else if trimSpaceBytes c.entraPrimaryDomain = [] then some "ENTRA_PRIMARY_DOMAIN is required"
  else if 0x40 ∈ c.entraPrimaryDomain then
    some ("ENTRA_PRIMARY_DOMAIN must be a domain, got " ++ quote c.entraPrimaryDomain)
  else if 0x40 ∈ c.entraFallbackDomain then
    some ("ENTRA_FALLBACK_DOMAIN must be a domain, got " ++ quote c.entraFallbackDomain)
  else if !(bytesOf "https://").isPrefixOf c.problemBaseURL then
    some "PROBLEM_BASE_URL must start with https://"
  else if c.hmacClockSkew ≤ 0 then some "HMACClockSkew must be positive"
  else if c.nonceTTL ≤ 0 then some "NonceTTL must be positive"
  else if !hasNonBlank c.portalAllowedCIDRs then some "PORTAL_ALLOWED_CIDRS is required"
  else if c.directClientMode && hasNonBlank c.trustedProxyCIDRs then
    some "TRUSTED_PROXY_CIDRS must be empty when DIRECT_CLIENT_MODE=true"
  else if !c.directClientMode && !hasNonBlank c.trustedProxyCIDRs then
    some "TRUSTED_PROXY_CIDRS is required when DIRECT_CLIENT_MODE=false"
  else if c.rateLimitPerIP ≤ 0 then some "RateLimitPerIP must be positive"
  else if c.rateLimitWindow ≤ 0 then some "RateLimitWindow must be positive"
  else if c.hookMaxBodyBytes ≤ 0 then some "HookMaxBodyBytes must be positive"
  else c.validateNetworks quote

end

/-- The rate limiter of `newWithQueueWithRecorder`. -/
def Config.rateLimiter (c : Config) : RateLimiter :=
  newRateLimiter
    { allowedCIDRs := c.portalAllowedCIDRs
      trustedProxyCIDRs := c.trustedProxyCIDRs
      limitPerIP := c.rateLimitPerIP
      window := c.rateLimitWindow }
    c.rateLimitWindow_le

end PasswordHook
