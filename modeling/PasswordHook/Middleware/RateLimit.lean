import PasswordHook.Go.Net
import PasswordHook.Go.Time

/-!
# The rate limiter

The outermost check of the hook: `resolveSourceIP` finds the address of the client behind the
trusted proxies, `sourceAllowed` looks it up in the allowlist, and `allow` counts the requests of
each address in windows of fixed length.
-/

namespace PasswordHook

structure RateLimitConfig where
  allowedCIDRs : List Bytes
  trustedProxyCIDRs : List Bytes
  limitPerIP : ℤ
  window : ℤ

/-- A `RateLimiter`, without its counts. -/
structure RateLimiter where
  allowedCIDRs : List IPNet
  trustedProxyCIDRs : List IPNet
  limitPerIP : ℤ
  window : ℤ
  limit_pos : 0 < limitPerIP
  window_pos : 0 < window
  window_le : window ≤ maxInt64

structure RateWindow where
  start : Time
  count : ℤ
  deriving DecidableEq

/-- The map `counts`; a key that is absent has the zero value. -/
abbrev RateCounts := String → RateWindow

def RateCounts.empty : RateCounts := fun _ => ⟨.zero, 0⟩

/-- `parseCIDRs`: the values that parse. -/
def parseCIDRs (values : List Bytes) : List IPNet :=
  values.filterMap fun value => parseCIDR (trimSpaceBytes value)

def containsIP (cidrs : List IPNet) (ip : IP) : Bool := cidrs.any (·.contains ip)

def newRateLimiter (cfg : RateLimitConfig) (duration : cfg.window ≤ maxInt64) : RateLimiter where
  allowedCIDRs := parseCIDRs cfg.allowedCIDRs
  trustedProxyCIDRs := parseCIDRs cfg.trustedProxyCIDRs
  limitPerIP := if cfg.limitPerIP ≤ 0 then 500 else cfg.limitPerIP
  window := if cfg.window ≤ 0 then second else cfg.window
  limit_pos := by
    split_ifs with h
    · decide
    · exact not_le.1 h
  window_pos := by
    split_ifs with h
    · decide
    · exact not_le.1 h
  window_le := by
    split_ifs with h
    · decide
    · exact duration

/-! ## The address of the client -/

def parseIPWithOptionalPort (value : Bytes) : Option IP :=
  let value := trimSpaceBytes value
  match parseAddr value with
  | some addr =>
    if addr.zone = [] then some addr.unmapSlice else withPort value
  | none => withPort value
where
  withPort (value : Bytes) : Option IP :=
    match splitHostPort value with
    | none => none
    | some (host, port) =>
      if host = [] ∨ port = [] then none
      else if !isUint16 port then none
      else
        match parseAddr host with
        | none => none
        | some addr => if addr.zone ≠ [] then none else some addr.unmapSlice

inductive SourceResolution where
  | invalidPeer
  | directPeer
  | trustedForwarded
  | invalidForwardedChain
  deriving DecidableEq

def SourceResolution.text : SourceResolution → String
  | .invalidPeer => "invalid_peer"
  | .directPeer => "direct_peer"
  | .trustedForwarded => "trusted_forwarded"
  | .invalidForwardedChain => "invalid_forwarded_chain"

/-- A `sourceIPResolution`; a nil address is the empty one. -/
structure SourceIPResolution where
  peerIP : IP
  resolvedClientIP : IP
  peerTrusted : Bool
  forwardedHeaderCount : ℕ
  forwardedHopCount : ℕ
  sourceResolution : SourceResolution
  deriving DecidableEq

/-- What the limiter reads of a request: `RemoteAddr` and the values of `X-Forwarded-For`. -/
structure SourceRequest where
  remoteAddr : Bytes
  forwardedFor : List Bytes
  deriving DecidableEq

namespace RateLimiter

variable (l : RateLimiter)

/-- The last hop that is not a trusted proxy. -/
def lastUntrusted (hops : List IP) : Option IP :=
  hops.reverse.find? fun hop => !containsIP l.trustedProxyCIDRs hop

/-- The addresses in a header value, if all of them parse. -/
def parseHops (value : Bytes) :
    Option (List IP) := (value.splitOn 0x2c).mapM parseIPWithOptionalPort

def resolveSourceIP (r : SourceRequest) : SourceIPResolution :=
  match parseIPWithOptionalPort r.remoteAddr with
  | none => ⟨[], [], false, 0, 0, .invalidPeer⟩
  | some peer =>
    let headers := r.forwardedFor.length
    let hopCount :=
      match r.forwardedFor with
      | [value] => if trimSpaceBytes value ≠ [] then (value.splitOn 0x2c).length else 0
      | _ => 0
    if l.trustedProxyCIDRs.length = 0 || !containsIP l.trustedProxyCIDRs peer then
      ⟨peer, peer, false, headers, hopCount, .directPeer⟩
    else
      match r.forwardedFor with
      | [value] =>
        if trimSpaceBytes value = [] then ⟨peer, [], true, headers, hopCount,
          .invalidForwardedChain⟩
        else
          match parseHops value with
          | none => ⟨peer, [], true, headers, hopCount, .invalidForwardedChain⟩
          | some hops =>
            match l.lastUntrusted hops with
            | some hop => ⟨peer, hop, true, headers, hopCount, .trustedForwarded⟩
            | none => ⟨peer, [], true, headers, hopCount, .invalidForwardedChain⟩
      | _ => ⟨peer, [], true, headers, hopCount, .invalidForwardedChain⟩

def sourceIP (r : SourceRequest) : IP := (l.resolveSourceIP r).resolvedClientIP

def sourceAllowed (sourceIP : IP) : Bool :=
  0 < l.allowedCIDRs.length && containsIP l.allowedCIDRs sourceIP

/-! ## The counts -/

def rateKey (sourceIP : IP) : String := ipString sourceIP

/-- `allow` for the window of the key. -/
def allowWindow (current : RateWindow) (now : Time) : RateWindow × Bool :=
  if current.start.isZero || l.window ≤ now.sub current.start then (⟨now, 1⟩, true)
  else if l.limitPerIP ≤ current.count then (current, false)
  else (⟨current.start, current.count + 1⟩, true)

def allow (counts : RateCounts) (key : String) (now : Time) : RateCounts × Bool :=
  let r := l.allowWindow (counts key) now
  (Function.update counts key r.1, r.2)

/-! ## The middleware -/

inductive Outcome where
  | notAllowed
  | rateExceeded
  | next
  deriving DecidableEq

def Outcome.status : Outcome → Option ℕ
  | .notAllowed => some 401
  | .rateExceeded => some 429
  | .next => none

def wrap (counts : RateCounts) (r : SourceRequest) (now : Time) : RateCounts × Outcome :=
  let sourceIP := l.sourceIP r
  if !l.sourceAllowed sourceIP then (counts, .notAllowed)
  else
    let a := l.allow counts (rateKey sourceIP) now
    (a.1, if a.2 then .next else .rateExceeded)

end RateLimiter

end PasswordHook
