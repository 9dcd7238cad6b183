import PasswordHook.Go.Errors
import PasswordHook.Go.Runes
import PasswordHook.Go.Time
import PasswordHook.Lib.Expiry
import PasswordHook.Lib.Hex
import PasswordHook.Lib.Prog

/-!
# Authenticating requests

`HMAC.Wrap` of package `middleware`, with `MemoryNonceStore`.  A request is forwarded if its headers
are well formed, its timestamp is fresh, its signature is the HMAC of `timestamp.nonce.body`, and
its nonce has not been used.  The program reads the clock twice, once for the freshness check and
once in `Use`, and takes the lock of the store after that.

Header values are bytes, as they come.  HMAC-SHA256 is a parameter.
-/

namespace PasswordHook

/-! ## Numbers and signatures in headers -/

/-- The value of a non-empty run of decimal digits. -/
def parseDigits : Bytes → Option ℕ
  | [] => none
  | bs => if bs.all fun b => 48 ≤ b && b ≤ 57 then
      some (bs.foldl (fun n b => 10 * n + (b.toNat - 48)) 0)
    else none

/-- `strconv.ParseInt(s, 10, 64)` -/
def parseInt64 (s : Bytes) : Option ℤ :=
  match s with
  | 45 :: digits => (parseDigits digits).bind fun n =>
      if -(n : ℤ) < minInt64 then none else some (-n)
  | 43 :: digits => (parseDigits digits).bind fun n => if maxInt64 < n then none else some n
  | digits => (parseDigits digits).bind fun n => if maxInt64 < n then none else some n

theorem parseInt64_mem {s : Bytes} {n : ℤ} (h : parseInt64 s = some n) :
    minInt64 ≤ n ∧ n ≤ maxInt64 := by
  have hneg : ∀ k : ℕ, -(k : ℤ) ≤ maxInt64 := by
    intro k
    unfold maxInt64
    omega
  have hpos : ∀ k : ℕ, minInt64 ≤ (k : ℤ) := by
    intro k
    unfold minInt64
    omega
  unfold parseInt64 at h
  split at h <;> obtain ⟨k, -, hk⟩ := Option.bind_eq_some_iff.1 h <;>
    split_ifs at hk with hrange <;> rw [← Option.some_inj.1 hk]
  · exact ⟨not_lt.1 hrange, hneg k⟩
  · exact ⟨hpos k, not_lt.1 hrange⟩
  · exact ⟨hpos k, not_lt.1 hrange⟩

/-- `hex.DecodeString` -/
def hexDecodeBytes (s : Bytes) : Option Bytes := hexDecode (s.map fun b => Char.ofNat b.toNat)

/-- `hex.EncodeToString`, as bytes -/
def hexEncodeBytes (bs : Bytes) : Bytes := (hexEncode bs).map fun c => UInt8.ofNat c.toNat

theorem hexDecodeBytes_hexEncodeBytes (bs : Bytes) :
    hexDecodeBytes (hexEncodeBytes bs) = some bs := by
  have hdigit : ∀ n : Fin 16, Char.ofNat (UInt8.ofNat (Nat.digitChar n).toNat).toNat =
      Nat.digitChar n := by decide
  have hback : ((hexEncode bs).map fun c => UInt8.ofNat c.toNat).map (fun b => Char.ofNat b.toNat) =
      hexEncode bs := by
    rw [List.map_map]
    conv_rhs => rw [← List.map_id (hexEncode bs)]
    apply List.map_congr_left
    intro c hc
    obtain ⟨b, -, hc⟩ := List.mem_flatMap.1 hc
    have hb : b.toNat < 256 := b.toNat_lt
    rcases List.mem_cons.1 hc with rfl | hc
    · exact hdigit ⟨b.toNat / 16, by omega⟩
    · rw [List.mem_singleton.1 hc]
      exact hdigit ⟨b.toNat % 16, by omega⟩
  rw [hexDecodeBytes, hexEncodeBytes, hback, hexDecode_hexEncode]

/-- The byte `.`. -/
def dot : UInt8 := 46

/-- The text that is signed. -/
def signedText (timestamp nonce body : Bytes) : Bytes :=
  timestamp ++ dot :: (nonce ++ dot :: body)

/-! ## The nonce store -/

/-- `MemoryNonceStore`, by its map. -/
structure MemoryNonceStore where
  seenAt : Bytes → Option Time

namespace MemoryNonceStore

def new : MemoryNonceStore := ⟨fun _ => none⟩

/-- Whether `Use` keeps an entry. -/
def keeps (ttl : ℤ) (now seen : Time) : Bool := now.sub seen ≤ ttl

/-- `Use` from the taking of the lock on, with the clock as it was read before. -/
def use (s : MemoryNonceStore) (nonce : Bytes) (ttl : ℤ) (now : Time) : MemoryNonceStore × Bool :=
  let r := Expiry.claim (keeps ttl) s.seenAt now nonce
  (⟨r.1⟩, r.2)

end MemoryNonceStore

def defaultNonceTTL : ℤ := 60 * second

/-- `NewMemoryNonceStore`, by the TTL the store has. -/
def newMemoryNonceStoreTTL (ttl : ℤ) : ℤ := if ttl ≤ 0 then defaultNonceTTL else ttl

/-- `nonceTTL`, for a store that reports the TTL, if it reports one. -/
def nonceTTL (storeTTL : Option ℤ) : ℤ :=
  match storeTTL with
  | some ttl => if 0 < ttl then ttl else defaultNonceTTL
  | none => defaultNonceTTL

/-! ## The middleware -/

/-- An `HMAC`; `nonces` says whether a nonce store is set. -/
structure HMAC where
  secret : Bytes
  nonces : Bool
  skew : ℤ
  nonceTTL : ℤ
  maxBodyBytes : ℤ
  skew_pos : 0 < skew
  skew_le : skew ≤ maxInt64
  nonceTTL_pos : 0 < nonceTTL
  maxBodyBytes_pos : 0 < maxBodyBytes

def defaultHMACMaxBodyBytes : ℤ := 64 * 1024

theorem nonceTTL_pos (storeTTL : Option ℤ) : 0 < nonceTTL storeTTL := by
  unfold nonceTTL
  split
  · split_ifs with h
    · exact h
    · decide
  · decide

/-- `NewHMACWithOptions`; `storeTTL` is what the nonce store reports, `none` without a store. -/
def newHMACWithOptions (secret : Bytes) (storeTTL : Option ℤ) (skew : ℤ)
    (duration : skew ≤ maxInt64) (maxBodyBytes : ℤ) : Except Err HMAC :=
  if trimSpaceBytes secret = [] then .error (.new "hmac secret is required")
  else if hskew : skew ≤ 0 then .error (.new "hmac clock skew must be positive")
  else if hmax : maxBodyBytes < 0 then .error (.new "hmac max body bytes must not be negative")
  else .ok
    { secret := secret
      nonces := storeTTL.isSome
      skew := skew
      nonceTTL := nonceTTL storeTTL
      maxBodyBytes := if maxBodyBytes = 0 then defaultHMACMaxBodyBytes else maxBodyBytes
      skew_pos := not_le.1 hskew
      skew_le := duration
      nonceTTL_pos := nonceTTL_pos storeTTL
      maxBodyBytes_pos := by
        split_ifs with h
        · decide
        · omega }

/-- The error that a body ends with; `Read` returns it with the last bytes or in a call of its
own. -/
structure BodyErr where
  err : Err
  withData : Bool
  deriving DecidableEq

/-- A request: the bytes of its body up to the end or an error, and what `Header.Get` returns. -/
structure HookRequest where
  content : Bytes
  readErr : Option BodyErr
  timestampHeader : Bytes
  nonce : Bytes
  signature : Bytes
  deriving DecidableEq

/-- Why a request is not forwarded. -/
inductive Rejection where
  | unreadable
  | tooLarge
  | headers
  | stale
  | mismatch
  | replay
  deriving DecidableEq

def Rejection.reason : Rejection → String
  | .unreadable => "failed_to_read_request_body"
  | .tooLarge => "request_body_too_large"
  | .headers => "missing_or_invalid_signature_headers"
  | .stale => "timestamp_outside_allowed_skew"
  | .mismatch => "signature_mismatch"
  | .replay => "nonce_replay"

def Rejection.status : Rejection → ℕ
  | .tooLarge => 413
  | _ => 401

/-- What becomes of a request; the next handler reads the body that was checked. -/
inductive Verdict where
  | forwarded (body : Bytes)
  | rejected (why : Rejection)
  deriving DecidableEq

def Verdict.isForwarded : Verdict → Bool
  | .forwarded _ => true
  | .rejected _ => false

inductive HmacCall where
  /-- The clock of the freshness check. -/
  | since
  /-- The clock of `Use`. -/
  | useNow
  /-- `Use` under the lock. -/
  | useLocked (nonce : Bytes) (ttl : ℤ) (now : Time)
  deriving DecidableEq

def HmacCall.Resp : HmacCall → Type
  | .since => Time
  | .useNow => Time
  | .useLocked _ _ _ => Bool

def hmacInterface : Interface := ⟨HmacCall, HmacCall.Resp⟩

abbrev HmacProg := Prog hmacInterface

abbrev HmacEvent := Event hmacInterface

def HmacCall.perform (c : HmacCall) : HmacProg c.Resp := Prog.perform (I := hmacInterface) c

namespace HmacEvent

def checked (t : Time) : HmacEvent := ⟨.since, t⟩

def read (t : Time) : HmacEvent := ⟨.useNow, t⟩

def used (nonce : Bytes) (ttl : ℤ) (now : Time) (fresh : Bool) : HmacEvent :=
  ⟨.useLocked nonce ttl now, fresh⟩

end HmacEvent

/-- `absDuration`; the negation of an `int64` wraps. -/
def absDuration (d : ℤ) : ℤ := if d < 0 then wrapInt64 (-d) else d

namespace HMAC

variable (m : HMAC) (mac : Bytes → Bytes → Bytes)

/-- `sensitiveio.ReadAll` of the body, limited to `maxBodyBytes + 1` bytes as an `int64`. -/
def readBody (r : HookRequest) : Except Err Bytes :=
  let limit := wrapInt64 (m.maxBodyBytes + 1)
  if limit ≤ 0 then .ok []
  else
    match r.readErr with
    | some readErr =>
      -- The limited reader ends after `limit` bytes, unless the error comes with the last of them.
      if r.content.length < limit ∨ r.content.length = limit ∧ readErr.withData then
        .error readErr.err
      else .ok (r.content.take limit.toNat)
    | none => .ok (r.content.take limit.toNat)

theorem readBody_of_readErr_none {r : HookRequest} (h : r.readErr = none) :
    m.readBody r = .ok (r.content.take (wrapInt64 (m.maxBodyBytes + 1)).toNat) := by
  simp only [readBody, h]
  split_ifs with hnonpos
  · rw [Int.toNat_of_nonpos hnonpos, List.take_zero]
  · rfl

/-- `validSignature`, with `mac` for HMAC-SHA256. -/
def validSignature (timestamp nonce body header : Bytes) : Bool :=
  let tag := bytesOf "sha256="
  if tag.isPrefixOf header then
    match hexDecodeBytes (header.drop tag.length) with
    | none => false
    | some got => got = mac m.secret (signedText timestamp nonce body)
  else false

/-- The signature header the portal computes. -/
def signatureHeader (timestamp nonce body : Bytes) : Bytes :=
  bytesOf "sha256=" ++ hexEncodeBytes (mac m.secret (signedText timestamp nonce body))

/-- A signature header verifies for the texts with the HMAC it was made from. -/
theorem validSignature_signatureHeader {timestamp nonce body timestamp' nonce' body' : Bytes} :
    m.validSignature mac timestamp nonce body (m.signatureHeader mac timestamp' nonce' body') =
      true ↔
      mac m.secret (signedText timestamp' nonce' body') =
        mac m.secret (signedText timestamp nonce body) := by
  simp [validSignature, signatureHeader, hexDecodeBytes_hexEncodeBytes]

/-- The freshness check. -/
def fresh (now : Time) (timestamp : ℤ) : Bool :=
  absDuration (now.sub (.unix timestamp)) ≤ m.skew

/-- `Wrap` from the freshness check on. -/
def wrapChecked (r : HookRequest) (body : Bytes) (timestamp : ℤ) (now : Time) : HmacProg Verdict :=
  if m.fresh now timestamp then
    if m.validSignature mac r.timestampHeader r.nonce body r.signature then
      if m.nonces then do
        let now ← HmacCall.perform .useNow
        let unused : Bool ← HmacCall.perform (.useLocked r.nonce m.nonceTTL now)
        return if unused then .forwarded body else .rejected .replay
      else return .forwarded body
    else return .rejected .mismatch
  else return .rejected .stale

/-- `Wrap` once the body and the headers have been read. -/
def wrapParsed (r : HookRequest) (body : Bytes) (timestamp : ℤ) : HmacProg Verdict := do
  let now ← HmacCall.perform .since
  m.wrapChecked mac r body timestamp now

/-- `HMAC.Wrap`, for one request. -/
def wrap (r : HookRequest) : HmacProg Verdict :=
  match m.readBody r with
  | .error _ => return .rejected .unreadable
  | .ok body =>
    if m.maxBodyBytes < body.length then return .rejected .tooLarge
    else
      match parseInt64 r.timestampHeader with
      | none => return .rejected .headers
      | some timestamp =>
        if r.nonce = [] || r.signature = [] then return .rejected .headers
        else m.wrapParsed mac r body timestamp

/-! ## Complete runs -/

open Prog

variable {m mac} {r : HookRequest} {body : Bytes} {timestamp : ℤ} {τ : List HmacEvent} {v : Verdict}

/-- The request has a body and headers that the middleware can read. -/
structure Readable (m : HMAC) (r : HookRequest) (body : Bytes) (timestamp : ℤ) : Prop where
  read : m.readBody r = .ok body
  size : (body.length : ℤ) ≤ m.maxBodyBytes
  parsed : parseInt64 r.timestampHeader = some timestamp
  nonce_ne : r.nonce ≠ []
  signature_ne : r.signature ≠ []

theorem Readable.wrap_eq (h : m.Readable r body timestamp) :
    m.wrap mac r = m.wrapParsed mac r body timestamp := by
  simp only [wrap, h.read, h.parsed, if_neg (not_lt.2 h.size), h.nonce_ne, h.signature_ne,
    decide_false, Bool.or_self, Bool.false_eq_true, if_false]

/-- A request is rejected at once, or it is readable. -/
theorem wrap_cases (m : HMAC) (mac : Bytes → Bytes → Bytes) (r : HookRequest) :
    (∃ why, why ≠ .stale ∧ m.wrap mac r = .ret (.rejected why)) ∨
      ∃ body timestamp, m.Readable r body timestamp := by
  unfold wrap
  cases hbody : m.readBody r with
  | error err => exact .inl ⟨.unreadable, by decide, rfl⟩
  | ok body =>
    dsimp only
    by_cases hsize : m.maxBodyBytes < body.length
    · rw [if_pos hsize]
      exact .inl ⟨.tooLarge, by decide, rfl⟩
    rw [if_neg hsize]
    cases htime : parseInt64 r.timestampHeader with
    | none => exact .inl ⟨.headers, by decide, rfl⟩
    | some timestamp =>
      dsimp only
      by_cases hempty : (decide (r.nonce = []) || decide (r.signature = [])) = true
      · rw [if_pos hempty]
        exact .inl ⟨.headers, by decide, rfl⟩
      · simp only [Bool.or_eq_true, decide_eq_true_eq, not_or] at hempty
        exact .inr ⟨body, timestamp, hbody, not_lt.1 hsize, htime, hempty.1, hempty.2⟩

/-- The request, found fresh at `now`, carries the signature of its headers and body. -/
structure Passes (m : HMAC) (mac : Bytes → Bytes → Bytes) (r : HookRequest) (body : Bytes)
    (timestamp : ℤ) (now : Time) : Prop where
  fresh : m.fresh now timestamp = true
  signed : m.validSignature mac r.timestampHeader r.nonce body r.signature = true

/-- A run over a readable request ends at the freshness check or at the signature, or comes to the
nonce store. -/
theorem exec_wrapParsed (h : Exec (m.wrapParsed mac r body timestamp) τ v) :
    ∃ now τ', τ = .checked now :: τ' ∧
      ((m.fresh now timestamp = false ∧ τ' = [] ∧ v = .rejected .stale) ∨
        (m.fresh now timestamp = true ∧ ¬ m.Passes mac r body timestamp now ∧ τ' = [] ∧
          v = .rejected .mismatch) ∨
        (m.Passes mac r body timestamp now ∧ m.nonces = false ∧ τ' = [] ∧ v = .forwarded body) ∨
        (m.Passes mac r body timestamp now ∧ m.nonces = true ∧ ∃ t ok,
          τ' = [.read t, .used r.nonce m.nonceTTL t ok] ∧
          v = if ok then .forwarded body else .rejected .replay)) := by
  obtain ⟨now, τ', rfl, h'⟩ := exec_call_iff.1 h
  refine ⟨now, τ', rfl, ?_⟩
  change Exec (m.wrapChecked mac r body timestamp now) τ' v at h'
  unfold wrapChecked at h'
  by_cases hfresh : m.fresh now timestamp = true
  · rw [if_pos hfresh] at h'
    by_cases hsigned : m.validSignature mac r.timestampHeader r.nonce body r.signature = true
    · rw [if_pos hsigned] at h'
      have hpass : m.Passes mac r body timestamp now := ⟨hfresh, hsigned⟩
      by_cases hnonces : m.nonces = true
      · rw [if_pos hnonces] at h'
        obtain ⟨t, τ₁, rfl, h₁⟩ := exec_call_iff.1 h'
        obtain ⟨ok, τ₂, rfl, h₂⟩ := exec_call_iff.1 h₁
        obtain ⟨rfl, rfl⟩ := exec_ret_iff.1 h₂
        exact .inr (.inr (.inr ⟨hpass, hnonces, t, ok, rfl, rfl⟩))
      · rw [if_neg hnonces] at h'
        obtain ⟨rfl, rfl⟩ := exec_ret_iff.1 h'
        exact .inr (.inr (.inl ⟨hpass, Bool.eq_false_iff.2 hnonces, rfl, rfl⟩))
    · rw [if_neg hsigned] at h'
      obtain ⟨rfl, rfl⟩ := exec_ret_iff.1 h'
      exact .inr (.inl ⟨hfresh, fun hpass => hsigned hpass.signed, rfl, rfl⟩)
  · rw [if_neg hfresh] at h'
    obtain ⟨rfl, rfl⟩ := exec_ret_iff.1 h'
    exact .inl ⟨Bool.eq_false_iff.2 hfresh, rfl, rfl⟩

/-- A request that passes and whose nonce is new is forwarded. -/
theorem exec_forwarded (readable : m.Readable r body timestamp) {now : Time}
    (passes : m.Passes mac r body timestamp now) (nonces : m.nonces = true) (t : Time) :
    Exec (m.wrap mac r) [HmacEvent.checked now, HmacEvent.read t,
      HmacEvent.used r.nonce m.nonceTTL t true] (.forwarded body) := by
  rw [readable.wrap_eq]
  refine .call _ _ _ ?_
  show Steps (m.wrapChecked mac r body timestamp now) _ _
  rw [wrapChecked, if_pos passes.fresh, if_pos passes.signed, if_pos nonces]
  exact .call _ _ _ (.call _ _ _ (.refl _))

theorem exec_stale (readable : m.Readable r body timestamp) {now : Time}
    (stale : m.fresh now timestamp = false) :
    Exec (m.wrap mac r) [HmacEvent.checked now] (.rejected .stale) := by
  rw [readable.wrap_eq]
  refine .call _ _ _ ?_
  show Steps (m.wrapChecked mac r body timestamp now) _ _
  rw [wrapChecked, if_neg (by rw [stale]; decide)]
  exact .refl _

/-! ## Requests of the portal -/

/-- A request as the portal sends it. -/
def portalRequest (m : HMAC) (mac : Bytes → Bytes → Bytes) (timestamp nonce body : Bytes) :
    HookRequest :=
  ⟨body, none, timestamp, nonce, m.signatureHeader mac timestamp nonce body⟩

theorem readable_portalRequest {timestampHeader nonce : Bytes}
    (size : (body.length : ℤ) ≤ m.maxBodyBytes) (limit : m.maxBodyBytes < maxInt64)
    (parsed : parseInt64 timestampHeader = some timestamp) (nonce_ne : nonce ≠ []) :
    m.Readable (m.portalRequest mac timestampHeader nonce body) body timestamp where
  read := by
    have hpos := m.maxBodyBytes_pos
    have hlimit : wrapInt64 (m.maxBodyBytes + 1) = m.maxBodyBytes + 1 := by
      apply wrapInt64_of_mem
      · unfold minInt64
        omega
      · omega
    have htake : body.take (m.maxBodyBytes + 1).toNat = body := List.take_of_length_le (by omega)
    rw [readBody_of_readErr_none m rfl, hlimit, portalRequest, htake]
  size := size
  parsed := parsed
  nonce_ne := nonce_ne
  signature_ne := by
    have htag : bytesOf "sha256=" ≠ [] := by decide
    simp [portalRequest, signatureHeader, htag]

theorem passes_portalRequest {timestampHeader nonce : Bytes} {now : Time}
    (fresh : m.fresh now timestamp = true) :
    m.Passes mac (m.portalRequest mac timestampHeader nonce body) body timestamp now :=
  ⟨fresh, (m.validSignature_signatureHeader mac).2 rfl⟩

/-- The middleware as `App` wires it. -/
def sample : HMAC where
  secret := bytesOf "shared-secret"
  nonces := true
  skew := 30 * second
  nonceTTL := 60 * second
  maxBodyBytes := 65536
  skew_pos := by decide
  skew_le := by decide
  nonceTTL_pos := by decide
  maxBodyBytes_pos := by decide

/-- A stand-in for HMAC-SHA256 that tells all texts apart. -/
def sampleMac (secret text : Bytes) : Bytes := secret ++ text

end HMAC

end PasswordHook
