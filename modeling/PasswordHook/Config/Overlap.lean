import PasswordHook.Config.HTTP
import PasswordHook.Go.Networks

/-!
# Overlapping networks

The check for overlaps at start-up and the matcher of the rate limiter read the same lists.  On
lists that `validateCIDRs` accepts both see the networks of the entries that are not blank, and the
check passes exactly when no address is in a network of each list.
-/

namespace PasswordHook

variable {quote : Bytes → String}

/-- Every entry that is not blank parses. -/
def Parses (values : List Bytes) : Prop :=
  ∀ value ∈ values, trimSpaceBytes value ≠ [] → ∃ n, parseCIDR (trimSpaceBytes value) = some n

theorem parses_cons {value : Bytes} {values : List Bytes} :
    Parses (value :: values) ↔
      (trimSpaceBytes value ≠ [] → ∃ n, parseCIDR (trimSpaceBytes value) = some n) ∧
      Parses values :=
  List.forall_mem_cons

theorem validateCIDRs_eq_none_iff {envName : String} {values : List Bytes} :
    validateCIDRs quote envName values = none ↔ Parses values := by
  induction values with
  | nil => exact ⟨fun _ value hvalue => absurd hvalue (by simp), fun _ => rfl⟩
  | cons value values ih =>
    rw [parses_cons, validateCIDRs]
    by_cases hblank : trimSpaceBytes value = []
    · simp [hblank, ih]
    · cases hparse : parseCIDR (trimSpaceBytes value) with
      | none => simp [hblank]
      | some n => simp [hblank, ih]

theorem parseCIDR_nil : parseCIDR [] = none := by simp [parseCIDR]

theorem parseCIDRs_cons_blank {value : Bytes} (h : trimSpaceBytes value = [])
    (values : List Bytes) :
    parseCIDRs (value :: values) = parseCIDRs values := by
  rw [parseCIDRs, List.filterMap_cons, h, parseCIDR_nil]
  rfl

theorem parseCIDRs_cons_some {value : Bytes} {n : IPNet}
    (h : parseCIDR (trimSpaceBytes value) = some n) (values : List Bytes) :
    parseCIDRs (value :: values) = n :: parseCIDRs values := by
  rw [parseCIDRs, List.filterMap_cons, h]
  rfl

/-- The networks are those of the entries that are not blank, in order. -/
theorem map_parseCIDRs {values : List Bytes} (h : Parses values) :
    (parseCIDRs values).map some =
      (values.filter fun value => trimSpaceBytes value ≠ []).map
        fun value => parseCIDR (trimSpaceBytes value) := by
  induction values with
  | nil => rfl
  | cons value values ih =>
    obtain ⟨hvalue, hvalues⟩ := parses_cons.1 h
    by_cases hblank : trimSpaceBytes value = []
    · rw [parseCIDRs_cons_blank hblank, ih hvalues]
      simp [hblank]
    · obtain ⟨n, hn⟩ := hvalue hblank
      rw [parseCIDRs_cons_some hn, List.map_cons, ih hvalues]
      simp [hblank, hn]

theorem parseCIDRs_normal {values : List Bytes} {n : IPNet} (h : n ∈ parseCIDRs values) :
    n.Normal := by
  obtain ⟨value, -, hvalue⟩ := List.mem_filterMap.1 h
  exact parseCIDR_normal hvalue

theorem parseCIDRs_eq_nil_iff {values : List Bytes} (h : Parses values) :
    parseCIDRs values = [] ↔ hasNonBlank values = false := by
  have hlength := congrArg List.length (map_parseCIDRs h)
  rw [List.length_map, List.length_map] at hlength
  rw [← List.length_eq_zero_iff, hlength, List.length_eq_zero_iff, hasNonBlank,
    List.filter_eq_nil_iff, List.any_eq_false]

/-! ## The check -/

/-- What the check looks for. -/
def IPNet.Meets (n m : IPNet) : Prop := n.contains m.ip = true ∨ m.contains n.ip = true

theorem rejectOverlapping_eq_none_iff {t : Bytes} {n : IPNet} {portal : List Bytes}
    (h : Parses portal) :
    rejectOverlapping quote t n portal = none ↔ ∀ m ∈ parseCIDRs portal, ¬ n.Meets m := by
  induction portal with
  | nil => exact ⟨fun _ m hm => absurd hm (by simp [parseCIDRs]), fun _ => rfl⟩
  | cons p portal ih =>
    obtain ⟨hp, hportal⟩ := parses_cons.1 h
    rw [rejectOverlapping]
    by_cases hblank : trimSpaceBytes p = []
    · rw [parseCIDRs_cons_blank hblank, ← ih hportal]
      simp [hblank]
    · obtain ⟨m, hm⟩ := hp hblank
      rw [parseCIDRs_cons_some hm, List.forall_mem_cons, ← ih hportal]
      by_cases hmeets : n.contains m.ip = true ∨ m.contains n.ip = true
      · simp [hblank, hm, hmeets, IPNet.Meets]
      · simp [hblank, hm, hmeets, IPNet.Meets]

theorem rejectOverlappingCIDRs_eq_none_iff {trusted portal : List Bytes} (ht : Parses trusted)
    (hp : Parses portal) :
    rejectOverlappingCIDRs quote trusted portal = none ↔
      ∀ n ∈ parseCIDRs trusted, ∀ m ∈ parseCIDRs portal, ¬ n.Meets m := by
  induction trusted with
  | nil => exact ⟨fun _ n hn => absurd hn (by simp [parseCIDRs]), fun _ => rfl⟩
  | cons t trusted ih =>
    obtain ⟨hhead, htail⟩ := parses_cons.1 ht
    rw [rejectOverlappingCIDRs]
    by_cases hblank : trimSpaceBytes t = []
    · rw [parseCIDRs_cons_blank hblank, ← ih htail]
      simp [hblank]
    · obtain ⟨n, hn⟩ := hhead hblank
      have hnone : rejectOverlapping quote (trimSpaceBytes t) n portal = none ↔
          ∀ m ∈ parseCIDRs portal, ¬ n.Meets m := rejectOverlapping_eq_none_iff hp
      rw [parseCIDRs_cons_some hn, List.forall_mem_cons, ← ih htail, ← hnone]
      cases hinner : rejectOverlapping quote (trimSpaceBytes t) n portal with
      | none => simp [hblank, hn, hinner]
      | some err => simp [hblank, hn, hinner]

/-- No network meets one of the other list: no address is in both. -/
theorem forall_not_meets_iff {trusted portal : List Bytes} :
    (∀ n ∈ parseCIDRs trusted, ∀ m ∈ parseCIDRs portal, ¬ n.Meets m) ↔
      ∀ ip : IP, ip.length = 4 ∨ ip.length = 16 →
        ¬ (containsIP (parseCIDRs trusted) ip = true ∧
          containsIP (parseCIDRs portal) ip = true) := by
  constructor
  · rintro hmeets ip hlength ⟨htrusted, hportal⟩
    obtain ⟨n, hn, hnip⟩ := List.any_eq_true.1 htrusted
    obtain ⟨m, hm, hmip⟩ := List.any_eq_true.1 hportal
    apply hmeets n hn m hm
    exact (overlap_iff (parseCIDRs_normal hn) (parseCIDRs_normal hm)).2 ⟨ip, hlength, hnip, hmip⟩
  · intro hcommon n hn m hm hmeets
    obtain ⟨ip, hlength, hnip, hmip⟩ :=
      (overlap_iff (parseCIDRs_normal hn) (parseCIDRs_normal hm)).1 hmeets
    apply hcommon ip hlength
    exact ⟨List.any_eq_true.2 ⟨n, hn, hnip⟩, List.any_eq_true.2 ⟨m, hm, hmip⟩⟩

/-! ## The accepted configurations -/

/-- What `validateHTTP` says about the networks of a configuration it accepts. -/
structure Config.Accepted (c : Config) : Prop where
  portal : Parses c.portalAllowedCIDRs
  trusted : Parses c.trustedProxyCIDRs
  direct : c.directClientMode = true ↔ hasNonBlank c.trustedProxyCIDRs = false
  apart : ∀ n ∈ parseCIDRs c.trustedProxyCIDRs, ∀ m ∈ parseCIDRs c.portalAllowedCIDRs, ¬ n.Meets m

/-- A case of the switch that is passed. -/
theorem case_eq_none_iff {α : Type} {p : Prop} [Decidable p] {err : α} {rest : Option α} :
    (if p then some err else rest) = none ↔ ¬ p ∧ rest = none := by
  by_cases hp : p <;> simp [hp]

theorem validateNetworks_of_validateHTTP {c : Config} (h : c.validateHTTP quote = none) :
    c.validateNetworks quote = none := by
  rw [Config.validateHTTP] at h
  by_cases herr : c.directClientModeErr = none
  · rw [if_neg (not_not.2 herr)] at h
    simp only [case_eq_none_iff] at h
    exact h.2.2.2.2.2.2.2.2.2.2.2.2.2.2
  · rw [if_pos herr] at h
    exact absurd h herr

theorem accepted_of_validateHTTP {c : Config} (h : c.validateHTTP quote = none) : c.Accepted := by
  rw [Config.validateHTTP] at h
  by_cases herr : c.directClientModeErr = none
  · rw [if_neg (not_not.2 herr)] at h
    simp only [case_eq_none_iff] at h
    obtain ⟨-, -, -, -, -, -, -, -, -, hdirect, hproxied, -, -, -, hnetworks⟩ := h
    rw [Config.validateNetworks] at hnetworks
    simp only [Option.or_eq_none_iff] at hnetworks
    obtain ⟨hportal, htrusted, -, hoverlap⟩ := hnetworks
    have hp := validateCIDRs_eq_none_iff.1 hportal
    have ht := validateCIDRs_eq_none_iff.1 htrusted
    refine ⟨hp, ht, ?_, (rejectOverlappingCIDRs_eq_none_iff ht hp).1 hoverlap⟩
    cases hmode : c.directClientMode with
    | true => simpa [hmode] using hdirect
    | false => simpa [hmode] using hproxied
  · rw [if_pos herr] at h
    exact absurd h herr

/-- The check for overlaps is exact and agrees with the matcher of the rate limiter: on lists that
`validateCIDRs` accepts it passes exactly when no address is in a network of each, and the networks
are those of the entries that are not blank.  Under an accepted configuration the limiter has no
trusted proxies exactly in direct-client mode. -/
theorem overlap_check_exact :
    (∀ (trusted portal : List Bytes) (trustedName portalName : String),
      validateCIDRs quote trustedName trusted = none →
      validateCIDRs quote portalName portal = none →
      (rejectOverlappingCIDRs quote trusted portal = none ↔
        ∀ ip : IP, ip.length = 4 ∨ ip.length = 16 →
          ¬ (containsIP (parseCIDRs trusted) ip = true ∧
            containsIP (parseCIDRs portal) ip = true))) ∧
    (∀ (values : List Bytes) (envName : String), validateCIDRs quote envName values = none →
      (parseCIDRs values).map some =
        (values.filter fun value => trimSpaceBytes value ≠ []).map
          fun value => parseCIDR (trimSpaceBytes value)) ∧
    ∀ c : Config, c.validateHTTP quote = none →
      (c.rateLimiter.trustedProxyCIDRs = [] ↔ c.directClientMode = true) := by
  refine ⟨fun trusted portal _ _ ht hp => ?_, fun values _ h => ?_, fun c h => ?_⟩
  · rw [rejectOverlappingCIDRs_eq_none_iff (validateCIDRs_eq_none_iff.1 ht)
      (validateCIDRs_eq_none_iff.1 hp), forall_not_meets_iff]
  · exact map_parseCIDRs (validateCIDRs_eq_none_iff.1 h)
  · have haccepted := accepted_of_validateHTTP h
    rw [haccepted.direct]
    exact parseCIDRs_eq_nil_iff haccepted.trusted

/-- A portal network beside a proxy network, each with host bits set. -/
def Config.sample : Config where
  httpAddr := bytesOf ":8080"
  hmacSecret := bytesOf "secret"
  entraPrimaryDomain := bytesOf "nycu.edu.tw"
  entraFallbackDomain := []
  problemBaseURL := bytesOf "https://nycu.edu.tw/problems"
  hmacClockSkew := 30 * second
  nonceTTL := 60 * second
  portalAllowedCIDRs := [bytesOf " 140.113.2.3/16", []]
  trustedProxyCIDRs := [bytesOf "10.1.2.3/8", bytesOf "fd00::1/8"]
  directClientMode := false
  rateLimitPerIP := 500
  rateLimitWindow := second
  hookMaxBodyBytes := 64 * 1024
  directClientModeErr := none
  rateLimitWindow_le := second_le_maxInt64

/-- An IPv4-mapped network inside an IPv4 one, and the sample configuration. -/
theorem overlap_check_exact_mapped :
    (¬ ∀ ip : IP, ip.length = 4 ∨ ip.length = 16 →
      ¬ (containsIP (parseCIDRs [bytesOf "10.1.2.3/8", []]) ip = true ∧
        containsIP (parseCIDRs [bytesOf " ::ffff:10.2.0.0/112"]) ip = true)) ∧
      (Config.sample.rateLimiter.trustedProxyCIDRs = [] ↔
        Config.sample.directClientMode = true) := by
  have hexact := @overlap_check_exact fun _ => ""
  refine ⟨fun hcommon => ?_, hexact.2.2 Config.sample (by decide +kernel)⟩
  have hpasses := (hexact.1 _ _ "TRUSTED_PROXY_CIDRS" "PORTAL_ALLOWED_CIDRS" (by decide +kernel)
    (by decide +kernel)).2 hcommon
  exact absurd hpasses (by decide +kernel)

end PasswordHook
