import PasswordHook.Config.Overlap

/-!
# The address of the client behind trusted proxies

The limiter walks a forwarded chain from the right and stops at the first hop that is not a trusted
proxy.  What stands to the left of that hop, and every header of a peer that is not trusted, is text
the client chose, and has no influence on the address it stops at.
-/

namespace PasswordHook

theorem length_unmapped_iff {ip : IP} :
    ((unmapped ip).length = 4 ∨ (unmapped ip).length = 16) ↔ (ip.length = 4 ∨ ip.length = 16) := by
  by_cases hfour : ip.length = 4
  · simp [unmapped, to4, hfour]
  · by_cases hmapped : ip.length = 16 ∧ ip.take 12 = v4InV6Prefix
    · simp [unmapped, to4, hmapped]
    · have hto4 : to4 ip = none := by rw [to4, if_neg hfour, if_neg hmapped]
      rw [unmapped, hto4, Option.getD_none]

theorem length_of_containsIP {values : List Bytes} {ip : IP}
    (h : containsIP (parseCIDRs values) ip = true) : ip.length = 4 ∨ ip.length = 16 := by
  obtain ⟨n, hn, hip⟩ := List.any_eq_true.1 h
  have hnormal := parseCIDRs_normal hn
  obtain ⟨bits, hmask⟩ := hnormal.mask
  obtain ⟨hlength, -⟩ := (contains_iff hnormal hmask ip).1 hip
  rw [← length_unmapped_iff, hlength, length_unmapped_iff]
  exact hnormal.length

/-- A nil address is in no network. -/
theorem containsIP_nil (values : List Bytes) : containsIP (parseCIDRs values) [] = false := by
  apply Bool.eq_false_iff.2
  intro h
  have hlength := length_of_containsIP h
  simp at hlength

namespace RateLimiter

variable (l : RateLimiter)

/-! ## What a resolution can be -/

/-- The peer is the client, and is not trusted. -/
def FromPeer (r : SourceRequest) (client : IP) : Prop :=
  parseIPWithOptionalPort r.remoteAddr = some client ∧
    containsIP l.trustedProxyCIDRs client = false

/-- A trusted peer named the client in the one header value, with trusted hops to the right. -/
def FromHeader (r : SourceRequest) (peer : IP) (value : Bytes) (client : IP) : Prop :=
  parseIPWithOptionalPort r.remoteAddr = some peer ∧
    containsIP l.trustedProxyCIDRs peer = true ∧ r.forwardedFor = [value] ∧
    ∃ left right, parseHops value = some (left ++ client :: right) ∧
      containsIP l.trustedProxyCIDRs client = false ∧
      ∀ hop ∈ right, containsIP l.trustedProxyCIDRs hop = true

theorem lastUntrusted_eq_some_iff {hops : List IP} {client : IP} :
    l.lastUntrusted hops = some client ↔
      ∃ left right, hops = left ++ client :: right ∧
        containsIP l.trustedProxyCIDRs client = false ∧
        ∀ hop ∈ right, containsIP l.trustedProxyCIDRs hop = true := by
  rw [lastUntrusted, List.find?_eq_some_iff_append]
  constructor
  · rintro ⟨hclient, right, left, hreverse, htrusted⟩
    refine ⟨left.reverse, right.reverse, ?_, by simpa using hclient, ?_⟩
    · rw [← List.reverse_reverse hops, hreverse]
      simp
    · intro hop hhop
      simpa using htrusted hop (List.mem_reverse.1 hhop)
  · rintro ⟨left, right, rfl, hclient, htrusted⟩
    refine ⟨by simpa using hclient, right.reverse, left.reverse, by simp, ?_⟩
    intro hop hhop
    simpa using htrusted hop (List.mem_reverse.1 hhop)

theorem direct_iff (peer : IP) :
    (l.trustedProxyCIDRs.length = 0 || !containsIP l.trustedProxyCIDRs peer) = true ↔
      containsIP l.trustedProxyCIDRs peer = false := by
  rw [Bool.or_eq_true, decide_eq_true_iff, Bool.not_eq_true']
  refine ⟨fun h => h.elim (fun hnone => ?_) id, .inr⟩
  rw [List.length_eq_zero_iff.1 hnone]
  rfl

/-- For a peer without an address. -/
theorem resolveSourceIP_of_invalid {r : SourceRequest}
    (hpeer : parseIPWithOptionalPort r.remoteAddr = none) :
    l.resolveSourceIP r = ⟨[], [], false, 0, 0, .invalidPeer⟩ := by
  rw [resolveSourceIP, hpeer]

/-- For a peer that is not trusted. -/
theorem resolveSourceIP_of_untrusted {r : SourceRequest} {peer : IP}
    (hpeer : parseIPWithOptionalPort r.remoteAddr = some peer)
    (huntrusted : containsIP l.trustedProxyCIDRs peer = false) :
    ∃ hopCount, l.resolveSourceIP r =
      ⟨peer, peer, false, r.forwardedFor.length, hopCount, .directPeer⟩ := by
  rw [resolveSourceIP.eq_def, hpeer]
  simp only [(l.direct_iff peer).2 huntrusted, if_true]
  exact ⟨_, rfl⟩

/-- The client that the header values name, for a trusted peer. -/
def forwardedClient (forwardedFor : List Bytes) : Option IP :=
  match forwardedFor with
  | [value] => if trimSpaceBytes value = [] then none else (parseHops value).bind l.lastUntrusted
  | _ => none

/-- For a trusted peer. -/
theorem resolveSourceIP_of_trusted {r : SourceRequest} {peer : IP}
    (hpeer : parseIPWithOptionalPort r.remoteAddr = some peer)
    (htrusted : containsIP l.trustedProxyCIDRs peer = true) :
    (l.resolveSourceIP r).peerTrusted = true ∧
      l.sourceIP r = (l.forwardedClient r.forwardedFor).getD [] ∧
      (l.resolveSourceIP r).sourceResolution =
        if (l.forwardedClient r.forwardedFor).isSome then .trustedForwarded
        else .invalidForwardedChain := by
  have hforwarded : ¬ (l.trustedProxyCIDRs.length = 0 ||
      !containsIP l.trustedProxyCIDRs peer) = true := by
    rw [direct_iff, htrusted]
    decide
  rw [sourceIP, resolveSourceIP.eq_def, hpeer, forwardedClient.eq_def]
  simp only [if_neg hforwarded]
  rcases r.forwardedFor with _ | ⟨value, _ | ⟨second, rest⟩⟩
  · exact ⟨rfl, rfl, rfl⟩
  · by_cases hblank : trimSpaceBytes value = []
    · simp [hblank]
    · cases hhops : parseHops value with
      | none => simp [hblank, hhops]
      | some hops =>
        cases hlast : l.lastUntrusted hops with
        | none => simp [hblank, hhops, hlast]
        | some hop => simp [hblank, hhops, hlast]
  · exact ⟨rfl, rfl, rfl⟩

theorem hops_of_forwardedClient {forwardedFor : List Bytes} {client : IP}
    (h : l.forwardedClient forwardedFor = some client) :
    ∃ value hops, forwardedFor = [value] ∧ parseHops value = some hops ∧
      l.lastUntrusted hops = some client := by
  rcases forwardedFor with _ | ⟨value, _ | ⟨second, rest⟩⟩
  · exact absurd h (by simp [forwardedClient])
  · rw [forwardedClient] at h
    split_ifs at h
    obtain ⟨hops, hhops, hlast⟩ := Option.bind_eq_some_iff.1 h
    exact ⟨value, hops, rfl, hhops, hlast⟩
  · exact absurd h (by simp [forwardedClient])

/-- A request with an address: where it comes from. -/
theorem sourceIP_cases {r : SourceRequest} (h : l.sourceIP r ≠ []) :
    l.FromPeer r (l.sourceIP r) ∨ ∃ peer value, l.FromHeader r peer value (l.sourceIP r) := by
  cases hpeer : parseIPWithOptionalPort r.remoteAddr with
  | none =>
    have hnil : l.sourceIP r = [] := by rw [sourceIP, l.resolveSourceIP_of_invalid hpeer]
    exact absurd hnil h
  | some peer =>
    cases htrusted : containsIP l.trustedProxyCIDRs peer with
    | false =>
      obtain ⟨hopCount, hresolved⟩ := l.resolveSourceIP_of_untrusted hpeer htrusted
      have hclient : l.sourceIP r = peer := by rw [sourceIP, hresolved]
      exact .inl ⟨by rw [hclient, hpeer], by rw [hclient, htrusted]⟩
    | true =>
      obtain ⟨-, hclient, -⟩ := l.resolveSourceIP_of_trusted hpeer htrusted
      have hsome : l.forwardedClient r.forwardedFor = some (l.sourceIP r) := by
        cases hforwarded : l.forwardedClient r.forwardedFor with
        | none =>
          rw [hforwarded] at hclient
          exact absurd hclient h
        | some client => rw [hclient, hforwarded, Option.getD_some]
      obtain ⟨value, hops, hheader, hhops, hlast⟩ := l.hops_of_forwardedClient hsome
      obtain ⟨left, right, rfl, huntrusted, hright⟩ := l.lastUntrusted_eq_some_iff.1 hlast
      exact .inr ⟨peer, value, hpeer, htrusted, hheader, left, right, hhops, huntrusted, hright⟩

/-! ## Text in front of the chain -/

theorem parseHops_cons_comma (text value : Bytes) :
    parseHops (text ++ 0x2c :: value) =
      (parseHops text).bind fun front => (parseHops value).map fun hops => front ++ hops := by
  rw [parseHops, List.splitOn_append_cons_self, List.mapM_append]
  cases hfront : parseHops text with
  | none =>
    rw [parseHops] at hfront
    simp [hfront]
  | some front =>
    cases hhops : parseHops value with
    | none =>
      rw [parseHops] at hfront hhops
      simp [hfront, hhops]
    | some hops =>
      rw [parseHops] at hfront hhops
      simp [hfront, hhops]

theorem lastUntrusted_append {front hops : List IP} {client : IP}
    (h : l.lastUntrusted hops = some client) : l.lastUntrusted (front ++ hops) = some client := by
  rw [lastUntrusted] at h ⊢
  rw [List.reverse_append, List.find?_append, h, Option.some_or]

/-- More text on the left: the same client, or none. -/
theorem forwardedClient_cons_comma {value : Bytes} {client : IP}
    (h : l.forwardedClient [value] = some client) (text : Bytes) :
    l.forwardedClient [text ++ 0x2c :: value] = some client ∨
      l.forwardedClient [text ++ 0x2c :: value] = none := by
  obtain ⟨_, hops, hvalue, hhops, hlast⟩ := l.hops_of_forwardedClient h
  obtain rfl := List.singleton_injective hvalue
  cases hother : l.forwardedClient [text ++ 0x2c :: value] with
  | none => exact .inr rfl
  | some other =>
    obtain ⟨_, hops', hvalue', hhops', hlast'⟩ := l.hops_of_forwardedClient hother
    obtain rfl := List.singleton_injective hvalue'
    rw [parseHops_cons_comma, hhops] at hhops'
    obtain ⟨front, -, hfront⟩ := Option.bind_eq_some_iff.1 hhops'
    obtain rfl := Option.some.inj hfront
    rw [l.lastUntrusted_append hlast] at hlast'
    exact .inl hlast'.symm

/-! ## The middleware -/

theorem wrap_ne_notAllowed_iff (counts : RateCounts) (r : SourceRequest) (now : Time) :
    (l.wrap counts r now).2 ≠ .notAllowed ↔ l.sourceAllowed (l.sourceIP r) = true := by
  rw [wrap]
  cases l.sourceAllowed (l.sourceIP r) with
  | false => simp
  | true =>
    simp only [Bool.not_true, Bool.false_eq_true, if_false]
    split_ifs <;> simp

theorem containsIP_of_sourceAllowed {ip : IP} (h : l.sourceAllowed ip = true) :
    containsIP l.allowedCIDRs ip = true := (Bool.and_eq_true_iff.1 h).2

/-- The headers of a peer that is not trusted. -/
theorem resolveSourceIP_header {r : SourceRequest} (h : (l.resolveSourceIP r).peerTrusted = false)
    (forwardedFor : List Bytes) :
    l.sourceIP ⟨r.remoteAddr, forwardedFor⟩ = l.sourceIP r ∧
      (l.resolveSourceIP ⟨r.remoteAddr, forwardedFor⟩).sourceResolution =
        (l.resolveSourceIP r).sourceResolution := by
  cases hpeer : parseIPWithOptionalPort r.remoteAddr with
  | none =>
    have hpeer' : parseIPWithOptionalPort
        (SourceRequest.mk r.remoteAddr forwardedFor).remoteAddr = none := hpeer
    rw [sourceIP, sourceIP, l.resolveSourceIP_of_invalid hpeer, l.resolveSourceIP_of_invalid hpeer']
    exact ⟨rfl, rfl⟩
  | some peer =>
    cases htrusted : containsIP l.trustedProxyCIDRs peer with
    | true =>
      rw [(l.resolveSourceIP_of_trusted hpeer htrusted).1] at h
      exact absurd h (by decide)
    | false =>
      obtain ⟨_, hself⟩ := l.resolveSourceIP_of_untrusted hpeer htrusted
      have hpeer' : parseIPWithOptionalPort
          (SourceRequest.mk r.remoteAddr forwardedFor).remoteAddr = some peer := hpeer
      obtain ⟨_, hother⟩ := l.resolveSourceIP_of_untrusted hpeer' htrusted
      rw [sourceIP, sourceIP, hself, hother]
      exact ⟨rfl, rfl⟩

/-- The outcome depends on the request through the address alone. -/
theorem wrap_congr {r r' : SourceRequest} (h : l.sourceIP r' = l.sourceIP r) (counts : RateCounts)
    (now : Time) : l.wrap counts r' now = l.wrap counts r now := by
  rw [wrap, wrap, h]

/-- Text in front of the header value of a trusted peer. -/
theorem sourceIP_cons_comma {r : SourceRequest}
    (h : (l.resolveSourceIP r).sourceResolution = .trustedForwarded) :
    ∃ value, r.forwardedFor = [value] ∧ ∀ text : Bytes,
      l.sourceIP ⟨r.remoteAddr, [text ++ 0x2c :: value]⟩ = l.sourceIP r ∨
        l.sourceIP ⟨r.remoteAddr, [text ++ 0x2c :: value]⟩ = [] := by
  cases hpeer : parseIPWithOptionalPort r.remoteAddr with
  | none =>
    rw [l.resolveSourceIP_of_invalid hpeer] at h
    exact absurd h (by simp)
  | some peer =>
    cases htrusted : containsIP l.trustedProxyCIDRs peer with
    | false =>
      obtain ⟨_, hself⟩ := l.resolveSourceIP_of_untrusted hpeer htrusted
      rw [hself] at h
      exact absurd h (by simp)
    | true =>
      obtain ⟨-, hself, hresolution⟩ := l.resolveSourceIP_of_trusted hpeer htrusted
      cases hclient : l.forwardedClient r.forwardedFor with
      | none =>
        rw [hresolution, hclient] at h
        exact absurd h (by simp)
      | some client =>
        obtain ⟨value, _, hheader, -, -⟩ := l.hops_of_forwardedClient hclient
        refine ⟨value, hheader, fun text => ?_⟩
        have hpeer' : parseIPWithOptionalPort
            (SourceRequest.mk r.remoteAddr [text ++ 0x2c :: value]).remoteAddr = some peer := hpeer
        rw [hself, (l.resolveSourceIP_of_trusted hpeer' htrusted).2.1, hclient]
        rw [hheader] at hclient
        rcases l.forwardedClient_cons_comma hclient text with hsame | hnone
        · exact .inl (congrArg (Option.getD · []) hsame)
        · exact .inr (congrArg (Option.getD · []) hnone)

end RateLimiter

variable {quote : Bytes → String}

/-- No client is a trusted proxy. -/
theorem RateLimiter.untrusted_of_sourceIP (l : RateLimiter) {r : SourceRequest}
    (h : l.sourceIP r ≠ []) : containsIP l.trustedProxyCIDRs (l.sourceIP r) = false := by
  rcases l.sourceIP_cases h with hpeer | ⟨_, _, -, -, -, _, _, -, hclient, -⟩
  · exact hpeer.2
  · exact hclient

theorem sourceIP_ne_nil_of_wrap {c : Config} {counts : RateCounts} {r : SourceRequest} {now : Time}
    (h : (c.rateLimiter.wrap counts r now).2 ≠ .notAllowed) : c.rateLimiter.sourceIP r ≠ [] := by
  intro hnil
  rw [RateLimiter.wrap_ne_notAllowed_iff, hnil] at h
  have hportal := c.rateLimiter.containsIP_of_sourceAllowed h
  rw [show c.rateLimiter.allowedCIDRs = parseCIDRs c.portalAllowedCIDRs from rfl,
    containsIP_nil] at hportal
  exact absurd hportal (by decide)

/-- A trusted proxy is in no portal network. -/
theorem Config.Accepted.portal_eq_false {c : Config} (h : c.Accepted) {ip : IP}
    (htrusted : containsIP (parseCIDRs c.trustedProxyCIDRs) ip = true) :
    containsIP (parseCIDRs c.portalAllowedCIDRs) ip = false := by
  apply Bool.eq_false_iff.2
  intro hportal
  exact forall_not_meets_iff.1 h.apart ip (length_of_containsIP htrusted) ⟨htrusted, hportal⟩

/-- The trust boundary of an accepted configuration.  A request that passes the allowlist has a
client in a portal network and in no proxy network: the peer itself, or a hop that a trusted peer
outside the portal networks named, with nothing but proxies behind it.  The headers of a peer that
is not trusted do not matter, and text in front of the header value of a trusted one does not change
the client. -/
theorem trust_boundary {c : Config} (h : c.validateHTTP quote = none) (counts : RateCounts)
    (r : SourceRequest) (now : Time) :
    ((c.rateLimiter.wrap counts r now).2 ≠ .notAllowed →
      containsIP (parseCIDRs c.portalAllowedCIDRs) (c.rateLimiter.sourceIP r) = true ∧
      containsIP (parseCIDRs c.trustedProxyCIDRs) (c.rateLimiter.sourceIP r) = false ∧
      (c.rateLimiter.FromPeer r (c.rateLimiter.sourceIP r) ∨
        ∃ peer value, c.rateLimiter.FromHeader r peer value (c.rateLimiter.sourceIP r) ∧
          containsIP (parseCIDRs c.portalAllowedCIDRs) peer = false)) ∧
    ((c.rateLimiter.resolveSourceIP r).peerTrusted = false →
      ∀ forwardedFor : List Bytes,
        c.rateLimiter.sourceIP ⟨r.remoteAddr, forwardedFor⟩ = c.rateLimiter.sourceIP r ∧
        (c.rateLimiter.resolveSourceIP ⟨r.remoteAddr, forwardedFor⟩).sourceResolution =
          (c.rateLimiter.resolveSourceIP r).sourceResolution ∧
        c.rateLimiter.wrap counts ⟨r.remoteAddr, forwardedFor⟩ now =
          c.rateLimiter.wrap counts r now) ∧
    ((c.rateLimiter.resolveSourceIP r).sourceResolution = .trustedForwarded →
      ∃ value, r.forwardedFor = [value] ∧ ∀ text : Bytes,
        c.rateLimiter.sourceIP ⟨r.remoteAddr, [text ++ 0x2c :: value]⟩ = c.rateLimiter.sourceIP r ∨
        (c.rateLimiter.wrap counts ⟨r.remoteAddr, [text ++ 0x2c :: value]⟩ now).2 =
          .notAllowed) := by
  refine ⟨fun hallowed => ?_, fun huntrusted forwardedFor => ?_, fun htrusted => ?_⟩
  · have hne := sourceIP_ne_nil_of_wrap hallowed
    have hsource := (c.rateLimiter.wrap_ne_notAllowed_iff counts r now).1 hallowed
    refine ⟨c.rateLimiter.containsIP_of_sourceAllowed hsource,
      c.rateLimiter.untrusted_of_sourceIP hne, ?_⟩
    rcases c.rateLimiter.sourceIP_cases hne with hpeer | ⟨peer, value, hheader⟩
    · exact .inl hpeer
    · exact .inr ⟨peer, value, hheader, (accepted_of_validateHTTP h).portal_eq_false hheader.2.1⟩
  · obtain ⟨hsame, hresolution⟩ := c.rateLimiter.resolveSourceIP_header huntrusted forwardedFor
    exact ⟨hsame, hresolution, c.rateLimiter.wrap_congr hsame counts now⟩
  · obtain ⟨value, hheader, htext⟩ := c.rateLimiter.sourceIP_cons_comma htrusted
    refine ⟨value, hheader, fun text => (htext text).imp_right fun hnil => ?_⟩
    by_contra hallowed
    exact sourceIP_ne_nil_of_wrap hallowed hnil

/-- A proxy forwards a client of the portal network, which put an address in front. -/
def sampleForwarded : SourceRequest :=
  ⟨bytesOf "10.0.0.9:4711", [bytesOf "8.8.8.8, ::ffff:140.113.5.6, [fd00::7]:443"]⟩

theorem trust_boundary_forwarded :
    Config.sample.rateLimiter.sourceIP sampleForwarded = [140, 113, 5, 6] ∧
      containsIP (parseCIDRs Config.sample.trustedProxyCIDRs)
        (Config.sample.rateLimiter.sourceIP sampleForwarded) = false :=
  ⟨by decide +kernel, ((@trust_boundary (fun _ => "") Config.sample (by decide +kernel)
    RateCounts.empty sampleForwarded ⟨1, 0⟩).1 (by decide +kernel)).2.1⟩

end PasswordHook
