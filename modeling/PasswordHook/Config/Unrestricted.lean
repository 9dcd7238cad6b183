import PasswordHook.Config.Overlap

/-!
# Unrestricted networks

The start-up check rejects a trusted network whose mask has no ones.  `Contains` compares
IPv4-mapped networks by their last four bytes, so a mapped network of 96 ones passes the check and
has every IPv4 address.  It is the only kind of network that does (`unrestricted_iff_mapped`).
-/

namespace PasswordHook

namespace IPNet

/-- The network has every IPv4 address. -/
def HasEveryIPv4 (n : IPNet) : Prop := ∀ ip : IP, ip.length = 4 → containsIP [n] ip = true

/-- The network has every IPv6 address that does not stand for an IPv4 one. -/
def HasEveryIPv6 (n : IPNet) : Prop :=
  ∀ ip : IP, ip.length = 16 → to4 ip = none → containsIP [n] ip = true

/-- The IPv4-mapped networks whose mask ends where the IPv4 address starts. -/
structure MapsEveryIPv4 (n : IPNet) : Prop where
  length : n.ip.length = 16
  mapped : n.ip.take 12 = v4InV6Prefix
  ones : maskOnes n.mask = 96

end IPNet

theorem containsIP_singleton (n : IPNet) (ip : IP) : containsIP [n] ip = n.contains ip := by
  simp [containsIP]

section

variable {n : IPNet} {bits : ℕ}

theorem hasEveryIPv4_iff (h : n.Normal)
    (hmask : n.numberAndMask.2 = Masks.leading bits (unmapped n.ip).length) :
    n.HasEveryIPv4 ↔ (unmapped n.ip).length = 4 ∧ bits = 0 := by
  constructor
  · intro hevery
    have hzero := hevery [0, 0, 0, 0] rfl
    have hone := hevery [0x80, 0, 0, 0] rfl
    rw [containsIP_singleton, contains_iff h hmask, unmapped_of_length_four rfl] at hzero hone
    refine ⟨hzero.1.symm, ?_⟩
    have hagree := hzero.2.symm.trans hone.2
    rw [← hzero.1] at hagree
    exact Masks.eq_zero_of_agree hagree
  · rintro ⟨hlength, rfl⟩ ip hip
    rw [containsIP_singleton, contains_iff h hmask, unmapped_of_length_four hip, hip, hlength]
    exact ⟨rfl, Masks.agree_leading_zero (hlength.trans hip.symm)⟩

theorem hasEveryIPv6_iff (h : n.Normal)
    (hmask : n.numberAndMask.2 = Masks.leading bits (unmapped n.ip).length) :
    n.HasEveryIPv6 ↔ (unmapped n.ip).length = 16 ∧ bits = 0 := by
  constructor
  · intro hevery
    have hzero := hevery (0 :: List.replicate 15 0) rfl (by decide)
    have hone := hevery (0x80 :: List.replicate 15 0) rfl (by decide)
    rw [containsIP_singleton, contains_iff h hmask] at hzero hone
    refine ⟨hzero.1.symm, ?_⟩
    have hagree := hzero.2.symm.trans hone.2
    rw [← hzero.1] at hagree
    exact Masks.eq_zero_of_agree hagree
  · rintro ⟨hlength, rfl⟩ ip hip hto4
    have hself : unmapped ip = ip := by rw [unmapped, hto4, Option.getD_none]
    rw [containsIP_singleton, contains_iff h hmask, hself, hip, hlength]
    exact ⟨rfl, Masks.agree_leading_zero (hlength.trans hip.symm)⟩

end

/-- A mapped network keeps the bytes of the mapping, so its mask has them. -/
theorem le_bits_of_mapped {ip : IP} {bits : ℕ} (h : ip.length = 16)
    (hmapped : (Masks.masked (Masks.leading bits 16) ip).take 12 = v4InV6Prefix) : 96 ≤ bits := by
  have hlast : ((Masks.masked (Masks.leading bits 16) ip).take 12)[11]? = some 0xff := by
    rw [hmapped]
    rfl
  have hbyte : ip[11]? = some (ip.get ⟨11, by omega⟩) := List.getElem?_eq_getElem (by omega)
  rw [List.getElem?_take_of_lt (by decide), Masks.masked, List.getElem?_zipWith,
    Masks.getElem?_leading (by decide), hbyte] at hlast
  have := Masks.eight_le_of_and_eq (Option.some.inj hlast)
  omega

/-- Of the networks whose mask has ones, the mapped ones of 96 bits alone are unrestricted. -/
theorem hasEvery_iff {s : Bytes} {n : IPNet} (h : parseCIDR s = some n)
    (hones : maskOnes n.mask ≠ 0) :
    (n.HasEveryIPv4 ∨ n.HasEveryIPv6) ↔ n.MapsEveryIPv4 := by
  have hnormal := parseCIDR_normal h
  rcases parseCIDR_cases h with ⟨bits, hle, hlength, hmask⟩ | ⟨bits, hle, ip, hip, rfl⟩
  · obtain ⟨ip, mask⟩ := n
    obtain rfl : mask = _ := hmask
    have hnumber := congrArg Prod.snd (numberAndMask_of_length_four hlength bits)
    rw [maskOnes_leading hle] at hones
    rw [hasEveryIPv4_iff hnormal hnumber, hasEveryIPv6_iff hnormal hnumber]
    constructor
    · rintro (hzero | hzero)
      · exact absurd hzero.2 hones
      · exact absurd hzero.2 hones
    · intro hmaps
      exact absurd (hmaps.length.symm.trans hlength) (by decide)
  · have hlength : (Masks.masked (Masks.leading bits 16) ip).length = 16 := by
      simp [Masks.masked, hip]
    rw [maskOnes_leading hle] at hones
    by_cases hmapped : (Masks.masked (Masks.leading bits 16) ip).take 12 = v4InV6Prefix
    · have hnumber := congrArg Prod.snd (numberAndMask_of_mapped hlength hmapped bits)
      have hbits := le_bits_of_mapped hip hmapped
      have hfour : (unmapped (Masks.masked (Masks.leading bits 16) ip)).length = 4 := by
        rw [unmapped_of_mapped hlength hmapped, List.length_drop, hlength]
      rw [hasEveryIPv4_iff hnormal hnumber, hasEveryIPv6_iff hnormal hnumber]
      constructor
      · rintro (⟨-, hzero⟩ | ⟨hsixteen, -⟩)
        · exact ⟨hlength, hmapped, (maskOnes_leading hle).trans (by omega)⟩
        · exact absurd (hfour.symm.trans hsixteen) (by decide)
      · intro hmaps
        have hninetysix := (maskOnes_leading hle).symm.trans hmaps.ones
        exact .inl ⟨hfour, by omega⟩
    · have hnumber := congrArg Prod.snd (numberAndMask_of_not_mapped hlength hmapped bits)
      rw [hasEveryIPv4_iff hnormal hnumber, hasEveryIPv6_iff hnormal hnumber]
      constructor
      · rintro (hzero | hzero)
        · exact absurd hzero.2 hones
        · exact absurd hzero.2 hones
      · intro hmaps
        exact absurd hmaps.mapped hmapped

/-! ## The accepted configurations -/

section

variable {quote : Bytes → String}

theorem rejectUnrestrictedCIDRs_eq_none_iff {envName : String} {values : List Bytes}
    (h : Parses values) :
    rejectUnrestrictedCIDRs quote envName values = none ↔
      ∀ n ∈ parseCIDRs values, maskOnes n.mask ≠ 0 := by
  induction values with
  | nil => exact ⟨fun _ n hn => absurd hn (by simp [parseCIDRs]), fun _ => rfl⟩
  | cons value values ih =>
    obtain ⟨hvalue, hvalues⟩ := parses_cons.1 h
    rw [rejectUnrestrictedCIDRs]
    by_cases hblank : trimSpaceBytes value = []
    · rw [parseCIDRs_cons_blank hblank, ← ih hvalues]
      simp [hblank]
    · obtain ⟨n, hn⟩ := hvalue hblank
      rw [parseCIDRs_cons_some hn, List.forall_mem_cons, ← ih hvalues]
      by_cases hones : maskOnes n.mask = 0
      · simp [hblank, hn, hones]
      · simp [hblank, hn, hones]

theorem maskOnes_ne_zero_of_validateHTTP {c : Config} (h : c.validateHTTP quote = none) :
    ∀ n ∈ parseCIDRs c.trustedProxyCIDRs, maskOnes n.mask ≠ 0 := by
  have hnetworks := validateNetworks_of_validateHTTP h
  rw [Config.validateNetworks] at hnetworks
  simp only [Option.or_eq_none_iff] at hnetworks
  exact (rejectUnrestrictedCIDRs_eq_none_iff (validateCIDRs_eq_none_iff.1 hnetworks.2.1)).1
    hnetworks.2.2.1

/-- Under an accepted configuration, no trusted network has every IPv4 or every IPv6 address exactly
when none is an IPv4-mapped network of 96 ones. -/
theorem unrestricted_iff_mapped {c : Config} (accepted : c.validateHTTP quote = none) :
    (∀ n ∈ parseCIDRs c.trustedProxyCIDRs, ¬ n.HasEveryIPv4 ∧ ¬ n.HasEveryIPv6) ↔
      ∀ n ∈ parseCIDRs c.trustedProxyCIDRs, ¬ n.MapsEveryIPv4 := by
  apply forall₂_congr
  intro n hn
  obtain ⟨value, -, hvalue⟩ := List.mem_filterMap.1 hn
  rw [← not_or, hasEvery_iff hvalue (maskOnes_ne_zero_of_validateHTTP accepted n hn)]

theorem unrestricted_iff_mapped_sample :
    Config.sample.validateHTTP (fun _ => "") = none ∧
      ∀ n ∈ parseCIDRs Config.sample.trustedProxyCIDRs, ¬ n.HasEveryIPv4 ∧ ¬ n.HasEveryIPv6 := by
  have accepted : Config.sample.validateHTTP (fun _ => "") = none := by decide +kernel
  refine ⟨accepted, (unrestricted_iff_mapped accepted).2 ?_⟩
  intro n hn hmaps
  have checked : ∀ n ∈ parseCIDRs Config.sample.trustedProxyCIDRs, maskOnes n.mask ≠ 96 := by
    decide +kernel
  exact checked n hn hmaps.ones

/-- The sample with an IPv6 portal, and with the mapped network of all IPv4 addresses as its
proxies. -/
def Config.mappedProxies : Config :=
  { Config.sample with
    portalAllowedCIDRs := [bytesOf "2001:db8::/32"]
    trustedProxyCIDRs := [bytesOf "::ffff:0:0/96"] }

/-- The check accepts the mapped network, and every IPv4 peer is a trusted proxy. -/
theorem mappedProxies_unrestricted :
    Config.mappedProxies.validateHTTP (fun _ => "") = none ∧
      ∃ n ∈ parseCIDRs Config.mappedProxies.trustedProxyCIDRs, n.HasEveryIPv4 := by
  refine ⟨by decide +kernel, ⟨v4InV6Prefix ++ [0, 0, 0, 0], Masks.leading 96 16⟩, by decide +kernel,
    ?_⟩
  exact (hasEveryIPv4_iff (normal_of_length_sixteen rfl 96) rfl).2 ⟨rfl, rfl⟩

end

end PasswordHook
