import PasswordHook.Go.Net

/-!
# Networks and their common addresses

A network that `net.ParseCIDR` returns has a mask of leading ones, as long as its address.  Two such
networks have a common address exactly when one contains the address of the other (`overlap_iff`).
-/

namespace PasswordHook

/-! ## Lengths of addresses -/

theorem length_parseIPv4Loop {s : Bytes} {val digLen : ℕ} {fields bytes : Bytes}
    (hfields : fields.length ≤ 3) (h : parseIPv4Loop s val digLen fields = some bytes) :
    bytes.length = 4 := by
  induction s generalizing val digLen fields with
  | nil =>
    rw [parseIPv4Loop] at h
    split_ifs at h with hshort
    obtain rfl := Option.some.inj h
    simp
    omega
  | cons c s ih =>
    rw [parseIPv4Loop] at h
    split_ifs at h with hdigit hzero hbig hdot hend hfull
    · exact ih hfields h
    · apply ih _ h
      simp
      omega

theorem length_parseIPv4Fields {s bytes : Bytes} (h : parseIPv4Fields s = some bytes) :
    bytes.length = 4 :=
  length_parseIPv4Loop (by simp) h

theorem length_parseIPv6Loop {turns : ℕ} {ip : Bytes} {ellipsis : Option ℕ} {s : Bytes}
    {r : Bytes × Option ℕ × Bytes} (hip : ip.length + 2 * turns ≤ 16)
    (h : parseIPv6Loop turns ip ellipsis s = some r) : r.1.length ≤ 16 := by
  induction turns generalizing ip ellipsis s with
  | zero =>
    obtain rfl := Option.some.inj h
    exact hip
  | succ turns ih =>
    rw [parseIPv6Loop] at h
    cases hgroup : parseGroup s with
    | none => simp [hgroup] at h
    | some group =>
      obtain ⟨acc, rest⟩ := group
      simp only [hgroup] at h
      by_cases hdot : rest.head? = some 0x2e
      · rw [if_pos hdot] at h
        split_ifs at h with hplace hroom
        obtain ⟨fields, hparsed, rfl⟩ := Option.map_eq_some_iff.1 h
        have := length_parseIPv4Fields hparsed
        simp
        omega
      · rw [if_neg hdot] at h
        have hnext :
            (ip ++ [UInt8.ofNat (acc / 256), UInt8.ofNat acc]).length + 2 * turns ≤ 16 := by
          simp
          omega
        cases rest with
        | nil =>
          obtain rfl := Option.some.inj h
          exact le_trans (Nat.le_add_right _ _) hnext
        | cons c rest =>
          simp only at h
          split_ifs at h
          · obtain rfl := Option.some.inj h
            exact le_trans (Nat.le_add_right _ _) hnext
          · exact ih hnext h
          · exact ih hnext h

theorem length_expandIPv6 {ip : Bytes} {ellipsis : Option ℕ} {s bytes : Bytes}
    (hip : ip.length ≤ 16) (h : expandIPv6 ip ellipsis s = some bytes) : bytes.length = 16 := by
  rw [expandIPv6.eq_def] at h
  split_ifs at h with hrest hshort hellipsis
  · cases ellipsis with
    | none => simp at h
    | some e =>
      obtain rfl := Option.some.inj h
      simp
      omega
  · obtain rfl := Option.some.inj h
    omega

/-- The bytes of an address of a family. -/
def Addr.HasLength : Addr → Prop
  | .v4 bytes => bytes.length = 4
  | .v6 bytes _ => bytes.length = 16

theorem parseIPv6_hasLength {s : Bytes} {a : Addr} (h : parseIPv6 s = some a) : a.HasLength := by
  have hread : ∀ {ellipsis s bytes},
      ((parseIPv6Loop 8 [] ellipsis s).bind fun r => expandIPv6 r.1 r.2.1 r.2.2) = some bytes →
        bytes.length = 16 := by
    intro ellipsis s bytes h
    obtain ⟨r, hloop, hexpand⟩ := Option.bind_eq_some_iff.1 h
    exact length_expandIPv6 (length_parseIPv6Loop (by simp) hloop) hexpand
  rw [parseIPv6] at h
  split_ifs at h
  · obtain ⟨bytes, hbytes, rfl⟩ := Option.map_eq_some_iff.1 h
    show bytes.length = 16
    obtain rfl := Option.some.inj hbytes
    simp
  · obtain ⟨bytes, hbytes, rfl⟩ := Option.map_eq_some_iff.1 h
    exact hread hbytes
  · obtain ⟨bytes, hbytes, rfl⟩ := Option.map_eq_some_iff.1 h
    exact hread hbytes

theorem parseAddr_hasLength {s : Bytes} {a : Addr} (h : parseAddr s = some a) : a.HasLength := by
  rw [parseAddr] at h
  split at h
  · split_ifs at h
    · obtain ⟨bytes, hbytes, rfl⟩ := Option.map_eq_some_iff.1 h
      exact length_parseIPv4Fields hbytes
    · exact parseIPv6_hasLength h
  · exact absurd h (by simp)

/-! ## Networks -/

/-- The four-byte form of an address that has one. -/
def unmapped (ip : IP) : IP := (to4 ip).getD ip

/-- A network with a mask of leading ones, for the address in the form `contains` compares. -/
structure IPNet.Normal (n : IPNet) : Prop where
  length : n.ip.length = 4 ∨ n.ip.length = 16
  number : n.numberAndMask.1 = unmapped n.ip
  mask : ∃ bits, n.numberAndMask.2 = Masks.leading bits (unmapped n.ip).length

theorem unmapped_of_length_four {ip : IP} (h : ip.length = 4) : unmapped ip = ip := by
  rw [unmapped, to4, if_pos h, Option.getD_some]

theorem unmapped_of_mapped {ip : IP} (h : ip.length = 16) (hmapped : ip.take 12 = v4InV6Prefix) :
    unmapped ip = ip.drop 12 := by
  simp [unmapped, to4, h, hmapped]

theorem unmapped_of_not_mapped {ip : IP} (h : ip.length = 16)
    (hmapped : ip.take 12 ≠ v4InV6Prefix) : unmapped ip = ip := by
  simp [unmapped, to4, h, hmapped]

theorem numberAndMask_of_length_four {ip : IP} (h : ip.length = 4) (bits : ℕ) :
    IPNet.numberAndMask ⟨ip, Masks.leading bits 4⟩ =
      (unmapped ip, Masks.leading bits (unmapped ip).length) := by
  rw [unmapped_of_length_four h, h]
  simp [IPNet.numberAndMask, to4, h]

theorem numberAndMask_of_mapped {ip : IP} (h : ip.length = 16)
    (hmapped : ip.take 12 = v4InV6Prefix) (bits : ℕ) :
    IPNet.numberAndMask ⟨ip, Masks.leading bits 16⟩ =
      (unmapped ip, Masks.leading (bits - 96) (unmapped ip).length) := by
  rw [unmapped_of_mapped h hmapped, List.length_drop, h]
  simp [IPNet.numberAndMask, to4, h, hmapped, ← Masks.drop_leading bits 12 4]

theorem numberAndMask_of_not_mapped {ip : IP} (h : ip.length = 16)
    (hmapped : ip.take 12 ≠ v4InV6Prefix) (bits : ℕ) :
    IPNet.numberAndMask ⟨ip, Masks.leading bits 16⟩ =
      (unmapped ip, Masks.leading bits (unmapped ip).length) := by
  rw [unmapped_of_not_mapped h hmapped, h]
  simp [IPNet.numberAndMask, to4, h, hmapped]

theorem normal_of_length_four {ip : IP} (h : ip.length = 4) (bits : ℕ) :
    IPNet.Normal ⟨ip, Masks.leading bits 4⟩ := by
  have hnumber := numberAndMask_of_length_four h bits
  exact ⟨.inl h, congrArg Prod.fst hnumber, bits, congrArg Prod.snd hnumber⟩

theorem normal_of_length_sixteen {ip : IP} (h : ip.length = 16) (bits : ℕ) :
    IPNet.Normal ⟨ip, Masks.leading bits 16⟩ := by
  by_cases hmapped : ip.take 12 = v4InV6Prefix
  · have hnumber := numberAndMask_of_mapped h hmapped bits
    exact ⟨.inr h, congrArg Prod.fst hnumber, bits - 96, congrArg Prod.snd hnumber⟩
  · have hnumber := numberAndMask_of_not_mapped h hmapped bits
    exact ⟨.inr h, congrArg Prod.fst hnumber, bits, congrArg Prod.snd hnumber⟩

/-- What `net.ParseCIDR` returns: an IPv4 network in four bytes, an IPv6 network in sixteen. -/
theorem parseCIDR_cases {s : Bytes} {n : IPNet} (h : parseCIDR s = some n) :
    (∃ bits ≤ 32, n.ip.length = 4 ∧ n.mask = Masks.leading bits 4) ∨
      ∃ bits ≤ 128, ∃ ip : IP, ip.length = 16 ∧
        n = ⟨Masks.masked (Masks.leading bits 16) ip, Masks.leading bits 16⟩ := by
  rw [parseCIDR] at h
  split_ifs at h with hslash
  split at h
  · rename_i a bits haddr hbits
    split_ifs at h with hrange
    obtain rfl := Option.some.inj h
    have hlength := parseAddr_hasLength haddr
    have hle : ¬ a.bitLen < bits := fun hlt => hrange (.inr hlt)
    cases a with
    | v4 bytes =>
      have hbytes : bytes.length = 4 := hlength
      have hmask : cidrMask bits (Addr.v4 bytes).bitLen = Masks.leading bits 4 := by
        rw [cidrMask, if_neg]
        · simp [Addr.bitLen]
        · simpa [Addr.bitLen] using hle
      refine .inl ⟨bits, Nat.le_of_not_lt hle, ?_, hmask⟩
      rw [hmask]
      simp [maskIP, Addr.as16, v4InV6Prefix, Masks.masked, hbytes]
    | v6 bytes zone =>
      have hbytes : bytes.length = 16 := hlength
      have hmask : cidrMask bits (Addr.v6 bytes zone).bitLen = Masks.leading bits 16 := by
        rw [cidrMask, if_neg]
        · simp [Addr.bitLen]
        · simpa [Addr.bitLen] using hle
      refine .inr ⟨bits, Nat.le_of_not_lt hle, bytes, hbytes, ?_⟩
      rw [hmask]
      simp [maskIP, Addr.as16, hbytes]
  · exact absurd h (by simp)

theorem parseCIDR_normal {s : Bytes} {n : IPNet} (h : parseCIDR s = some n) : n.Normal := by
  rcases parseCIDR_cases h with ⟨bits, -, hlength, hmask⟩ | ⟨bits, -, ip, hlength, rfl⟩
  · obtain ⟨ip, mask⟩ := n
    obtain rfl : mask = _ := hmask
    exact normal_of_length_four hlength bits
  · apply normal_of_length_sixteen
    simp [Masks.masked, hlength]

theorem contains_iff {n : IPNet} (h : n.Normal) {bits : ℕ}
    (hmask : n.numberAndMask.2 = Masks.leading bits (unmapped n.ip).length) (ip : IP) :
    n.contains ip = true ↔ (unmapped ip).length = (unmapped n.ip).length ∧
      Masks.Agree (Masks.leading bits (unmapped n.ip).length) (unmapped n.ip) (unmapped ip) := by
  rw [IPNet.contains, Bool.and_eq_true, decide_eq_true_iff, decide_eq_true_iff, h.number, hmask]
  rfl

theorem contains_self {n : IPNet} (h : n.Normal) : n.contains n.ip = true := by
  obtain ⟨bits, hmask⟩ := h.mask
  rw [contains_iff h hmask]
  exact ⟨rfl, rfl⟩

theorem simpleMaskLength_leading {bits l : ℕ} (h : bits ≤ 8 * l) (n : ℕ) :
    simpleMaskLength (Masks.leading bits l) n = some (n + bits) := by
  have checked : ∀ b : Fin 8, Masks.leadByte b ≠ 0xff ∧ leadingOnes (Masks.leadByte b) = b := by
    decide
  induction l generalizing bits n with
  | zero =>
    obtain rfl : bits = 0 := by omega
    rfl
  | succ l ih =>
    rw [Masks.leading, simpleMaskLength]
    by_cases hfull : 8 ≤ bits
    · rw [if_pos (by rw [Masks.leadByte, if_pos hfull]), ih (by omega)]
      congr 1
      omega
    · obtain ⟨hbyte, hones⟩ := checked ⟨bits, by omega⟩
      have hzero : ∀ l, (Masks.leading 0 l).all (· = 0) = true := by
        intro l
        induction l with
        | zero => rfl
        | succ l ih =>
          rw [Masks.leading, List.all_cons, Nat.zero_sub, ih]
          decide
      rw [if_neg hbyte, hones, Nat.sub_eq_zero_of_le (by omega), if_pos ⟨rfl, hzero l⟩]

theorem maskOnes_leading {bits l : ℕ} (h : bits ≤ 8 * l) :
    maskOnes (Masks.leading bits l) = bits := by
  rw [maskOnes, simpleMaskLength_leading h, Option.getD_some, Nat.zero_add]

/-- Of two networks with a common address, the one with the shorter mask has the address of the
other. -/
theorem contains_of_common {n m : IPNet} (hn : n.Normal) (hm : m.Normal) {a b : ℕ} (hab : a ≤ b)
    (hnmask : n.numberAndMask.2 = Masks.leading a (unmapped n.ip).length)
    (hmmask : m.numberAndMask.2 = Masks.leading b (unmapped m.ip).length) {ip : IP}
    (hnip : n.contains ip = true) (hmip : m.contains ip = true) : n.contains m.ip = true := by
  obtain ⟨hnlength, hnagree⟩ := (contains_iff hn hnmask ip).1 hnip
  obtain ⟨hmlength, hmagree⟩ := (contains_iff hm hmmask ip).1 hmip
  have hlength : (unmapped m.ip).length = (unmapped n.ip).length := hmlength.symm.trans hnlength
  rw [hlength] at hmagree
  rw [contains_iff hn hnmask]
  exact ⟨hlength, hnagree.trans (hmagree.mono hab).symm⟩

/-- Two networks have a common address exactly when one has the address of the other. -/
theorem overlap_iff {n m : IPNet} (hn : n.Normal) (hm : m.Normal) :
    (n.contains m.ip = true ∨ m.contains n.ip = true) ↔
      ∃ ip : IP, (ip.length = 4 ∨ ip.length = 16) ∧ n.contains ip = true ∧
        m.contains ip = true := by
  constructor
  · rintro (hleft | hright)
    · exact ⟨m.ip, hm.length, hleft, contains_self hm⟩
    · exact ⟨n.ip, hn.length, contains_self hn, hright⟩
  · rintro ⟨ip, -, hnip, hmip⟩
    obtain ⟨a, ha⟩ := hn.mask
    obtain ⟨b, hb⟩ := hm.mask
    by_cases hab : a ≤ b
    · exact .inl (contains_of_common hn hm hab ha hb hnip hmip)
    · exact .inr (contains_of_common hm hn (le_of_not_ge hab) hb ha hmip hnip)

end PasswordHook
