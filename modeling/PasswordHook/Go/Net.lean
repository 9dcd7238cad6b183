import PasswordHook.Go.Runes
import PasswordHook.Lib.Hex
import PasswordHook.Lib.JsonString
import PasswordHook.Lib.Masks

/-!
# Packages `net` and `net/netip`

Addresses and their texts, networks, and the membership of an address in a network.  An `IP` is a
byte slice of length 4 or 16, or the empty slice for nil; an IPv4 address may be in either form.
-/

namespace PasswordHook

abbrev IP := Bytes

/-! ## Addresses -/

/-- `netip.Addr` -/
inductive Addr where
  | v4 (bytes : Bytes)
  | v6 (bytes : Bytes) (zone : Bytes)
  deriving DecidableEq

def v4InV6Prefix : Bytes := [0, 0, 0, 0, 0, 0, 0, 0, 0, 0, 0xff, 0xff]

def isDigitByte (b : UInt8) : Bool := 0x30 ≤ b && b ≤ 0x39

/-- The loop of `parseIPv4Fields` over the bytes that are left. -/
def parseIPv4Loop : Bytes → ℕ → ℕ → Bytes → Option Bytes
  | [], val, _, fields => if fields.length < 3 then none else some (fields ++ [UInt8.ofNat val])
  | c :: s, val, digLen, fields =>
    if isDigitByte c then
      if digLen = 1 ∧ val = 0 then none
      else if 255 < val * 10 + (c.toNat - 0x30) then none
      else parseIPv4Loop s (val * 10 + (c.toNat - 0x30)) (digLen + 1) fields
    else if c = 0x2e then
      -- at the start, at the end, or after another dot
      if digLen = 0 ∨ s = [] then none
      else if fields.length = 3 then none
      else parseIPv4Loop s 0 0 (fields ++ [UInt8.ofNat val])
    else none

def parseIPv4Fields (s : Bytes) : Option Bytes := parseIPv4Loop s 0 0 []

/-- A group of one to four hexadecimal digits, and what follows it. -/
def parseGroup (s : Bytes) : Option (ℕ × Bytes) :=
  let digits := s.takeWhile fun b => (JsonString.hexValue? b).isSome
  if digits.length = 0 ∨ 4 < digits.length then none
  else
    some (digits.foldl (fun acc b => acc * 16 + ((JsonString.hexValue? b).getD 0)) 0,
      s.drop digits.length)

/-- The loop of `parseIPv6`: the bytes so far, where the ellipsis stands in them, and what is left
of the text.  Every turn but the last one adds two bytes. -/
def parseIPv6Loop : ℕ → Bytes → Option ℕ → Bytes → Option (Bytes × Option ℕ × Bytes)
  | 0, ip, ellipsis, s => some (ip, ellipsis, s)
  | turns + 1, ip, ellipsis, s =>
    match parseGroup s with
    | none => none
    | some (acc, rest) =>
      if rest.head? = some 0x2e then
        if ellipsis = none ∧ ip.length ≠ 12 then none
        else if 16 < ip.length + 4 then none
        else (parseIPv4Fields s).map fun fields => (ip ++ fields, ellipsis, [])
      else
        let ip := ip ++ [UInt8.ofNat (acc / 256), UInt8.ofNat acc]
        match rest with
        | [] => some (ip, ellipsis, [])
        | c :: rest =>
          if c ≠ 0x3a ∨ rest = [] then none
          else if rest.head? = some 0x3a then
            if ellipsis ≠ none then none
            else if rest.tail = [] then some (ip, some ip.length, [])
            else parseIPv6Loop turns ip (some ip.length) rest.tail
          else parseIPv6Loop turns ip ellipsis rest

/-- The end of `parseIPv6`: nothing may be left, and the ellipsis stands for zeros. -/
def expandIPv6 (ip : Bytes) (ellipsis : Option ℕ) (s : Bytes) : Option Bytes :=
  if s ≠ [] then none
  else if ip.length < 16 then
    match ellipsis with
    | none => none
    | some e => some (ip.take e ++ (List.replicate (16 - ip.length) 0 ++ ip.drop e))
  else if ellipsis ≠ none then none
  else some ip

def parseIPv6 (input : Bytes) : Option Addr :=
  let s := input.takeWhile (· ≠ 0x25)
  let zone := (input.drop s.length).tail
  if 0x25 ∈ input ∧ zone = [] then none
  else
    let bytes :=
      if s.take 2 = [0x3a, 0x3a] then
        if s.drop 2 = [] then some (List.replicate 16 0)
        else (parseIPv6Loop 8 [] (some 0) (s.drop 2)).bind fun r => expandIPv6 r.1 r.2.1 r.2.2
      else (parseIPv6Loop 8 [] none s).bind fun r => expandIPv6 r.1 r.2.1 r.2.2
    bytes.map (.v6 · zone)

/-- `netip.ParseAddr` -/
def parseAddr (s : Bytes) : Option Addr :=
  match s.find? fun b => b = 0x2e || b = 0x3a || b = 0x25 with
  | some b =>
    if b = 0x2e then (parseIPv4Fields s).map .v4
    else if b = 0x3a then parseIPv6 s
    else none
  | none => none

namespace Addr

def zone : Addr → Bytes
  | .v4 _ => []
  | .v6 _ zone => zone

def bitLen : Addr → ℕ
  | .v4 _ => 32
  | .v6 _ _ => 128

def as16 : Addr → Bytes
  | .v4 bytes => v4InV6Prefix ++ bytes
  | .v6 bytes _ => bytes

/-- `addr.Unmap().AsSlice()` -/
def unmapSlice : Addr → IP
  | .v4 bytes => bytes
  | .v6 bytes _ => if bytes.take 12 = v4InV6Prefix then bytes.drop 12 else bytes

end Addr

/-! ## Host and port -/

/-- `net.SplitHostPort` -/
def splitHostPort (hostport : Bytes) : Option (Bytes × Bytes) :=
  if 0x3a ∉ hostport then none
  else
    -- the port starts after the last colon
    let port := (hostport.reverse.takeWhile (· ≠ 0x3a)).reverse
    let before := hostport.take (hostport.length - port.length - 1)
    if hostport.head? = some 0x5b then
      let host := (hostport.takeWhile (· ≠ 0x5d)).tail
      if before ≠ 0x5b :: (host ++ [0x5d]) then none
      else if 0x5b ∈ hostport.tail ∨ 0x5d ∈ port then none
      else some (host, port)
    else if 0x3a ∈ before then none
    else if 0x5b ∈ hostport ∨ 0x5d ∈ hostport then none
    else some (before, port)

/-- Whether `strconv.ParseUint(s, 10, 16)` succeeds. -/
def isUint16 (s : Bytes) : Bool :=
  s ≠ [] && s.all isDigitByte && s.foldl (fun n b => n * 10 + (b.toNat - 0x30)) 0 < 65536

/-! ## Networks -/

/-- `ip.To4()` -/
def to4 (ip : IP) : Option IP :=
  if ip.length = 4 then some ip
  else if ip.length = 16 ∧ ip.take 12 = v4InV6Prefix then some (ip.drop 12)
  else none

structure IPNet where
  ip : IP
  mask : Bytes
  deriving DecidableEq

/-- `net.CIDRMask` -/
def cidrMask (ones bits : ℕ) : Bytes :=
  if (bits ≠ 32 ∧ bits ≠ 128) ∨ bits < ones then [] else Masks.leading ones (bits / 8)

/-- `ip.Mask(mask)` -/
def maskIP (ip : IP) (mask : Bytes) : IP :=
  let m := if mask.length = 16 ∧ ip.length = 4 ∧
    mask.take 12 = List.replicate 12 0xff then mask.drop 12
    else mask
  let x := if m.length = 4 ∧ ip.length = 16 ∧ ip.take 12 = v4InV6Prefix then ip.drop 12 else ip
  if x.length ≠ m.length then [] else Masks.masked m x

/-- `dtoi`, where it reads all of the text: a number below `0xFFFFFF`. -/
def dtoi (s : Bytes) : Option ℕ :=
  let n := s.foldl (fun n b => n * 10 + (b.toNat - 0x30)) 0
  if s ≠ [] ∧ s.all isDigitByte ∧ n < 0xFFFFFF then some n else none

/-- `net.ParseCIDR`, by the network. -/
def parseCIDR (s : Bytes) : Option IPNet :=
  let addr := s.takeWhile (· ≠ 0x2f)
  let mask := (s.drop addr.length).tail
  if 0x2f ∉ s then none
  else
    match parseAddr addr, dtoi mask with
    | some a, some n =>
      if a.zone ≠ [] ∨ a.bitLen < n then none
      else
        let m := cidrMask n a.bitLen
        some ⟨maskIP a.as16 m, m⟩
    | _, _ => none

namespace IPNet

/-- `networkNumberAndMask` -/
def numberAndMask (n : IPNet) : IP × Bytes :=
  match to4 n.ip with
  | some ip =>
    if n.mask.length = 4 then (ip, n.mask)
    else if n.mask.length = 16 then (ip, n.mask.drop 12)
    else ([], [])
  | none =>
    if n.ip.length ≠ 16 then ([], [])
    else if n.mask.length = 16 then (n.ip, n.mask)
    else ([], [])

def contains (n : IPNet) (ip : IP) : Bool :=
  let ip := (to4 ip).getD ip
  ip.length = n.numberAndMask.1.length &&
    Masks.Agree n.numberAndMask.2 n.numberAndMask.1 ip

end IPNet

/-- The leading one bits of a byte. -/
def leadingOnes (b : UInt8) : ℕ :=
  (List.range 8).countP fun i => Masks.leadByte (i + 1) &&& b = Masks.leadByte (i + 1)

/-- `simpleMaskLength`: the leading one bits, if no other bits are set. -/
def simpleMaskLength : Bytes → ℕ → Option ℕ
  | [], n => some n
  | v :: mask, n =>
    if v = 0xff then simpleMaskLength mask (n + 8)
    else if v = Masks.leadByte (leadingOnes v) ∧ mask.all (· = 0) then some (n + leadingOnes v)
    else none

/-- The ones of `mask.Size()`. -/
def maskOnes (mask : Bytes) : ℕ := (simpleMaskLength mask 0).getD 0

/-! ## Texts of addresses -/

/-- The eight groups of an IPv6 address. -/
def groupsOf (ip : IP) : List ℕ :=
  (List.range 8).map fun i => (ip.getD (2 * i) 0).toNat * 256 + (ip.getD (2 * i + 1) 0).toNat

/-- The first longest run of two or more zero groups: where it starts and how long it is. -/
def longestZeros (groups : List ℕ) : Option (ℕ × ℕ) :=
  (List.range 8).foldl
    (fun best i =>
      let l := ((groups.drop i).takeWhile (· = 0)).length
      if 2 ≤ l ∧ (best.map Prod.snd).getD 0 < l then some (i, l) else best)
    none

def joinGroups (groups : List ℕ) : String :=
  ":".intercalate (groups.map fun n => String.ofList (Nat.toDigits 16 n))

/-- `ip.String()` -/
def ipString (ip : IP) : String :=
  if ip = [] then "<nil>"
  else if ip.length ≠ 4 ∧ ip.length ≠ 16 then "?" ++ String.ofList (hexEncode ip)
  else
    match to4 ip with
    | some ip => ".".intercalate (ip.map fun b => toString b.toNat)
    | none =>
      let groups := groupsOf ip
      match longestZeros groups with
      | some (i, l) => joinGroups (groups.take i) ++ "::" ++ joinGroups (groups.drop (i + l))
      | none => joinGroups groups

end PasswordHook
