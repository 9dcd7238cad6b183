import PasswordHook.Graph.Client
import PasswordHook.Lib.Buffers

/-!
# Password bytes left in buffers

The bodies of the requests on buffers: each is grown by appends from a short literal, and the last
buffer is zeroed when the request has been made.  A buffer that was left while the body grew is not:
the bytes of the password are cleared everywhere exactly when the buffer that takes the first of
them has room for the rest of the body, which is arithmetic on the growth policy and the lengths of
the pieces (`residue_iff`).  A policy that at most doubles a capacity leaves bytes of every password
that is patched (`not_patchHasRoom`).
-/

namespace PasswordHook

open Prog

section Build

variable (grow : ℕ → ℕ → ℕ)

/-! ## The bodies on buffers -/

def appendJSONStringTo (dst : Heap × Slice) (value : Bytes) : Heap × Slice :=
  let dst := Heap.append grow dst.1 dst.2 [0x22]
  let dst := value.foldl (fun dst b => Heap.append grow dst.1 dst.2 (jsonStringByte b)) dst
  Heap.append grow dst.1 dst.2 [0x22]

def appendJSONStringFromStringTo (dst : Heap × Slice) (value : String) : Heap × Slice :=
  appendJSONStringTo grow dst (bytesOf value)

/-- `buildPatchBody` up to the password. -/
def patchHeadTo (h : Heap) : Heap × Slice :=
  Heap.ofBytes grow h (bytesOf "\x7b\"passwordProfile\":\x7b\"password\":")

def buildPatchBodyTo (h : Heap) (password : Bytes) : Heap × Slice :=
  let body := patchHeadTo grow h
  let body := appendJSONStringTo grow body password
  Heap.append grow body.1 body.2 (bytesOf ",\"forceChangePasswordNextSignIn\":false\x7d\x7d")

/-- `buildCreateBody` up to the password. -/
def createHeadTo (h : Heap) (user : User) : Heap × Slice :=
  let body := Heap.ofBytes grow h (bytesOf "\x7b\"accountEnabled\":true,\"displayName\":")
  let body := appendJSONStringFromStringTo grow body user.displayName
  let body := Heap.append grow body.1 body.2 (bytesOf ",\"mailNickname\":")
  let body := appendJSONStringFromStringTo grow body (mailNickname user.upn)
  let body := Heap.append grow body.1 body.2 (bytesOf ",\"userPrincipalName\":")
  let body := appendJSONStringFromStringTo grow body user.upn
  let mail := trimSpace user.mail
  let body :=
    if mail ≠ "" then
      let body := Heap.append grow body.1 body.2 (bytesOf ",\"mail\":")
      let body := appendJSONStringFromStringTo grow body mail
      let body := Heap.append grow body.1 body.2 (bytesOf ",\"otherMails\":[")
      let body := appendJSONStringFromStringTo grow body mail
      Heap.append grow body.1 body.2 (bytesOf "]")
    else body
  Heap.append grow body.1 body.2 (bytesOf ",\"passwordProfile\":\x7b\"password\":")

def buildCreateBodyTo (h : Heap) (user : User) (password : Bytes) : Heap × Slice :=
  let body := createHeadTo grow h user
  let body := appendJSONStringTo grow body password
  Heap.append grow body.1 body.2 (bytesOf ",\"forceChangePasswordNextSignIn\":false\x7d\x7d")

/-- `patchUserPassword`, with the heap it leaves. -/
def patchUserPasswordOn (c : GraphClient) (h : Heap) (upn : String) (password : Bytes) :
    GraphProg (Heap × Option Err) := do
  let body := buildPatchBodyTo grow h password
  let err ← writePassword c "patch user" .patch (userPath upn) (body.1.contents body.2)
  return (body.1.zero body.2, err)

/-- `createUser`, with the heap it leaves. -/
def createUserOn (c : GraphClient) (h : Heap) (user : User) (password : Bytes) :
    GraphProg (Heap × Option Err) := do
  let body := buildCreateBodyTo grow h user password
  let err ← writePassword c "create user" .post "/v1.0/users" (body.1.contents body.2)
  return (body.1.zero body.2, err)

/-! ## The buffers of the password -/

/-- The body when the string of the password has been opened. -/
def opened (body : Heap × Slice) : Heap × Slice := Heap.append grow body.1 body.2 [0x22]

/-- The appends from the first byte of the password on. -/
def passwordPieces (password : Bytes) : List Bytes :=
  password.map jsonStringByte ++
    [[0x22], bytesOf ",\"forceChangePasswordNextSignIn\":false\x7d\x7d"]

/-- The buffer holds a byte of the password at some time: the appends go through it, from the first
byte of the password on. -/
def HeldPassword (head : Heap × Slice) (password : Bytes) (i : ℕ) : Prop :=
  ∃ n, 0 < n ∧ (Heap.appendAll grow (opened grow head) ((passwordPieces password).take n)).2.id = i

/-! ## Room -/

/-- The length of a byte in a JSON string. -/
def jsonByteLength (b : UInt8) : ℕ :=
  if b = 0x5c ∨ b = 0x22 ∨ b = 0x0a ∨ b = 0x0d ∨ b = 0x09 then 2
  else if b < 0x20 then 6
  else 1

/-- The lengths of the pieces of a JSON string. -/
def jsonLengths (value : Bytes) : List ℕ := 1 :: (value.map jsonByteLength ++ [1])

/-- The lengths of the pieces of `buildCreateBody` between its first 37 bytes and the password. -/
def createLengths (user : User) : List ℕ :=
  let mail := trimSpace user.mail
  jsonLengths (bytesOf user.displayName) ++ 16 :: jsonLengths (bytesOf (mailNickname user.upn)) ++
    21 :: jsonLengths (bytesOf user.upn) ++
    (if mail ≠ "" then 8 :: jsonLengths (bytesOf mail) ++ 15 :: jsonLengths (bytesOf mail) ++ [1]
      else []) ++ [31]

/-- After `len` bytes in a buffer of capacity `cap` come a quote, the password, a quote and 40
bytes: the buffer that takes the first byte of the password has room for the rest. -/
def HasRoom (cap len : ℕ) (password : Bytes) : Prop :=
  len + 1 + (password.map jsonByteLength).sum + 1 + 40 ≤
    Heap.capAfter grow cap len (1 :: (password.take 1).map jsonByteLength)

instance (cap len : ℕ) (password : Bytes) : Decidable (HasRoom grow cap len password) :=
  inferInstanceAs (Decidable (_ ≤ _))

/-- Room in the body of a patch, which begins with 31 bytes. -/
def PatchHasRoom (password : Bytes) : Prop := HasRoom grow (max (grow 0 31) 31) 31 password

/-- Room in the body of a new user. -/
def CreateHasRoom (user : User) (password : Bytes) : Prop :=
  HasRoom grow (Heap.capAfter grow (max (grow 0 37) 37) 37 (createLengths user))
    (37 + (createLengths user).sum) password

end Build

/-! ## The contents -/

section Contents

variable {grow : ℕ → ℕ → ℕ} {b : Heap × Slice} {bytes : Bytes}

/-- The slice has the bytes, and zeros behind them. -/
structure Building (b : Heap × Slice) (bytes : Bytes) : Prop where
  holds : b.1.Holds b.2
  contents : b.1.contents b.2 = bytes
  spare : ∀ x ∈ b.1.spare b.2, x = 0

theorem building_ofBytes (grow : ℕ → ℕ → ℕ) (h : Heap) (bytes : Bytes) :
    Building (Heap.ofBytes grow h bytes) bytes := by
  obtain ⟨hholds, hcontents, hspare⟩ := h.alloc_padded bytes (grow 0 bytes.length - bytes.length)
  exact ⟨hholds, hcontents, hspare⟩

variable (grow) in
theorem Building.append (hb : Building b bytes) (more : Bytes) :
    Building (Heap.append grow b.1 b.2 more) (bytes ++ more) := by
  have happended := hb.holds.append grow more
  exact ⟨happended.holds, hb.contents ▸ happended.contents, happended.spare hb.spare⟩

variable (grow) in
theorem Building.appendAll (hb : Building b bytes) (pieces : List Bytes) :
    Building (Heap.appendAll grow b pieces) (bytes ++ pieces.flatten) := by
  have happended := hb.holds.appendAll grow pieces
  exact ⟨happended.holds, hb.contents ▸ happended.contents, happended.spare hb.spare⟩

/-- The pieces of a JSON string. -/
def jsonPieces (value : Bytes) : List Bytes := [0x22] :: (value.map jsonStringByte ++ [[0x22]])

theorem appendJSONStringTo_eq (grow : ℕ → ℕ → ℕ) (dst : Heap × Slice) (value : Bytes) :
    appendJSONStringTo grow dst value = Heap.appendAll grow dst (jsonPieces value) := by
  rw [Heap.appendAll, jsonPieces, List.foldl_cons, List.foldl_append, List.foldl_map]
  rfl

theorem appendJSONString_eq_pieces (dst value : Bytes) :
    appendJSONString dst value = dst ++ (jsonPieces value).flatten := by
  simp [appendJSONString, jsonPieces, List.flatMap_def]

variable (grow) in
theorem Building.appendJSONStringTo (hb : Building b bytes) (value : Bytes) :
    Building (appendJSONStringTo grow b value) (appendJSONString bytes value) := by
  rw [appendJSONStringTo_eq, appendJSONString_eq_pieces]
  exact hb.appendAll grow (jsonPieces value)

theorem building_patchHead (grow : ℕ → ℕ → ℕ) (h : Heap) :
    Building (patchHeadTo grow h) (bytesOf "\x7b\"passwordProfile\":\x7b\"password\":") :=
  building_ofBytes grow h _

theorem building_patchBody (grow : ℕ → ℕ → ℕ) (h : Heap) (password : Bytes) :
    Building (buildPatchBodyTo grow h password) (buildPatchBody password) :=
  ((building_patchHead grow h).appendJSONStringTo grow password).append grow _

/-- The pieces between the first literal of `buildCreateBody` and the password. -/
def createPieces (user : User) : List Bytes :=
  let mail := bytesOf (trimSpace user.mail)
  jsonPieces (bytesOf user.displayName) ++
    bytesOf ",\"mailNickname\":" :: jsonPieces (bytesOf (mailNickname user.upn)) ++
    bytesOf ",\"userPrincipalName\":" :: jsonPieces (bytesOf user.upn) ++
    (if trimSpace user.mail ≠ "" then
      bytesOf ",\"mail\":" :: jsonPieces mail ++ bytesOf ",\"otherMails\":[" :: jsonPieces mail ++
        [bytesOf "]"]
      else []) ++ [bytesOf ",\"passwordProfile\":\x7b\"password\":"]

theorem createHeadTo_eq (grow : ℕ → ℕ → ℕ) (h : Heap) (user : User) :
    createHeadTo grow h user =
      Heap.appendAll grow
        (Heap.ofBytes grow h (bytesOf "\x7b\"accountEnabled\":true,\"displayName\":"))
        (createPieces user) := by
  simp only [createHeadTo, appendJSONStringFromStringTo, appendJSONStringTo_eq, createPieces]
  split_ifs <;>
    simp only [Heap.appendAll, List.foldl_append, List.foldl_cons, List.foldl_nil]

theorem createHead_eq (user : User) : createHead user =
    bytesOf "\x7b\"accountEnabled\":true,\"displayName\":" ++ (createPieces user).flatten := by
  simp only [createHead, appendJSONStringFromString, appendJSONString_eq_pieces, createPieces]
  split_ifs <;>
    simp only [List.flatten_append, List.flatten_cons, List.flatten_nil, List.append_assoc,
      List.append_nil]

theorem building_createHead (grow : ℕ → ℕ → ℕ) (h : Heap) (user : User) :
    Building (createHeadTo grow h user) (createHead user) := by
  rw [createHeadTo_eq, createHead_eq]
  exact (building_ofBytes grow h _).appendAll grow (createPieces user)

theorem building_createBody (grow : ℕ → ℕ → ℕ) (h : Heap) (user : User) (password : Bytes) :
    Building (buildCreateBodyTo grow h user password) (buildCreateBody user password) :=
  ((building_createHead grow h user).appendJSONStringTo grow password).append grow _

theorem mem_createHead (user : User) : 0x7b ∈ createHead user := by
  have hopen : (0x7b : UInt8) ∈ bytesOf "\x7b\"accountEnabled\":true,\"displayName\":" := by decide
  simp only [createHead]
  split_ifs <;> simp only [appendJSONStringFromString, appendJSONString, List.mem_append,
    hopen, true_or]

/-! ## Residue -/

theorem append_appendJSONStringTo (grow : ℕ → ℕ → ℕ) (head : Heap × Slice) (password : Bytes) :
    Heap.append grow (appendJSONStringTo grow head password).1
        (appendJSONStringTo grow head password).2
        (bytesOf ",\"forceChangePasswordNextSignIn\":false\x7d\x7d") =
      Heap.appendAll grow (opened grow head) (passwordPieces password) := by
  rw [Heap.appendAll, passwordPieces, List.foldl_append, List.foldl_map]
  rfl

theorem length_jsonStringByte (b : UInt8) : (jsonStringByte b).length = jsonByteLength b := by
  unfold jsonStringByte jsonByteLength
  split_ifs <;> simp_all <;> rfl

theorem length_flatten_passwordPieces (password : Bytes) :
    (passwordPieces password).flatten.length = (password.map jsonByteLength).sum + 1 + 40 := by
  have hclose : (bytesOf ",\"forceChangePasswordNextSignIn\":false\x7d\x7d").length = 40 := by
    decide +kernel
  rw [passwordPieces, List.length_flatten, List.map_append, List.sum_append, List.map_map]
  simp [Function.comp_def, length_jsonStringByte, hclose, Nat.add_assoc]

theorem map_length_jsonPieces (value : Bytes) :
    (jsonPieces value).map List.length = jsonLengths value := by
  simp [jsonPieces, jsonLengths, Function.comp_def, length_jsonStringByte]

theorem map_length_createPieces (user : User) :
    (createPieces user).map List.length = createLengths user := by
  simp only [createPieces, createLengths]
  split_ifs <;>
    simp only [List.map_append, List.map_cons, List.map_nil, map_length_jsonPieces] <;> rfl

variable (grow) in
/-- The body is built, and zeroed in its last buffer. -/
theorem residue_of_building (hb : Building b bytes) (hbyte : ∃ x ∈ bytes, x ≠ 0) {password : Bytes}
    (nonempty : password ≠ []) :
    (∀ i, HeldPassword grow b password i →
      ∀ x ∈ ((Heap.appendAll grow (opened grow b) (passwordPieces password)).1.zero
        (Heap.appendAll grow (opened grow b) (passwordPieces password)).2).buffer i, x = 0) ↔
      HasRoom grow (b.1.cap b.2) b.2.len password := by
  have hopened : Building (opened grow b) (bytes ++ [0x22]) := hb.append grow [0x22]
  have hlen : (opened grow b).2.len = b.2.len + 1 := (hb.holds.append grow [0x22]).len
  obtain ⟨x, hx, hne⟩ := hbyte
  obtain ⟨c, rest, rfl⟩ := List.exists_cons_of_ne_nil nonempty
  have hcleared := Heap.cleared_iff hopened.holds hopened.spare
    ⟨x, by rw [hopened.contents]; exact List.mem_append_left _ hx, hne⟩ grow (jsonStringByte c)
    (rest.map jsonStringByte ++
      [[0x22], bytesOf ",\"forceChangePasswordNextSignIn\":false\x7d\x7d"])
  have hlength := length_flatten_passwordPieces (c :: rest)
  rw [passwordPieces, List.map_cons, List.cons_append, List.flatten_cons, List.length_append]
    at hlength
  have hcap : (opened grow b).1.cap (opened grow b).2 =
      Heap.capFor grow (b.1.cap b.2) (b.2.len + 1) := Heap.cap_append hb.holds grow [0x22]
  dsimp only at hcleared
  rw [Heap.cap_append hopened.holds, hcap, hlen, hlength, length_jsonStringByte] at hcleared
  unfold HasRoom
  rw [List.take_one, List.head?_cons, Option.toList_some, List.map_singleton, Nat.add_assoc,
    Nat.add_assoc, ← Nat.add_assoc _ 1 40]
  refine Iff.trans ?_ hcleared
  constructor
  · intro hclear n
    exact hclear _ ⟨n + 1, Nat.succ_pos n, rfl⟩
  · rintro hclear i ⟨n, hn, rfl⟩
    obtain ⟨n, rfl⟩ : ∃ k, n = k + 1 := ⟨n - 1, by omega⟩
    exact hclear n

/-- On buffers, both requests send the body of the client and return what it returns. -/
theorem patchUserPasswordOn_eq (grow : ℕ → ℕ → ℕ) (c : GraphClient) (h : Heap) (upn : String)
    (password : Bytes) :
    patchUserPasswordOn grow c h upn password = (patchUserPassword c upn password).bind fun err =>
      .ret ((buildPatchBodyTo grow h password).1.zero (buildPatchBodyTo grow h password).2,
        err) := by
  rw [patchUserPassword, ← (building_patchBody grow h password).contents]
  rfl

theorem createUserOn_eq (grow : ℕ → ℕ → ℕ) (c : GraphClient) (h : Heap) (user : User)
    (password : Bytes) :
    createUserOn grow c h user password = (createUser c user password).bind fun err =>
      .ret ((buildCreateBodyTo grow h user password).1.zero
        (buildCreateBodyTo grow h user password).2,
        err) := by
  rw [createUser, ← (building_createBody grow h user password).contents]
  rfl

/-- The heap a request leaves, whatever Graph answers. -/
theorem heap_of_exec {p : GraphProg (Option Err)} {left h' : Heap} {τ : List GraphEvent}
    {err : Option Err} (run : Exec (p.bind fun err => .ret (left, err)) τ (h', err)) :
    h' = left := by
  obtain ⟨err', τ₁, τ₂, -, -, hret⟩ := exec_bind_iff.1 run
  exact (Prod.mk.inj (exec_ret_iff.1 hret).2).1.symm

end Contents

theorem size_patchHeadTo (grow : ℕ → ℕ → ℕ) (h : Heap) :
    (patchHeadTo grow h).1.cap (patchHeadTo grow h).2 = max (grow 0 31) 31 ∧
      (patchHeadTo grow h).2.len = 31 := by
  have hlength : (bytesOf "\x7b\"passwordProfile\":\x7b\"password\":").length = 31 := by
    decide +kernel
  rw [patchHeadTo, Heap.cap_ofBytes, hlength]
  exact ⟨rfl, hlength⟩

theorem size_createHeadTo (grow : ℕ → ℕ → ℕ) (h : Heap) (user : User) :
    (createHeadTo grow h user).1.cap (createHeadTo grow h user).2 =
        Heap.capAfter grow (max (grow 0 37) 37) 37 (createLengths user) ∧
      (createHeadTo grow h user).2.len = 37 + (createLengths user).sum := by
  have hlength : (bytesOf "\x7b\"accountEnabled\":true,\"displayName\":").length = 37 := by
    decide +kernel
  have hbegun := building_ofBytes grow h (bytesOf "\x7b\"accountEnabled\":true,\"displayName\":")
  have hlen := (hbegun.holds.appendAll grow (createPieces user)).len
  have hcap := Heap.cap_appendAll hbegun.holds grow (createPieces user)
  rw [List.length_flatten, map_length_createPieces] at hlen
  rw [map_length_createPieces, Heap.cap_ofBytes, hlength] at hcap
  rw [createHeadTo_eq]
  exact ⟨hcap, hlen.trans (congrArg (· + (createLengths user).sum) hlength)⟩

theorem jsonByteLength_mem (b : UInt8) : 1 ≤ jsonByteLength b ∧ jsonByteLength b ≤ 6 := by
  unfold jsonByteLength
  split_ifs <;> decide

/-- A patch needs 73 bytes and the password.  Where a capacity is at most doubled, the literal of 31
bytes does not come to that many before the password does. -/
theorem not_patchHasRoom {grow : ℕ → ℕ → ℕ} (first : grow 0 31 < 74)
    (doubles : ∀ cap len, 0 < cap → grow cap len ≤ 2 * cap) {password : Bytes}
    (nonempty : password ≠ []) : ¬ PatchHasRoom grow password := by
  obtain ⟨c, rest, rfl⟩ := List.exists_cons_of_ne_nil nonempty
  obtain ⟨hpos, hle⟩ := jsonByteLength_mem c
  rw [PatchHasRoom, HasRoom, List.take_one, List.head?_cons, Option.toList_some, List.map_singleton,
    List.map_cons, List.sum_cons, not_le]
  simp only [Heap.capAfter]
  have hquote := doubles (max (grow 0 31) 31) (31 + 1) (by omega)
  have hbyte := doubles (Heap.capFor grow (max (grow 0 31) 31) (31 + 1)) (31 + 1 + jsonByteLength c)
  unfold Heap.capFor at hbyte ⊢
  split_ifs at hbyte ⊢ <;> omega

/-- For every growth policy and every outcome of Graph: when a request returns, every buffer of its
body that held a byte of the password is zero if and only if the buffer that took the first one had
room for the rest of the body.  If a capacity is at most doubled, this is so for no patch. -/
theorem residue_iff (grow : ℕ → ℕ → ℕ) (c : GraphClient) (h : Heap) {password : Bytes}
    (nonempty : password ≠ []) :
    (∀ upn τ h' err, Exec (patchUserPasswordOn grow c h upn password) τ (h', err) →
      ((∀ i, HeldPassword grow (patchHeadTo grow h) password i → ∀ x ∈ h'.buffer i, x = 0) ↔
        PatchHasRoom grow password)) ∧
    (∀ user τ h' err, Exec (createUserOn grow c h user password) τ (h', err) →
      ((∀ i, HeldPassword grow (createHeadTo grow h user) password i → ∀ x ∈ h'.buffer i, x = 0) ↔
        CreateHasRoom grow user password)) ∧
    (grow 0 31 < 74 → (∀ cap len, 0 < cap → grow cap len ≤ 2 * cap) →
      ¬ PatchHasRoom grow password) := by
  refine ⟨?_, ?_, fun first doubles => not_patchHasRoom first doubles nonempty⟩
  · intro upn τ h' err run
    rw [patchUserPasswordOn_eq] at run
    have hbuilt : buildPatchBodyTo grow h password = _ :=
      append_appendJSONStringTo grow (patchHeadTo grow h) password
    obtain ⟨hcap, hlen⟩ := size_patchHeadTo grow h
    have hcleared := residue_of_building grow (building_patchHead grow h)
      ⟨0x7b, by decide, by decide⟩ nonempty
    rw [hcap, hlen] at hcleared
    rw [heap_of_exec run, hbuilt]
    exact hcleared
  · intro user τ h' err run
    rw [createUserOn_eq] at run
    have hbuilt : buildCreateBodyTo grow h user password = _ :=
      append_appendJSONStringTo grow (createHeadTo grow h user) password
    obtain ⟨hcap, hlen⟩ := size_createHeadTo grow h user
    rw [heap_of_exec run, hbuilt, CreateHasRoom, ← hcap, ← hlen]
    exact residue_of_building grow (building_createHead grow h user)
      ⟨0x7b, mem_createHead user, by decide⟩ nonempty

/-- The growth policy that doubles the capacity. -/
def doubling (cap _len : ℕ) : ℕ := 2 * cap

/-- Under doubling the head of this user ends one byte behind a capacity of 148, so the password
comes to a buffer of 296 bytes and nothing is left; a patch with the same password leaves it. -/
theorem residue_iff_doubling :
    let user : User := ⟨"b11001@example.edu", "Wang Xiao-Ming", ""⟩
    let password := bytesOf "correct horse battery staple"
    (∀ τ h' err, Exec (createUserOn doubling ⟨"https://graph.example.com", "scope"⟩ ⟨0, fun _ => []⟩
      user password) τ (h', err) →
        ∀ i, HeldPassword doubling (createHeadTo doubling ⟨0, fun _ => []⟩ user) password i →
          ∀ x ∈ h'.buffer i, x = 0) ∧
    ∀ τ h' err, Exec (patchUserPasswordOn doubling ⟨"https://graph.example.com", "scope"⟩
      ⟨0, fun _ => []⟩ user.upn password) τ (h', err) →
        ∃ i, HeldPassword doubling (patchHeadTo doubling ⟨0, fun _ => []⟩) password i ∧
          ∃ x ∈ h'.buffer i, x ≠ 0 := by
  intro user password
  have nonempty : password ≠ [] := by decide +kernel
  obtain ⟨hpatch, hcreate, hdoubled⟩ := residue_iff doubling ⟨"https://graph.example.com", "scope"⟩
    ⟨0, fun _ => []⟩ nonempty
  constructor
  · intro τ h' err run
    have hroom : CreateHasRoom doubling user password := by
      unfold CreateHasRoom
      decide +kernel
    exact (hcreate user τ h' err run).2 hroom
  · intro τ h' err run
    by_contra hclear
    push Not at hclear
    exact hdoubled (by decide) (fun cap _ _ => le_refl (2 * cap))
      ((hpatch user.upn τ h' err run).1 hclear)

/-- Under doubling a password of one byte is left in the second of three buffers, whatever Graph
answers. -/
theorem patch_leaves_password :
    HeldPassword doubling (patchHeadTo doubling ⟨0, fun _ => []⟩) [112] 1 ∧
    (∃ τ r, Exec (patchUserPasswordOn doubling ⟨"https://graph.example.com", "scope"⟩
      ⟨0, fun _ => []⟩ "b11001@example.edu" [112]) τ r) ∧
    ∀ τ h' err, Exec (patchUserPasswordOn doubling ⟨"https://graph.example.com", "scope"⟩
      ⟨0, fun _ => []⟩ "b11001@example.edu" [112]) τ (h', err) → (h'.buffer 1)[32]? = some 112 := by
  refine ⟨⟨1, Nat.one_pos, by decide +kernel⟩, ?_, fun τ h' err run => ?_⟩
  · have hnonempty : ∀ call : graphInterface.Call, Nonempty (graphInterface.Resp call) := by
      intro call
      cases call with
      | getToken scope => exact ⟨(.error .nil : Except Err String)⟩
      | newRequest method url => exact ⟨(none : Option Err)⟩
      | doRequest req => exact ⟨(.error .nil : Except Err ℤ)⟩
      | zeroBody body => exact ⟨()⟩
    exact exists_exec hnonempty _
  · rw [patchUserPasswordOn_eq] at run
    rw [heap_of_exec run]
    decide +kernel

end PasswordHook
