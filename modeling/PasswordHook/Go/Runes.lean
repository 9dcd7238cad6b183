import PasswordHook.Go.Text
import PasswordHook.Lib.Utf8

/-!
# Runes

Packages `unicode/utf8` and `unicode/utf16`, as far as the service calls them, `strings.TrimSpace`
for bytes from outside, the text of such bytes in JSON, and the quoted form of a byte in an error
text.  A rune is its number.
-/

namespace PasswordHook

/-- `utf8.RuneError` -/
def runeError : ℕ := 0xFFFD

/-- `utf8.DecodeRune` -/
def decodeRune (p : Bytes) : ℕ × ℕ :=
  if p = [] then (runeError, 0)
  else
    match Utf8.decodeChar? p with
    | some c => (c.toNat, c.utf8Size)
    | none => (runeError, 1)

/-- `utf8.ValidRune` -/
def validRune (r : ℕ) : Bool := r < 0xD800 || (0xDFFF < r && r ≤ 0x10FFFF)

/-- The character that is written for a rune. -/
def runeChar (r : ℕ) : Char := if validRune r then Char.ofNat r else Char.ofNat runeError

/-- `utf8.AppendRune` -/
def appendRune (p : Bytes) (r : ℕ) : Bytes := p ++ Utf8.encode (runeChar r)

/-- `utf16.IsSurrogate` -/
def isSurrogate (r : ℕ) : Bool := 0xD800 ≤ r && r < 0xE000

/-- `utf16.DecodeRune` -/
def utf16DecodeRune (r₁ r₂ : ℕ) : ℕ :=
  if 0xD800 ≤ r₁ ∧ r₁ < 0xDC00 ∧ 0xDC00 ≤ r₂ ∧ r₂ < 0xE000 then
    ((r₁ - 0xD800) <<< 10 ||| (r₂ - 0xDC00)) + 0x10000
  else runeError

theorem runeChar_toNat (c : Char) : runeChar c.toNat = c := by
  have hvalid : validRune c.toNat = true := by
    have := c.valid
    simp only [validRune, Bool.or_eq_true, decide_eq_true_eq, Bool.and_eq_true, Char.toNat]
    simp only [UInt32.isValidChar, Nat.isValidChar] at this
    omega
  rw [runeChar, if_pos hvalid, Char.ofNat_toNat]

theorem decodeRune_of_decode {p : Bytes} {c : Char} (h : Utf8.decodeChar? p = some c) :
    decodeRune p = (c.toNat, c.utf8Size) := by
  have hne : p ≠ [] := by
    rintro rfl
    obtain ⟨rest, hrest⟩ := Utf8.decodeChar?_eq_some_iff.1 h
    exact String.utf8EncodeChar_ne_nil (List.append_eq_nil_iff.1 hrest.symm).1
  rw [decodeRune, if_neg hne, h]

theorem decodeRune_of_none {p : Bytes} (hne : p ≠ []) (h : Utf8.decodeChar? p = none) :
    decodeRune p = (runeError, 1) := by
  rw [decodeRune, if_neg hne, h]

theorem utf16DecodeRune_pair {r₁ r₂ : ℕ} (h₁ : 0xD800 ≤ r₁) (h₁' : r₁ < 0xDC00) (h₂ : 0xDC00 ≤ r₂)
    (h₂' : r₂ < 0xE000) :
    utf16DecodeRune r₁ r₂ = (r₁ - 0xD800) * 0x400 + (r₂ - 0xDC00) + 0x10000 := by
  have hlow : r₂ - 0xDC00 < 2 ^ 10 := by omega
  rw [utf16DecodeRune, if_pos ⟨h₁, h₁', h₂, h₂'⟩, ← Nat.shiftLeft_add_eq_or_of_lt hlow,
    Nat.shiftLeft_eq]

/-! ## Trimming -/

/-- The character that the bytes end with, if they end with one. -/
def lastChar? (p : Bytes) : Option Char :=
  [1, 2, 3, 4].findSome? fun k =>
    (Utf8.decodeChar? (p.drop (p.length - k))).filter fun c => c.utf8Size = k && k ≤ p.length

def trimLeftSpace : ℕ → Bytes → Bytes
  | 0, p => p
  | turns + 1, p =>
    match Utf8.decodeChar? p with
    | some c => if isSpace c then trimLeftSpace turns (p.drop c.utf8Size) else p
    | none => p

def trimRightSpace : ℕ → Bytes → Bytes
  | 0, p => p
  | turns + 1, p =>
    match lastChar? p with
    | some c => if isSpace c then trimRightSpace turns (p.take (p.length - c.utf8Size)) else p
    | none => p

/-- `strings.TrimSpace` for a string that need not be valid UTF-8. -/
def trimSpaceBytes (p : Bytes) : Bytes :=
  let q := trimLeftSpace p.length p
  trimRightSpace q.length q

section Trimming

variable {p q : Bytes} {c : Char}

theorem decodeChar?_nil : Utf8.decodeChar? [] = none := by decide

theorem decodeChar?_extend (h : Utf8.decodeChar? q = some c) (hpq : q <+: p) :
    Utf8.decodeChar? p = some c := by
  obtain ⟨rest, rfl⟩ := Utf8.decodeChar?_eq_some_iff.1 h
  obtain ⟨more, rfl⟩ := hpq
  rw [List.append_assoc, Utf8.decodeChar?_encode_append]

/-- With enough turns no white space is left in front. -/
theorem decodeChar?_trimLeftSpace {turns : ℕ} (enough : p.length ≤ turns)
    (h : Utf8.decodeChar? (trimLeftSpace turns p) = some c) : isSpace c = false := by
  induction turns generalizing p with
  | zero =>
    rw [List.length_eq_zero_iff.1 (Nat.le_zero.1 enough), trimLeftSpace, decodeChar?_nil] at h
    exact absurd h (by simp)
  | succ turns ih =>
    rw [trimLeftSpace] at h
    cases hc : Utf8.decodeChar? p with
    | none =>
      rw [hc] at h
      exact absurd (hc.symm.trans h) (by simp)
    | some d =>
      simp only [hc] at h
      split_ifs at h with hspace
      · have hsize := Char.utf8Size_pos d
        exact ih (by rw [List.length_drop]; omega) h
      · obtain rfl : d = c := Option.some.inj (hc.symm.trans h)
        exact Bool.eq_false_iff.2 hspace

theorem trimLeftSpace_eq_self (h : ∀ c, Utf8.decodeChar? p = some c → isSpace c = false)
    (turns : ℕ) :
    trimLeftSpace turns p = p := by
  cases turns with
  | zero => rfl
  | succ turns =>
    rw [trimLeftSpace]
    cases hc : Utf8.decodeChar? p with
    | none => rfl
    | some d => simp [h d hc]

theorem prefix_trimRightSpace (turns : ℕ) (p : Bytes) : trimRightSpace turns p <+: p := by
  induction turns generalizing p with
  | zero => exact List.prefix_rfl
  | succ turns ih =>
    rw [trimRightSpace]
    split
    · split_ifs
      · exact (ih _).trans (List.take_prefix _ _)
      · exact List.prefix_rfl
    · exact List.prefix_rfl

theorem eq_append_of_lastChar? (h : lastChar? p = some c) : ∃ q, p = q ++ Utf8.encode c := by
  obtain ⟨k, -, hk⟩ := List.exists_of_findSome?_eq_some h
  obtain ⟨hdecode, hsize⟩ := Option.filter_eq_some_iff.1 hk
  simp only [Bool.and_eq_true, decide_eq_true_eq] at hsize
  obtain ⟨rest, hrest⟩ := Utf8.decodeChar?_eq_some_iff.1 hdecode
  have hlength := congrArg List.length hrest
  rw [List.length_drop, List.length_append, Utf8.length_encode] at hlength
  have hnil : rest = [] := List.length_eq_zero_iff.1 (by omega)
  rw [hnil, List.append_nil] at hrest
  refine ⟨p.take (p.length - k), ?_⟩
  rw [← hrest, List.take_append_drop]

theorem take_append_encode (q : Bytes) (c : Char) :
    (q ++ Utf8.encode c).take ((q ++ Utf8.encode c).length - c.utf8Size) = q := by
  rw [List.length_append, Utf8.length_encode, Nat.add_sub_cancel, List.take_left]

/-- With enough turns no white space is left at the end. -/
theorem lastChar?_trimRightSpace {turns : ℕ} (enough : p.length ≤ turns)
    (h : lastChar? (trimRightSpace turns p) = some c) : isSpace c = false := by
  induction turns generalizing p with
  | zero =>
    rw [List.length_eq_zero_iff.1 (Nat.le_zero.1 enough), trimRightSpace] at h
    obtain ⟨q, hq⟩ := eq_append_of_lastChar? h
    exact absurd (List.append_eq_nil_iff.1 hq.symm).2 String.utf8EncodeChar_ne_nil
  | succ turns ih =>
    rw [trimRightSpace] at h
    cases hc : lastChar? p with
    | none =>
      rw [hc] at h
      exact absurd (hc.symm.trans h) (by simp)
    | some d =>
      simp only [hc] at h
      split_ifs at h with hspace
      · obtain ⟨q, rfl⟩ := eq_append_of_lastChar? hc
        have hsize := Char.utf8Size_pos d
        rw [take_append_encode] at h
        rw [List.length_append, Utf8.length_encode] at enough
        exact ih (by omega) h
      · obtain rfl : d = c := Option.some.inj (hc.symm.trans h)
        exact Bool.eq_false_iff.2 hspace

theorem trimRightSpace_eq_self (h : ∀ c, lastChar? p = some c → isSpace c = false) (turns : ℕ) :
    trimRightSpace turns p = p := by
  cases turns with
  | zero => rfl
  | succ turns =>
    rw [trimRightSpace]
    cases hc : lastChar? p with
    | none => rfl
    | some d => simp [h d hc]

theorem trimSpaceBytes_trimSpaceBytes (p : Bytes) :
    trimSpaceBytes (trimSpaceBytes p) = trimSpaceBytes p := by
  have hleft : trimLeftSpace (trimSpaceBytes p).length (trimSpaceBytes p) = trimSpaceBytes p := by
    apply trimLeftSpace_eq_self
    intro c hc
    exact decodeChar?_trimLeftSpace le_rfl (decodeChar?_extend hc (prefix_trimRightSpace _ _))
  have hright : ∀ turns, trimRightSpace turns (trimSpaceBytes p) = trimSpaceBytes p := by
    apply trimRightSpace_eq_self
    intro c hc
    exact lastChar?_trimRightSpace le_rfl hc
  conv_lhs => rw [trimSpaceBytes, hleft]
  exact hright _

theorem Utf8.Valid.trimLeftSpace (h : Utf8.Valid p) (turns : ℕ) :
    Utf8.Valid (trimLeftSpace turns p) := by
  induction turns generalizing p with
  | zero => exact h
  | succ turns ih =>
    rw [PasswordHook.trimLeftSpace]
    cases hc : Utf8.decodeChar? p with
    | none => exact h
    | some d =>
      obtain ⟨rest, rfl⟩ := Utf8.decodeChar?_eq_some_iff.1 hc
      simp only [← Utf8.length_encode, List.drop_left]
      split_ifs
      · exact ih h.of_encode_append
      · exact h

theorem Utf8.Valid.trimRightSpace (h : Utf8.Valid p) (turns : ℕ) :
    Utf8.Valid (trimRightSpace turns p) := by
  induction turns generalizing p with
  | zero => exact h
  | succ turns ih =>
    rw [PasswordHook.trimRightSpace]
    cases hc : lastChar? p with
    | none => exact h
    | some d =>
      obtain ⟨q, rfl⟩ := eq_append_of_lastChar? hc
      simp only [take_append_encode]
      split_ifs
      · exact ih h.of_append_encode
      · exact h

theorem Utf8.Valid.trimSpaceBytes (h : Utf8.Valid p) : Utf8.Valid (trimSpaceBytes p) :=
  (h.trimLeftSpace _).trimRightSpace _

end Trimming

/-! ## Text in JSON -/

/-- The characters of the bytes, with the replacement character for each byte that starts none. -/
def replacedChars : ℕ → Bytes → List Char
  | 0, _ => []
  | turns + 1, p =>
    if p = [] then []
    else
      let r := decodeRune p
      runeChar r.1 :: replacedChars turns (p.drop r.2)

/-- The string that `json.Marshal` writes for a Go string. -/
def jsonText (p : Bytes) : String := String.ofList (replacedChars p.length p)

theorem bytesOf_ofList (cs : List Char) : bytesOf (String.ofList cs) = cs.flatMap Utf8.encode := by
  rw [bytesOf, String.toByteArray_ofList, List.utf8Encode]
  simp

theorem valid_bytesOf (s : String) : Utf8.Valid (bytesOf s) :=
  ⟨s.toList, by rw [← bytesOf_ofList, String.ofList_toList]⟩

theorem replacedChars_flatMap {turns : ℕ} {cs : List Char}
    (enough : (cs.flatMap Utf8.encode).length ≤ turns) :
    replacedChars turns (cs.flatMap Utf8.encode) = cs := by
  induction turns generalizing cs with
  | zero =>
    cases cs with
    | nil => rfl
    | cons c cs =>
      have := Char.utf8Size_pos c
      rw [List.flatMap_cons, List.length_append, Utf8.length_encode] at enough
      omega
  | succ turns ih =>
    cases cs with
    | nil => rfl
    | cons c cs =>
      have hsize := Char.utf8Size_pos c
      have hne : Utf8.encode c ++ cs.flatMap Utf8.encode ≠ [] :=
        fun h => String.utf8EncodeChar_ne_nil (List.append_eq_nil_iff.1 h).1
      rw [List.flatMap_cons, List.length_append, Utf8.length_encode] at enough
      rw [List.flatMap_cons, replacedChars, if_neg hne,
        decodeRune_of_decode (Utf8.decodeChar?_encode_append c _)]
      show runeChar c.toNat :: replacedChars turns ((Utf8.encode c ++ _).drop c.utf8Size) = c :: cs
      rw [runeChar_toNat, ← Utf8.length_encode, List.drop_left, ih (by omega)]

theorem jsonText_bytesOf (s : String) : jsonText (bytesOf s) = s := by
  have hbytes : bytesOf s = s.toList.flatMap Utf8.encode := by
    rw [← bytesOf_ofList, String.ofList_toList]
  rw [jsonText, hbytes, replacedChars_flatMap le_rfl, String.ofList_toList]

/-- A string comes out of its JSON as it is exactly if it is valid UTF-8. -/
theorem bytesOf_jsonText_iff {p : Bytes} : bytesOf (jsonText p) = p ↔ Utf8.Valid p := by
  constructor
  · intro h
    rw [← h]
    exact valid_bytesOf _
  · rintro ⟨cs, rfl⟩
    rw [← bytesOf_ofList, jsonText_bytesOf]

/-! ## Quoting -/

/-- `strconv.IsPrint` below 256. -/
def isPrintByte (b : UInt8) : Bool :=
  (0x20 ≤ b && b < 0x7f) || (0xa1 ≤ b && b ≠ 0xad)

/-- The verb `%q` for a byte. -/
def quoteByte (b : UInt8) : String :=
  let hex := [Nat.digitChar (b.toNat / 16), Nat.digitChar (b.toNat % 16)]
  let body :=
    if b = 0x27 || b = 0x5c then ['\\', Char.ofNat b.toNat]
    else if isPrintByte b then [Char.ofNat b.toNat]
    else
      match ([(7, 'a'), (8, 'b'), (12, 'f'), (10, 'n'), (13, 'r'), (9, 't'), (11, 'v')] :
          List (UInt8 × Char)).lookup b with
      | some c => ['\\', c]
      | none =>
        if b < 0x20 || b = 0x7f then '\\' :: 'x' :: hex else '\\' :: 'u' :: '0' :: '0' :: hex
  String.ofList ('\'' :: (body ++ ['\'']))

end PasswordHook
