import Mathlib

/-!
# Text of the Go standard library

Strings that pass through the service are valid UTF-8, so they are Lean strings, and `[]byte(s)` is
`bytesOf s`.  `isSpace` is `unicode.IsSpace`, `trimSpace` is `strings.TrimSpace`, `pathEscape` is
`url.PathEscape`.  The letter, digit and lower-case tables of package `unicode` are a parameter,
`Unicode`, whose fields are the facts about them that the service relies on.
-/

namespace PasswordHook

/-- A Go byte slice, by content. -/
abbrev Bytes := List UInt8

/-- `[]byte(s)`. -/
def bytesOf (s : String) : Bytes := s.toByteArray.data.toList

theorem bytesOf_inj {s t : String} (h : bytesOf s = bytesOf t) : s = t :=
  String.toByteArray_inj.1 (ByteArray.ext (Array.toList_inj.1 h))

/-- `unicode.IsSpace`: the characters with the property `White_Space`. -/
def isSpace (c : Char) : Bool :=
  let n := c.toNat
  (9 ≤ n && n ≤ 13) || n = 0x20 || n = 0x85 || n = 0xA0 || n = 0x1680 ||
    (0x2000 ≤ n && n ≤ 0x200A) || n = 0x2028 || n = 0x2029 || n = 0x202F || n = 0x205F || n = 0x3000

/-- The tables of package `unicode`: they are the ASCII ones below 128, no letter or digit is white
space, and lower-casing maps white space to itself and nothing else to white space. -/
structure Unicode where
  isLetter : Char → Bool
  isDigit : Char → Bool
  toLower : Char → Char
  letter_ascii : ∀ c : Char, c.toNat < 128 → isLetter c = c.isAlpha
  digit_ascii : ∀ c : Char, c.toNat < 128 → isDigit c = c.isDigit
  lower_ascii : ∀ c : Char, c.toNat < 128 → toLower c = c.toLower
  letter_not_space : ∀ c, isLetter c = true → isSpace c = false
  digit_not_space : ∀ c, isDigit c = true → isSpace c = false
  lower_of_space : ∀ c, isSpace c = true → toLower c = c
  space_of_lower : ∀ c, isSpace (toLower c) = true → isSpace c = true

/-! ## Trimming -/

/-- `strings.TrimSpace` on the characters of a string. -/
def trimChars (l : List Char) : List Char := (l.dropWhile isSpace).rdropWhile isSpace

/-- `strings.TrimSpace`. -/
def trimSpace (s : String) : String := String.ofList (trimChars s.toList)

/-- No white space at either end. -/
def Trimmed (l : List Char) : Prop :=
  (∀ c ∈ l.head?, isSpace c = false) ∧ ∀ c ∈ l.getLast?, isSpace c = false

theorem trimChars_eq_self {l : List Char} (h : Trimmed l) : trimChars l = l := by
  obtain ⟨hhead, hlast⟩ := h
  have hd : l.dropWhile isSpace = l := by
    cases l with
    | nil => rfl
    | cons c l => simp [hhead c (by simp)]
  rw [trimChars, hd, List.rdropWhile_eq_self_iff]
  intro hl
  rw [hlast _ (List.getLast_mem_getLast? hl)]
  simp

theorem head?_rdropWhile_of_ne {p : Char → Bool} {l : List Char} (h : l.rdropWhile p ≠ []) :
    (l.rdropWhile p).head? = l.head? := by
  obtain ⟨t, ht⟩ := List.rdropWhile_prefix p (l := l)
  conv_rhs => rw [← ht]
  rw [List.head?_append_of_ne_nil _ h]

theorem trimmed_trimChars (l : List Char) : Trimmed (trimChars l) := by
  constructor
  · intro c hc
    have hne : trimChars l ≠ [] := by
      intro h
      simp [h] at hc
    rw [trimChars, head?_rdropWhile_of_ne hne] at hc
    have := List.head?_dropWhile_not isSpace l
    rw [Option.mem_def] at hc
    rw [hc] at this
    simpa using this
  · intro c hc
    by_cases hne : trimChars l = []
    · simp [hne] at hc
    · rw [List.getLast?_eq_some_getLast hne, Option.mem_some_iff] at hc
      rw [← hc]
      exact Bool.eq_false_iff.2 (List.rdropWhile_last_not isSpace (l.dropWhile isSpace) hne)

@[simp] theorem toList_trimSpace (s : String) : (trimSpace s).toList = trimChars s.toList := by
  simp [trimSpace]

theorem trimSpace_eq_self {s : String} (h : Trimmed s.toList) : trimSpace s = s := by
  rw [← String.toList_inj, toList_trimSpace, trimChars_eq_self h]

theorem trimSpace_trimSpace (s : String) : trimSpace (trimSpace s) = trimSpace s :=
  trimSpace_eq_self (by rw [toList_trimSpace]; exact trimmed_trimChars _)

theorem mem_of_mem_trimChars {c : Char} {l : List Char} (h : c ∈ trimChars l) : c ∈ l :=
  (List.dropWhile_sublist isSpace).subset ((List.rdropWhile_prefix isSpace _).subset h)

theorem trimChars_eq_nil_iff {l : List Char} : trimChars l = [] ↔ ∀ c ∈ l, isSpace c = true := by
  rw [trimChars, List.rdropWhile_eq_nil_iff]
  constructor
  · intro h c hc
    by_cases hd : l.dropWhile isSpace = []
    · exact List.dropWhile_eq_nil_iff.1 hd c hc
    · exact absurd (h _ (List.head_mem hd)) (by simpa using List.head_dropWhile_not isSpace hd)
  · intro h c hc
    exact h c ((List.dropWhile_sublist isSpace).subset hc)

/-- A string is blank when only white space is in it. -/
theorem trimSpace_eq_empty_iff {s : String} :
    trimSpace s = "" ↔ ∀ c ∈ s.toList, isSpace c = true := by
  rw [← String.toList_inj, toList_trimSpace]
  exact trimChars_eq_nil_iff

theorem trimSpace_ne_empty {s : String} {c : Char} (hc : c ∈ s.toList) (h : isSpace c = false) :
    trimSpace s ≠ "" := by
  intro hs
  rw [trimSpace_eq_empty_iff.1 hs c hc] at h
  exact absurd h (by simp)

/-! ## Lower case -/

/-- `strings.ToLower`. -/
def toLower (U : Unicode) (s : String) : String := String.ofList (s.toList.map U.toLower)

@[simp] theorem toList_toLower (U : Unicode) (s : String) :
    (toLower U s).toList = s.toList.map U.toLower := by
  simp [toLower]

theorem isSpace_toLower (U : Unicode) (c : Char) : isSpace (U.toLower c) = isSpace c := by
  cases h : isSpace c with
  | true => rw [U.lower_of_space c h, h]
  | false =>
    cases h' : isSpace (U.toLower c) with
    | true => rw [U.space_of_lower c h'] at h; exact absurd h (by simp)
    | false => rfl

theorem toLower_eq_newline_iff (U : Unicode) {c : Char} : U.toLower c = '\n' ↔ c = '\n' := by
  constructor
  · intro h
    have hs : isSpace c = true := by rw [← isSpace_toLower U, h]; decide
    rw [← U.lower_of_space c hs, h]
  · rintro rfl
    exact U.lower_of_space _ (by decide)

theorem Trimmed.toLower (U : Unicode) {l : List Char} (h : Trimmed l) :
    Trimmed (l.map U.toLower) := by
  obtain ⟨hhead, hlast⟩ := h
  constructor <;> intro c hc
  · rw [List.head?_map, Option.mem_map] at hc
    obtain ⟨d, hd, rfl⟩ := hc
    rw [isSpace_toLower, hhead d hd]
  · rw [List.getLast?_map, Option.mem_map] at hc
    obtain ⟨d, hd, rfl⟩ := hc
    rw [isSpace_toLower, hlast d hd]

/-! ## Escaping -/

/-- `shouldEscape` of package `net/url` for a path segment. -/
def shouldEscape (b : UInt8) : Bool :=
  let c := Char.ofNat b.toNat
  !(c.isAlphanum || c ∈ ['-', '_', '.', '~', '$', '&', '+', ':', '=', '@'])

def upperHex (n : ℕ) : Char := "0123456789ABCDEF".toList.getD n '0'

/-- `url.PathEscape` -/
def pathEscape (value : String) : String :=
  String.ofList ((bytesOf value).flatMap fun b =>
    if shouldEscape b then ['%', upperHex (b.toNat / 16), upperHex (b.toNat % 16)]
    else [Char.ofNat b.toNat])

/-! ## The ASCII tables -/

theorem isSpace_of_toNat {c : Char} (h₁ : 33 ≤ c.toNat) (h₂ : c.toNat < 128) :
    isSpace c = false := by
  simp only [isSpace]
  simp
  omega

theorem toNat_of_isAlpha {c : Char} (h : c.isAlpha = true) : 65 ≤ c.toNat ∧ c.toNat ≤ 122 := by
  simp only [Char.isAlpha, Char.isUpper, Char.isLower, Bool.or_eq_true, decide_eq_true_eq,
    ge_iff_le, Bool.and_eq_true, UInt32.le_iff_toNat_le] at h
  simp only [Char.toNat]
  have e₁ : 'A'.val.toNat = 65 := rfl
  have e₂ : 'Z'.val.toNat = 90 := rfl
  have e₃ : 'a'.val.toNat = 97 := rfl
  have e₄ : 'z'.val.toNat = 122 := rfl
  omega

theorem toNat_of_isDigit {c : Char} (h : c.isDigit = true) : 48 ≤ c.toNat ∧ c.toNat ≤ 57 := by
  simp only [Char.isDigit, decide_eq_true_eq, ge_iff_le, Bool.and_eq_true,
    UInt32.le_iff_toNat_le] at h
  exact h

theorem toLower_cases (c : Char) :
    c.toLower = c ∨ (65 ≤ c.toNat ∧ c.toNat ≤ 90 ∧ c.toLower.toNat = c.toNat + 32) := by
  unfold Char.toLower
  split_ifs with h
  · right
    simp only [ge_iff_le, UInt32.le_iff_toNat_le] at h
    obtain ⟨h₁, h₂⟩ := h
    have e₁ : 'A'.val.toNat = 65 := rfl
    have e₂ : 'Z'.val.toNat = 90 := rfl
    have e₃ : ('a'.val - 'A'.val).toNat = 32 := rfl
    simp only [Char.toNat, UInt32.toNat_add, e₃]
    omega
  · exact .inl rfl

/-- The tables cut down to ASCII. -/
def Unicode.ascii : Unicode where
  isLetter c := c.isAlpha
  isDigit c := c.isDigit
  toLower c := c.toLower
  letter_ascii _ _ := rfl
  digit_ascii _ _ := rfl
  lower_ascii _ _ := rfl
  letter_not_space c h := isSpace_of_toNat (by have := toNat_of_isAlpha h; omega)
    (by have := toNat_of_isAlpha h; omega)
  digit_not_space c h := isSpace_of_toNat (by have := toNat_of_isDigit h; omega)
    (by have := toNat_of_isDigit h; omega)
  lower_of_space c h := by
    rcases toLower_cases c with hc | ⟨h₁, h₂, -⟩
    · exact hc
    · rw [isSpace_of_toNat (by omega) (by omega)] at h
      exact absurd h (by simp)
  space_of_lower c h := by
    rcases toLower_cases c with hc | ⟨h₁, h₂, h₃⟩
    · rwa [hc] at h
    · rw [isSpace_of_toNat (by omega) (by omega)] at h
      exact absurd h (by simp)

end PasswordHook
