import PasswordHook.Lib.Utf8

/-!
# JSON string literals

The text between the quotes of a literal is a sequence of tokens: plain bytes, two-character escapes
and `\u` escapes.  The characters of a literal are read off its tokens (`chars`): two `\u` escapes
that are a surrogate pair are one character, any other surrogate is the replacement character, and
so is each byte that no character starts with.  A literal has one sequence of tokens only, which
`readTokens` finds (`readTokens_content`).
-/

namespace PasswordHook.JsonString

open Utf8

/-! ## Tokens -/

/-- The value of a hexadecimal digit of either case. -/
def hexValue? (b : UInt8) : Option ℕ :=
  if 0x30 ≤ b ∧ b ≤ 0x39 then some (b.toNat - 0x30)
  else if 0x61 ≤ b ∧ b ≤ 0x66 then some (b.toNat - 0x61 + 10)
  else if 0x41 ≤ b ∧ b ≤ 0x46 then some (b.toNat - 0x41 + 10)
  else none

/-- The code unit that four hexadecimal digits spell. -/
def codeUnit? (w x y z : UInt8) : Option ℕ := do
  let a ← hexValue? w
  let b ← hexValue? x
  let c ← hexValue? y
  let d ← hexValue? z
  return ((a * 16 + b) * 16 + c) * 16 + d

/-- The two-character escapes `"`, `\`, `/`, `b`, `f`, `n`, `r`, `t`, and what they stand for. -/
def shortEscapes : List (UInt8 × UInt8) :=
  [(0x22, 0x22), (0x5c, 0x5c), (0x2f, 0x2f), (0x62, 0x08), (0x66, 0x0c), (0x6e, 0x0a), (0x72, 0x0d),
    (0x74, 0x09)]

def shortEscape? (e : UInt8) : Option UInt8 := shortEscapes.lookup e

/-- A byte that needs no escape. -/
def isPlain (b : UInt8) : Bool := b ≠ 0x22 && b ≠ 0x5c && 0x20 ≤ b

inductive Token where
  | plain (b : UInt8) (ok : isPlain b = true)
  | short (e value : UInt8) (ok : shortEscape? e = some value)
  | code (w x y z : UInt8) (unit : ℕ) (ok : codeUnit? w x y z = some unit)

def Token.text : Token → List UInt8
  | .plain b _ => [b]
  | .short e _ _ => [0x5c, e]
  | .code w x y z _ _ => [0x5c, 0x75, w, x, y, z]

theorem mem_shortEscapes {e value : UInt8} (h : shortEscape? e = some value) :
    (e, value) ∈ shortEscapes := by
  obtain ⟨l₁, l₂, hl, -⟩ := List.lookup_eq_some_iff.1 h
  rw [hl]
  simp

theorem ne_of_shortEscape? {e value : UInt8} (h : shortEscape? e = some value) : e ≠ 0x75 := by
  rintro rfl
  have hnone : shortEscape? 0x75 = none := by decide
  rw [hnone] at h
  exact absurd h (by simp)

def content (ts : List Token) : List UInt8 := ts.flatMap Token.text

/-- The literal with these tokens. -/
def literal (ts : List Token) : List UInt8 := 0x22 :: (content ts ++ [0x22])

@[simp] theorem content_nil : content [] = [] := rfl

@[simp] theorem content_cons (t : Token) (ts : List Token) :
    content (t :: ts) = t.text ++ content ts := rfl

theorem content_append (ts ts' : List Token) : content (ts ++ ts') = content ts ++ content ts' :=
  List.flatMap_append

/-! ## Characters -/

def isHigh (unit : ℕ) : Bool := 0xD800 ≤ unit && unit < 0xDC00

def isLow (unit : ℕ) : Bool := 0xDC00 ≤ unit && unit < 0xE000

def replacement : Char := '\uFFFD'

/-- The character of a surrogate pair. -/
def pairChar (high low : ℕ) :
    Char := Char.ofNat ((high - 0xD800) * 0x400 + (low - 0xDC00) + 0x10000)

/-- The character of a code unit on its own. -/
def unitChar (unit : ℕ) : Char := if isHigh unit || isLow unit then replacement else Char.ofNat unit

/-- The first character of a token and those after it, and the tokens that follow it. -/
def firstChar : Token → List Token → Char × List Token
  | .plain b ok, ts =>
    match decodeChar? (content (.plain b ok :: ts)) with
    | some c => (c, ts.drop (c.utf8Size - 1))
    | none => (replacement, ts)
  | .short _ value _, ts => (Char.ofNat value.toNat, ts)
  | .code _ _ _ _ unit _, ts =>
    match ts with
    | .code _ _ _ _ low _ :: ts' =>
      if isHigh unit && isLow low then (pairChar unit low, ts') else (unitChar unit, ts)
    | _ => (unitChar unit, ts)

theorem length_firstChar_le (t : Token) (ts : List Token) :
    (firstChar t ts).2.length ≤ ts.length := by
  unfold firstChar
  split
  · split
    · rw [List.length_drop]
      exact Nat.sub_le _ _
    · exact le_rfl
  · exact le_rfl
  · split
    · split_ifs
      · simp
      · exact le_rfl
    · exact le_rfl

/-- The characters of a literal. -/
def chars : List Token → List Char
  | [] => []
  | t :: ts => (firstChar t ts).1 :: chars (firstChar t ts).2
termination_by ts => ts.length
decreasing_by exact Nat.lt_succ_of_le (length_firstChar_le t ts)

/-- What a literal stands for. -/
def decoded (ts : List Token) : List UInt8 := (chars ts).flatMap encode

theorem valid_decoded (ts : List Token) : Valid (decoded ts) := ⟨chars ts, rfl⟩

/-- Bytes from 128 on are plain tokens, one each. -/
theorem content_drop {ts : List Token} {bs rest : List UInt8} (h : content ts = bs ++ rest)
    (high : ∀ b ∈ bs, 128 ≤ b) : content (ts.drop bs.length) = rest := by
  induction bs generalizing ts with
  | nil => exact h
  | cons b bs ih =>
    have hb := high b (by simp)
    cases ts with
    | nil => exact absurd h (by simp)
    | cons t ts =>
      cases t with
      | plain b' ok =>
        have htail : content ts = bs ++ rest := (List.cons.inj h).2
        exact ih htail fun b' hb' => high b' (by simp [hb'])
      | short e value ok =>
        have hhead : 0x5c = b := (List.cons.inj h).1
        exact absurd (hhead ▸ hb) (by decide)
      | code w x y z unit ok =>
        have hhead : 0x5c = b := (List.cons.inj h).1
        exact absurd (hhead ▸ hb) (by decide)

theorem isPlain_of_le {b : UInt8} (h : 128 ≤ b) : isPlain b = true := by
  rw [UInt8.le_iff_toNat_le] at h
  have hne : ∀ k : UInt8, k.toNat < 128 → b ≠ k := by
    rintro k hk rfl
    exact absurd hk (Nat.not_lt.2 h)
  have hspace : 0x20 ≤ b := UInt8.le_iff_toNat_le.2 (le_trans (by decide) h)
  simp [isPlain, hne 0x22 (by decide), hne 0x5c (by decide), hspace]

theorem exists_content_of_le {bs : List UInt8} (high : ∀ b ∈ bs, 128 ≤ b) :
    ∃ ts, content ts = bs ∧ ts.length = bs.length := by
  induction bs with
  | nil => exact ⟨[], rfl, rfl⟩
  | cons b bs ih =>
    obtain ⟨ts, rfl, hlength⟩ := ih fun b' hb' => high b' (by simp [hb'])
    refine ⟨.plain b (isPlain_of_le (high b (by simp))) :: ts, rfl, ?_⟩
    rw [List.length_cons, List.length_cons, hlength]

/-- The tokens after a plain one that a character starts with, from 128 on. -/
theorem content_drop_of_decode {b : UInt8} {ok : isPlain b = true} {ts : List Token} {c : Char}
    (high : 128 ≤ b) (h : decodeChar? (content (.plain b ok :: ts)) = some c) :
    content (.plain b ok :: ts) = encode c ++ content (ts.drop (c.utf8Size - 1)) := by
  obtain ⟨rest, hrest⟩ := decodeChar?_eq_some_iff.1 h
  have hdrop := content_drop hrest fun b' hb' => le_of_mem_encode_of_decode high h hb'
  have hsize : (encode c).length = c.utf8Size - 1 + 1 := by
    rw [length_encode]
    exact (Nat.sub_add_cancel c.utf8Size_pos).symm
  rw [hsize, List.drop_succ_cons] at hdrop
  rw [hrest, hdrop]

/-- A plain byte below 128 is its own character. -/
theorem firstChar_of_lt {b : UInt8} (ok : isPlain b = true) (h : b < 128) (ts : List Token) :
    firstChar (.plain b ok) ts = (Char.ofNat b.toNat, ts) := by
  have hdecode : decodeChar? (content (.plain b ok :: ts)) = some (Char.ofNat b.toNat) :=
    decodeChar?_of_lt h (content ts)
  have hsize : (Char.ofNat b.toNat).utf8Size = 1 := by
    rw [← length_encode, encode_ofNat h]
    rfl
  simp only [firstChar, hdecode, hsize]
  rfl

section Pairs

variable {w x y z w' x' y' z' : UInt8} {unit low : ℕ} (ok : codeUnit? w x y z = some unit)
  (ok' : codeUnit? w' x' y' z' = some low) (ts : List Token)

theorem firstChar_pair (h : (isHigh unit && isLow low) = true) :
    firstChar (.code w x y z unit ok) (.code w' x' y' z' low ok' :: ts) = (pairChar unit low, ts) :=
  if_pos h

theorem firstChar_not_pair (h : ¬ (isHigh unit && isLow low) = true) :
    firstChar (.code w x y z unit ok) (.code w' x' y' z' low ok' :: ts) =
      (unitChar unit, .code w' x' y' z' low ok' :: ts) :=
  if_neg h

theorem firstChar_not_high (h : isHigh unit = false) :
    firstChar (.code w x y z unit ok) ts = (unitChar unit, ts) := by
  rcases ts with _ | ⟨_ | _ | _, ts⟩ <;> simp [firstChar, h]

end Pairs

/-- The tokens of a character from 128 on. -/
theorem exists_tokens_of_le {c : Char} (h : 128 ≤ c.toNat) :
    ∃ t ts, content (t :: ts) = encode c ∧ ∀ ts', firstChar t (ts ++ ts') = (c, ts') := by
  obtain ⟨b, bs, hc⟩ : ∃ b bs, encode c = b :: bs :=
    List.exists_cons_of_ne_nil String.utf8EncodeChar_ne_nil
  have high : ∀ b' ∈ b :: bs, 128 ≤ b' := fun b' hb' => le_of_mem_encode h (hc ▸ hb')
  obtain ⟨ts, hts, hlength⟩ := exists_content_of_le fun b' hb' =>
    high b' (List.mem_cons_of_mem b hb')
  refine ⟨.plain b (isPlain_of_le (high b (by simp))), ts, ?_, fun ts' => ?_⟩
  · rw [content_cons, hts]
    exact hc.symm
  · have htext : content (.plain b (isPlain_of_le (high b (by simp))) :: (ts ++ ts')) =
        encode c ++ content ts' := by
      rw [content_cons, content_append, hts, ← List.append_assoc]
      exact congrArg (· ++ content ts') hc.symm
    have hsize : c.utf8Size - 1 = ts.length := by
      rw [← length_encode, hc, List.length_cons, hlength, Nat.add_sub_cancel]
    simp only [firstChar, htext, decodeChar?_encode_append, hsize, List.drop_left]

theorem chars_cons (t : Token) (ts : List Token) :
    chars (t :: ts) = (firstChar t ts).1 :: chars (firstChar t ts).2 := by
  rw [chars]

theorem decoded_nil : decoded [] = [] := by
  rw [decoded, chars]
  rfl

theorem decoded_cons (t : Token) (ts : List Token) :
    decoded (t :: ts) = encode (firstChar t ts).1 ++ decoded (firstChar t ts).2 := by
  rw [decoded, chars_cons, List.flatMap_cons, decoded]

theorem length_le_length_content (ts : List Token) : ts.length ≤ (content ts).length := by
  induction ts with
  | nil => exact le_rfl
  | cons t ts ih =>
    have htext : 1 ≤ t.text.length := by cases t <;> simp [Token.text]
    rw [content_cons, List.length_append, List.length_cons]
    omega

/-! ## Reading -/

/-- The tokens up to the closing quote, and what follows it. -/
def readTokens : List UInt8 → Option (List Token × List UInt8)
  | [] => none
  | b :: s =>
    if b = 0x22 then some ([], s)
    else if b = 0x5c then
      match s with
      | [] => none
      | e :: s =>
        if e = 0x75 then
          match s with
          | w :: x :: y :: z :: s =>
            if h : (codeUnit? w x y z).isSome then
              (readTokens s).map fun p =>
                (.code w x y z _ (Option.some_get h).symm :: p.1, p.2)
            else none
          | _ => none
        else if h : (shortEscape? e).isSome then
          (readTokens s).map fun p => (.short e _ (Option.some_get h).symm :: p.1, p.2)
        else none
    else if h : isPlain b then (readTokens s).map fun p => (.plain b h :: p.1, p.2)
    else none

theorem readTokens_quote (s : List UInt8) : readTokens (0x22 :: s) = some ([], s) := by
  rw [readTokens.eq_def]
  rfl

theorem readTokens_token (t : Token) (s : List UInt8) :
    readTokens (t.text ++ s) = (readTokens s).map fun p => (t :: p.1, p.2) := by
  cases t with
  | plain b ok =>
    have hplain := ok
    simp only [isPlain, Bool.and_eq_true, decide_eq_true_eq] at hplain
    show readTokens (b :: s) = _
    rw [readTokens.eq_def]
    simp only [hplain.1.1, hplain.1.2, if_false, dif_pos ok]
  | short e value ok =>
    have hu := ne_of_shortEscape? ok
    show readTokens (0x5c :: e :: s) = _
    rw [readTokens.eq_def]
    simp [hu, ok]
  | code w x y z unit ok =>
    show readTokens (0x5c :: 0x75 :: w :: x :: y :: z :: s) = _
    rw [readTokens.eq_def]
    simp [ok]

theorem readTokens_content (ts : List Token) (s : List UInt8) :
    readTokens (content ts ++ 0x22 :: s) = some (ts, s) := by
  induction ts with
  | nil => exact readTokens_quote s
  | cons t ts ih =>
    rw [content_cons, List.append_assoc, readTokens_token, ih]
    rfl

end PasswordHook.JsonString
