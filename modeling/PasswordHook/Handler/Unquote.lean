import PasswordHook.Handler.PasswordBytes

/-!
# The password decoder and `encoding/json`

`unquoteBytes` is what package `encoding/json` does with a string literal.  The decoder of the hook
accepts exactly the literals, with the same result (`decodeJSONStringBytes_exact`).
-/

namespace PasswordHook

open JsonString

/-- `getu4`: the code unit of a `\u` escape at the front. -/
def getu4 (s : Bytes) : Option ℕ :=
  match s with
  | a :: b :: w :: x :: y :: z :: _ => if a = 0x5c ∧ b = 0x75 then codeUnit? w x y z else none
  | _ => none

/-- One turn of the second loop of `unquoteBytes`. -/
def unquoteItem (c : UInt8) (s : Bytes) : Except Unit (Bytes × Bytes) :=
  if c = 0x5c then
    match s with
    | [] => .error ()
    | e :: s =>
      if e = 0x22 ∨ e = 0x5c ∨ e = 0x2f ∨ e = 0x27 then .ok ([e], s)
      else if e = 0x62 then .ok ([0x08], s)
      else if e = 0x66 then .ok ([0x0c], s)
      else if e = 0x6e then .ok ([0x0a], s)
      else if e = 0x72 then .ok ([0x0d], s)
      else if e = 0x74 then .ok ([0x09], s)
      else if e = 0x75 then
        match getu4 (c :: e :: s) with
        | none => .error ()
        | some rr =>
          let rest := s.drop 4
          if isSurrogate rr then
            match getu4 rest with
            | some rr₁ =>
              if utf16DecodeRune rr rr₁ ≠ runeError then
                .ok (appendRune [] (utf16DecodeRune rr rr₁), rest.drop 6)
              else .ok (appendRune [] runeError, rest)
            | none => .ok (appendRune [] runeError, rest)
          else .ok (appendRune [] rr, rest)
      else .error ()
  else if c = 0x22 ∨ c < 0x20 then .error ()
  else if c < 0x80 then .ok ([c], s)
  else
    let rr := decodeRune (c :: s)
    .ok (appendRune [] rr.1, (c :: s).drop rr.2)

/-- The first loop of `unquoteBytes`: how many bytes at the front stand for themselves. -/
def unquoteScan : ℕ → Bytes → ℕ
  | _, [] => 0
  | 0, _ :: _ => 0
  | turns + 1, c :: s =>
    if c = 0x5c ∨ c = 0x22 ∨ c < 0x20 then 0
    else if c < 0x80 then unquoteScan turns s + 1
    else
      let rr := decodeRune (c :: s)
      if rr.1 = runeError ∧ rr.2 = 1 then 0
      else unquoteScan turns ((c :: s).drop rr.2) + rr.2

/-- `unquoteBytes` of package `encoding/json`. -/
def unquoteBytes (data : Bytes) : Except Unit Bytes :=
  if data.length < 2 ∨ data.head? ≠ some 0x22 ∨ data.getLast? ≠ some 0x22 then .error ()
  else
    let s := (data.drop 1).dropLast
    let r := unquoteScan s.length s
    if r = s.length then .ok s else decodeItems unquoteItem s.length (s.drop r) (s.take r)

theorem unquoteItem_unicode {w x y z : UInt8} {unit : ℕ} (ok : codeUnit? w x y z = some unit)
    (s : Bytes) : unquoteItem 0x5c (0x75 :: w :: x :: y :: z :: s) =
      if isSurrogate unit then
        match getu4 s with
        | some rr₁ =>
          if utf16DecodeRune unit rr₁ ≠ runeError then
            .ok (appendRune [] (utf16DecodeRune unit rr₁), s.drop 6)
          else .ok (appendRune [] runeError, s)
        | none => .ok (appendRune [] runeError, s)
      else .ok (appendRune [] unit, s) := by
  have hunit : getu4 (0x5c :: 0x75 :: w :: x :: y :: z :: s) = some unit := ok
  show (match getu4 (0x5c :: 0x75 :: w :: x :: y :: z :: s) with
    | none => _
    | some rr => _) = _
  rw [hunit]
  rfl

theorem getu4_content (ts : List Token) : getu4 (content ts) =
    match ts with
    | .code _ _ _ _ low _ :: _ => some low
    | _ => none := by
  have hother : ∀ s : Bytes, s[0]? ≠ some 0x5c ∨ s[1]? ≠ some 0x75 → getu4 s = none := by
    intro s hs
    unfold getu4
    split
    · rw [if_neg]
      rintro ⟨rfl, rfl⟩
      simp at hs
    · rfl
  cases ts with
  | nil => rfl
  | cons t ts =>
    cases t with
    | plain b ok =>
      apply hother
      simp only [isPlain, Bool.and_eq_true, decide_eq_true_eq] at ok
      exact .inl (by simpa [Token.text] using ok.1.2)
    | short e value ok =>
      apply hother
      exact .inr (by simpa [Token.text] using ne_of_shortEscape? ok)
    | code w x y z low ok => exact ok

theorem unquoteItem_code {w x y z : UInt8} {unit : ℕ} (ok : codeUnit? w x y z = some unit)
    (ts : List Token) : unquoteItem 0x5c (0x75 :: w :: x :: y :: z :: content ts) =
      .ok (Utf8.encode (firstChar (.code w x y z unit ok) ts).1,
        content (firstChar (.code w x y z unit ok) ts).2) := by
  rw [unquoteItem_unicode ok]
  by_cases hs : isSurrogate unit = true
  · have hreplaced : appendRune [] runeError = Utf8.encode (unitChar unit) := by
      rw [unitChar_of_surrogate hs]
      decide
    rw [if_pos hs, getu4_content, hreplaced]
    cases ts with
    | nil => rfl
    | cons t ts =>
      cases t with
      | plain b ok' => rfl
      | short e value ok' => rfl
      | code w' x' y' z' low ok' =>
        by_cases hpair : (isHigh unit && isLow low) = true
        · obtain ⟨hhigh, hlow⟩ := Bool.and_eq_true_iff.1 hpair
          obtain ⟨hne, hchar⟩ := runeChar_pair hhigh hlow
          rw [firstChar_pair ok ok' ts hpair]
          dsimp only
          rw [if_pos hne, ← hchar]
          rfl
        · have hrune := utf16DecodeRune_of_not_pair (Bool.not_eq_true _ ▸ hpair)
          rw [firstChar_not_pair ok ok' ts hpair]
          dsimp only
          rw [if_neg (not_not.2 hrune)]
  · have hhigh : isHigh unit = false := by
      by_contra hhigh
      exact hs (isSurrogate_of_isHigh (Bool.not_eq_false _ ▸ hhigh))
    rw [if_neg hs, firstChar_not_high ok ts hhigh, appendRune,
      runeChar_unit (codeUnit?_lt ok) (Bool.not_eq_true _ ▸ hs)]
    rfl

theorem unquoteItem_plain {b : UInt8} (ok : isPlain b = true) (s : Bytes) :
    unquoteItem b s = (decodeItem b s).mapError fun _ => () := by
  have hplain := ok
  simp only [isPlain, Bool.and_eq_true, decide_eq_true_eq] at hplain
  obtain ⟨⟨hquote, hslash⟩, hcontrol⟩ := hplain
  have hlow := UInt8.not_lt.2 hcontrol
  rw [unquoteItem.eq_def, decodeItem.eq_def, if_neg hslash, if_pos hslash,
    if_neg hquote, if_neg hlow, if_neg (by simp [hquote, hlow])]
  split_ifs <;> rfl

theorem unquoteItem_short {e value : UInt8} (h : shortEscape? e = some value) (s : Bytes) :
    unquoteItem 0x5c (e :: s) = .ok (Utf8.encode (Char.ofNat value.toNat), s) := by
  have hmem := mem_shortEscapes h
  simp only [shortEscapes, List.mem_cons, Prod.mk.injEq, List.not_mem_nil, or_false] at hmem
  rcases hmem with ⟨rfl, rfl⟩ | ⟨rfl, rfl⟩ | ⟨rfl, rfl⟩ | ⟨rfl, rfl⟩ | ⟨rfl, rfl⟩ | ⟨rfl, rfl⟩ |
    ⟨rfl, rfl⟩ | ⟨rfl, rfl⟩ <;> rfl

theorem decodes_unquoteItem : Decodes unquoteItem := by
  intro t ts
  cases t with
  | plain b ok =>
    refine ⟨b, content ts, rfl, ?_⟩
    rw [unquoteItem_plain ok, decodeItem_plain ok]
    rfl
  | short e value ok => exact ⟨0x5c, e :: content ts, rfl, unquoteItem_short ok (content ts)⟩
  | code w x y z unit ok => exact ⟨0x5c, _, rfl, unquoteItem_code ok ts⟩

/-- The first bytes of the content are tokens that stand for themselves. -/
def Copied (ts : List Token) (k : ℕ) : Prop :=
  ∃ ts', ts'.length ≤ ts.length ∧ content ts = (content ts).take k ++ content ts' ∧
    decoded ts = (content ts).take k ++ decoded ts'

theorem copied_zero (ts : List Token) : Copied ts 0 := ⟨ts, le_rfl, rfl, rfl⟩

theorem Copied.cons {t : Token} {ts : List Token} {k : ℕ} (h : Copied (firstChar t ts).2 k)
    (split : content (t :: ts) = Utf8.encode (firstChar t ts).1 ++ content (firstChar t ts).2) :
    Copied (t :: ts) ((firstChar t ts).1.utf8Size + k) := by
  obtain ⟨ts', hlength, hcontent, hdecoded⟩ := h
  have htake : (content (t :: ts)).take ((firstChar t ts).1.utf8Size + k) =
      Utf8.encode (firstChar t ts).1 ++ (content (firstChar t ts).2).take k := by
    rw [split, ← Utf8.length_encode, List.take_length_add_append]
  refine ⟨ts', ?_, ?_, ?_⟩
  · rw [List.length_cons]
    exact (hlength.trans (length_firstChar_le t ts)).trans (Nat.le_succ _)
  · rw [htake, List.append_assoc, ← hcontent, split]
  · rw [htake, List.append_assoc, ← hdecoded, decoded_cons]

theorem utf8Size_ofNat {b : UInt8} (h : b < 128) : (Char.ofNat b.toNat).utf8Size = 1 := by
  rw [← Utf8.length_encode, Utf8.encode_ofNat h]
  rfl

/-- The bytes that `unquoteBytes` copies stand for themselves. -/
theorem copied_unquoteScan {turns : ℕ} {ts : List Token} (enough : ts.length ≤ turns) :
    Copied ts (unquoteScan turns (content ts)) := by
  induction turns generalizing ts with
  | zero =>
    rw [List.length_eq_zero_iff.1 (Nat.le_zero.1 enough)]
    exact copied_zero []
  | succ turns ih =>
    rcases ts with _ | ⟨t, ts⟩
    · exact copied_zero []
    have hrest : (firstChar t ts).2.length ≤ turns :=
      (length_firstChar_le t ts).trans (Nat.le_of_succ_le_succ enough)
    cases t with
    | short e value ok => exact copied_zero _
    | code w x y z unit ok => exact copied_zero _
    | plain b ok =>
      have hplain := ok
      simp only [isPlain, Bool.and_eq_true, decide_eq_true_eq] at hplain
      obtain ⟨⟨hquote, hslash⟩, hcontrol⟩ := hplain
      have hcontent : content (.plain b ok :: ts) = b :: content ts := rfl
      rw [hcontent, unquoteScan, if_neg (by simp [hquote, hslash, hcontrol])]
      by_cases hlt : b < 128
      · have hfirst := firstChar_of_lt ok hlt ts
        have hcopied := (ih hrest).cons (by rw [hfirst, Utf8.encode_ofNat hlt]; rfl)
        rw [hfirst, utf8Size_ofNat hlt, Nat.add_comm] at hcopied
        rw [if_pos hlt]
        exact hcopied
      rw [if_neg hlt]
      cases hdecode : Utf8.decodeChar? (b :: content ts) with
      | none =>
        rw [decodeRune_of_none (List.cons_ne_nil b _) hdecode, if_pos ⟨rfl, rfl⟩]
        exact copied_zero _
      | some c =>
        have hsplit : b :: content ts = Utf8.encode c ++ content (ts.drop (c.utf8Size - 1)) :=
          content_drop_of_decode (UInt8.not_lt.1 hlt) (hcontent ▸ hdecode)
        have hfirst : firstChar (.plain b ok) ts = (c, ts.drop (c.utf8Size - 1)) := by
          simp only [firstChar, hcontent, hdecode]
        have hcopied := (ih hrest).cons (by rw [hfirst]; exact hsplit)
        have hwhole : ¬ (c.toNat = runeError ∧ c.utf8Size = 1) := by
          rintro ⟨hrune, hsize⟩
          rw [Char.utf8Size_eq_one_iff, UInt32.le_iff_toNat_le] at hsize
          exact absurd (hrune ▸ hsize : runeError ≤ 127) (by decide)
        have hdrop : (b :: content ts).drop c.utf8Size = content (ts.drop (c.utf8Size - 1)) := by
          rw [hsplit, ← Utf8.length_encode, List.drop_left]
        rw [hfirst, Nat.add_comm] at hcopied
        rw [decodeRune_of_decode hdecode, if_neg hwhole, hdrop]
        exact hcopied

theorem unquoteBytes_literal (ts : List Token) : unquoteBytes (literal ts) = .ok (decoded ts) := by
  have henough := length_le_length_content ts
  obtain ⟨ts', hlength, hcontent, hdecoded⟩ := copied_unquoteScan henough
  rw [literal, unquoteBytes, if_neg (quoted_iff.2 ⟨content ts, rfl⟩), literal_between]
  dsimp only
  set r := unquoteScan (content ts).length (content ts)
  have hdrop : (content ts).drop r = content ts' :=
    List.append_cancel_left ((List.take_append_drop r (content ts)).trans hcontent)
  by_cases hall : r = (content ts).length
  · have hnil : ts' = [] := by
      rw [hall, List.drop_length] at hdrop
      have := length_le_length_content ts'
      rw [← hdrop] at this
      exact List.length_eq_zero_iff.1 (Nat.le_zero.1 this)
    rw [hnil, hall, List.take_length, decoded_nil, List.append_nil] at hdecoded
    rw [if_pos hall, hdecoded]
  · rw [if_neg hall, hdrop, decodeItems_content decodes_unquoteItem (hlength.trans henough),
      hdecoded]

/-- The decoder accepts exactly the string literals and gives what they stand for, which is what
`encoding/json` makes of them. -/
theorem decodeJSONStringBytes_exact :
    (∀ data, (∃ out, decodeJSONStringBytes data = .ok out) ↔ ∃ ts, data = literal ts) ∧
    ∀ ts, decodeJSONStringBytes (literal ts) = .ok (decoded ts) ∧
      unquoteBytes (literal ts) = .ok (decoded ts) := by
  refine ⟨fun data => ⟨?_, ?_⟩, fun ts =>
    ⟨decodeJSONStringBytes_literal ts, unquoteBytes_literal ts⟩⟩
  · rintro ⟨out, h⟩
    obtain ⟨ts, hts, -⟩ := literal_of_decodeJSONStringBytes h
    exact ⟨ts, hts⟩
  · rintro ⟨ts, rfl⟩
    exact ⟨_, decodeJSONStringBytes_literal ts⟩

end PasswordHook
