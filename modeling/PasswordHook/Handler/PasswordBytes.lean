import PasswordHook.Go.Errors
import PasswordHook.Go.Runes
import PasswordHook.Lib.JsonString

/-!
# The password of a hook request

`passwordBytes` decodes a JSON string into bytes by hand.  It gives the bytes that a literal stands
for (`decodeJSONStringBytes_literal`), and what it accepts is a literal
(`literal_of_decodeJSONStringBytes`).
-/

namespace PasswordHook

open JsonString

/-! ## The decoder -/

/-- The loop over the bytes between the quotes; `item` decodes at a byte, given the bytes after it,
and says what bytes are left.  There are at most as many turns as bytes. -/
def decodeItems {ε : Type} (item : UInt8 → Bytes → Except ε (Bytes × Bytes)) :
    ℕ → Bytes → Bytes → Except ε Bytes
  | _, [], out => .ok out
  | 0, _ :: _, out => .ok out
  | turns + 1, b :: s, out =>
    match item b s with
    | .error err => .error err
    | .ok (piece, s) => decodeItems item turns s (out ++ piece)

/-- The value of a digit in `hex4`. -/
def hex4Digit (b : UInt8) : Except Err ℕ :=
  if 0x30 ≤ b ∧ b ≤ 0x39 then .ok (b.toNat - 0x30)
  else if 0x61 ≤ b ∧ b ≤ 0x66 then .ok (b.toNat - 0x61 + 10)
  else if 0x41 ≤ b ∧ b ≤ 0x46 then .ok (b.toNat - 0x41 + 10)
  else .error (.new ("password contains invalid unicode escape byte " ++ quoteByte b))

def hex4 (data : Bytes) : Except Err ℕ :=
  data.foldlM (fun r b => (hex4Digit b).map (r <<< 4 + ·)) 0

/-- The rune of a `\u` escape, and how many of the bytes after `\u` it takes. -/
def decodeUnicodeEscape (data : Bytes) : Except Err (ℕ × ℕ) :=
  if data.length < 4 then .error (.new "password contains short unicode escape")
  else
    match hex4 (data.take 4) with
    | .error err => .error err
    | .ok r =>
      if !isSurrogate r then .ok (r, 4)
      else if r < 0xD800 ∨ 0xDBFF < r then .ok (runeError, 4)
      else if data.length < 10 ∨ data[4]? ≠ some 0x5c ∨ data[5]? ≠ some 0x75 then
        .ok (runeError, 4)
      else
        match hex4 ((data.drop 6).take 4) with
        | .error _ => .ok (runeError, 4)
        | .ok low =>
          if utf16DecodeRune r low = runeError then .ok (runeError, 4)
          else .ok (utf16DecodeRune r low, 10)

/-- One turn of the loop. -/
def decodeItem (b : UInt8) (s : Bytes) : Except Err (Bytes × Bytes) :=
  if b ≠ 0x5c then
    if b = 0x22 then .error (.new "password contains invalid unescaped json string terminator")
    else if b < 0x20 then .error (.new "password contains invalid json string control character")
    else if b < 0x80 then .ok ([b], s)
    else
      let r := decodeRune (b :: s)
      .ok (appendRune [] r.1, (b :: s).drop r.2)
  else
    match s with
    | [] => .error (.new "password contains invalid json escape")
    | e :: s =>
      if e = 0x22 ∨ e = 0x5c ∨ e = 0x2f then .ok ([e], s)
      else if e = 0x62 then .ok ([0x08], s)
      else if e = 0x66 then .ok ([0x0c], s)
      else if e = 0x6e then .ok ([0x0a], s)
      else if e = 0x72 then .ok ([0x0d], s)
      else if e = 0x74 then .ok ([0x09], s)
      else if e = 0x75 then
        match decodeUnicodeEscape s with
        | .error err => .error err
        | .ok (r, consumed) => .ok (appendRune [] r, s.drop consumed)
      else .error (.new ("password contains invalid json escape " ++ quoteByte e))

def decodeJSONStringBytes (data : Bytes) : Except Err Bytes :=
  if data.length < 2 ∨ data.head? ≠ some 0x22 ∨ data.getLast? ≠ some 0x22 then
    .error (.new "password must be a json string")
  else decodeItems decodeItem (data.length - 2) ((data.drop 1).dropLast) []

/-- `passwordBytes.UnmarshalJSON`, by the bytes it leaves. -/
def unmarshalPassword (data : Bytes) : Except Err Bytes :=
  if data = bytesOf "null" then .ok [] else decodeJSONStringBytes data

/-! ## The decoder on a literal -/

theorem hex4Digit_toOption (b : UInt8) : (hex4Digit b).toOption = hexValue? b := by
  unfold hex4Digit hexValue?
  split_ifs <;> rfl

theorem hex4_eq_ok_iff {w x y z : UInt8} {unit : ℕ} :
    hex4 [w, x, y, z] = .ok unit ↔ codeUnit? w x y z = some unit := by
  have hoption : (hex4 [w, x, y, z]).toOption = codeUnit? w x y z := by
    simp only [codeUnit?, ← hex4Digit_toOption, hex4, List.foldlM_cons, List.foldlM_nil]
    cases hex4Digit w with
    | error err => rfl
    | ok a =>
      cases hex4Digit x with
      | error err => rfl
      | ok b =>
        cases hex4Digit y with
        | error err => rfl
        | ok c =>
          cases hex4Digit z with
          | error err => rfl
          | ok d =>
            simp [Except.map, Except.toOption, Nat.shiftLeft_eq, bind, Except.bind,
              pure, Except.pure]
  rw [← hoption]
  cases hex4 [w, x, y, z] <;> simp [Except.toOption]

/-- What the decoder does with a two-character escape. -/
theorem decodeItem_short {e value : UInt8} (h : shortEscape? e = some value) (s : Bytes) :
    decodeItem 0x5c (e :: s) = .ok (Utf8.encode (Char.ofNat value.toNat), s) := by
  have hmem := mem_shortEscapes h
  simp only [shortEscapes, List.mem_cons, Prod.mk.injEq, List.not_mem_nil, or_false] at hmem
  rcases hmem with ⟨rfl, rfl⟩ | ⟨rfl, rfl⟩ | ⟨rfl, rfl⟩ | ⟨rfl, rfl⟩ | ⟨rfl, rfl⟩ | ⟨rfl, rfl⟩ |
    ⟨rfl, rfl⟩ | ⟨rfl, rfl⟩ <;> rfl

theorem hexValue?_lt {b : UInt8} {n : ℕ} (h : hexValue? b = some n) : n < 16 := by
  unfold hexValue? at h
  simp only [UInt8.le_iff_toNat_le] at h
  split_ifs at h with h₁ h₂ h₃ <;> rw [Option.some_inj] at h
  · have : b.toNat ≤ 0x39 := h₁.2
    omega
  · have : b.toNat ≤ 0x66 := h₂.2
    omega
  · have : b.toNat ≤ 0x46 := h₃.2
    omega

theorem codeUnit?_lt {w x y z : UInt8} {unit : ℕ} (h : codeUnit? w x y z = some unit) :
    unit < 0x10000 := by
  simp only [codeUnit?, Option.bind_eq_bind, Option.bind_eq_some_iff, Option.pure_def,
    Option.some_inj] at h
  obtain ⟨a, ha, b, hb, c, hc, d, hd, rfl⟩ := h
  have := hexValue?_lt ha
  have := hexValue?_lt hb
  have := hexValue?_lt hc
  have := hexValue?_lt hd
  omega

/-- A `\u` escape by its code unit and what follows it. -/
theorem decodeUnicodeEscape_eq {w x y z : UInt8} {unit : ℕ} (ok : codeUnit? w x y z = some unit)
    (s : Bytes) : decodeUnicodeEscape (w :: x :: y :: z :: s) =
      if !isSurrogate unit then .ok (unit, 4)
      else if unit < 0xD800 ∨ 0xDBFF < unit then .ok (runeError, 4)
      else if s.length < 6 ∨ s[0]? ≠ some 0x5c ∨ s[1]? ≠ some 0x75 then .ok (runeError, 4)
      else
        match hex4 ((s.drop 2).take 4) with
        | .error _ => .ok (runeError, 4)
        | .ok low =>
          if utf16DecodeRune unit low = runeError then .ok (runeError, 4)
          else .ok (utf16DecodeRune unit low, 10) := by
  have hhex : hex4 ((w :: x :: y :: z :: s).take 4) = .ok unit := hex4_eq_ok_iff.2 ok
  have hlength : ¬ (w :: x :: y :: z :: s).length < 4 := by simp
  have hpeek : (w :: x :: y :: z :: s).length < 10 ↔ s.length < 6 := by
    simp only [List.length_cons]
    omega
  rw [decodeUnicodeEscape, if_neg hlength, hhex]
  simp only [hpeek]
  rfl

/-- The rune that is written for a code unit on its own. -/
theorem runeChar_unit {unit : ℕ} (h : unit < 0x10000) (plain : isSurrogate unit = false) :
    runeChar unit = unitChar unit := by
  simp only [isSurrogate, Bool.and_eq_false_iff, decide_eq_false_iff_not] at plain
  have hvalid : validRune unit = true := by
    simp only [validRune, Bool.or_eq_true, decide_eq_true_eq, Bool.and_eq_true]
    omega
  have hsurrogate : (isHigh unit || isLow unit) = false := by
    simp only [isHigh, isLow, Bool.or_eq_false_iff, Bool.and_eq_false_iff, decide_eq_false_iff_not]
    omega
  rw [runeChar, if_pos hvalid, unitChar, hsurrogate]
  rfl

theorem unitChar_of_surrogate {unit : ℕ} (h : isSurrogate unit = true) :
    unitChar unit = replacement := by
  simp only [isSurrogate, Bool.and_eq_true, decide_eq_true_eq] at h
  rw [unitChar, if_pos]
  simp only [isHigh, isLow, Bool.or_eq_true, Bool.and_eq_true, decide_eq_true_eq]
  omega

theorem isSurrogate_of_isHigh {unit : ℕ} (h : isHigh unit = true) : isSurrogate unit = true := by
  simp only [isHigh, Bool.and_eq_true, decide_eq_true_eq] at h
  simp only [isSurrogate, Bool.and_eq_true, decide_eq_true_eq]
  omega

/-- The rune of a pair is a character, and not the replacement character. -/
theorem runeChar_pair {high low : ℕ} (hhigh : isHigh high = true) (hlow : isLow low = true) :
    utf16DecodeRune high low ≠ runeError ∧
      runeChar (utf16DecodeRune high low) = pairChar high low := by
  simp only [isHigh, isLow, Bool.and_eq_true, decide_eq_true_eq] at hhigh hlow
  have hrune := utf16DecodeRune_pair hhigh.1 hhigh.2 hlow.1 hlow.2
  have hvalid : validRune (utf16DecodeRune high low) = true := by
    simp only [validRune, Bool.or_eq_true, decide_eq_true_eq, Bool.and_eq_true, hrune]
    omega
  constructor
  · rw [hrune, runeError]
    omega
  · rw [runeChar, if_pos hvalid, hrune, pairChar]

theorem utf16DecodeRune_of_not_pair {unit low : ℕ} (h : (isHigh unit && isLow low) = false) :
    utf16DecodeRune unit low = runeError := by
  simp only [isHigh, isLow, Bool.and_eq_false_iff, decide_eq_false_iff_not] at h
  rw [utf16DecodeRune, if_neg (by omega)]

theorem decodeItem_unicode {s : Bytes} {r consumed : ℕ}
    (h : decodeUnicodeEscape s = .ok (r, consumed)) :
    decodeItem 0x5c (0x75 :: s) = .ok (Utf8.encode (runeChar r), s.drop consumed) := by
  have hitem : decodeItem 0x5c (0x75 :: s) =
      match decodeUnicodeEscape s with
      | .error err => .error err
      | .ok (r, consumed) => .ok (appendRune [] r, s.drop consumed) := rfl
  rw [hitem, h]
  rfl

theorem decodeItem_unicode_error {s : Bytes} {err : Err} (h : decodeUnicodeEscape s = .error err) :
    decodeItem 0x5c (0x75 :: s) = .error err := by
  have hitem : decodeItem 0x5c (0x75 :: s) =
      match decodeUnicodeEscape s with
      | .error err => .error err
      | .ok (r, consumed) => .ok (appendRune [] r, s.drop consumed) := rfl
  rw [hitem, h]

/-- The two halves of a pair are one character. -/
theorem decodeUnicodeEscape_pair {w x y z w' x' y' z' : UInt8} {high low : ℕ}
    (ok : codeUnit? w x y z = some high) (ok' : codeUnit? w' x' y' z' = some low)
    (hhigh : isHigh high = true) (hlow : isLow low = true) (s : Bytes) :
    ∃ r, decodeUnicodeEscape (w :: x :: y :: z :: 0x5c :: 0x75 :: w' :: x' :: y' :: z' :: s) =
      .ok (r, 10) ∧ runeChar r = pairChar high low := by
  obtain ⟨hne, hchar⟩ := runeChar_pair hhigh hlow
  have hhex : hex4 [w', x', y', z'] = .ok low := hex4_eq_ok_iff.2 ok'
  have hrange : ¬ (high < 0xD800 ∨ 0xDBFF < high) := by
    simp only [isHigh, Bool.and_eq_true, decide_eq_true_eq] at hhigh
    omega
  refine ⟨utf16DecodeRune high low, ?_, hchar⟩
  rw [decodeUnicodeEscape_eq ok, isSurrogate_of_isHigh hhigh, if_neg (by simp), if_neg hrange,
    if_neg (by simp)]
  simp [hhex, hne]

/-- A code unit that is no half of a pair is a character on its own. -/
theorem decodeUnicodeEscape_single {w x y z : UInt8} {unit : ℕ} (ok : codeUnit? w x y z = some unit)
    {s : Bytes} (single : isHigh unit = true → s.length < 6 ∨ s[0]? ≠ some 0x5c ∨
      s[1]? ≠ some 0x75 ∨ ∃ low, hex4 ((s.drop 2).take 4) = .ok low ∧ isLow low = false) :
    ∃ r, decodeUnicodeEscape (w :: x :: y :: z :: s) = .ok (r, 4) ∧ runeChar r = unitChar unit := by
  rw [decodeUnicodeEscape_eq ok]
  by_cases plain : isSurrogate unit = false
  · rw [plain]
    exact ⟨unit, rfl, runeChar_unit (codeUnit?_lt ok) plain⟩
  -- a surrogate is replaced, whichever way the decoder comes to it
  rw [Bool.not_eq_false] at plain
  have hsurrogate : 0xD800 ≤ unit ∧ unit < 0xE000 := by simpa [isSurrogate] using plain
  refine ⟨runeError, ?_, (unitChar_of_surrogate plain).symm ▸ rfl⟩
  rw [plain, if_neg (by simp)]
  by_cases hlow : 0xDBFF < unit
  · rw [if_pos (.inr hlow)]
  rw [if_neg (by omega)]
  have hhigh : isHigh unit = true := by
    simp only [isHigh, Bool.and_eq_true, decide_eq_true_eq]
    omega
  rcases single hhigh with h | h | h | ⟨low, hhex, hlow⟩
  · rw [if_pos (.inl h)]
  · rw [if_pos (.inr (.inl h))]
  · rw [if_pos (.inr (.inr h))]
  · have hrune : utf16DecodeRune unit low = runeError :=
      utf16DecodeRune_of_not_pair (by rw [hlow, Bool.and_false])
    rw [hhex]
    simp only [hrune, if_true, ite_self]

/-- What the decoder does with a `\u` escape. -/
theorem decodeItem_code {w x y z : UInt8} {unit : ℕ} (ok : codeUnit? w x y z = some unit)
    (ts : List Token) : decodeItem 0x5c (0x75 :: w :: x :: y :: z :: content ts) =
      .ok (Utf8.encode (firstChar (.code w x y z unit ok) ts).1,
        content (firstChar (.code w x y z unit ok) ts).2) := by
  have hsingle : (isHigh unit = true → (content ts).length < 6 ∨ (content ts)[0]? ≠ some 0x5c ∨
      (content ts)[1]? ≠ some 0x75 ∨
        ∃ low, hex4 (((content ts).drop 2).take 4) = .ok low ∧ isLow low = false) →
      decodeItem 0x5c (0x75 :: w :: x :: y :: z :: content ts) =
        .ok (Utf8.encode (unitChar unit), content ts) := by
    intro single
    obtain ⟨r, hdecode, hr⟩ := decodeUnicodeEscape_single ok single
    rw [decodeItem_unicode hdecode, hr]
    rfl
  cases ts with
  | nil => exact hsingle fun _ => .inl (by decide)
  | cons t ts =>
    cases t with
    | plain b ok' =>
      refine hsingle fun _ => .inr (.inl ?_)
      simp only [isPlain, Bool.and_eq_true, decide_eq_true_eq] at ok'
      simpa [Token.text] using ok'.1.2
    | short e value ok' =>
      refine hsingle fun _ => .inr (.inr (.inl ?_))
      simpa [Token.text] using ne_of_shortEscape? ok'
    | code w' x' y' z' low ok' =>
      by_cases hpair : isHigh unit && isLow low
      · obtain ⟨hhigh, hlow⟩ := Bool.and_eq_true_iff.1 hpair
        obtain ⟨r, hdecode, hr⟩ := decodeUnicodeEscape_pair ok ok' hhigh hlow (content ts)
        rw [firstChar_pair ok ok' ts hpair, ← hr]
        exact decodeItem_unicode hdecode
      · rw [firstChar_not_pair ok ok' ts hpair]
        refine hsingle fun hhigh => .inr (.inr (.inr ⟨low, hex4_eq_ok_iff.2 ok', ?_⟩))
        rw [hhigh, Bool.true_and, Bool.not_eq_true] at hpair
        exact hpair

/-- What the decoder does with a plain byte. -/
theorem decodeItem_plain {b : UInt8} (ok : isPlain b = true) (ts : List Token) :
    decodeItem b (content ts) =
      .ok (Utf8.encode (firstChar (.plain b ok) ts).1, content (firstChar (.plain b ok) ts).2) := by
  have hplain := ok
  simp only [isPlain, Bool.and_eq_true, decide_eq_true_eq] at hplain
  obtain ⟨⟨hquote, hslash⟩, hcontrol⟩ := hplain
  rw [decodeItem.eq_def, if_pos hslash, if_neg hquote, if_neg (UInt8.not_lt.2 hcontrol)]
  by_cases hlt : b < 128
  · rw [if_pos hlt, firstChar_of_lt ok hlt, Utf8.encode_ofNat hlt]
  rw [if_neg hlt]
  have hcontent : content (.plain b ok :: ts) = b :: content ts := rfl
  cases hdecode : Utf8.decodeChar? (b :: content ts) with
  | some c =>
    have hsplit : b :: content ts = Utf8.encode c ++ content (ts.drop (c.utf8Size - 1)) :=
      content_drop_of_decode (UInt8.not_lt.1 hlt) (hcontent ▸ hdecode)
    simp only [decodeRune_of_decode hdecode, firstChar, hcontent, hdecode, appendRune,
      List.nil_append, runeChar_toNat]
    rw [hsplit, ← Utf8.length_encode, List.drop_left]
  | none =>
    simp only [decodeRune_of_none (List.cons_ne_nil b _) hdecode, firstChar, hcontent, hdecode,
      appendRune, List.nil_append, List.drop_succ_cons, List.drop_zero]
    rfl

/-- One turn takes the first character of the tokens that are left. -/
def Decodes {ε : Type} (item : UInt8 → Bytes → Except ε (Bytes × Bytes)) : Prop :=
  ∀ t ts, ∃ b s, content (t :: ts) = b :: s ∧
    item b s = .ok (Utf8.encode (firstChar t ts).1, content (firstChar t ts).2)

theorem decodes_decodeItem : Decodes decodeItem := by
  intro t ts
  cases t with
  | plain b ok => exact ⟨b, content ts, rfl, decodeItem_plain ok ts⟩
  | short e value ok => exact ⟨0x5c, e :: content ts, rfl, decodeItem_short ok (content ts)⟩
  | code w x y z unit ok => exact ⟨0x5c, _, rfl, decodeItem_code ok ts⟩

/-- The loop gives what the tokens stand for. -/
theorem decodeItems_content {ε : Type} {item : UInt8 → Bytes → Except ε (Bytes × Bytes)}
    (h : Decodes item) {turns : ℕ} {ts : List Token} (enough : ts.length ≤ turns) (out : Bytes) :
    decodeItems item turns (content ts) out = .ok (out ++ decoded ts) := by
  induction turns generalizing ts out with
  | zero =>
    rw [List.length_eq_zero_iff.1 (Nat.le_zero.1 enough), decoded_nil, List.append_nil]
    rfl
  | succ turns ih =>
    cases ts with
    | nil =>
      rw [decoded_nil, List.append_nil]
      rfl
    | cons t ts =>
      obtain ⟨b, s, hcontent, hitem⟩ := h t ts
      have hrest : (firstChar t ts).2.length ≤ turns :=
        (length_firstChar_le t ts).trans (Nat.le_of_succ_le_succ enough)
      rw [hcontent, decodeItems, hitem]
      simp only [ih hrest, decoded_cons, List.append_assoc]

/-! ## What the decoder accepts -/

theorem code_of_hex4 {w x y z : UInt8} {unit : ℕ} (h : hex4 [w, x, y, z] = .ok unit) :
    ∃ t : Token, t.text = [0x5c, 0x75, w, x, y, z] :=
  ⟨.code w x y z unit (hex4_eq_ok_iff.1 h), rfl⟩

/-- An accepted `\u` escape is one token or two. -/
theorem tokens_of_decodeUnicodeEscape {s : Bytes} {r consumed : ℕ}
    (h : decodeUnicodeEscape s = .ok (r, consumed)) :
    ∃ ts, ts ≠ [] ∧ 0x5c :: 0x75 :: s = content ts ++ s.drop consumed := by
  rcases s with _ | ⟨w, _ | ⟨x, _ | ⟨y, _ | ⟨z, s⟩⟩⟩⟩
  · exact absurd h (by simp [decodeUnicodeEscape])
  · exact absurd h (by simp [decodeUnicodeEscape])
  · exact absurd h (by simp [decodeUnicodeEscape])
  · exact absurd h (by simp [decodeUnicodeEscape])
  cases hhex : hex4 [w, x, y, z] with
  | error err =>
    have hlength : ¬ (w :: x :: y :: z :: s).length < 4 := by simp
    rw [decodeUnicodeEscape, if_neg hlength] at h
    simp only [List.take_succ_cons, List.take_zero, hhex] at h
    exact absurd h (by simp)
  | ok unit =>
    obtain ⟨t, ht⟩ := code_of_hex4 hhex
    have hone : ∃ ts : List Token, ts ≠ [] ∧
        0x5c :: 0x75 :: w :: x :: y :: z :: s = content ts ++ (w :: x :: y :: z :: s).drop 4 := by
      refine ⟨[t], List.cons_ne_nil _ _, ?_⟩
      simp [ht]
    rw [decodeUnicodeEscape_eq (hex4_eq_ok_iff.1 hhex)] at h
    split_ifs at h with h₁ h₂ h₃
    · obtain ⟨-, rfl⟩ := Prod.mk.inj (Except.ok.inj h)
      exact hone
    · obtain ⟨-, rfl⟩ := Prod.mk.inj (Except.ok.inj h)
      exact hone
    · obtain ⟨-, rfl⟩ := Prod.mk.inj (Except.ok.inj h)
      exact hone
    · simp only [not_or, not_lt, not_not] at h₃
      rcases s with _ | ⟨a, _ | ⟨b, _ | ⟨w', _ | ⟨x', _ | ⟨y', _ | ⟨z', s⟩⟩⟩⟩⟩⟩
      case cons.cons.cons.cons.cons.cons =>
        obtain ⟨-, ha, hb⟩ := h₃
        rw [List.getElem?_cons_zero, Option.some_inj] at ha
        rw [List.getElem?_cons_succ, List.getElem?_cons_zero, Option.some_inj] at hb
        subst ha hb
        have hpeek : ((0x5c :: 0x75 :: w' :: x' :: y' :: z' :: s : Bytes).drop 2).take 4 =
          [w', x', y', z'] := rfl
        rw [hpeek] at h
        cases hhex' : hex4 [w', x', y', z'] with
        | error err =>
          rw [hhex'] at h
          obtain ⟨-, rfl⟩ := Prod.mk.inj (Except.ok.inj h)
          exact hone
        | ok low =>
          obtain ⟨t', ht'⟩ := code_of_hex4 hhex'
          rw [hhex'] at h
          dsimp only at h
          split_ifs at h
          · obtain ⟨-, rfl⟩ := Prod.mk.inj (Except.ok.inj h)
            exact hone
          · obtain ⟨-, rfl⟩ := Prod.mk.inj (Except.ok.inj h)
            refine ⟨[t, t'], List.cons_ne_nil _ _, ?_⟩
            simp [ht, ht']
      all_goals exact absurd h₃.1 (by simp)

theorem decodeItem_of_not_escape {e : UInt8} (hshort : shortEscape? e = none) (hu : e ≠ 0x75)
    (s : Bytes) : decodeItem 0x5c (e :: s) =
      .error (.new ("password contains invalid json escape " ++ quoteByte e)) := by
  rw [shortEscape?, List.lookup_eq_none_iff] at hshort
  have hne : ∀ k v, (k, v) ∈ shortEscapes → e ≠ k := fun k v hk => by simpa using hshort (k, v) hk
  simp only [shortEscapes] at hne
  simp only [decodeItem, ne_eq, not_true_eq_false, if_false, hne 0x22 0x22 (by decide),
    hne 0x5c 0x5c (by decide), hne 0x2f 0x2f (by decide), hne 0x62 0x08 (by decide),
    hne 0x66 0x0c (by decide), hne 0x6e 0x0a (by decide), hne 0x72 0x0d (by decide),
    hne 0x74 0x09 (by decide), hu, or_self]

theorem tokens_of_decodeItem_escape {s piece s' : Bytes} (h : decodeItem 0x5c s = .ok (piece, s')) :
    ∃ ts, ts ≠ [] ∧ 0x5c :: s = content ts ++ s' := by
  cases s with
  | nil => exact absurd h (by simp [decodeItem])
  | cons e s =>
    by_cases hu : e = 0x75
    · subst hu
      cases hdecode : decodeUnicodeEscape s with
      | error err =>
        rw [decodeItem_unicode_error hdecode] at h
        exact absurd h (by simp)
      | ok p =>
        rw [decodeItem_unicode hdecode] at h
        obtain ⟨-, rfl⟩ := Prod.mk.inj (Except.ok.inj h)
        exact tokens_of_decodeUnicodeEscape hdecode
    · cases hshort : shortEscape? e with
      | none =>
        rw [decodeItem_of_not_escape hshort hu] at h
        exact absurd h (by simp)
      | some value =>
        rw [decodeItem_short hshort] at h
        obtain ⟨-, rfl⟩ := Prod.mk.inj (Except.ok.inj h)
        exact ⟨[.short e value hshort], List.cons_ne_nil _ _, rfl⟩

theorem tokens_of_decodeItem_byte {b : UInt8} (hslash : b ≠ 0x5c) {s piece s' : Bytes}
    (h : decodeItem b s = .ok (piece, s')) : ∃ ts, ts ≠ [] ∧ b :: s = content ts ++ s' := by
  rw [decodeItem.eq_def, if_pos hslash] at h
  split_ifs at h with hquote hcontrol hlt
  · have hplain : isPlain b = true := by
      simp [isPlain, hquote, hslash, UInt8.not_lt.1 hcontrol]
    obtain ⟨-, rfl⟩ := Prod.mk.inj (Except.ok.inj h)
    exact ⟨[.plain b hplain], List.cons_ne_nil _ _, rfl⟩
  have hhigh : 128 ≤ b := UInt8.not_lt.1 hlt
  obtain ⟨-, rfl⟩ := Prod.mk.inj (Except.ok.inj h)
  cases hdecode : Utf8.decodeChar? (b :: s) with
  | some c =>
    obtain ⟨rest, hrest⟩ := Utf8.decodeChar?_eq_some_iff.1 hdecode
    obtain ⟨ts, hts, -⟩ := exists_content_of_le fun b' hb' =>
      Utf8.le_of_mem_encode_of_decode hhigh hdecode hb'
    refine ⟨ts, ?_, ?_⟩
    · rintro rfl
      exact String.utf8EncodeChar_ne_nil hts.symm
    · rw [decodeRune_of_decode hdecode, hrest, ← Utf8.length_encode, List.drop_left, hts]
  | none =>
    rw [decodeRune_of_none (List.cons_ne_nil b s) hdecode]
    exact ⟨[.plain b (isPlain_of_le hhigh)], List.cons_ne_nil _ _, rfl⟩

/-- What is accepted in one turn is a sequence of tokens. -/
theorem tokens_of_decodeItem {b : UInt8} {s piece s' : Bytes}
    (h : decodeItem b s = .ok (piece, s')) : ∃ ts, ts ≠ [] ∧ b :: s = content ts ++ s' := by
  by_cases hslash : b = 0x5c
  · subst hslash
    exact tokens_of_decodeItem_escape h
  · exact tokens_of_decodeItem_byte hslash h

/-- A loop that comes to its end has read tokens only. -/
theorem content_of_decodeItems {turns : ℕ} {s out result : Bytes} (enough : s.length ≤ turns)
    (h : decodeItems decodeItem turns s out = .ok result) : ∃ ts, s = content ts := by
  induction turns generalizing s out with
  | zero => exact ⟨[], List.length_eq_zero_iff.1 (Nat.le_zero.1 enough)⟩
  | succ turns ih =>
    cases s with
    | nil => exact ⟨[], rfl⟩
    | cons b s =>
      rw [decodeItems] at h
      cases hitem : decodeItem b s with
      | error err =>
        rw [hitem] at h
        exact absurd h (by simp)
      | ok p =>
        obtain ⟨piece, s'⟩ := p
        rw [hitem] at h
        obtain ⟨ts, hne, hts⟩ := tokens_of_decodeItem hitem
        have hshorter : s'.length ≤ turns := by
          have hlength := congrArg List.length hts
          have := length_le_length_content ts
          have := List.length_pos_iff.2 hne
          rw [List.length_append, List.length_cons] at hlength
          rw [List.length_cons] at enough
          omega
        obtain ⟨ts', rfl⟩ := ih hshorter h
        exact ⟨ts ++ ts', by rw [hts, content_append]⟩

/-! ## Literals -/

theorem literal_between (s : Bytes) : ((0x22 :: (s ++ [0x22])).drop 1).dropLast = s := by
  rw [List.drop_succ_cons, List.drop_zero, List.dropLast_concat]

/-- What begins and ends with a quote, and is not a single quote. -/
theorem quoted_iff {data : Bytes} :
    ¬ (data.length < 2 ∨ data.head? ≠ some 0x22 ∨ data.getLast? ≠ some 0x22) ↔
      ∃ s, data = 0x22 :: (s ++ [0x22]) := by
  constructor
  · intro h
    simp only [not_or, not_lt, not_not] at h
    obtain ⟨hlength, hhead, hlast⟩ := h
    rcases data with _ | ⟨b, data⟩
    · exact absurd hhead (by simp)
    rw [List.head?_cons, Option.some_inj] at hhead
    have hne : data ≠ [] := by
      rintro rfl
      exact absurd hlength (by simp)
    rw [List.getLast?_cons_of_ne_nil hne, List.getLast?_eq_some_getLast hne,
      Option.some_inj] at hlast
    refine ⟨data.dropLast, ?_⟩
    rw [hhead, ← hlast, List.dropLast_append_getLast]
  · rintro ⟨s, rfl⟩
    simp [List.getLast?_cons]

theorem decodeJSONStringBytes_literal (ts : List Token) :
    decodeJSONStringBytes (literal ts) = .ok (decoded ts) := by
  have henough : ts.length ≤ (0x22 :: (content ts ++ [0x22])).length - 2 := by
    have := length_le_length_content ts
    simpa using this
  rw [literal, decodeJSONStringBytes, if_neg (quoted_iff.2 ⟨content ts, rfl⟩), literal_between,
    decodeItems_content decodes_decodeItem henough, List.nil_append]

/-- What is accepted is a literal. -/
theorem literal_of_decodeJSONStringBytes {data out : Bytes}
    (h : decodeJSONStringBytes data = .ok out) : ∃ ts, data = literal ts ∧ out = decoded ts := by
  have haccepted := h
  rw [decodeJSONStringBytes] at h
  by_cases hquoted : data.length < 2 ∨ data.head? ≠ some 0x22 ∨ data.getLast? ≠ some 0x22
  · rw [if_pos hquoted] at h
    exact absurd h (by simp)
  obtain ⟨s, rfl⟩ := quoted_iff.1 hquoted
  rw [if_neg hquoted, literal_between] at h
  have henough : s.length ≤ (0x22 :: (s ++ [0x22])).length - 2 := by simp
  obtain ⟨ts, rfl⟩ := content_of_decodeItems henough h
  refine ⟨ts, rfl, ?_⟩
  exact Except.ok.inj (haccepted.symm.trans (decodeJSONStringBytes_literal ts))

end PasswordHook
