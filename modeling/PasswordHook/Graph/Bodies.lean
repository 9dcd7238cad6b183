import PasswordHook.Go.Runes
import PasswordHook.Graph.Client
import PasswordHook.Handler.PasswordBytes
import PasswordHook.Lib.JsonGrammar

/-!
# The bodies of the Graph requests

`appendJSONString` writes a literal that stands for the text it is given (`exists_tokens`).  So the
password of a hook request comes out of the portal's JSON and goes into Graph's JSON unchanged
(`password_carried`), and no text in a field of a user or in a password can change the structure of
a request body (`bodies_denote`).
-/

namespace PasswordHook

open JsonString JsonGrammar

/-! ## Literals -/

theorem codeUnit?_control {b : UInt8} (h : b < 0x20) :
    codeUnit? 0x30 0x30 (hexDigit (b >>> 4)) (hexDigit b) = some b.toNat := by
  have checked : ∀ n : Fin 0x20, codeUnit? 0x30 0x30 (hexDigit (UInt8.ofNat n >>> 4))
      (hexDigit (UInt8.ofNat n)) = some n.val := by decide +kernel
  have := checked ⟨b.toNat, UInt8.lt_iff_toNat_lt.1 h⟩
  simpa using this

/-- The token that is written for a byte below 128 stands for that byte. -/
theorem exists_token_of_lt {b : UInt8} (h : b < 128) :
    ∃ t : Token, t.text = jsonStringByte b ∧ ∀ ts, firstChar t ts = (Char.ofNat b.toNat, ts) := by
  unfold jsonStringByte
  split_ifs with h₁ h₂ h₃ h₄ h₅
  · have hshort : shortEscape? b = some b := by
      simp only [Bool.or_eq_true, decide_eq_true_eq] at h₁
      rcases h₁ with rfl | rfl <;> decide
    exact ⟨.short b b hshort, rfl, fun _ => rfl⟩
  · exact ⟨.short 0x6e 0x0a (by decide), by decide +kernel, fun _ => by rw [h₂]; rfl⟩
  · exact ⟨.short 0x72 0x0d (by decide), by decide +kernel, fun _ => by rw [h₃]; rfl⟩
  · exact ⟨.short 0x74 0x09 (by decide), by decide +kernel, fun _ => by rw [h₄]; rfl⟩
  · have hunit : isHigh b.toNat = false ∧ unitChar b.toNat = Char.ofNat b.toNat := by
      have hlt : b.toNat < 128 := UInt8.lt_iff_toNat_lt.1 h
      have hhigh : isHigh b.toNat = false := by simp [isHigh]; omega
      have hlow : isLow b.toNat = false := by simp [isLow]; omega
      rw [unitChar, hhigh, hlow]
      exact ⟨rfl, rfl⟩
    refine ⟨.code _ _ _ _ _ (codeUnit?_control h₅), ?_, fun ts => ?_⟩
    · have hlead : bytesOf "\\u00" = [0x5c, 0x75, 0x30, 0x30] := by decide +kernel
      rw [hlead]
      rfl
    · rw [firstChar_not_high _ ts hunit.1, hunit.2]
  · have hplain : isPlain b = true := by
      simp only [Bool.or_eq_true, decide_eq_true_eq, not_or] at h₁
      simp [isPlain, h₁.1, h₁.2, UInt8.not_lt.1 h₅]
    exact ⟨.plain b hplain, rfl, firstChar_of_lt hplain h⟩

theorem jsonStringByte_of_le {b : UInt8} (h : 128 ≤ b) : jsonStringByte b = [b] := by
  have hne : ∀ k : UInt8, k < 128 → b ≠ k := by
    rintro k hk rfl
    exact absurd hk (UInt8.not_lt.2 h)
  have hcontrol : ¬ b < 0x20 := UInt8.not_lt.2 (UInt8.le_trans (by decide) h)
  simp [jsonStringByte, hne 0x5c (by decide), hne 0x22 (by decide), hne 0x0a (by decide),
    hne 0x0d (by decide), hne 0x09 (by decide), hcontrol]

theorem flatMap_jsonStringByte_of_le {bs : Bytes} (h : ∀ b ∈ bs, 128 ≤ b) :
    bs.flatMap jsonStringByte = bs := by
  induction bs with
  | nil => rfl
  | cons b bs ih =>
    rw [List.flatMap_cons, jsonStringByte_of_le (h b (by simp)), ih fun b' hb' =>
      h b' (by simp [hb'])]
    rfl

/-- The tokens that are written for a text stand for that text. -/
theorem exists_tokens {p : Bytes} (valid : Utf8.Valid p) :
    ∃ ts, content ts = p.flatMap jsonStringByte ∧ decoded ts = p := by
  obtain ⟨cs, rfl⟩ := valid
  induction cs with
  | nil => exact ⟨[], rfl, decoded_nil⟩
  | cons c cs ih =>
    obtain ⟨ts, hcontent, hdecoded⟩ := ih
    rw [List.flatMap_cons, List.flatMap_append]
    by_cases hc : c.toNat < 128
    · have hb : UInt8.ofNat c.toNat < 128 := by
        rw [UInt8.lt_iff_toNat_lt, UInt8.toNat_ofNat', Nat.mod_eq_of_lt (by omega)]
        exact hc
      have hback : Char.ofNat (UInt8.ofNat c.toNat).toNat = c := by
        rw [UInt8.toNat_ofNat', Nat.mod_eq_of_lt (by omega), Char.ofNat_toNat]
      obtain ⟨t, htext, hfirst⟩ := exists_token_of_lt hb
      refine ⟨t :: ts, ?_, ?_⟩
      · rw [content_cons, htext, hcontent, Utf8.encode_of_lt hc, List.flatMap_singleton]
      · rw [decoded_cons, hfirst, hback, hdecoded]
    · obtain ⟨t, ts', htext, hfirst⟩ := exists_tokens_of_le (not_lt.1 hc)
      refine ⟨t :: (ts' ++ ts), ?_, ?_⟩
      · rw [← List.cons_append, content_append, htext, hcontent,
          flatMap_jsonStringByte_of_le fun b hb => Utf8.le_of_mem_encode (not_lt.1 hc) hb]
      · rw [decoded_cons, hfirst, hdecoded]

/-- What is written is a literal of the text. -/
theorem exists_literal {p : Bytes} (valid : Utf8.Valid p) :
    ∃ ts, literal ts = appendJSONString [] p ∧ decoded ts = p := by
  obtain ⟨ts, hcontent, hdecoded⟩ := exists_tokens valid
  refine ⟨ts, ?_, hdecoded⟩
  rw [literal, hcontent]
  rfl

/-- What is written is read back. -/
theorem decodeJSONStringBytes_appendJSONString {p : Bytes} (valid : Utf8.Valid p) :
    decodeJSONStringBytes (appendJSONString [] p) = .ok p := by
  obtain ⟨ts, hliteral, hdecoded⟩ := exists_literal valid
  rw [← hliteral, decodeJSONStringBytes_literal, hdecoded]

/-- A password that the hook accepts is written for Graph as a literal with the same bytes. -/
theorem password_carried :
    (∀ p, Utf8.Valid p → decodeJSONStringBytes (appendJSONString [] p) = .ok p) ∧
    (∀ data out, decodeJSONStringBytes data = .ok out → Utf8.Valid out) ∧
    ∀ lit out, decodeJSONStringBytes lit = .ok out →
      decodeJSONStringBytes (appendJSONString [] out) = decodeJSONStringBytes lit := by
  have hvalid : ∀ data out, decodeJSONStringBytes data = .ok out → Utf8.Valid out := by
    intro data out h
    obtain ⟨ts, -, rfl⟩ := literal_of_decodeJSONStringBytes h
    exact valid_decoded ts
  refine ⟨fun p valid => decodeJSONStringBytes_appendJSONString valid, hvalid, fun lit out h => ?_⟩
  rw [h]
  exact decodeJSONStringBytes_appendJSONString (hvalid lit out h)

/-- A lone high surrogate, a tab and a quote, as the portal may send them. -/
theorem password_carried_escapes :
    decodeJSONStringBytes (bytesOf "\"\\ud800\\t\\\"\"") = .ok (bytesOf "\uFFFD\t\"") ∧
    decodeJSONStringBytes (appendJSONString [] (bytesOf "\uFFFD\t\"")) =
      decodeJSONStringBytes (bytesOf "\"\\ud800\\t\\\"\"") := by
  have h : decodeJSONStringBytes (bytesOf "\"\\ud800\\t\\\"\"") = .ok (bytesOf "\uFFFD\t\"") := by
    decide +kernel
  exact ⟨h, password_carried.2.2 _ _ h⟩

/-! ## Bodies -/

theorem jsonStringByte_lt {b : UInt8} (h : b < 128) : ∀ b' ∈ jsonStringByte b, b' < 128 := by
  have checked : ∀ n : Fin 128, (jsonStringByte (UInt8.ofNat n)).all (· < 128) = true := by
    decide +kernel
  have hlt : b.toNat < 128 := UInt8.lt_iff_toNat_lt.1 h
  have hb := checked ⟨b.toNat, hlt⟩
  rw [UInt8.ofNat_toNat, List.all_eq_true] at hb
  intro b' hb'
  exact of_decide_eq_true (hb b' hb')

theorem valid_appendJSONString {p : Bytes} (valid : Utf8.Valid p) :
    Utf8.Valid (appendJSONString [] p) := by
  have hcontent : Utf8.Valid (p.flatMap jsonStringByte) := by
    obtain ⟨cs, rfl⟩ := valid
    induction cs with
    | nil => exact Utf8.valid_nil
    | cons c cs ih =>
      rw [List.flatMap_cons, List.flatMap_append]
      refine Utf8.Valid.append ?_ ih
      by_cases hc : c.toNat < 128
      · have hb : UInt8.ofNat c.toNat < 128 := by
          rw [UInt8.lt_iff_toNat_lt, UInt8.toNat_ofNat', Nat.mod_eq_of_lt (by omega)]
          exact hc
        rw [Utf8.encode_of_lt hc, List.flatMap_singleton]
        exact Utf8.valid_of_lt (jsonStringByte_lt hb)
      · rw [flatMap_jsonStringByte_of_le fun b hb => Utf8.le_of_mem_encode (not_lt.1 hc) hb]
        exact Utf8.valid_encode c
  have hquote : Utf8.Valid [0x22] := Utf8.valid_of_lt (by simp)
  exact hquote.append (hcontent.append hquote)

theorem blank_nil : Blank [] := by
  intro b hb
  exact absurd hb List.not_mem_nil

/-- A value and a valid text of it. -/
def WrittenAs (v : Value) (t : Bytes) : Prop := Derives (.value v) t ∧ Utf8.Valid t

theorem written_string {p : Bytes} (valid : Utf8.Valid p) :
    WrittenAs (.string p) (appendJSONString [] p) := by
  obtain ⟨ts, hliteral, hdecoded⟩ := exists_literal valid
  refine ⟨?_, valid_appendJSONString valid⟩
  rw [← hliteral, ← hdecoded]
  exact .string ts

theorem written_true : WrittenAs (.bool true) trueText :=
  ⟨.trueWord, Utf8.valid_of_lt (by simp [trueText])⟩

theorem written_false : WrittenAs (.bool false) falseText :=
  ⟨.falseWord, Utf8.valid_of_lt (by simp [falseText])⟩

/-- An array with one element. -/
theorem WrittenAs.singleton {v : Value} {t : Bytes} (h : WrittenAs v t) :
    WrittenAs (.array [v]) (0x5b :: (t ++ [0x5d])) := by
  have helements : Derives (.elements [v]) t := by
    have := Derives.lastElement blank_nil h.1 blank_nil
    rwa [List.append_nil, List.nil_append] at this
  have hopen : Utf8.Valid [0x5b] := Utf8.valid_of_lt (by simp)
  have hclose : Utf8.Valid [0x5d] := Utf8.valid_of_lt (by simp)
  exact ⟨.array helements, hopen.append (h.2.append hclose)⟩

/-- A member of a body: its name, and its value with the text of it. -/
structure Field where
  name : String
  value : Value
  text : Bytes
  written : WrittenAs value text

namespace Field

def memberText (f : Field) : Bytes := appendJSONString [] (bytesOf f.name) ++ 0x3a :: f.text

def membersText : Field → List Field → Bytes
  | f, [] => f.memberText
  | f, f' :: fs => f.memberText ++ 0x2c :: membersText f' fs

/-- The text of an object with these members. -/
def objectText (f : Field) (fs : List Field) : Bytes := 0x7b :: (membersText f fs ++ [0x7d])

def member (f : Field) : Bytes × Value := (bytesOf f.name, f.value)

theorem derives_memberText (f : Field) : Derives (.member f.member) f.memberText := by
  obtain ⟨ts, hliteral, hdecoded⟩ := exists_literal (valid_bytesOf f.name)
  rw [memberText, member, ← hliteral, ← hdecoded]
  exact .member ts blank_nil blank_nil f.written.1

theorem valid_memberText (f : Field) : Utf8.Valid f.memberText := by
  have hcolon : Utf8.Valid [0x3a] := Utf8.valid_of_lt (by simp)
  exact (valid_appendJSONString (valid_bytesOf f.name)).append (hcolon.append f.written.2)

theorem derives_membersText (f : Field) (fs : List Field) :
    Derives (.members ((f :: fs).map member)) (membersText f fs) := by
  induction fs generalizing f with
  | nil =>
    have := Derives.lastMember blank_nil f.derives_memberText blank_nil
    rwa [List.append_nil, List.nil_append] at this
  | cons f' fs ih => exact .nextMember blank_nil f.derives_memberText blank_nil (ih f')

theorem valid_membersText (f : Field) (fs : List Field) : Utf8.Valid (membersText f fs) := by
  induction fs generalizing f with
  | nil => exact f.valid_memberText
  | cons f' fs ih =>
    have hcomma : Utf8.Valid [0x2c] := Utf8.valid_of_lt (by simp)
    exact f.valid_memberText.append (hcomma.append (ih f'))

theorem written_objectText (f : Field) (fs : List Field) :
    WrittenAs (.object ((f :: fs).map member)) (objectText f fs) := by
  have hopen : Utf8.Valid [0x7b] := Utf8.valid_of_lt (by simp)
  have hclose : Utf8.Valid [0x7d] := Utf8.valid_of_lt (by simp)
  exact ⟨.object (derives_membersText f fs), hopen.append ((valid_membersText f fs).append hclose)⟩

end Field

/-- A written value is the one value of its text. -/
theorem WrittenAs.denotes_iff {v v' : Value} {t : Bytes} (h : WrittenAs v t) :
    Denotes t v' ↔ v' = v := by
  have hdenotes : Denotes t v :=
    ⟨h.2, [], t, [], by rw [List.append_nil, List.nil_append], blank_nil, h.1, blank_nil⟩
  constructor
  · intro h'
    exact h'.unique hdenotes
  · rintro rfl
    exact hdenotes

/-! ## The two requests -/

/-- The value of a member `passwordProfile`. -/
def passwordProfile (password : Bytes) : Value :=
  .object [(bytesOf "password", .string password),
    (bytesOf "forceChangePasswordNextSignIn", .bool false)]

/-- What a request that changes a password says. -/
def patchValue (password : Bytes) : Value :=
  .object [(bytesOf "passwordProfile", passwordProfile password)]

/-- The part of a name before the first `@`, or the whole name where that is blank. -/
def nickname (upn : String) : String :=
  let before := String.ofList (upn.toList.takeWhile (· ≠ '@'))
  if trimSpace before ≠ "" then before else upn

/-- What a request that creates a user says. -/
def createValue (user : User) (password : Bytes) : Value :=
  let mail := bytesOf (trimSpace user.mail)
  .object ([(bytesOf "accountEnabled", .bool true),
      (bytesOf "displayName", .string (bytesOf user.displayName)),
      (bytesOf "mailNickname", .string (bytesOf (nickname user.upn))),
      (bytesOf "userPrincipalName", .string (bytesOf user.upn))] ++
    (if trimSpace user.mail ≠ "" then
      [(bytesOf "mail", .string mail), (bytesOf "otherMails", .array [.string mail])] else []) ++
    [(bytesOf "passwordProfile", passwordProfile password)])

theorem mailNickname_eq (upn : String) : mailNickname upn = nickname upn := by
  unfold mailNickname nickname
  by_cases hat : '@' ∈ upn.toList
  · simp only [hat, true_and]
  · have hall : upn.toList.takeWhile (· ≠ '@') = upn.toList := by
      rw [List.takeWhile_eq_self_iff]
      intro c hc
      simp only [decide_eq_true_eq, ne_eq]
      rintro rfl
      exact hat hc
    simp only [hat, false_and, hall, String.ofList_toList, ite_self]

/-- A string member. -/
def Field.ofString (name : String) (text : Bytes) (valid : Utf8.Valid text) : Field :=
  ⟨name, .string text, appendJSONString [] text, written_string valid⟩

/-- The member `passwordProfile`. -/
def Field.profile (password : Bytes) (valid : Utf8.Valid password) : Field :=
  ⟨"passwordProfile", passwordProfile password, _,
    Field.written_objectText (.ofString "password" password valid)
      [⟨"forceChangePasswordNextSignIn", .bool false, _, written_false⟩]⟩

theorem appendJSONString_eq (dst value : Bytes) :
    appendJSONString dst value = dst ++ appendJSONString [] value := rfl

/-- Everything after the opening of the password. -/
theorem profile_close : bytesOf ",\"forceChangePasswordNextSignIn\":false\x7d\x7d" =
    0x2c :: (appendJSONString [] (bytesOf "forceChangePasswordNextSignIn") ++
      0x3a :: (falseText ++ [0x7d, 0x7d])) := by decide +kernel

theorem buildPatchBody_eq {password : Bytes} (valid : Utf8.Valid password) :
    buildPatchBody password = Field.objectText (.profile password valid) [] := by
  have hopen : bytesOf "\x7b\"passwordProfile\":\x7b\"password\":" =
      0x7b :: (appendJSONString [] (bytesOf "passwordProfile") ++
        0x3a :: 0x7b :: (appendJSONString [] (bytesOf "password") ++ [0x3a])) := by decide +kernel
  rw [buildPatchBody, appendJSONString_eq, hopen, profile_close]
  simp only [Field.objectText, Field.membersText, Field.memberText, Field.profile, Field.ofString,
    List.append_assoc, List.cons_append, List.nil_append]

/-- The members of a request that creates a user, after the first. -/
def createFields (user : User) (password : Bytes) (valid : Utf8.Valid password) : List Field :=
  let mail := bytesOf (trimSpace user.mail)
  [.ofString "displayName" (bytesOf user.displayName) (valid_bytesOf _),
    .ofString "mailNickname" (bytesOf (mailNickname user.upn)) (valid_bytesOf _),
    .ofString "userPrincipalName" (bytesOf user.upn) (valid_bytesOf _)] ++
  (if trimSpace user.mail ≠ "" then
    [.ofString "mail" mail (valid_bytesOf _),
      ⟨"otherMails", .array [.string mail], _, (written_string (valid_bytesOf _)).singleton⟩]
    else []) ++
  [.profile password valid]

theorem buildCreateBody_eq {user : User} {password : Bytes} (valid : Utf8.Valid password) :
    buildCreateBody user password =
      Field.objectText ⟨"accountEnabled", .bool true, _, written_true⟩
        (createFields user password valid) := by
  have hopen : bytesOf "\x7b\"accountEnabled\":true,\"displayName\":" =
      0x7b :: (appendJSONString [] (bytesOf "accountEnabled") ++ 0x3a :: (trueText ++
        0x2c :: (appendJSONString [] (bytesOf "displayName") ++ [0x3a]))) := by decide +kernel
  have hnickname : bytesOf ",\"mailNickname\":" =
      0x2c :: (appendJSONString [] (bytesOf "mailNickname") ++ [0x3a]) := by decide +kernel
  have hupn : bytesOf ",\"userPrincipalName\":" =
      0x2c :: (appendJSONString [] (bytesOf "userPrincipalName") ++ [0x3a]) := by decide +kernel
  have hmail : bytesOf ",\"mail\":" = 0x2c :: (appendJSONString [] (bytesOf "mail") ++ [0x3a]) := by
    decide +kernel
  have hmails : bytesOf ",\"otherMails\":[" =
      0x2c :: (appendJSONString [] (bytesOf "otherMails") ++ [0x3a, 0x5b]) := by decide +kernel
  have hbracket : bytesOf "]" = [0x5d] := by decide +kernel
  have hprofile : bytesOf ",\"passwordProfile\":\x7b\"password\":" =
      0x2c :: (appendJSONString [] (bytesOf "passwordProfile") ++
        0x3a :: 0x7b :: (appendJSONString [] (bytesOf "password") ++ [0x3a])) := by decide +kernel
  simp only [buildCreateBody, createHead, appendJSONStringFromString, createFields]
  rw [profile_close, hopen, hnickname, hupn, hmail, hmails, hbracket, hprofile]
  by_cases hblank : trimSpace user.mail ≠ ""
  · simp only [if_pos hblank, Field.objectText, Field.membersText, Field.memberText, Field.profile,
      Field.ofString, appendJSONString, List.append_assoc, List.cons_append, List.nil_append]
  · simp only [if_neg hblank, Field.objectText, Field.membersText, Field.memberText, Field.profile,
      Field.ofString, appendJSONString, List.append_assoc, List.cons_append, List.nil_append]

theorem createValue_eq {user : User} {password : Bytes} (valid : Utf8.Valid password) :
    createValue user password = .object ((⟨"accountEnabled", .bool true, _, written_true⟩ ::
      createFields user password valid).map Field.member) := by
  rw [createValue, ← mailNickname_eq, createFields]
  by_cases hblank : trimSpace user.mail ≠ ""
  · simp only [if_pos hblank]
    rfl
  · simp only [if_neg hblank]
    rfl

/-- The bodies are JSON texts with one value each, whatever the texts in them. -/
theorem bodies_denote (user : User) (password : Bytes) (valid : Utf8.Valid password) (v : Value) :
    (Denotes (buildPatchBody password) v ↔ v = patchValue password) ∧
      (Denotes (buildCreateBody user password) v ↔ v = createValue user password) := by
  constructor
  · rw [buildPatchBody_eq valid]
    exact (Field.written_objectText (.profile password valid) []).denotes_iff
  · rw [buildCreateBody_eq valid, createValue_eq valid]
    exact (Field.written_objectText _ (createFields user password valid)).denotes_iff

/-- A name and a password that are JSON themselves. -/
theorem bodies_denote_quotes :
    let user : User := ⟨"a@b", "x\",\"accountEnabled\":false,\"y\":\"", " \t "⟩
    Denotes (buildPatchBody (bytesOf "\"\x7d")) (patchValue (bytesOf "\"\x7d")) ∧
      Denotes (buildCreateBody user (bytesOf "\"\x7d")) (createValue user (bytesOf "\"\x7d")) :=
  ⟨((bodies_denote ⟨"", "", ""⟩ _ (valid_bytesOf _) _).1).2 rfl,
    ((bodies_denote _ _ (valid_bytesOf _) _).2).2 rfl⟩

end PasswordHook
