import PasswordHook.Lib.Separated
import PasswordHook.Middleware.Freshness

/-!
# What a signature vouches for

The text that is signed joins timestamp, nonce and body by dots.  A timestamp that parses has no
dot, but nonce and body are not checked for dots, so one text can be read as several triples.
`authentic_iff` says for which requests the signature vouches for the triple that is presented.
-/

namespace PasswordHook

/-- What the portal signs. -/
structure SignedTriple where
  timestamp : Bytes
  nonce : Bytes
  body : Bytes
  deriving DecidableEq

def SignedTriple.text (t : SignedTriple) : Bytes := signedText t.timestamp t.nonce t.body

/-- The fields of the text, one by one. -/
def SignedTriple.fields (t : SignedTriple) : List Bytes := [t.timestamp, t.nonce, t.body]

theorem SignedTriple.text_eq (t : SignedTriple) : t.text = [dot].intercalate t.fields := by
  simp [text, fields, signedText, List.intercalate]

/-- What stands before the first dot of the rest of the text is the nonce. -/
def SignedTriple.Plain (t : SignedTriple) : Prop := dot ∉ t.timestamp ∧ dot ∉ t.nonce

/-- Plain triples are determined by their text. -/
theorem SignedTriple.Plain.eq_of_text {t u : SignedTriple} (ht : t.Plain) (hu : u.Plain)
    (h : t.text = u.text) : t = u := by
  obtain ⟨htime, hrest⟩ := append_cons_inj ht.1 hu.1 h
  obtain ⟨hnonce, hbody⟩ := append_cons_inj ht.2 hu.2 hrest
  obtain ⟨timestamp, nonce, body⟩ := t
  simp only at htime hnonce hbody
  rw [htime, hnonce, hbody]

/-- A triple without dots is determined by its text among all triples. -/
theorem SignedTriple.eq_of_text {t u : SignedTriple} (free : ∀ f ∈ t.fields, dot ∉ f)
    (h : t.text = u.text) : t = u := by
  rw [text_eq, text_eq] at h
  have hfields := intercalate_inj free h rfl
  obtain ⟨timestamp, nonce, body⟩ := t
  obtain ⟨timestamp', nonce', body'⟩ := u
  simpa [fields] using hfields

/-- A dot of the nonce can be read as the one before the body. -/
theorem signedText_regroup (timestamp x y body : Bytes) :
    signedText timestamp (x ++ dot :: y) body = signedText timestamp x (y ++ dot :: body) := by
  simp [signedText]

/-- With a dot in nonce or body another triple has the same text. -/
theorem SignedTriple.exists_other {t : SignedTriple} (h : dot ∈ t.nonce ∨ dot ∈ t.body) :
    ∃ u, u ≠ t ∧ u.text = t.text := by
  obtain ⟨timestamp, nonce, body⟩ := t
  rcases h with h | h
  · obtain ⟨x, y, rfl, -⟩ := List.eq_append_cons_of_mem h
    refine ⟨⟨timestamp, x, y ++ dot :: body⟩, ?_, (signedText_regroup timestamp x y body).symm⟩
    intro he
    have := congrArg List.length (SignedTriple.mk.inj he).2.1
    simp at this
  · obtain ⟨x, y, rfl, -⟩ := List.eq_append_cons_of_mem h
    refine ⟨⟨timestamp, nonce ++ dot :: x, y⟩, ?_, signedText_regroup timestamp nonce x y⟩
    intro he
    have := congrArg List.length (SignedTriple.mk.inj he).2.1
    simp at this

theorem dot_not_mem_of_parseDigits {s : Bytes} {n : ℕ} (h : parseDigits s = some n) : dot ∉ s := by
  intro hmem
  unfold parseDigits at h
  split at h
  · exact absurd hmem List.not_mem_nil
  · split_ifs at h with hall
    have := List.all_eq_true.1 hall dot hmem
    exact absurd this (by decide)

/-- A timestamp that parses has no dot. -/
theorem dot_not_mem_of_parseInt64 {s : Bytes} {n : ℤ} (h : parseInt64 s = some n) : dot ∉ s := by
  unfold parseInt64 at h
  split at h <;> obtain ⟨k, hk, -⟩ := Option.bind_eq_some_iff.1 h
  · exact List.not_mem_cons_of_ne_of_not_mem (by decide) (dot_not_mem_of_parseDigits hk)
  · exact List.not_mem_cons_of_ne_of_not_mem (by decide) (dot_not_mem_of_parseDigits hk)
  · exact dot_not_mem_of_parseDigits hk

namespace HMAC

variable {m : HMAC} {mac : Bytes → Bytes → Bytes} {r : HookRequest} {τ : List HmacEvent}
  {body : Bytes}

variable (m mac) in
/-- The idealised HMAC: the signature of the request verifies only for texts the portal has
signed. -/
def Unforgeable (portal : Set SignedTriple) (r : HookRequest) : Prop :=
  ∀ body, m.validSignature mac r.timestampHeader r.nonce body r.signature = true →
    ∃ t ∈ portal, t.text = signedText r.timestampHeader r.nonce body

/-- The triple a request presents. -/
def presented (r : HookRequest) (body : Bytes) : SignedTriple := ⟨r.timestampHeader, r.nonce, body⟩

/-- A forwarded request has a timestamp without a dot and a valid signature. -/
theorem exec_wrap_forwarded (run : Prog.Exec (m.wrap mac r) τ (.forwarded body)) :
    dot ∉ r.timestampHeader ∧
      m.validSignature mac r.timestampHeader r.nonce body r.signature = true := by
  rcases m.wrap_cases mac r with ⟨why, -, hwrap⟩ | ⟨body', timestamp, hread⟩
  · rw [hwrap] at run
    exact absurd (Prog.exec_ret_iff.1 run).2 (by simp)
  rw [hread.wrap_eq] at run
  refine ⟨dot_not_mem_of_parseInt64 hread.parsed, ?_⟩
  obtain ⟨now, τ', -, hcases⟩ := exec_wrapParsed run
  rcases hcases with ⟨-, -, hv⟩ | ⟨-, -, -, hv⟩ | ⟨hpass, -, -, hv⟩ | ⟨hpass, -, t, ok, -, hv⟩
  · exact absurd hv (by simp)
  · exact absurd hv (by simp)
  · cases hv
    exact hpass.signed
  · cases ok with
    | false => exact absurd hv (by simp)
    | true =>
      cases hv
      exact hpass.signed

/-- A triple that could be read otherwise need not be one the portal signed. -/
theorem unforgeable_others (h : dot ∈ r.nonce ∨ dot ∈ body) :
    m.Unforgeable mac {t | t ≠ presented r body} r := by
  intro body' _
  by_cases he : body' = body
  · obtain ⟨u, hne, htext⟩ := SignedTriple.exists_other (t := presented r body) h
    exact ⟨u, hne, by rw [htext, he]; rfl⟩
  · refine ⟨presented r body', fun h => he ?_, rfl⟩
    exact (SignedTriple.mk.inj h).2.2

/-- The portal has signed the triple of a forwarded request, whatever else it has signed, exactly if
neither nonce nor body has a dot; if the portal never puts a dot into a nonce, exactly if the nonce
of the request has none. -/
theorem authentic_iff (run : Prog.Exec (m.wrap mac r) τ (.forwarded body)) :
    ((∀ portal, m.Unforgeable mac portal r → presented r body ∈ portal) ↔
      dot ∉ r.nonce ∧ dot ∉ body) ∧
    ((∀ portal, (∀ t ∈ portal, t.Plain) → m.Unforgeable mac portal r →
      presented r body ∈ portal) ↔ dot ∉ r.nonce) := by
  obtain ⟨htime, hsigned⟩ := exec_wrap_forwarded run
  refine ⟨⟨fun h => ?_, fun free portal unforgeable => ?_⟩, ⟨fun h hdot => ?_, ?_⟩⟩
  · rw [← not_or]
    intro hdot
    exact h _ (unforgeable_others hdot) rfl
  · obtain ⟨t, ht, htext⟩ := unforgeable body hsigned
    have hfields : ∀ f ∈ (presented r body).fields, dot ∉ f := by
      simp [SignedTriple.fields, presented, htime, free.1, free.2]
    rw [SignedTriple.eq_of_text hfields htext.symm]
    exact ht
  -- the portal that signs the same texts under the part of the nonce before its first dot
  · obtain ⟨x, y, hnonce, hx⟩ := List.eq_append_cons_of_mem hdot
    have hmem := h {t | ∃ body', t = ⟨r.timestampHeader, x, y ++ dot :: body'⟩} ?_ ?_
    · obtain ⟨body', he⟩ := hmem
      apply hx
      rw [← (SignedTriple.mk.inj he).2.1]
      exact hdot
    · rintro t ⟨body', rfl⟩
      exact ⟨htime, hx⟩
    · intro body' _
      refine ⟨_, ⟨body', rfl⟩, ?_⟩
      rw [hnonce]
      exact (signedText_regroup _ x y body').symm
  · intro hnonce portal plain unforgeable
    obtain ⟨t, ht, htext⟩ := unforgeable body hsigned
    have hplain : (presented r body).Plain := ⟨htime, hnonce⟩
    rw [hplain.eq_of_text (plain t ht) htext.symm]
    exact ht

/-! ## A signature presented with another nonce and body -/

/-- The triple the portal signs. -/
def sampleSigned : SignedTriple :=
  ⟨bytesOf "1764403200", bytesOf "0123456789abcdef", bytesOf "\x7b\"mail\":\"a@b.edu\"\x7d"⟩

/-- Its signature with the beginning of the body moved into the nonce. -/
def sampleForged : HookRequest :=
  ⟨bytesOf "edu\"\x7d", none, sampleSigned.timestamp,
    bytesOf "0123456789abcdef.\x7b\"mail\":\"a@b",
    sample.signatureHeader sampleMac sampleSigned.timestamp sampleSigned.nonce sampleSigned.body⟩

/-- The signature of one request is forwarded with another nonce and another body. -/
theorem forged_forwarded :
    (∃ τ, Prog.Exec (sample.wrap sampleMac sampleForged) τ (.forwarded (bytesOf "edu\"\x7d"))) ∧
      sample.Unforgeable sampleMac {sampleSigned} sampleForged ∧
      presented sampleForged (bytesOf "edu\"\x7d") ∉ ({sampleSigned} : Set SignedTriple) := by
  have readable : sample.Readable sampleForged (bytesOf "edu\"\x7d") 1764403200 :=
    ⟨by decide +kernel, by decide, by decide +kernel, by decide, by decide⟩
  have passes : sample.Passes sampleMac sampleForged (bytesOf "edu\"\x7d") 1764403200 sampleClock :=
    ⟨by decide +kernel, by decide +kernel⟩
  refine ⟨⟨_, exec_forwarded readable passes rfl sampleClock⟩, ?_, ?_⟩
  · intro body verifies
    have hmac := (sample.validSignature_signatureHeader sampleMac).1 verifies
    exact ⟨sampleSigned, rfl, List.append_cancel_left hmac⟩
  · intro h
    exact absurd (SignedTriple.mk.inj (Set.mem_singleton_iff.1 h)).2.1 (by decide)

/-- The signature vouches for a request as the portal sent it, although the body has dots. -/
theorem authentic_iff_plain :
    let r := sample.portalRequest sampleMac sampleSigned.timestamp sampleSigned.nonce
      sampleSigned.body
    (∃ τ, Prog.Exec (sample.wrap sampleMac r) τ (.forwarded sampleSigned.body)) ∧
      ∀ portal, (∀ t ∈ portal, t.Plain) → sample.Unforgeable sampleMac portal r →
        sampleSigned ∈ portal := by
  have readable : sample.Readable (sample.portalRequest sampleMac sampleSigned.timestamp
      sampleSigned.nonce sampleSigned.body) sampleSigned.body 1764403200 :=
    readable_portalRequest (by decide) (by decide) (by decide +kernel) (by decide)
  have fresh : sample.fresh sampleClock 1764403200 = true := by decide +kernel
  have run := exec_forwarded readable (passes_portalRequest fresh) rfl sampleClock
  exact ⟨⟨_, run⟩, (authentic_iff run).2.2 (by decide)⟩

end HMAC

end PasswordHook
