import PasswordHook.Delivery.Agreement
import PasswordHook.Graph.Processor
import PasswordHook.Lib.Separated

/-!
# A sealed password stays with its account

The associated data of a sealed password are the trimmed common name, the trimmed account name and
the stamp, joined by line breaks.  Only the producer's fields are known to be free of line breaks;
that is enough for the data to determine them, whatever the message at the worker holds
(`passwordAAD_inj`).  So a worker that opens a password under an AEAD that opens nothing but what
was sealed writes it to the account it was sealed for.
-/

namespace PasswordHook

open Prog

/-! ## The associated data -/

theorem newline_not_mem_formatRFC3339Nano (t : Time) : '\n' ∉ t.utc.formatRFC3339Nano.toList := by
  intro h
  have checked : ¬ ('\n'.isDigit = true ∨ '\n' ∈ ['-', 'T', ':', '.', 'Z']) := by decide
  exact checked (mem_formatRFC3339Nano h)

theorem newline_not_mem_buildUPN {U : Unicode} {cn primaryDomain upn : String}
    (domain : '\n' ∉ primaryDomain.toList) (h : buildUPN U cn primaryDomain = .ok upn) :
    '\n' ∉ (trimSpace cn).toList ∧ '\n' ∉ upn.toList := by
  obtain ⟨rfl, -, -, hspace⟩ := buildUPN_eq_ok h
  have hcn : '\n' ∉ (trimSpace cn).toList := fun mem =>
    absurd (hspace '\n' mem) (by decide)
  refine ⟨hcn, ?_⟩
  intro mem
  simp only [String.toList_append, List.mem_append, toList_toLower, List.mem_map] at mem
  rcases mem with (mem | mem) | ⟨c, hc, hlower⟩
  · exact hcn mem
  · exact absurd mem (by decide)
  · obtain rfl := (toLower_eq_newline_iff U).1 hlower
    rw [toList_trimSpace] at hc
    exact domain (mem_of_mem_trimChars hc)

/-- The fields of the associated data. -/
def aadFields (cn upn : String) (t : Time) : List (List Char) :=
  ["password-sync".toList, (trimSpace cn).toList, (trimSpace upn).toList,
    t.utc.formatRFC3339Nano.toList]

theorem intercalate_aadFields_eq {cn upn cn' upn' : String} {t t' : Time}
    (h : passwordAAD cn upn t = passwordAAD cn' upn' t') :
    ['\n'].intercalate (aadFields cn upn t) = ['\n'].intercalate (aadFields cn' upn' t') := by
  have htext := congrArg String.toList (bytesOf_inj h)
  rw [String.toList_intercalate, String.toList_intercalate] at htext
  exact htext

/-- Names without line breaks and a stamp are determined by their associated data. -/
theorem passwordAAD_inj {cn upn cn' upn' : String} {t t' : Time}
    (hcn : '\n' ∉ (trimSpace cn).toList) (hupn : '\n' ∉ (trimSpace upn).toList)
    (h : passwordAAD cn upn t = passwordAAD cn' upn' t') :
    trimSpace cn = trimSpace cn' ∧ trimSpace upn = trimSpace upn' ∧ t.nano = t'.nano := by
  have free : ∀ f ∈ aadFields cn upn t, '\n' ∉ f := by
    simp only [aadFields, List.forall_mem_cons]
    refine ⟨by decide, hcn, hupn, newline_not_mem_formatRFC3339Nano t, ?_⟩
    exact fun f hf => absurd hf List.not_mem_nil
  have hfields : aadFields cn upn t = aadFields cn' upn' t' := by
    apply intercalate_inj free (intercalate_aadFields_eq h)
    simp [aadFields]
  unfold aadFields at hfields
  obtain ⟨-, hcn, hupn, ht, -⟩ : _ ∧ _ ∧ _ ∧ _ ∧ _ := by simpa only [List.cons.injEq] using hfields
  exact ⟨String.toList_inj.1 hcn, String.toList_inj.1 hupn,
    formatRFC3339Nano_inj (String.toList_inj.1 ht)⟩

/-! ## Sealing and opening -/

/-- An ideal AEAD: it opens nothing but what was sealed, and what was sealed under a nonce is bound
to one associated data. -/
structure Ideal (aead : Aead) (Sealed : Bytes → Bytes → Bytes → Prop) : Prop where
  opens_sealed : ∀ nonce ciphertext aad plaintext,
    aead.openBytes nonce ciphertext aad = some plaintext → Sealed nonce ciphertext aad
  binds : ∀ nonce ciphertext aad aad', Sealed nonce ciphertext aad → Sealed nonce ciphertext aad' →
    aad = aad'

/-- The encrypter of a hook is the codec, and what it seals is in `Sealed`. -/
def SealsWith (codec : Codec) (Sealed : Bytes → Bytes → Bytes → Prop) (τ : List HookEvent) : Prop :=
  ∀ plaintext aad r, .encrypted plaintext aad r ∈ τ →
    ∃ ctxErr random, r = codec.encrypt ctxErr random plaintext aad ∧
      ∀ nonce, random = .ok nonce → Sealed nonce (codec.aead.sealBytes nonce plaintext aad) aad

/-- The decrypter of a worker is the codec. -/
def OpensWith (codec : Codec) (τ : List WorkerEvent) : Prop :=
  ∀ env aad r, .decrypted env aad r ∈ τ → ∃ ctxErr, codec.decrypt ctxErr env aad = some r

/-- An envelope of the codec opens only with the data it was sealed with. -/
theorem Ideal.aad_eq {codec : Codec} {Sealed : Bytes → Bytes → Bytes → Prop}
    (ideal : Ideal codec.aead Sealed) {ctxErr ctxErr' : Option Err}
    {random : Except Err { bs : Bytes // bs.length = codec.aead.nonceSize }}
    {plaintext aad plaintext' aad' : Bytes} {env : Envelope}
    (henv : .ok env = codec.encrypt ctxErr random plaintext aad)
    (hsealed : ∀ nonce, random = .ok nonce →
      Sealed nonce (codec.aead.sealBytes nonce plaintext aad) aad)
    (opened : codec.decrypt ctxErr' env aad' = some (.ok plaintext')) : aad = aad' := by
  obtain ⟨nonce, hrandom, rfl⟩ := Codec.encrypt_eq_ok henv.symm
  obtain ⟨nonce', ciphertext, hnonce, hciphertext, hopen⟩ := Codec.decrypt_eq_ok opened
  rw [base64Decode_base64Text, Option.some_inj] at hnonce hciphertext
  rw [← hnonce, ← hciphertext] at hopen
  exact ideal.binds _ _ _ _ (hsealed nonce hrandom) (ideal.opens_sealed _ _ _ _ hopen)

/-! ## The account a password is written to -/

/-- Whatever Graph answers, the passwords a run of the worker hands on are set for the account
only. -/
def WritesOnlyTo (upn : String) (τ : List WorkerEvent) : Prop :=
  ∀ cmd r, .processed cmd r ∈ τ → ∀ client σ r',
    Exec (Processor.processPasswordSync client cmd) σ r' → ∀ e ∈ σ, ∀ req,
      e.call = .graph (.doRequest req) → req.body ≠ none →
        SetsPasswordOf client upn cmd.password req

theorem writesOnlyTo_processMessage {J : Json} {w : Worker} {msg : Option MessagePtr}
    {m : PasswordSyncMessage} {τ : List WorkerEvent} {r : Option Err}
    (decoded : decodePasswordSyncMessage J msg = .ok m) (run : Exec (processMessage J w msg) τ r) :
    WritesOnlyTo (trimSpace m.upn) τ := by
  intro cmd r' mem client σ r'' hσ e he req hreq body
  obtain ⟨m', hm', hcall⟩ := attemptCall_processMessage run mem rfl
  rw [decoded] at hm'
  obtain rfl := Except.ok.inj hm'
  cases hcall
  exact Processor.setsPasswordOf_processPasswordSync hσ he hreq body

/-- A message that carries the sealed password of a submitted one and opens at the worker names the
same account at the same instant, and the password is written to that account. -/
theorem not_redirected {U : Unicode} {svc : Service} {traceID : String} {req : Request}
    {codec : Codec} {Sealed : Bytes → Bytes → Bytes → Prop} {J : Json} {w : Worker}
    {msg : Option MessagePtr} {m m' : PasswordSyncMessage} {τ : List HookEvent}
    {τ' : List WorkerEvent} {result : Decision × Option Err} {answer r : Option Err}
    {env : Envelope} {aad plaintext : Bytes}
    (submitted : Exec (submit U svc traceID req) τ result) (sent : .sent m answer ∈ τ)
    (domain : '\n' ∉ svc.primaryDomain.toList) (seals : SealsWith codec Sealed τ)
    (ideal : Ideal codec.aead Sealed) (decoded : decodePasswordSyncMessage J msg = .ok m')
    (carried : envelopeOf m' = envelopeOf m) (run : Exec (processMessage J w msg) τ' r)
    (opens : OpensWith codec τ') (opened : .decrypted env aad (.ok plaintext) ∈ τ') :
    trimSpace m'.cn = trimSpace m.cn ∧ trimSpace m'.upn = trimSpace m.upn ∧
      m'.enqueuedAt.nano = m.enqueuedAt.nano ∧ WritesOnlyTo m.upn τ' := by
  obtain ⟨upn, t, env', hupn, rfl, hencrypted⟩ := exec_submit_sent submitted sent
  obtain ⟨ctxErr, random, henv, hsealed⟩ := seals _ _ _ hencrypted
  obtain ⟨ctxErr', hdecrypt⟩ := opens _ _ _ opened
  have haad : aad = passwordAAD m'.cn m'.upn m'.enqueuedAt ∧ env = envelopeOf m' := by
    obtain ⟨m'', hm'', hcall⟩ := attemptCall_processMessage run opened rfl
    rw [decoded] at hm''
    obtain rfl := Except.ok.inj hm''
    cases hcall
    exact ⟨rfl, rfl⟩
  have hsame : passwordAAD (trimSpace req.cn) upn t.utc =
      passwordAAD m'.cn m'.upn m'.enqueuedAt := by
    rw [haad.1, haad.2, carried] at hdecrypt
    exact ideal.aad_eq henv hsealed hdecrypt
  obtain ⟨hcn, hfree⟩ := newline_not_mem_buildUPN domain hupn
  have htrim : trimSpace upn = upn := trimSpace_eq_self (trimmed_buildUPN hupn)
  rw [← trimSpace_trimSpace] at hcn
  rw [← htrim] at hfree
  obtain ⟨hcn', hupn', ht⟩ := passwordAAD_inj hcn hfree hsame
  refine ⟨hcn'.symm, hupn'.symm, ht.symm, ?_⟩
  have hwrites := writesOnlyTo_processMessage decoded run
  rw [← hupn', htrim] at hwrites
  exact hwrites

/-! ## A message with white space around its names -/

theorem clearHeader_inj {aad aad' plaintext plaintext' : Bytes}
    (h : clearHeader aad ++ plaintext = clearHeader aad' ++ plaintext') : aad = aad' := by
  simp only [clearHeader, List.append_assoc, List.cons_append] at h
  have free : ∀ n, (0 : UInt8) ∉ List.replicate n 1 := by simp
  obtain ⟨hlen, hrest⟩ := append_cons_inj (free _) (free _) h
  have hlength : aad.length = aad'.length := by simpa using congrArg List.length hlen
  exact (List.append_inj hrest hlength).1

theorem ideal_clear : Ideal Aead.clear
    fun _ ciphertext aad => ∃ plaintext, ciphertext = clearHeader aad ++ plaintext where
  opens_sealed nonce ciphertext aad plaintext h := by
    simp only [Aead.clear] at h
    split_ifs at h with hprefix
    obtain ⟨rest, rfl⟩ := hprefix
    exact ⟨rest, rfl⟩
  binds nonce ciphertext aad aad' := by
    rintro ⟨plaintext, rfl⟩ ⟨plaintext', h⟩
    exact clearHeader_inj h

/-- The message with white space around its names. -/
def samplePadded : PasswordSyncMessage :=
  { sampleStamped sampleReading with cn := "b11001\n", upn := " b11001@example.edu" }

theorem WorkerEvent.decrypted_inj {env env' : Envelope} {aad aad' : Bytes}
    {r r' : Except Err Bytes} (h : decrypted env aad r = decrypted env' aad' r') :
    env = env' ∧ aad = aad' ∧ r = r' := by
  cases h
  exact ⟨rfl, rfl, rfl⟩

def samplePaddedRun (ptr : MessagePtr) : List WorkerEvent :=
  [.decrypted (envelopeOf samplePadded)
      (passwordAAD samplePadded.cn samplePadded.upn samplePadded.enqueuedAt) (.ok [112, 119]),
    .processed (commandOf samplePadded [112, 119]) none, .zeroedPlaintext, .zeroedBody (some ptr),
    .markedSynced samplePadded.upn samplePadded.enqueuedAt none,
    .completed (some ptr) (some (.new "lock lost"))]

theorem decrypt_samplePadded : sampleCodec.decrypt none (envelopeOf samplePadded)
    (passwordAAD samplePadded.cn samplePadded.upn samplePadded.enqueuedAt) =
      some (.ok [112, 119]) := by
  have hcn : trimSpace samplePadded.cn = trimSpace "b11001" := by decide
  have hupn : trimSpace samplePadded.upn = trimSpace "b11001@example.edu" := by decide
  have haad : passwordAAD samplePadded.cn samplePadded.upn samplePadded.enqueuedAt =
      passwordAAD "b11001" "b11001@example.edu" sampleReading.utc := by
    rw [passwordAAD, passwordAAD, hcn, hupn]
    rfl
  rw [haad]
  have hlen : (List.replicate 12 7 : Bytes).length = sampleCodec.aead.nonceSize := by decide
  refine (sampleCodec.decrypt_sealed hlen _ _).trans ?_
  rw [sampleCodec.aead.openBytes_sealBytes _ _ _ hlen]

theorem sealsWith_sampleSubmission : SealsWith sampleCodec
    (fun _ ciphertext aad => ∃ plaintext, ciphertext = clearHeader aad ++ plaintext)
    sampleSubmission := by
  intro plaintext aad r mem
  obtain ⟨ctxErr, random, hr⟩ := answeredBy_sampleSubmission.encrypt plaintext aad r mem
  exact ⟨ctxErr, random, hr, fun nonce _ => ⟨plaintext, rfl⟩⟩

/-- The padded message opens, and its password goes to the account of the submitted one. -/
theorem not_redirected_padded : samplePadded.upn ≠ "b11001@example.edu" ∧ ∃ ptr,
    decodePasswordSyncMessage .flat (some ptr) = .ok samplePadded ∧
    (∃ r, Exec (processMessage .flat (newWorker 1 0 0 []) (some ptr)) (samplePaddedRun ptr) r) ∧
    WritesOnlyTo "b11001@example.edu" (samplePaddedRun ptr) := by
  obtain ⟨body, hbody⟩ : ∃ body, samplePadded.marshal .flat = .ok body :=
    PasswordSyncMessage.exists_marshal .flat rfl (by decide +kernel)
  have decoded : decodePasswordSyncMessage .flat (some ⟨0, ⟨body, passwordSyncKind⟩⟩) =
      .ok samplePadded := decode_of_marshal rfl rfl hbody (by decide +kernel)
  have run : Exec (processMessage .flat (newWorker 1 0 0 []) (some ⟨0, ⟨body, passwordSyncKind⟩⟩))
      (samplePaddedRun ⟨0, ⟨body, passwordSyncKind⟩⟩)
      (some (.wrap "complete worker message" (.new "lock lost"))) := by
    rw [processMessage, decoded]
    exact .call _ _ _ <| .call _ _ _ <| .call _ _ _ <| .call _ _ _ <| .call _ _ _ <|
      .call _ _ _ <| .refl _
  have opens : OpensWith sampleCodec (samplePaddedRun ⟨0, ⟨body, passwordSyncKind⟩⟩) := by
    intro env aad r mem
    simp only [samplePaddedRun, List.mem_cons, List.not_mem_nil, or_false] at mem
    rcases mem with mem | mem | mem | mem | mem | mem
    · obtain ⟨rfl, rfl, rfl⟩ := WorkerEvent.decrypted_inj mem
      exact ⟨none, decrypt_samplePadded⟩
    all_goals exact absurd (congrArg Event.call mem) (by simp)
  have sent : .sent (sampleStamped sampleReading) none ∈ sampleSubmission := by
    simp [sampleSubmission]
  have domain : '\n' ∉ sampleService.primaryDomain.toList := by decide
  refine ⟨by decide, _, decoded, ⟨_, run⟩, ?_⟩
  exact (not_redirected exec_sampleSubmission sent domain sealsWith_sampleSubmission ideal_clear
    decoded rfl run opens List.mem_cons_self).2.2.2

end PasswordHook
