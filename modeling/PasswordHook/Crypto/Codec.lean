import PasswordHook.Go.Errors
import PasswordHook.Go.Text
import PasswordHook.Lib.Base64

/-!
# The password codec

Package `passwordcrypto`: the password travels sealed with an AEAD, ciphertext and nonce in base64.
The AEAD itself (AES-256-GCM in the service) is a parameter.
-/

namespace PasswordHook

/-- `cipher.AEAD`: opening with the nonce and data of the sealing gives the plaintext back. -/
structure Aead where
  nonceSize : ℕ
  sealBytes : (nonce plaintext aad : Bytes) → Bytes
  openBytes : (nonce ciphertext aad : Bytes) → Option Bytes
  nonceSize_pos : 0 < nonceSize
  /-- A sealed text carries a tag. -/
  sealBytes_ne_nil : ∀ nonce plaintext aad, sealBytes nonce plaintext aad ≠ []
  openBytes_sealBytes : ∀ nonce plaintext aad, nonce.length = nonceSize →
    openBytes nonce (sealBytes nonce plaintext aad) aad = some plaintext

/-- What `Aead.clear` puts before a text: the associated data, after its length. -/
def clearHeader (aad : Bytes) : Bytes := List.replicate aad.length 1 ++ 0 :: aad

/-- An AEAD that binds a text to its associated data but does not hide it. -/
def Aead.clear : Aead where
  nonceSize := 12
  sealBytes _ plaintext aad := clearHeader aad ++ plaintext
  openBytes _ ciphertext aad :=
    if clearHeader aad <+: ciphertext then some (ciphertext.drop (clearHeader aad).length) else none
  nonceSize_pos := by decide
  sealBytes_ne_nil _ _ _ := by simp [clearHeader]
  openBytes_sealBytes _ plaintext aad _ := by
    rw [if_pos (List.prefix_append _ _), List.drop_left]

def algorithmAES256GCM : String := "AES-256-GCM"

structure Envelope where
  ciphertext : String
  nonce : String
  keyID : String
  algorithm : String
  deriving DecidableEq

/-- A `Codec`; its constructor refuses an empty key id. -/
structure Codec where
  aead : Aead
  keyID : String
  keyID_ne : keyID ≠ ""

/-- `NewCodecFromBase64`, with `gcm` the AES-GCM of a key of 32 bytes. -/
def newCodecFromBase64 (gcm : Bytes → Aead) (keyB64 keyID : String) : Except Err Codec :=
  match base64Decode keyB64.toList with
  | none => .error (.wrap "decode password encryption key" (.new "illegal base64 data"))
  | some key =>
    if key.length ≠ 32 then
      .error (.new s!"password encryption key must decode to 32 bytes, got {key.length}")
    else if h : keyID = "" then .error (.new "password encryption key id is required")
    else .ok ⟨gcm key, keyID, h⟩

def base64Text (bs : Bytes) : String := String.ofList (base64Encode bs)

namespace Codec

variable (codec : Codec)

/-- `Codec.Encrypt`: `ctxErr` is `ctx.Err()`, `random` what reading the nonce from the random source
gives. -/
def encrypt (ctxErr : Option Err)
    (random : Except Err { bs : Bytes // bs.length = codec.aead.nonceSize })
    (plaintext aad : Bytes) : Except Err Envelope :=
  match ctxErr with
  | some err => .error err
  | none =>
    match random with
    | .error err => .error (.wrap "generate password nonce" err)
    | .ok nonce =>
      .ok
        { ciphertext := base64Text (codec.aead.sealBytes nonce plaintext aad)
          nonce := base64Text nonce
          keyID := codec.keyID
          algorithm := algorithmAES256GCM }

/-- `Codec.Decrypt`; without a result where `Open` panics, which it does on a nonce of another
length than `NonceSize`. -/
def decrypt (ctxErr : Option Err) (env : Envelope) (aad : Bytes) : Option (Except Err Bytes) :=
  match ctxErr with
  | some err => some (.error err)
  | none =>
    if env.algorithm ≠ algorithmAES256GCM then
      some (.error (.new ("unsupported password encryption algorithm \"" ++ env.algorithm ++ "\"")))
    else if env.keyID ≠ codec.keyID then
      some (.error (.new ("unsupported password encryption key id \"" ++ env.keyID ++ "\"")))
    else
      match base64Decode env.nonce.toList with
      | none => some (.error (.wrap "decode password nonce" (.new "illegal base64 data")))
      | some nonce =>
        match base64Decode env.ciphertext.toList with
        | none => some (.error (.wrap "decode password ciphertext" (.new "illegal base64 data")))
        | some ciphertext =>
          if nonce.length ≠ codec.aead.nonceSize then none
          else
            match codec.aead.openBytes nonce ciphertext aad with
            | none => some (.error (.new "decrypt password payload failed"))
            | some plaintext => some (.ok plaintext)

end Codec

/-- `ZeroBytes` -/
def zeroBytes (buf : Bytes) : Bytes := buf.map fun _ => 0

/-! ## What a codec does with its own envelopes -/

theorem base64Decode_base64Text (bs : Bytes) : base64Decode (base64Text bs).toList = some bs := by
  rw [base64Text, String.toList_ofList, base64Decode_encode]

/-- A base64 text of some bytes is not blank. -/
theorem trimSpace_base64Text {bs : Bytes} (h : bs ≠ []) : trimSpace (base64Text bs) ≠ "" := by
  obtain ⟨c, cs, hc⟩ := List.exists_cons_of_ne_nil (base64Encode_ne_nil h)
  have hmem : c ∈ base64Encode bs := by rw [hc]; exact List.mem_cons_self
  obtain ⟨-, -, h₁, h₂⟩ := base64Encode_plain hmem
  apply trimSpace_ne_empty (c := c)
  · rw [base64Text, String.toList_ofList]
    exact hmem
  · exact isSpace_of_toNat h₁ h₂

/-- An envelope the codec made, with the nonce and the plaintext it holds. -/
theorem Codec.encrypt_eq_ok {codec : Codec} {ctxErr : Option Err}
    {random : Except Err { bs : Bytes // bs.length = codec.aead.nonceSize }}
    {plaintext aad : Bytes} {env : Envelope}
    (h : codec.encrypt ctxErr random plaintext aad = .ok env) :
    ∃ nonce : { bs : Bytes // bs.length = codec.aead.nonceSize }, random = .ok nonce ∧
      env = ⟨base64Text (codec.aead.sealBytes nonce plaintext aad), base64Text nonce, codec.keyID,
        algorithmAES256GCM⟩ := by
  unfold Codec.encrypt at h
  split at h
  · exact absurd h (by simp)
  · split at h
    · exact absurd h (by simp)
    · rename_i nonce
      exact ⟨nonce, rfl, (Except.ok.inj h).symm⟩

/-- Decrypting an envelope of the codec opens what was sealed. -/
theorem Codec.decrypt_sealed (codec : Codec) {nonce : Bytes}
    (hn : nonce.length = codec.aead.nonceSize) (sealedText aad : Bytes) :
    codec.decrypt none
        ⟨base64Text sealedText, base64Text nonce, codec.keyID, algorithmAES256GCM⟩ aad =
      match codec.aead.openBytes nonce sealedText aad with
      | none => some (.error (.new "decrypt password payload failed"))
      | some plaintext => some (.ok plaintext) := by
  simp only [Codec.decrypt, ne_eq, not_true_eq_false, if_false, base64Decode_base64Text, hn]

/-- Decrypting succeeds only if the AEAD opens the decoded ciphertext. -/
theorem Codec.decrypt_eq_ok {codec : Codec} {ctxErr : Option Err} {env : Envelope}
    {aad plaintext : Bytes} (h : codec.decrypt ctxErr env aad = some (.ok plaintext)) :
    ∃ nonce ciphertext, base64Decode env.nonce.toList = some nonce ∧
      base64Decode env.ciphertext.toList = some ciphertext ∧
      codec.aead.openBytes nonce ciphertext aad = some plaintext := by
  unfold Codec.decrypt at h
  split at h
  · exact absurd h (by simp)
  split_ifs at h
  · exact absurd h (by simp)
  · exact absurd h (by simp)
  split at h
  · exact absurd h (by simp)
  rename_i nonce hnonce
  split at h
  · exact absurd h (by simp)
  rename_i ciphertext hciphertext
  split_ifs at h
  split at h
  · exact absurd h (by simp)
  rename_i opened hopened
  obtain rfl := Except.ok.inj (Option.some.inj h)
  exact ⟨nonce, ciphertext, hnonce, hciphertext, hopened⟩

/-- An envelope makes `Decrypt` panic that has the right algorithm and key, and a nonce of the wrong
length. -/
theorem Codec.decrypt_eq_none_iff {codec : Codec} {ctxErr : Option Err} {env : Envelope}
    {aad : Bytes} :
    codec.decrypt ctxErr env aad = none ↔ ctxErr = none ∧ env.algorithm = algorithmAES256GCM ∧
      env.keyID = codec.keyID ∧ ∃ nonce ciphertext, base64Decode env.nonce.toList = some nonce ∧
        base64Decode env.ciphertext.toList = some ciphertext ∧
        nonce.length ≠ codec.aead.nonceSize := by
  constructor
  · intro h
    unfold Codec.decrypt at h
    split at h
    · exact absurd h (by simp)
    split_ifs at h with halgorithm hkey
    split at h
    · exact absurd h (by simp)
    rename_i nonce hnonce
    split at h
    · exact absurd h (by simp)
    rename_i ciphertext hciphertext
    split_ifs at h with hlength
    · exact ⟨rfl, not_not.1 halgorithm, not_not.1 hkey, nonce, ciphertext, hnonce,
        hciphertext, hlength⟩
    · split at h <;> exact absurd h (by simp)
  · rintro ⟨rfl, halgorithm, hkey, nonce, ciphertext, hnonce, hciphertext, hlength⟩
    simp only [Codec.decrypt, halgorithm, hkey, ne_eq, not_true_eq_false, if_false,
      hnonce, hciphertext, if_pos hlength]

/-! ## A codec -/

theorem sampleKeyID_ne : "k1" ≠ "" := by decide

def sampleCodec : Codec := ⟨.clear, "k1", sampleKeyID_ne⟩

end PasswordHook
