import Mathlib

/-!
# Base64 with padding

The standard alphabet, four characters for three bytes.  Decoding skips line breaks and accepts
padding at the end only; it inverts encoding.
-/

namespace PasswordHook

def base64Alphabet : List Char :=
  "ABCDEFGHIJKLMNOPQRSTUVWXYZabcdefghijklmnopqrstuvwxyz0123456789+/".toList

def base64Char (n : ℕ) : Char := base64Alphabet.getD n '='

/-- The value of a character of the alphabet. -/
def base64Value (c : Char) : Option ℕ :=
  let i := base64Alphabet.idxOf c
  if i < 64 then some i else none

theorem base64Value_base64Char {n : ℕ} (h : n < 64) : base64Value (base64Char n) = some n := by
  have checked : ∀ n : Fin 64, base64Value (base64Char n) = some n.val := by decide +kernel
  exact checked ⟨n, h⟩

/-- A character of the alphabet is neither padding nor skipped, and is no white space. -/
theorem base64Char_plain {n : ℕ} (h : n < 64) :
    base64Char n ≠ '=' ∧ base64Char n ≠ '\r' ∧ base64Char n ≠ '\n' ∧ 33 ≤ (base64Char n).toNat ∧
      (base64Char n).toNat < 128 := by
  have checked : ∀ n : Fin 64, base64Char n ≠ '=' ∧ base64Char n ≠ '\r' ∧ base64Char n ≠ '\n' ∧
      33 ≤ (base64Char n).toNat ∧ (base64Char n).toNat < 128 := by decide +kernel
  exact checked ⟨n, h⟩

def base64Encode : List UInt8 → List Char
  | [] => []
  | [a] => [base64Char (a.toNat / 4), base64Char (a.toNat % 4 * 16), '=', '=']
  | [a, b] =>
    [base64Char (a.toNat / 4), base64Char (a.toNat % 4 * 16 + b.toNat / 16),
      base64Char (b.toNat % 16 * 4), '=']
  | a :: b :: c :: bs =>
    base64Char (a.toNat / 4) :: base64Char (a.toNat % 4 * 16 + b.toNat / 16) ::
      base64Char (b.toNat % 16 * 4 + c.toNat / 64) :: base64Char (c.toNat % 64) :: base64Encode bs

/-- The bytes of a text without line breaks, a group of four characters at a time. -/
def base64Groups : List Char → Option (List UInt8)
  | [] => some []
  | a :: b :: c :: d :: s => do
    let x ← base64Value a
    let y ← base64Value b
    if d = '=' then
      if s ≠ [] then none
      else if c = '=' then return [UInt8.ofNat (x * 4 + y / 16)]
      else
        let z ← base64Value c
        return [UInt8.ofNat (x * 4 + y / 16), UInt8.ofNat (y % 16 * 16 + z / 4)]
    else
      let z ← base64Value c
      let w ← base64Value d
      let bs ← base64Groups s
      return UInt8.ofNat (x * 4 + y / 16) :: UInt8.ofNat (y % 16 * 16 + z / 4) ::
        UInt8.ofNat (z % 4 * 64 + w) :: bs
  | _ => none

def base64Decode (s : List Char) : Option (List UInt8) :=
  base64Groups (s.filter fun c => c ≠ '\r' ∧ c ≠ '\n')

/-! ## Decoding inverts encoding -/

theorem base64_char_of_mem {bs : List UInt8} {c : Char} (h : c ∈ base64Encode bs) :
    c = '=' ∨ ∃ n < 64, c = base64Char n := by
  induction bs using base64Encode.induct with
  | case1 => exact absurd h List.not_mem_nil
  | case2 a =>
    have ha := a.toNat_lt
    simp only [base64Encode, List.mem_cons, List.not_mem_nil, or_false] at h
    rcases h with rfl | rfl | rfl | rfl
    · exact .inr ⟨_, by omega, rfl⟩
    · exact .inr ⟨_, by omega, rfl⟩
    · exact .inl rfl
    · exact .inl rfl
  | case3 a b =>
    have ha := a.toNat_lt
    have hb := b.toNat_lt
    simp only [base64Encode, List.mem_cons, List.not_mem_nil, or_false] at h
    rcases h with rfl | rfl | rfl | rfl
    · exact .inr ⟨_, by omega, rfl⟩
    · exact .inr ⟨_, by omega, rfl⟩
    · exact .inr ⟨_, by omega, rfl⟩
    · exact .inl rfl
  | case4 a b c' bs ih =>
    have ha := a.toNat_lt
    have hb := b.toNat_lt
    have hc := c'.toNat_lt
    simp only [base64Encode, List.mem_cons] at h
    rcases h with rfl | rfl | rfl | rfl | h
    · exact .inr ⟨_, by omega, rfl⟩
    · exact .inr ⟨_, by omega, rfl⟩
    · exact .inr ⟨_, by omega, rfl⟩
    · exact .inr ⟨_, by omega, rfl⟩
    · exact ih h

/-- An encoded text holds no line break and no other white space. -/
theorem base64Encode_plain {bs : List UInt8} {c : Char} (h : c ∈ base64Encode bs) :
    c ≠ '\r' ∧ c ≠ '\n' ∧ 33 ≤ c.toNat ∧ c.toNat < 128 := by
  rcases base64_char_of_mem h with rfl | ⟨n, hn, rfl⟩
  · decide
  · exact (base64Char_plain hn).2

theorem ofNat_toNat_eq {b : UInt8} {n : ℕ} (h : n = b.toNat) : UInt8.ofNat n = b := by
  rw [h, UInt8.ofNat_toNat]

theorem base64Groups_encode (bs : List UInt8) : base64Groups (base64Encode bs) = some bs := by
  induction bs using base64Encode.induct with
  | case1 => rfl
  | case2 a =>
    have ha := a.toNat_lt
    rw [base64Encode, base64Groups, base64Value_base64Char (by omega),
      base64Value_base64Char (by omega)]
    simp only [Option.bind_eq_bind, Option.bind_some, if_true, ne_eq, not_true_eq_false, if_false,
      Option.pure_def]
    rw [ofNat_toNat_eq (b := a) (by omega)]
  | case3 a b =>
    have ha := a.toNat_lt
    have hb := b.toNat_lt
    have hpad := (base64Char_plain (n := b.toNat % 16 * 4) (by omega)).1
    rw [base64Encode, base64Groups, base64Value_base64Char (by omega),
      base64Value_base64Char (by omega), base64Value_base64Char (by omega)]
    simp only [Option.bind_eq_bind, Option.bind_some, if_true, ne_eq, not_true_eq_false, if_false,
      Option.pure_def, hpad]
    rw [ofNat_toNat_eq (b := a) (by omega), ofNat_toNat_eq (b := b) (by omega)]
  | case4 a b c bs ih =>
    have ha := a.toNat_lt
    have hb := b.toNat_lt
    have hc := c.toNat_lt
    have hpad := (base64Char_plain (n := c.toNat % 64) (by omega)).1
    rw [base64Encode, base64Groups, base64Value_base64Char (by omega),
      base64Value_base64Char (by omega), base64Value_base64Char (by omega),
      base64Value_base64Char (by omega), ih]
    simp only [Option.bind_eq_bind, Option.bind_some, if_false, Option.pure_def, hpad]
    rw [ofNat_toNat_eq (b := a) (by omega), ofNat_toNat_eq (b := b) (by omega),
      ofNat_toNat_eq (b := c) (by omega)]

theorem base64Decode_encode (bs : List UInt8) : base64Decode (base64Encode bs) = some bs := by
  have hfilter : (base64Encode bs).filter (fun c => c ≠ '\r' ∧ c ≠ '\n') = base64Encode bs := by
    rw [List.filter_eq_self]
    intro c hc
    obtain ⟨h₁, h₂, -⟩ := base64Encode_plain hc
    simp [h₁, h₂]
  rw [base64Decode, hfilter, base64Groups_encode]

theorem base64Encode_ne_nil {bs : List UInt8} (h : bs ≠ []) : base64Encode bs ≠ [] := by
  intro he
  have := base64Groups_encode bs
  rw [he] at this
  exact h (Option.some_inj.1 this).symm

end PasswordHook
