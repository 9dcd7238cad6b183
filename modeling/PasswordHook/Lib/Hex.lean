import Mathlib

/-!
# Hexadecimal texts

Two digits a byte, written in lower case and read in either case.
-/

namespace PasswordHook

def hexEncode (bs : List UInt8) : List Char :=
  bs.flatMap fun b => [Nat.digitChar (b.toNat / 16), Nat.digitChar (b.toNat % 16)]

/-- The value of a digit of either case. -/
def fromHexChar (c : Char) : Option ℕ :=
  if '0' ≤ c ∧ c ≤ '9' then some (c.toNat - '0'.toNat)
  else if 'a' ≤ c ∧ c ≤ 'f' then some (c.toNat - 'a'.toNat + 10)
  else if 'A' ≤ c ∧ c ≤ 'F' then some (c.toNat - 'A'.toNat + 10)
  else none

/-- The bytes, or nothing for a text of odd length or with another character. -/
def hexDecode : List Char → Option (List UInt8)
  | [] => some []
  | [_] => none
  | a :: b :: s => do
    let x ← fromHexChar a
    let y ← fromHexChar b
    let bs ← hexDecode s
    return UInt8.ofNat (16 * x + y) :: bs

theorem fromHexChar_digitChar {n : ℕ} (h : n < 16) : fromHexChar (Nat.digitChar n) = some n := by
  have checked : ∀ n : Fin 16, fromHexChar (Nat.digitChar n) = some n.val := by decide
  exact checked ⟨n, h⟩

theorem hexDecode_hexEncode (bs : List UInt8) : hexDecode (hexEncode bs) = some bs := by
  induction bs with
  | nil => rfl
  | cons b bs ih =>
    have hb : b.toNat < 256 := b.toNat_lt
    have hsplit : 16 * (b.toNat / 16) + b.toNat % 16 = b.toNat := by omega
    show hexDecode
      (Nat.digitChar (b.toNat / 16) :: Nat.digitChar (b.toNat % 16) :: hexEncode bs) = _
    rw [hexDecode, fromHexChar_digitChar (by omega), fromHexChar_digitChar (by omega), ih]
    show some (UInt8.ofNat (16 * (b.toNat / 16) + b.toNat % 16) :: bs) = some (b :: bs)
    rw [hsplit, UInt8.ofNat_toNat]

theorem hexEncode_inj {bs bs' : List UInt8} (h : hexEncode bs = hexEncode bs') : bs = bs' := by
  have := congrArg hexDecode h
  rw [hexDecode_hexEncode, hexDecode_hexEncode, Option.some_inj] at this
  exact this

end PasswordHook
