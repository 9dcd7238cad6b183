import Mathlib

/-!
# Masks of leading ones

`leading n l` is the mask of `l` bytes with `n` leading one bits.  Byte strings that agree under
such a mask agree under every shorter one (`Agree.mono`), so two masked networks with a common
member have the number of one in the other.
-/

namespace PasswordHook.Masks

/-- A byte with leading one bits. -/
def leadByte (n : ℕ) : UInt8 := if 8 ≤ n then 0xff else ~~~(0xff >>> UInt8.ofNat n)

def leading : ℕ → ℕ → List UInt8
  | _, 0 => []
  | n, l + 1 => leadByte n :: leading (n - 8) l

/-- The bits under a mask. -/
def masked (m x : List UInt8) : List UInt8 := x.zipWith (· &&& ·) m

/-- The byte strings have the same bits under the mask. -/
def Agree (m x y : List UInt8) : Prop := masked m x = masked m y

instance (m x y : List UInt8) : Decidable (Agree m x y) := inferInstanceAs (Decidable (_ = _))

@[simp] theorem length_leading (n l : ℕ) : (leading n l).length = l := by
  induction l generalizing n with
  | zero => rfl
  | succ l ih => rw [leading, List.length_cons, ih]

theorem drop_leading (n k l : ℕ) : (leading n (k + l)).drop k = leading (n - 8 * k) l := by
  induction k generalizing n with
  | zero => rw [Nat.zero_add, Nat.mul_zero, Nat.sub_zero, List.drop_zero]
  | succ k ih =>
    rw [Nat.succ_add, leading, List.drop_succ_cons, ih]
    congr 1
    omega

theorem leadByte_and {a b : ℕ} (h : a ≤ b) : leadByte b &&& leadByte a = leadByte a := by
  have checked : ∀ a b : Fin 9, a ≤ b → leadByte b &&& leadByte a = leadByte a := by decide
  have hmin : ∀ n, leadByte n = leadByte (min n 8) := by
    intro n
    by_cases hn : 8 ≤ n
    · rw [min_eq_right hn, leadByte, if_pos hn]
      rfl
    · rw [min_eq_left (by omega)]
  have hle : (⟨min a 8, by omega⟩ : Fin 9) ≤ ⟨min b 8, by omega⟩ := by
    rw [Fin.mk_le_mk]
    omega
  rw [hmin a, hmin b]
  exact checked _ _ hle

/-- A shorter mask takes of the bits under a longer one what it takes of the whole. -/
theorem masked_masked {a b : ℕ} (h : a ≤ b) (l : ℕ) (x : List UInt8) :
    masked (leading a l) (masked (leading b l) x) = masked (leading a l) x := by
  induction l generalizing a b x with
  | zero => simp [masked, leading]
  | succ l ih =>
    cases x with
    | nil => rfl
    | cons c x =>
      have htail := ih (a := a - 8) (b := b - 8) (by omega) x
      simp only [masked, leading, List.zipWith_cons_cons] at htail ⊢
      rw [htail, UInt8.and_assoc, leadByte_and h]

theorem Agree.mono {a b l : ℕ} (h : a ≤ b) {x y : List UInt8} (agree : Agree (leading b l) x y) :
    Agree (leading a l) x y := by
  rw [Agree, ← masked_masked h l x, ← masked_masked h l y, agree]

theorem agree_leading_zero {l : ℕ} {x y : List UInt8} (h : x.length = y.length) :
    Agree (leading 0 l) x y := by
  induction l generalizing x y with
  | zero => simp [Agree, masked, leading]
  | succ l ih =>
    cases x with
    | nil => rw [List.length_eq_zero_iff.1 h.symm, Agree]
    | cons a x =>
      cases y with
      | nil => exact absurd h (by simp)
      | cons b y =>
        have htail := ih (Nat.succ.inj h)
        have hzero : leadByte 0 = 0 := rfl
        simp only [Agree, masked, leading, List.zipWith_cons_cons] at htail ⊢
        rw [htail, hzero, UInt8.and_zero, UInt8.and_zero]

/-- Strings that differ in the first bit agree under no mask but the empty one. -/
theorem eq_zero_of_agree {n l : ℕ} {x y : List UInt8}
    (h : Agree (leading n (l + 1)) (0 :: x) (0x80 :: y)) : n = 0 := by
  have checked : ∀ n : Fin 8, 0 &&& leadByte n = 0x80 &&& leadByte n → n = 0 := by decide
  have hhead : 0 &&& leadByte n = 0x80 &&& leadByte n := (List.cons.inj h).1
  by_cases hn : 8 ≤ n
  · rw [leadByte, if_pos hn] at hhead
    exact absurd hhead (by decide)
  · exact congrArg Fin.val (checked ⟨n, by omega⟩ hhead)

/-- A masked byte has all bits only under a full byte of the mask. -/
theorem eight_le_of_and_eq {n : ℕ} {b : UInt8} (h : b &&& leadByte n = 0xff) : 8 ≤ n := by
  have checked : ∀ n : Fin 8, leadByte n &&& 1 = 0 := by decide
  by_contra hn
  have hbit : (b &&& leadByte n) &&& 1 = 0 := by
    rw [UInt8.and_assoc, checked ⟨n, by omega⟩, UInt8.and_zero]
  rw [h] at hbit
  exact absurd hbit (by decide)

theorem getElem?_leading {n l i : ℕ} (h : i < l) :
    (leading n l)[i]? = some (leadByte (n - 8 * i)) := by
  induction l generalizing n i with
  | zero => exact absurd h (Nat.not_lt_zero i)
  | succ l ih =>
    cases i with
    | zero => rfl
    | succ i =>
      rw [leading, List.getElem?_cons_succ, ih (Nat.lt_of_succ_lt_succ h)]
      congr 2
      omega

end PasswordHook.Masks
