import Mathlib

/-!
# Decimal fields of fixed width

`pad w n` writes `n` with exactly `w` decimal digits.  A record of such fields, each followed by a
fixed separator, is `render shape vs`.  Rendering keeps the lexicographic order of the field values
(`render_lt_render_iff`), which is what makes fixed-width text comparable as text.
-/

namespace PasswordHook

/-- The last `w` decimal digits of `n`, most significant first. -/
def pad : ℕ → ℕ → List Char
  | 0, _ => []
  | w + 1, n => pad w (n / 10) ++ [Nat.digitChar (n % 10)]

@[simp] theorem length_pad (w n : ℕ) : (pad w n).length = w := by
  induction w generalizing n with
  | zero => rfl
  | succ w ih => simp [pad, ih]

theorem digitChar_lt_iff {a b : ℕ} (ha : a < 10) (hb : b < 10) :
    Nat.digitChar a < Nat.digitChar b ↔ a < b := by
  have checked : ∀ a b : Fin 10, Nat.digitChar a < Nat.digitChar b ↔ a < b := by decide
  exact checked ⟨a, ha⟩ ⟨b, hb⟩

theorem isDigit_digitChar {a : ℕ} (ha : a < 10) : (Nat.digitChar a).isDigit = true := by
  have checked : ∀ a : Fin 10, (Nat.digitChar a).isDigit = true := by decide
  exact checked ⟨a, ha⟩

theorem isDigit_of_mem_pad {w n : ℕ} {c : Char} (h : c ∈ pad w n) : c.isDigit = true := by
  induction w generalizing n with
  | zero => simp [pad] at h
  | succ w ih =>
    rw [pad, List.mem_append, List.mem_singleton] at h
    rcases h with h | rfl
    · exact ih h
    · exact isDigit_digitChar (Nat.mod_lt _ (by decide))

/-- Comparing texts whose first parts are of one length. -/
theorem append_lt_append_iff {x y a b : List Char} (h : x.length = y.length) :
    x ++ a < y ++ b ↔ x < y ∨ (x = y ∧ a < b) := by
  induction x generalizing y with
  | nil =>
    rw [List.length_nil, eq_comm, List.length_eq_zero_iff] at h
    subst h
    simp
  | cons c x ih =>
    cases y with
    | nil => simp at h
    | cons d y =>
      rw [List.cons_append, List.cons_append, List.cons_lt_cons_iff, List.cons_lt_cons_iff,
        ih (by simpa using h), List.cons.injEq]
      tauto

theorem pad_lt_pad_iff {w n m : ℕ} (hn : n < 10 ^ w) (hm : m < 10 ^ w) :
    pad w n < pad w m ↔ n < m := by
  induction w generalizing n m with
  | zero => simp [pad] at *; omega
  | succ w ih =>
    rw [pow_succ] at hn hm
    have hn' : n / 10 < 10 ^ w := by omega
    have hm' : m / 10 < 10 ^ w := by omega
    have heq : pad w (n / 10) = pad w (m / 10) ↔ n / 10 = m / 10 := by
      constructor
      · intro h
        have h₁ := ih hn' hm'
        have h₂ := ih hm' hn'
        rw [h] at h₁ h₂
        simp only [lt_self_iff_false, false_iff] at h₁ h₂
        omega
      · intro h
        rw [h]
    have hs : ∀ a b : ℕ, [Nat.digitChar (a % 10)] < [Nat.digitChar (b % 10)] ↔ a % 10 < b % 10 := by
      intro a b
      rw [List.cons_lt_cons_iff, digitChar_lt_iff (by omega) (by omega)]
      simp
    rw [pad, pad, append_lt_append_iff (by simp), ih hn' hm', heq, hs]
    omega

theorem pad_inj {w n m : ℕ} (hn : n < 10 ^ w) (hm : m < 10 ^ w) (h : pad w n = pad w m) :
    n = m := by
  have h₁ := pad_lt_pad_iff hn hm
  have h₂ := pad_lt_pad_iff hm hn
  rw [h] at h₁ h₂
  simp only [lt_self_iff_false, false_iff] at h₁ h₂
  omega

/-! ## Reading digits -/

def digitVal (c : Char) : ℕ := c.toNat - 48

def natOfDigits (s : List Char) : ℕ := s.foldl (fun n c => 10 * n + digitVal c) 0

theorem natOfDigits_pad {w n : ℕ} (h : n < 10 ^ w) : natOfDigits (pad w n) = n := by
  have checked : ∀ a : Fin 10, digitVal (Nat.digitChar a) = a := by decide
  induction w generalizing n with
  | zero =>
    rw [pow_zero] at h
    show 0 = n
    omega
  | succ w ih =>
    have ih' := ih (n := n / 10) (by rw [pow_succ] at h; omega)
    have hd := checked ⟨n % 10, by omega⟩
    simp only [natOfDigits] at ih' hd
    rw [natOfDigits, pad, List.foldl_append, ih']
    show 10 * (n / 10) + digitVal (Nat.digitChar (n % 10)) = n
    rw [hd]
    omega

/-- Take `w` decimal digits off the text. -/
def readDigits (w : ℕ) (s : List Char) : Option (ℕ × List Char) :=
  if w ≤ s.length ∧ (s.take w).all Char.isDigit then some (natOfDigits (s.take w), s.drop w)
  else none

theorem readDigits_pad {w n : ℕ} (h : n < 10 ^ w) (s : List Char) :
    readDigits w (pad w n ++ s) = some (n, s) := by
  have htake : (pad w n ++ s).take w = pad w n := by
    rw [List.take_append_of_le_length (by simp), List.take_of_length_le (by simp)]
  have hdrop : (pad w n ++ s).drop w = s := by
    rw [List.drop_append_of_le_length (by simp), List.drop_of_length_le (by simp), List.nil_append]
  rw [readDigits, htake, hdrop, if_pos, natOfDigits_pad h]
  refine ⟨by simp, List.all_eq_true.2 fun c hc => ?_⟩
  exact isDigit_of_mem_pad hc

/-- Take the character `c` off the text. -/
def readChar (c : Char) : List Char → Option (List Char)
  | d :: s => if d = c then some s else none
  | [] => none

@[simp] theorem readChar_cons (c : Char) (s : List Char) : readChar c (c :: s) = some s := by
  simp [readChar]

/-! ## Records of fields -/

/-- Write the values, each with the width of its field and followed by the field's separator. -/
def render : List (ℕ × List Char) → List ℕ → List Char
  | (w, sep) :: shape, v :: vs => pad w v ++ (sep ++ render shape vs)
  | _, _ => []

/-- A character of a rendered text is a digit or stands between two fields. -/
theorem mem_render {shape : List (ℕ × List Char)} {vs : List ℕ} {c : Char}
    (h : c ∈ render shape vs) : c.isDigit = true ∨ ∃ field ∈ shape, c ∈ field.2 := by
  induction shape generalizing vs with
  | nil => simp [render] at h
  | cons field shape ih =>
    cases vs with
    | nil => simp [render] at h
    | cons v vs =>
      rw [render, List.mem_append, List.mem_append] at h
      rcases h with h | h | h
      · exact .inl (isDigit_of_mem_pad h)
      · exact .inr ⟨field, List.mem_cons_self, h⟩
      · rcases ih h with hdigit | ⟨field', hmem, hc⟩
        · exact .inl hdigit
        · exact .inr ⟨field', List.mem_cons_of_mem _ hmem, hc⟩

/-- One value for each field, within its width. -/
def Fits : List (ℕ × List Char) → List ℕ → Prop
  | (w, _) :: shape, v :: vs => v < 10 ^ w ∧ Fits shape vs
  | [], [] => True
  | _, _ => False

/-- Texts of one shape compare as their values do. -/
theorem render_lt_render_iff {shape : List (ℕ × List Char)} {vs vs' : List ℕ} (h : Fits shape vs)
    (h' : Fits shape vs') : render shape vs < render shape vs' ↔ vs < vs' := by
  induction shape generalizing vs vs' with
  | nil =>
    cases vs <;> cases vs' <;> simp_all [Fits, render]
  | cons f shape ih =>
    obtain ⟨w, sep⟩ := f
    cases vs with
    | nil => exact h.elim
    | cons v vs =>
      cases vs' with
      | nil => exact h'.elim
      | cons v' vs' =>
        obtain ⟨hv, h⟩ := h
        obtain ⟨hv', h'⟩ := h'
        have hpad : pad w v = pad w v' ↔ v = v' := ⟨pad_inj hv hv', fun e => by rw [e]⟩
        rw [render, render, append_lt_append_iff (by simp), pad_lt_pad_iff hv hv', hpad,
          append_lt_append_iff rfl, ih h h', List.cons_lt_cons_iff]
        simp

end PasswordHook
