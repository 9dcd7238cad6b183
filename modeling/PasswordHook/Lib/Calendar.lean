import Mathlib

/-!
# The proleptic Gregorian calendar

Instants are nanoseconds since January 1 of year 1, 00:00:00.  `civilOf` splits an instant into
year, month, day and time of day, `Civil.nano` is its inverse, and for valid dates the order of the
instants is the lexicographic order of the fields (`fields_lt_fields_iff`).
-/

namespace PasswordHook

/-! ## Years and days -/

def isLeap (y : ℤ) : Bool := y % 4 = 0 && (y % 100 ≠ 0 || y % 400 = 0)

/-- Days from January 1 of year 1 to January 1 of year `y`. -/
def daysBeforeYear (y : ℤ) : ℤ := 365 * (y - 1) + (y - 1) / 4 - (y - 1) / 100 + (y - 1) / 400

def daysInYear (y : ℤ) : ℤ := if isLeap y then 366 else 365

/-- The year of a day number, by cycles of 400, 100, 4 and 1 years. -/
def yearOfDay (n : ℤ) : ℤ :=
  let d := n % 146097
  let h := min (d / 36524) 3
  let d := d - 36524 * h
  let q := d / 1461
  let d := d - 1461 * q
  400 * (n / 146097) + 100 * h + 4 * q + min (d / 365) 3 + 1

/-- Years by their cycles: `a` of 400 years, `b` of 100, `c` of 4 and `d` single years. -/
theorem daysBeforeYear_cycles {a b c d : ℤ} (hb : 0 ≤ b ∧ b ≤ 3) (hc : 0 ≤ c ∧ c ≤ 24)
    (hd : 0 ≤ d ∧ d ≤ 3) :
    daysBeforeYear (400 * a + 100 * b + 4 * c + d + 1) =
      146097 * a + 36524 * b + 1461 * c + 365 * d := by
  have h₁ : (400 * a + 100 * b + 4 * c + d + 1 - 1) / 4 = 100 * a + 25 * b + c := by omega
  have h₂ : (400 * a + 100 * b + 4 * c + d + 1 - 1) / 100 = 4 * a + b := by omega
  have h₃ : (400 * a + 100 * b + 4 * c + d + 1 - 1) / 400 = a := by omega
  rw [daysBeforeYear, h₁, h₂, h₃]
  ring

theorem isLeap_cycles {a b c d : ℤ} (hb : 0 ≤ b ∧ b ≤ 3) (hc : 0 ≤ c ∧ c ≤ 24)
    (hd : 0 ≤ d ∧ d ≤ 3) :
    isLeap (400 * a + 100 * b + 4 * c + d + 1) = true ↔ d = 3 ∧ (c ≠ 24 ∨ b = 3) := by
  simp only [isLeap, Bool.and_eq_true, decide_eq_true_eq, Bool.or_eq_true]
  omega

theorem exists_cycles (y : ℤ) : ∃ a b c d : ℤ, y = 400 * a + 100 * b + 4 * c + d + 1 ∧
    (0 ≤ b ∧ b ≤ 3) ∧ (0 ≤ c ∧ c ≤ 24) ∧ (0 ≤ d ∧ d ≤ 3) :=
  ⟨(y - 1) / 400, (y - 1) % 400 / 100, (y - 1) % 100 / 4, (y - 1) % 4, by omega, by omega,
    by omega, by omega⟩

theorem daysBeforeYear_succ (y : ℤ) : daysBeforeYear (y + 1) = daysBeforeYear y + daysInYear y := by
  obtain ⟨a, b, c, d, rfl, hb, hc, hd⟩ := exists_cycles y
  have hleap := isLeap_cycles (a := a) hb hc hd
  rw [daysBeforeYear_cycles hb hc hd, daysInYear]
  by_cases h₁ : d = 3
  · by_cases h₂ : c = 24
    · by_cases h₃ : b = 3
      · rw [if_pos (hleap.2 ⟨h₁, .inr h₃⟩), show 400 * a + 100 * b + 4 * c + d + 1 + 1 =
          400 * (a + 1) + 100 * 0 + 4 * 0 + 0 + 1 by omega, daysBeforeYear_cycles (by omega)
          (by omega) (by omega)]
        omega
      · rw [if_neg (fun h => by have := hleap.1 h; omega),
          show 400 * a + 100 * b + 4 * c + d + 1 + 1 =
          400 * a + 100 * (b + 1) + 4 * 0 + 0 + 1 by omega, daysBeforeYear_cycles (by omega)
          (by omega) (by omega)]
        omega
    · rw [if_pos (hleap.2 ⟨h₁, .inl h₂⟩), show 400 * a + 100 * b + 4 * c + d + 1 + 1 =
        400 * a + 100 * b + 4 * (c + 1) + 0 + 1 by omega, daysBeforeYear_cycles hb
        (by omega) (by omega)]
      omega
  · rw [if_neg (fun h => h₁ (hleap.1 h).1), show 400 * a + 100 * b + 4 * c + d + 1 + 1 =
      400 * a + 100 * b + 4 * c + (d + 1) + 1 by omega, daysBeforeYear_cycles hb hc (by omega)]
    omega

theorem daysBeforeYear_mono {y y' : ℤ} (h : y < y') :
    daysBeforeYear y + daysInYear y ≤ daysBeforeYear y' := by
  rw [← daysBeforeYear_succ]
  simp only [daysBeforeYear]
  omega

/-- A day lies within its year. -/
theorem daysBeforeYear_yearOfDay (n : ℤ) :
    daysBeforeYear (yearOfDay n) ≤ n ∧
      n < daysBeforeYear (yearOfDay n) + daysInYear (yearOfDay n) := by
  unfold yearOfDay
  extract_lets d h d' q d''
  have hh : 0 ≤ h ∧ h ≤ 3 := by omega
  have hd' : 0 ≤ d' ∧ d' < 36525 ∧ (d' = 36524 → h = 3) := by omega
  have hq : 0 ≤ q ∧ q ≤ 24 := by omega
  have hy : 0 ≤ min (d'' / 365) 3 ∧ min (d'' / 365) 3 ≤ 3 := by omega
  have hleap := isLeap_cycles (a := n / 146097) hh hq hy
  rw [daysBeforeYear_cycles hh hq hy, daysInYear]
  split_ifs with hl
  · omega
  · rw [hleap] at hl
    omega

/-! ## Months -/

/-- Days of the year before the month `m`. -/
def daysBeforeMonth (leap : Bool) (m : ℕ) : ℕ :=
  [0, 0, 31, 59, 90, 120, 151, 181, 212, 243, 273, 304, 334, 365].getD m 0 +
    if leap && 2 < m then 1 else 0

def daysIn (leap : Bool) (m : ℕ) : ℕ := daysBeforeMonth leap (m + 1) - daysBeforeMonth leap m

/-- The month of a day of the year, counted from 0. -/
def monthOfDay (leap : Bool) (d : ℕ) : ℕ :=
  ((List.range 13).filter fun m => 0 < m && daysBeforeMonth leap m ≤ d).length

theorem monthOfDay_spec (leap : Bool) {d : ℕ} (h : d < if leap then 366 else 365) :
    1 ≤ monthOfDay leap d ∧ monthOfDay leap d ≤ 12 ∧ daysBeforeMonth leap (monthOfDay leap d) ≤ d ∧
      d < daysBeforeMonth leap (monthOfDay leap d) + daysIn leap (monthOfDay leap d) := by
  have checked : ∀ leap : Bool, ∀ d : Fin 366, d.val < (if leap then 366 else 365) →
      1 ≤ monthOfDay leap d ∧ monthOfDay leap d ≤ 12 ∧
        daysBeforeMonth leap (monthOfDay leap d) ≤ d ∧
        d < daysBeforeMonth leap (monthOfDay leap d) + daysIn leap (monthOfDay leap d) := by
    decide +kernel
  exact checked leap ⟨d, by split_ifs at h <;> omega⟩ h

theorem daysBeforeMonth_mono (leap : Bool) {m m' : ℕ} (h : m < m') (hm : 1 ≤ m) (hm' : m' ≤ 12) :
    daysBeforeMonth leap m + daysIn leap m ≤ daysBeforeMonth leap m' := by
  have checked : ∀ leap : Bool, ∀ m m' : Fin 13, m < m' → 1 ≤ m.val →
      daysBeforeMonth leap m + daysIn leap m ≤ daysBeforeMonth leap m' := by
    decide +kernel
  exact checked leap ⟨m, by omega⟩ ⟨m', by omega⟩ h hm

theorem daysBeforeMonth_add_daysIn_le (leap : Bool) {m : ℕ} (h₁ : 1 ≤ m) (h₂ : m ≤ 12) :
    daysBeforeMonth leap m + daysIn leap m ≤ if leap then 366 else 365 := by
  have checked : ∀ leap : Bool, ∀ m : Fin 13, 1 ≤ m.val →
      daysBeforeMonth leap m + daysIn leap m ≤ if leap then 366 else 365 := by
    decide
  exact checked leap ⟨m, by omega⟩ h₁

theorem daysIn_le (leap : Bool) {m : ℕ} (h₂ : m ≤ 12) : daysIn leap m ≤ 31 := by
  have checked : ∀ leap : Bool, ∀ m : Fin 13, daysIn leap m ≤ 31 := by decide
  exact checked leap ⟨m, by omega⟩

/-! ## Dates with time of day -/

/-- A date with the time of day. -/
@[ext] structure Civil where
  year : ℤ
  month : ℕ
  day : ℕ
  hour : ℕ
  minute : ℕ
  second : ℕ
  nanosecond : ℕ
  deriving DecidableEq

/-- Every field lies in its range, the day in that of its month. -/
structure Civil.Valid (c : Civil) : Prop where
  month_pos : 1 ≤ c.month
  month_le : c.month ≤ 12
  day_pos : 1 ≤ c.day
  day_le : c.day ≤ daysIn (isLeap c.year) c.month
  hour_lt : c.hour < 24
  minute_lt : c.minute < 60
  second_lt : c.second < 60
  nanosecond_lt : c.nanosecond < 10 ^ 9

instance (c : Civil) : Decidable c.Valid :=
  decidable_of_iff ((1 ≤ c.month ∧ c.month ≤ 12) ∧
      (1 ≤ c.day ∧ c.day ≤ daysIn (isLeap c.year) c.month) ∧ c.hour < 24 ∧ c.minute < 60 ∧
      c.second < 60 ∧ c.nanosecond < 10 ^ 9)
    ⟨fun ⟨⟨h₁, h₂⟩, ⟨h₃, h₄⟩, h₅, h₆, h₇, h₈⟩ => ⟨h₁, h₂, h₃, h₄, h₅, h₆, h₇, h₈⟩,
      fun h => ⟨⟨h.1, h.2⟩, ⟨h.3, h.4⟩, h.5, h.6, h.7, h.8⟩⟩

/-- The number of the day since January 1 of year 1. -/
def Civil.dayNumber (c : Civil) : ℤ :=
  daysBeforeYear c.year + daysBeforeMonth (isLeap c.year) c.month + (c.day - 1)

/-- Nanoseconds since midnight. -/
def Civil.nanoOfDay (c : Civil) : ℤ :=
  ((c.hour * 60 + c.minute) * 60 + c.second) * 10 ^ 9 + c.nanosecond

/-- The instant of a date. -/
def Civil.nano (c : Civil) : ℤ := c.dayNumber * (86400 * 10 ^ 9) + c.nanoOfDay

/-- The date of an instant. -/
def civilOf (n : ℤ) : Civil :=
  let days := n / (86400 * 10 ^ 9)
  let rest := (n % (86400 * 10 ^ 9)).toNat
  let year := yearOfDay days
  let yday := (days - daysBeforeYear year).toNat
  let month := monthOfDay (isLeap year) yday
  { year := year
    month := month
    day := yday - daysBeforeMonth (isLeap year) month + 1
    hour := rest / (3600 * 10 ^ 9)
    minute := rest / (60 * 10 ^ 9) % 60
    second := rest / 10 ^ 9 % 60
    nanosecond := rest % 10 ^ 9 }

theorem yday_lt (n : ℤ) :
    (n - daysBeforeYear (yearOfDay n)).toNat < if isLeap (yearOfDay n) then 366 else 365 := by
  have h := daysBeforeYear_yearOfDay n
  unfold daysInYear at h
  split_ifs at h ⊢ <;> omega

theorem civilOf_valid (n : ℤ) : (civilOf n).Valid := by
  obtain ⟨h₁, h₂, h₃, h₄⟩ := monthOfDay_spec _ (yday_lt (n / (86400 * 10 ^ 9)))
  refine ⟨h₁, h₂, ?_, ?_, ?_, ?_, ?_, ?_⟩ <;> simp only [civilOf] <;> omega

theorem nano_civilOf (n : ℤ) : (civilOf n).nano = n := by
  obtain ⟨-, -, h₃, -⟩ := monthOfDay_spec _ (yday_lt (n / (86400 * 10 ^ 9)))
  have hy := (daysBeforeYear_yearOfDay (n / (86400 * 10 ^ 9))).1
  have hday : (civilOf n).dayNumber = n / (86400 * 10 ^ 9) := by
    simp only [Civil.dayNumber, civilOf]
    omega
  have hrest : (civilOf n).nanoOfDay = n % (86400 * 10 ^ 9) := by
    simp only [Civil.nanoOfDay, civilOf]
    omega
  rw [Civil.nano, hday, hrest]
  omega

/-! ## Order -/

theorem Civil.Valid.dayNumber_bounds {c : Civil} (h : c.Valid) :
    daysBeforeYear c.year ≤ c.dayNumber ∧
      c.dayNumber < daysBeforeYear c.year + daysInYear c.year := by
  have h₁ := daysBeforeMonth_add_daysIn_le (isLeap c.year) h.month_pos h.month_le
  have h₂ := h.day_pos
  have h₃ := h.day_le
  unfold Civil.dayNumber daysInYear
  split_ifs at h₁ ⊢ <;> omega

theorem Civil.Valid.nanoOfDay_bounds {c : Civil} (h : c.Valid) :
    0 ≤ c.nanoOfDay ∧ c.nanoOfDay < 86400 * 10 ^ 9 := by
  have h₁ := h.hour_lt
  have h₂ := h.minute_lt
  have h₃ := h.second_lt
  have h₄ := h.nanosecond_lt
  unfold Civil.nanoOfDay
  omega

/-- An earlier year, month or day is a smaller day number. -/
theorem Civil.dayNumber_lt {c c' : Civil} (h : c.Valid) (h' : c'.Valid)
    (hlt : c.year < c'.year ∨ (c.year = c'.year ∧
      (c.month < c'.month ∨ (c.month = c'.month ∧ c.day < c'.day)))) :
    c.dayNumber < c'.dayNumber := by
  rcases hlt with hy | ⟨hy, hm | ⟨hm, hd⟩⟩
  · have h₁ := h.dayNumber_bounds
    have h₂ := h'.dayNumber_bounds
    have h₃ := daysBeforeYear_mono hy
    omega
  · have h₁ := daysBeforeMonth_mono (isLeap c.year) hm h.month_pos h'.month_le
    have h₂ := h.day_le
    have h₃ := h'.day_pos
    unfold Civil.dayNumber
    rw [← hy]
    omega
  · unfold Civil.dayNumber
    rw [hy, hm]
    have h₁ := h.day_pos
    omega

/-- The fields of a date whose year is not negative, most significant first. -/
def Civil.fields (c : Civil) : List ℕ :=
  [c.year.toNat, c.month, c.day, c.hour, c.minute, c.second, c.nanosecond]

theorem fields_lt_imp {c c' : Civil} (h : c.Valid) (h' : c'.Valid) (hy : 0 ≤ c.year)
    (hy' : 0 ≤ c'.year) (hlt : c.fields < c'.fields) : c.nano < c'.nano := by
  have hn := h.nanoOfDay_bounds
  have hn' := h'.nanoOfDay_bounds
  have hday := Civil.dayNumber_lt h h'
  simp only [Civil.fields, List.cons_lt_cons_iff, List.lt_irrefl, and_false, or_false] at hlt
  by_cases hd : c.year = c'.year ∧ c.month = c'.month ∧ c.day = c'.day
  · obtain ⟨e₁, e₂, e₃⟩ := hd
    have hdn : c.dayNumber = c'.dayNumber := by
      unfold Civil.dayNumber
      rw [e₁, e₂, e₃]
    have hs : c.nanoOfDay < c'.nanoOfDay := by
      have := h.nanosecond_lt
      have := h.second_lt
      have := h.minute_lt
      unfold Civil.nanoOfDay
      omega
    unfold Civil.nano
    omega
  · have hlt' : c.dayNumber < c'.dayNumber := hday (by omega)
    unfold Civil.nano
    omega

/-- The order of valid dates is the lexicographic order of their fields. -/
theorem fields_lt_fields_iff {c c' : Civil} (h : c.Valid) (h' : c'.Valid) (hy : 0 ≤ c.year)
    (hy' : 0 ≤ c'.year) : c.fields < c'.fields ↔ c.nano < c'.nano := by
  refine ⟨fields_lt_imp h h' hy hy', fun hlt => ?_⟩
  rcases lt_trichotomy c.fields c'.fields with hf | hf | hf
  · exact hf
  · have hyear : c.year = c'.year := by
      simp only [Civil.fields, List.cons.injEq] at hf
      omega
    have : c = c' := by
      cases c
      cases c'
      simp_all [Civil.fields]
    exact absurd hlt (by rw [this]; exact lt_irrefl _)
  · exact absurd (fields_lt_imp h' h hy' hy hf) (by omega)

end PasswordHook
