import Mathlib
import PasswordHook.Lib.Calendar
import PasswordHook.Lib.Digits
import PasswordHook.Lib.Separated
import PasswordHook.Go.Time

/-!
# Texts of instants

Two layouts are in use: `redisTimeLayout`, in the status hash, and RFC 3339 with a fraction of
second, in the queue message and in the associated data of the sealed password.  The first has
fixed width and compares as the instants do; the second drops trailing zeros of the fraction and
still determines the instant.
-/

namespace PasswordHook

/-! ## Formatting -/

/-- `appendInt`: the decimal number, zero-padded to at least `w` digits. -/
def appendInt (x : ℤ) (w : ℕ) : List Char :=
  (if x < 0 then ['-'] else []) ++ pad (max w (Nat.log 10 x.natAbs + 1)) x.natAbs

/-- The date and time of day in the zone of `t`. -/
def Time.civil (t : Time) : Civil := civilOf (t.nano + t.offset * 10 ^ 9)

/-- `2006-01-02T15:04:05` -/
def appendDateTime (c : Civil) : List Char :=
  appendInt c.year 4 ++ '-' ::
    render [(2, ['-']), (2, ['T']), (2, [':']), (2, [':']), (2, [])]
      [c.month, c.day, c.hour, c.minute, c.second]

/-- `t.Format("2006-01-02T15:04:05.000000000Z")`; the layout ends in a literal `Z`. -/
def Time.formatRedis (t : Time) : String :=
  String.ofList (appendDateTime t.civil ++ '.' :: (pad 9 t.civil.nanosecond ++ ['Z']))

/-- The fraction `.999999999`: trailing zeros dropped, nothing for a whole second. -/
def appendNano (ns : ℕ) : List Char :=
  if ns = 0 then [] else '.' :: (pad 9 ns).rdropWhile (· == '0')

/-- The zone `Z07:00`. -/
def appendZone (offset : ℤ) : List Char :=
  if offset = 0 then ['Z']
  else
    let zone := offset.tdiv 60
    (if zone < 0 then '-' else '+') ::
      (appendInt (zone.natAbs / 60) 2 ++ ':' :: appendInt (zone.natAbs % 60) 2)

/-- `t.Format(time.RFC3339Nano)` -/
def Time.formatRFC3339Nano (t : Time) : String :=
  String.ofList (appendDateTime t.civil ++ (appendNano t.civil.nanosecond ++ appendZone t.offset))

/-- `t.Format(time.RFC3339)` -/
def Time.formatRFC3339 (t : Time) : String :=
  String.ofList (appendDateTime t.civil ++ appendZone t.offset)

/-! ## Parsing -/

/-- `getnum`: one or two digits, exactly two if `fixed`. -/
def getnum (fixed : Bool) (s : List Char) : Option (ℕ × List Char) :=
  match readDigits 2 s with
  | some r => some r
  | none => if fixed then none else readDigits 1 s

def parseDateTime (s : List Char) : Option (Civil × List Char) := do
  let (year, s) ← readDigits 4 s
  let s ← readChar '-' s
  let (month, s) ← getnum true s
  let s ← readChar '-' s
  let (day, s) ← getnum true s
  let s ← readChar 'T' s
  let (hour, s) ← getnum false s
  let s ← readChar ':' s
  let (minute, s) ← getnum true s
  let s ← readChar ':' s
  let (second, s) ← getnum true s
  return (⟨year, month, day, hour, minute, second, 0⟩, s)

def commaOrPeriod : List Char → Option (List Char)
  | c :: s => if c = '.' ∨ c = ',' then some s else none
  | [] => none

/-- `time.Parse(redisTimeLayout, s)` -/
def parseRedisTime (s : String) : Option Time := do
  let (c, s) ← parseDateTime s.toList
  let s ← commaOrPeriod s
  let (ns, s) ← readDigits 9 s
  let s ← readChar 'Z' s
  let c := { c with nanosecond := ns }
  if s = [] ∧ c.Valid then some ⟨c.nano, 0⟩ else none

/-- The fraction of second a text goes on with, if any, to nanoseconds. -/
def parseNanoseconds (s : List Char) : ℕ × List Char :=
  match commaOrPeriod s with
  | none => (0, s)
  | some r =>
    let digits := r.takeWhile Char.isDigit
    if digits = [] then (0, s)
    else (natOfDigits ((digits ++ List.replicate 9 '0').take 9), r.dropWhile Char.isDigit)

def parseZone : List Char → Option (ℤ × List Char)
  | 'Z' :: s => some (0, s)
  | c :: s => do
    let (hr, s) ← getnum true s
    let s ← readChar ':' s
    let (mm, s) ← getnum true s
    if 24 < hr ∨ 60 < mm then none
    else if c = '+' then some ((hr * 60 + mm) * 60, s)
    else if c = '-' then some (-((hr * 60 + mm) * 60), s)
    else none
  | [] => none

/-- `time.Parse(time.RFC3339, s)`, which reads a fraction the layout does not name. -/
def parseRFC3339 (s : String) : Option Time := do
  let (c, s) ← parseDateTime s.toList
  let (ns, s) := parseNanoseconds s
  let (offset, s) ← parseZone s
  let c := { c with nanosecond := ns }
  if s = [] ∧ c.Valid then some ⟨c.nano - offset * 10 ^ 9, offset⟩ else none

/-! ## Round trips -/

/-- The years whose number has four digits: 0 to 9999. -/
def Time.InRange (t : Time) : Prop := 0 ≤ t.utc.civil.year ∧ t.utc.civil.year ≤ 9999

instance (t : Time) : Decidable t.InRange := inferInstanceAs (Decidable (_ ∧ _))

theorem Time.civil_valid (t : Time) : t.civil.Valid := civilOf_valid _

theorem Time.nano_utc_civil (t : Time) : t.utc.civil.nano = t.nano := by
  rw [Time.civil, nano_civilOf]
  simp

theorem appendInt_of_lt {x : ℤ} (h₀ : 0 ≤ x) (h₁ : x ≤ 9999) : appendInt x 4 = pad 4 x.toNat := by
  have hlog : Nat.log 10 x.natAbs + 1 ≤ 4 := by
    have : Nat.log 10 x.natAbs ≤ Nat.log 10 9999 := Nat.log_mono_right (by omega)
    have h9 : Nat.log 10 9999 = 3 := by decide +kernel
    omega
  rw [appendInt, if_neg (by omega), max_eq_left hlog, List.nil_append,
    show x.natAbs = x.toNat by omega]

theorem getnum_pad {n : ℕ} (fixed : Bool) (h : n < 100) (s : List Char) :
    getnum fixed (pad 2 n ++ s) = some (n, s) := by
  rw [getnum, readDigits_pad (by omega)]

theorem parseDateTime_append {c : Civil} (hc : c.Valid) (h₀ : 0 ≤ c.year) (h₁ : c.year ≤ 9999)
    (s : List Char) :
    parseDateTime (appendDateTime c ++ s) = some ({ c with nanosecond := 0 }, s) := by
  have hy : c.year.toNat < 10 ^ 4 := by omega
  have hm : c.month < 100 := by have := hc.month_le; omega
  have hd : c.day < 100 := by
    have := hc.day_le
    have := daysIn_le (isLeap c.year) hc.month_le
    omega
  have hh : c.hour < 100 := by have := hc.hour_lt; omega
  have hn : c.minute < 100 := by have := hc.minute_lt; omega
  have hs : c.second < 100 := by have := hc.second_lt; omega
  simp only [parseDateTime, appendDateTime, appendInt_of_lt h₀ h₁, render, List.append_assoc,
    List.cons_append, List.nil_append, readDigits_pad hy, getnum_pad _ hm, getnum_pad _ hd,
    getnum_pad _ hh, getnum_pad _ hn, getnum_pad _ hs, readChar_cons, Option.bind_eq_bind,
    Option.bind_some, Option.pure_def, Int.toNat_of_nonneg h₀]

/-- What the status hash holds is read back as the same instant, in UTC. -/
theorem parseRedisTime_formatRedis {t : Time} (h : t.InRange) :
    parseRedisTime t.utc.formatRedis = some t.utc := by
  have hv := t.utc.civil_valid
  have hns := hv.nanosecond_lt
  simp only [parseRedisTime, Time.formatRedis, String.toList_ofList,
    parseDateTime_append hv h.1 h.2, Option.bind_eq_bind, Option.bind_some, commaOrPeriod, true_or,
    if_true, readDigits_pad hns, readChar_cons, hv, and_self]
  show some (Time.mk t.utc.civil.nano 0) = some t.utc
  rw [Time.nano_utc_civil, Time.utc]

/-- A year of five digits or more is not read. -/
theorem parseDateTime_of_long {l s : List Char} (hlong : 5 ≤ l.length)
    (hdigits : ∀ c ∈ l, c.isDigit = true) : parseDateTime (l ++ s) = none := by
  match l, hlong with
  | a :: b :: c :: d :: e :: l, _ =>
    have hfour : readDigits 4 (a :: b :: c :: d :: e :: l ++ s) =
        some (natOfDigits [a, b, c, d], e :: l ++ s) := by
      apply if_pos
      simp_all
    have hdash : readChar '-' (e :: l ++ s) = none := by
      have he : e ≠ '-' := by
        rintro rfl
        exact absurd (hdigits '-' (by simp)) (by decide)
      simp [readChar, he]
    simp only [parseDateTime, hfour, Option.bind_eq_bind, Option.bind_some, hdash, Option.bind_none]

theorem parseRedisTime_of_not_inRange {t : Time} (h : ¬ t.InRange) :
    parseRedisTime t.utc.formatRedis = none := by
  have hyear : parseDateTime t.utc.formatRedis.toList = none := by
    rw [Time.formatRedis, String.toList_ofList, appendDateTime, List.append_assoc, appendInt]
    split_ifs with hneg
    · have hsign : ∀ s, readDigits 4 ('-' :: s) = none := fun s => if_neg (by simp)
      simp only [parseDateTime, List.cons_append, List.nil_append, hsign, Option.bind_eq_bind,
        Option.bind_none]
    · rw [List.nil_append]
      apply parseDateTime_of_long
      · have hlog : 4 ≤ Nat.log 10 t.utc.civil.year.natAbs := by
          apply Nat.le_log_of_pow_le (by decide)
          rw [Time.InRange] at h
          omega
        rw [length_pad]
        omega
      · intro c hc
        exact isDigit_of_mem_pad hc
  simp [parseRedisTime, hyear]

/-- Reading a text gives back the instant that was written, or nothing. -/
theorem eq_of_parseRedisTime {t u : Time} (h : parseRedisTime t.utc.formatRedis = some u) :
    u = t.utc := by
  by_cases range : t.InRange
  · rw [parseRedisTime_formatRedis range] at h
    exact (Option.some.inj h).symm
  · rw [parseRedisTime_of_not_inRange range] at h
    cases h

theorem rdropWhile_append_replicate (a : Char) (l : List Char) :
    l.rdropWhile (· == a) ++ List.replicate (l.length - (l.rdropWhile (· == a)).length) a = l := by
  induction l using List.reverseRecOn with
  | nil => rfl
  | append_singleton l x ih =>
    rw [List.rdropWhile_concat]
    split_ifs with h
    · rw [beq_iff_eq] at h
      have hle : (l.rdropWhile (· == a)).length ≤ l.length :=
        (List.rdropWhile_prefix _ l).length_le
      rw [List.length_append, List.length_singleton, Nat.sub_add_comm hle, List.replicate_succ',
        ← List.append_assoc, ih, h]
    · simp

theorem take_rdropWhile_zeros (ns : ℕ) :
    ((pad 9 ns).rdropWhile (· == '0') ++ List.replicate 9 '0').take 9 = pad 9 ns := by
  have hle : ((pad 9 ns).rdropWhile (· == '0')).length ≤ 9 := by
    have := (List.rdropWhile_prefix (· == '0') (pad 9 ns)).length_le
    simpa using this
  conv_rhs => rw [← rdropWhile_append_replicate '0' (pad 9 ns), length_pad]
  rw [List.take_append, List.take_of_length_le hle, List.take_replicate,
    Nat.min_eq_left (Nat.sub_le _ _)]

theorem rdropWhile_zeros_ne_nil {ns : ℕ} (h₀ : ns ≠ 0) (h : ns < 10 ^ 9) :
    (pad 9 ns).rdropWhile (· == '0') ≠ [] := by
  intro hnil
  have hzero : pad 9 0 = pad 9 ns := by
    rw [← take_rdropWhile_zeros ns, hnil]
    decide
  exact h₀ (pad_inj (by decide) h hzero).symm

theorem parseNanoseconds_append {ns : ℕ} (h : ns < 10 ^ 9) :
    parseNanoseconds (appendNano ns ++ ['Z']) = (ns, ['Z']) := by
  rw [appendNano]
  split_ifs with h₀
  · subst h₀
    decide
  · have hdigits : ∀ c ∈ (pad 9 ns).rdropWhile (· == '0'), c.isDigit = true := fun c hc =>
      isDigit_of_mem_pad ((List.rdropWhile_prefix _ _).subset hc)
    have htake : ((pad 9 ns).rdropWhile (· == '0') ++ ['Z']).takeWhile Char.isDigit =
        (pad 9 ns).rdropWhile (· == '0') := by
      rw [List.takeWhile_append_of_pos hdigits]
      simp
    have hdrop : ((pad 9 ns).rdropWhile (· == '0') ++ ['Z']).dropWhile Char.isDigit = ['Z'] := by
      rw [List.dropWhile_append_of_pos hdigits]
      simp
    simp only [List.cons_append, parseNanoseconds, commaOrPeriod, true_or, if_true, htake, hdrop,
      if_neg (rdropWhile_zeros_ne_nil h₀ h), take_rdropWhile_zeros, natOfDigits_pad h]

/-- The time text of a queue message is read back as the same instant, in UTC. -/
theorem parseRFC3339_formatRFC3339Nano {t : Time} (h : t.InRange) :
    parseRFC3339 t.utc.formatRFC3339Nano = some t.utc := by
  have hv := t.utc.civil_valid
  simp only [parseRFC3339, Time.formatRFC3339Nano, String.toList_ofList, Time.utc_offset,
    parseDateTime_append hv h.1 h.2, Option.bind_eq_bind, Option.bind_some, appendZone, if_true,
    parseNanoseconds_append hv.nanosecond_lt, parseZone, hv, and_self, zero_mul, sub_zero]
  show some (Time.mk t.utc.civil.nano 0) = some t.utc
  rw [Time.nano_utc_civil, Time.utc]

/-! ## Order -/

theorem Civil.Valid.fits {c : Civil} (hc : c.Valid) (h₁ : c.year ≤ 9999) :
    Fits [(4, ['-']), (2, ['-']), (2, ['T']), (2, [':']), (2, [':']), (2, ['.']), (9, ['Z'])]
      c.fields := by
  have hd := daysIn_le (isLeap c.year) hc.month_le
  obtain ⟨-, hm, -, hday, hh, hn, hs, hns⟩ := hc
  refine ⟨?_, ?_, ?_, ?_, ?_, ?_, ?_, trivial⟩ <;> omega

theorem Time.toList_formatRedis {t : Time} (h : t.InRange) :
    t.utc.formatRedis.toList =
      render [(4, ['-']), (2, ['-']), (2, ['T']), (2, [':']), (2, [':']), (2, ['.']), (9, ['Z'])]
        t.utc.civil.fields := by
  simp only [Time.formatRedis, String.toList_ofList, appendDateTime, appendInt_of_lt h.1 h.2,
    render, Civil.fields, List.append_assoc, List.cons_append, List.nil_append, List.append_nil]

/-- The texts of the status hash compare as the instants do. -/
theorem formatRedis_lt_iff {t u : Time} (ht : t.InRange) (hu : u.InRange) :
    t.utc.formatRedis < u.utc.formatRedis ↔ t.nano < u.nano := by
  rw [String.lt_iff_toList_lt, Time.toList_formatRedis ht, Time.toList_formatRedis hu,
    render_lt_render_iff (t.utc.civil_valid.fits ht.2) (u.utc.civil_valid.fits hu.2),
    fields_lt_fields_iff t.utc.civil_valid u.utc.civil_valid ht.1 hu.1, Time.nano_utc_civil,
    Time.nano_utc_civil]

theorem formatRedis_inj {t u : Time} (ht : t.InRange) (hu : u.InRange) :
    t.utc.formatRedis = u.utc.formatRedis ↔ t.nano = u.nano := by
  refine ⟨fun h => ?_, fun h => by rw [Time.utc_eq_iff.2 h]⟩
  have h' := congrArg parseRedisTime h
  rw [parseRedisTime_formatRedis ht, parseRedisTime_formatRedis hu, Option.some_inj] at h'
  exact Time.utc_eq_iff.1 h'

/-! ## The instant an RFC 3339 text stands for -/

theorem appendInt_inj {x y : ℤ} {w : ℕ} (h : appendInt x w = appendInt y w) : x = y := by
  have hbound : ∀ n : ℕ, n < 10 ^ max w (Nat.log 10 n + 1) := fun n =>
    (Nat.lt_pow_succ_log_self (by decide) n).trans_le (Nat.pow_le_pow_right (by decide)
      (le_max_right _ _))
  have hpos : ∀ n m : ℕ, pad (max w (Nat.log 10 n + 1)) n = pad (max w (Nat.log 10 m + 1)) m →
      n = m := by
    intro n m hp
    have hw := congrArg List.length hp
    rw [length_pad, length_pad] at hw
    rw [hw] at hp
    exact pad_inj (hw ▸ hbound n) (hbound m) hp
  have hminus : ∀ (n : ℕ) (s : List Char), '-' :: s ≠ pad (max w (Nat.log 10 n + 1)) n := by
    intro n s he
    have hdigit : ('-' : Char).isDigit = true := isDigit_of_mem_pad (he ▸ List.mem_cons_self)
    exact absurd hdigit (by decide)
  unfold appendInt at h
  split_ifs at h with hx hy hy
  · have := hpos _ _ (List.cons.inj h).2
    omega
  · exact absurd h (hminus _ _)
  · exact absurd h.symm (hminus _ _)
  · have := hpos _ _ h
    omega

theorem not_mem_appendInt {c : Char} (hc : c.isDigit = false) (hm : c ≠ '-') (x : ℤ) (w : ℕ) :
    c ∉ appendInt x w := by
  intro h
  rw [appendInt, List.mem_append] at h
  rcases h with h | h
  · split_ifs at h
    · exact hm (List.mem_singleton.1 h)
    · exact absurd h List.not_mem_nil
  · rw [isDigit_of_mem_pad h] at hc
    exact absurd hc (by decide)

theorem appendNano_inj {n m : ℕ} (hn : n < 10 ^ 9) (hm : m < 10 ^ 9)
    (h : appendNano n ++ ['Z'] = appendNano m ++ ['Z']) : n = m := by
  have := congrArg parseNanoseconds h
  rw [parseNanoseconds_append hn, parseNanoseconds_append hm] at this
  exact (Prod.mk.inj this).1

/-- A date is determined by its text, whatever its year. -/
theorem appendDateTime_inj {c d : Civil} (hc : c.Valid) (hd : d.Valid) {s s' : List Char}
    (h : appendDateTime c ++ s = appendDateTime d ++ s') :
    { c with nanosecond := 0 } = { d with nanosecond := 0 } ∧ s = s' := by
  have hfits : ∀ {e : Civil}, e.Valid → e.month < 10 ^ 2 ∧ e.day < 10 ^ 2 ∧ e.hour < 10 ^ 2 ∧
      e.minute < 10 ^ 2 ∧ e.second < 10 ^ 2 := by
    intro e he
    have hdays := daysIn_le (isLeap e.year) he.month_le
    obtain ⟨-, hm, -, hday, hh, hn, hs, -⟩ := he
    refine ⟨?_, ?_, ?_, ?_, ?_⟩ <;> omega
  obtain ⟨hc₁, hc₂, hc₃, hc₄, hc₅⟩ := hfits hc
  obtain ⟨hd₁, hd₂, hd₃, hd₄, hd₅⟩ := hfits hd
  -- the only `T` ends the date, so the date and the time of day can be told apart
  have hshape : ∀ (e : Civil) (r : List Char), appendDateTime e ++ r =
      (appendInt e.year 4 ++ ('-' :: (pad 2 e.month ++ '-' :: pad 2 e.day))) ++
        'T' :: (pad 2 e.hour ++ ':' :: (pad 2 e.minute ++ ':' :: (pad 2 e.second ++ r))) := by
    intro e r
    simp [appendDateTime, render]
  have hT : ∀ e : Civil,
      'T' ∉ appendInt e.year 4 ++ ('-' :: (pad 2 e.month ++ '-' :: pad 2 e.day)) := by
    intro e hmem
    have hpad : ∀ n, 'T' ∉ pad 2 n := fun n hp =>
      absurd (isDigit_of_mem_pad hp) (by decide)
    simp only [List.mem_append, List.mem_cons, hpad, not_mem_appendInt (c := 'T') (by decide)
      (by decide), false_or, or_false] at hmem
    exact absurd hmem (by decide)
  rw [hshape, hshape] at h
  obtain ⟨hdate, htime⟩ := append_cons_inj (hT c) (hT d) h
  obtain ⟨hyear, hmd⟩ := List.append_inj' hdate (by simp)
  have hfield : ∀ {n m : ℕ} {a b : List Char}, n < 10 ^ 2 → m < 10 ^ 2 →
      pad 2 n ++ a = pad 2 m ++ b → n = m ∧ a = b := by
    intro n m a b hn hm he
    obtain ⟨hp, hab⟩ := List.append_inj he (by simp)
    exact ⟨pad_inj hn hm hp, hab⟩
  obtain ⟨hmonth, hmd⟩ := hfield hc₁ hd₁ (List.cons.inj hmd).2
  have hday := pad_inj hc₂ hd₂ (List.cons.inj hmd).2
  obtain ⟨hhour, htime⟩ := hfield hc₃ hd₃ htime
  obtain ⟨hminute, htime⟩ := hfield hc₄ hd₄ (List.cons.inj htime).2
  obtain ⟨hsecond, hrest⟩ := hfield hc₅ hd₅ (List.cons.inj htime).2
  rw [appendInt_inj hyear, hmonth, hday, hhour, hminute, hsecond]
  exact ⟨rfl, hrest⟩

/-- An RFC 3339 text in UTC determines the instant, whatever its year. -/
theorem formatRFC3339Nano_inj {t u : Time}
    (h : t.utc.formatRFC3339Nano = u.utc.formatRFC3339Nano) : t.nano = u.nano := by
  have ht := t.utc.civil_valid
  have hu := u.utc.civil_valid
  rw [Time.formatRFC3339Nano, Time.formatRFC3339Nano, String.ofList_inj] at h
  obtain ⟨hdate, hrest⟩ := appendDateTime_inj ht hu h
  have hns := appendNano_inj ht.nanosecond_lt hu.nanosecond_lt hrest
  have hcivil : t.utc.civil = u.utc.civil := by
    rw [Civil.mk.injEq] at hdate
    exact Civil.ext hdate.1 hdate.2.1 hdate.2.2.1 hdate.2.2.2.1 hdate.2.2.2.2.1
      hdate.2.2.2.2.2.1 hns
  rw [← t.nano_utc_civil, ← u.nano_utc_civil, hcivil]

/-- The characters of an RFC 3339 text in UTC. -/
theorem mem_formatRFC3339Nano {t : Time} {c : Char} (h : c ∈ t.utc.formatRFC3339Nano.toList) :
    c.isDigit = true ∨ c ∈ ['-', 'T', ':', '.', 'Z'] := by
  by_cases hdigit : c.isDigit = true
  · exact .inl hdigit
  · right
    rw [Time.formatRFC3339Nano, String.toList_ofList, appendDateTime] at h
    simp only [List.mem_append, List.mem_cons] at h
    rcases h with (h | rfl | h) | h | h
    · by_contra hother
      exact not_mem_appendInt (Bool.eq_false_iff.2 hdigit)
        (fun e => hother (by simp [e])) _ _ h
    · decide
    · rcases mem_render h with h | ⟨field, hfield, hc⟩
      · exact absurd h hdigit
      · simp only [List.mem_cons, List.not_mem_nil, or_false] at hfield
        rcases hfield with rfl | rfl | rfl | rfl | rfl <;> simp at hc <;> simp [hc]
    · rw [appendNano] at h
      split_ifs at h
      · exact absurd h List.not_mem_nil
      · rcases List.mem_cons.1 h with rfl | h
        · decide
        · exact absurd (isDigit_of_mem_pad ((List.rdropWhile_prefix _ _).subset h)) hdigit
    · rw [Time.utc_offset, appendZone, if_pos rfl, List.mem_singleton] at h
      rw [h]
      decide

end PasswordHook
