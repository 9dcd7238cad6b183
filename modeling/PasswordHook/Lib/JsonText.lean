import Mathlib
import PasswordHook.Lib.Hex

/-!
# JSON objects with string members

The text of an object all of whose values are strings, and the reader that inverts it.  Quotes,
backslashes and control characters are escaped.
-/

namespace PasswordHook.JsonText

/-! ## Strings -/

def escapeChar (c : Char) : List Char :=
  if c = '"' then ['\\', '"']
  else if c = '\\' then ['\\', '\\']
  else if c.toNat < 0x20 then
    ['\\', 'u', '0', '0', Nat.digitChar (c.toNat / 16), Nat.digitChar (c.toNat % 16)]
  else [c]

/-- The literal of a string. -/
def writeString (s : String) : List Char := '"' :: (s.toList.flatMap escapeChar ++ ['"'])

/-- The number written with the hexadecimal digits. -/
def fromHexDigits (cs : List Char) : Option ℕ :=
  cs.foldlM (fun n c => (fromHexChar c).map (16 * n + ·)) 0

/-- The character of a two-character escape. -/
def shortEscape (c : Char) : Option Char :=
  ([('"', '"'), ('\\', '\\'), ('/', '/'), ('b', '\x08'), ('f', '\x0c'), ('n', '\n'), ('r', '\r'),
    ('t', '\t')] : List (Char × Char)).lookup c

/-- The characters up to the closing quote, and what follows it. -/
def readChars : List Char → Option (List Char × List Char)
  | [] => none
  | c :: s =>
    if c = '"' then some ([], s)
    else if c = '\\' then
      match s with
      | [] => none
      | e :: s =>
        if e = 'u' then
          match s with
          | w :: x :: y :: z :: s => do
            let code ← fromHexDigits [w, x, y, z]
            (readChars s).map fun p => (Char.ofNat code :: p.1, p.2)
          | _ => none
        else do
          let c ← shortEscape e
          (readChars s).map fun p => (c :: p.1, p.2)
    else if c.toNat < 0x20 then none
    else (readChars s).map fun p => (c :: p.1, p.2)

def readString : List Char → Option (String × List Char)
  | '"' :: s => (readChars s).map fun p => (String.ofList p.1, p.2)
  | _ => none

theorem readChars_quote (s : List Char) : readChars ('"' :: s) = some ([], s) := by
  rw [readChars.eq_def]
  rfl

theorem readChars_short {e c : Char} (hu : e ≠ 'u') (h : shortEscape e = some c) (s : List Char) :
    readChars ('\\' :: e :: s) = (readChars s).map fun p => (c :: p.1, p.2) := by
  rw [readChars.eq_def]
  simp [hu, h]

theorem readChars_code {w x y z : Char} {code : ℕ} (h : fromHexDigits [w, x, y, z] = some code)
    (s : List Char) : readChars ('\\' :: 'u' :: w :: x :: y :: z :: s) =
      (readChars s).map fun p => (Char.ofNat code :: p.1, p.2) := by
  rw [readChars.eq_def]
  simp [h]

theorem readChars_plain {c : Char} (h₁ : c ≠ '"') (h₂ : c ≠ '\\') (h₃ : ¬ c.toNat < 0x20)
    (s : List Char) : readChars (c :: s) = (readChars s).map fun p => (c :: p.1, p.2) := by
  rw [readChars.eq_def]
  simp [h₁, h₂, h₃]

theorem fromHexDigits_control {n : ℕ} (h : n < 0x20) :
    fromHexDigits ['0', '0', Nat.digitChar (n / 16), Nat.digitChar (n % 16)] = some n := by
  have checked : ∀ n : Fin 0x20, fromHexDigits
      ['0', '0', Nat.digitChar (n / 16), Nat.digitChar (n % 16)] = some n.val := by decide
  exact checked ⟨n, h⟩

theorem readChars_escapeChar (c : Char) (s : List Char) :
    readChars (escapeChar c ++ s) = (readChars s).map fun p => (c :: p.1, p.2) := by
  unfold escapeChar
  split_ifs with h₁ h₂ h₃
  · subst h₁
    exact readChars_short (by decide) (by decide) s
  · subst h₂
    exact readChars_short (by decide) (by decide) s
  · have hcode := readChars_code (fromHexDigits_control h₃) s
    rw [Char.ofNat_toNat] at hcode
    exact hcode
  · exact readChars_plain h₁ h₂ h₃ s

theorem readChars_flatMap (cs s : List Char) :
    readChars (cs.flatMap escapeChar ++ '"' :: s) = some (cs, s) := by
  induction cs with
  | nil => exact readChars_quote s
  | cons c cs ih =>
    rw [List.flatMap_cons, List.append_assoc, readChars_escapeChar, ih]
    rfl

theorem readString_writeString (s : String) (rest : List Char) :
    readString (writeString s ++ rest) = some (s, rest) := by
  rw [writeString, List.cons_append, List.append_assoc, readString, List.singleton_append,
    readChars_flatMap]
  simp

/-! ## Objects -/

def writeMember (m : String × String) : List Char := writeString m.1 ++ ':' :: writeString m.2

/-- The members of an object, each preceded by `lead`, and the closing brace. -/
def writeMembers : Char → List (String × String) → List Char
  | _, [] => ['\x7d']
  | lead, m :: ms => lead :: (writeMember m ++ writeMembers ',' ms)

/-- The text of an object. -/
def writeObject : List (String × String) → List Char
  | [] => ['\x7b', '\x7d']
  | ms => writeMembers '\x7b' ms

/-- Members each preceded by `lead`, up to the closing brace, which ends the text. -/
def readMembers : ℕ → Char → List Char → Option (List (String × String))
  | 0, _, _ => none
  | fuel + 1, lead, c :: s =>
    if c = '\x7d' then if s = [] then some [] else none
    else if c = lead then
      match readString s with
      | some (k, ':' :: s) =>
        match readString s with
        | some (v, s) => (readMembers fuel ',' s).map ((k, v) :: ·)
        | none => none
      | _ => none
    else none
  | _, _, [] => none

/-- The members of an object text. -/
def readObject (s : List Char) : Option (List (String × String)) :=
  match s with
  | ['\x7b', '\x7d'] => some []
  | s => readMembers (s.length + 1) '\x7b' s

theorem readMembers_writeMembers {lead : Char} (hlead : lead ≠ '\x7d')
    (ms : List (String × String)) {fuel : ℕ} (enough : ms.length < fuel) :
    readMembers fuel lead (writeMembers lead ms) = some ms := by
  induction ms generalizing lead fuel with
  | nil =>
    obtain ⟨fuel, rfl⟩ := Nat.exists_eq_succ_of_ne_zero (Nat.ne_of_gt enough)
    simp [writeMembers, readMembers]
  | cons m ms ih =>
    obtain ⟨fuel, rfl⟩ := Nat.exists_eq_succ_of_ne_zero (Nat.ne_of_gt (Nat.zero_lt_of_lt enough))
    obtain ⟨k, v⟩ := m
    simp only [writeMembers, writeMember, readMembers, hlead, if_false, if_true, List.append_assoc,
      List.cons_append, readString_writeString]
    rw [ih (by decide) (by simpa using enough)]
    rfl

theorem length_lt_length_writeMembers (lead : Char) (ms : List (String × String)) :
    ms.length < (writeMembers lead ms).length := by
  induction ms generalizing lead with
  | nil => simp [writeMembers]
  | cons m ms ih =>
    have := ih ','
    simp only [writeMembers, List.length_cons, List.length_append]
    omega

theorem readObject_writeObject (ms : List (String × String)) :
    readObject (writeObject ms) = some ms := by
  cases ms with
  | nil => rfl
  | cons m ms =>
    have hlen := length_lt_length_writeMembers '\x7b' (m :: ms)
    have hlead : '\x7b' ≠ '\x7d' := by decide
    have hread := readMembers_writeMembers hlead (m :: ms) (Nat.lt_succ_of_lt hlen)
    show readObject (writeMembers '\x7b' (m :: ms)) = _
    rw [readObject]
    · exact hread
    · intro h
      have := congrArg List.length h
      simp [writeMembers, writeMember, writeString] at this

end PasswordHook.JsonText
