import PasswordHook.Lib.JsonString

/-!
# The grammar of JSON texts

`Denotes s v` says that the bytes `s` are a JSON text with the value `v`: valid UTF-8 that the
grammar derives.  The members of an object are kept in order and with repetitions.  A reader finds
every value that the grammar gives a text (`read_of_denotes`), so a text has one value only
(`Denotes.unique`).
-/

namespace PasswordHook.JsonGrammar

open JsonString

inductive Value where
  | null
  | bool (b : Bool)
  | number (text : List UInt8)
  | string (bytes : List UInt8)
  | array (elements : List Value)
  | object (members : List (List UInt8 × Value))

/-! ## Bytes -/

/-- White space between tokens. -/
def isSpace (b : UInt8) : Bool := b = 0x20 || b = 0x09 || b = 0x0a || b = 0x0d

def Blank (w : List UInt8) : Prop := ∀ b ∈ w, isSpace b = true

def isDigit (b : UInt8) : Bool := 0x30 ≤ b && b ≤ 0x39

/-- The bytes of numbers. -/
def isNumeric (b : UInt8) : Bool :=
  isDigit b || b = 0x2b || b = 0x2d || b = 0x2e || b = 0x45 || b = 0x65

/-! ## Numbers -/

/-- What follows one digit or more. -/
def dropDigits : List UInt8 → Option (List UInt8)
  | b :: s => if isDigit b then some (s.dropWhile isDigit) else none
  | [] => none

/-- What follows the digits before the point, which have no leading zero. -/
def dropInt : List UInt8 → Option (List UInt8)
  | b :: s => if b = 0x30 then some s else dropDigits (b :: s)
  | [] => none

def dropFrac : List UInt8 → Option (List UInt8)
  | b :: s => if b = 0x2e then dropDigits s else some (b :: s)
  | [] => some []

def dropSign : List UInt8 → List UInt8
  | b :: s => if b = 0x2b || b = 0x2d then s else b :: s
  | [] => []

def dropExp : List UInt8 → Option (List UInt8)
  | b :: s => if b = 0x65 || b = 0x45 then dropDigits (dropSign s) else some (b :: s)
  | [] => some []

def dropMinus : List UInt8 → List UInt8
  | b :: s => if b = 0x2d then s else b :: s
  | [] => []

/-- A number, by its text. -/
def isNumber (t : List UInt8) : Bool :=
  t.all isNumeric && (do dropExp (← dropFrac (← dropInt (dropMinus t)))) == some []

/-! ## The grammar -/

def nullText : List UInt8 := [0x6e, 0x75, 0x6c, 0x6c]

def trueText : List UInt8 := [0x74, 0x72, 0x75, 0x65]

def falseText : List UInt8 := [0x66, 0x61, 0x6c, 0x73, 0x65]

/-- What the rules of the grammar derive: values, the elements of an array, the members of an object
and a member. -/
inductive Node where
  | value (v : Value)
  | elements (vs : List Value)
  | member (m : List UInt8 × Value)
  | members (ms : List (List UInt8 × Value))

inductive Derives : Node → List UInt8 → Prop
  | nullWord : Derives (.value .null) nullText
  | trueWord : Derives (.value (.bool true)) trueText
  | falseWord : Derives (.value (.bool false)) falseText
  | number {t} (ok : isNumber t = true) : Derives (.value (.number t)) t
  | string (ts) : Derives (.value (.string (decoded ts))) (literal ts)
  | emptyArray {w} (blank : Blank w) : Derives (.value (.array [])) (0x5b :: (w ++ [0x5d]))
  | array {vs t} (h : Derives (.elements vs) t) :
      Derives (.value (.array vs)) (0x5b :: (t ++ [0x5d]))
  | emptyObject {w} (blank : Blank w) : Derives (.value (.object [])) (0x7b :: (w ++ [0x7d]))
  | object {ms t} (h : Derives (.members ms) t) :
    Derives (.value (.object ms)) (0x7b :: (t ++ [0x7d]))
  | lastElement {v t w w'} (blank : Blank w) (h : Derives (.value v) t) (blank' : Blank w') :
    Derives (.elements [v]) (w ++ (t ++ w'))
  | nextElement {v vs t t' w w'} (blank : Blank w) (h : Derives (.value v) t) (blank' : Blank w')
    (h' : Derives (.elements vs) t') :
    Derives (.elements (v :: vs)) (w ++ (t ++ (w' ++ 0x2c :: t')))
  | member {v t w w'} (ts) (blank : Blank w) (blank' : Blank w') (h : Derives (.value v) t) :
    Derives (.member (decoded ts, v)) (literal ts ++ (w ++ 0x3a :: (w' ++ t)))
  | lastMember {m t w w'} (blank : Blank w) (h : Derives (.member m) t) (blank' : Blank w') :
    Derives (.members [m]) (w ++ (t ++ w'))
  | nextMember {m ms t t' w w'} (blank : Blank w) (h : Derives (.member m) t) (blank' : Blank w')
    (h' : Derives (.members ms) t') : Derives (.members (m :: ms)) (w ++ (t ++ (w' ++ 0x2c :: t')))

/-- The bytes are a JSON text with the value. -/
def Denotes (s : List UInt8) (v : Value) : Prop :=
  Utf8.Valid s ∧ ∃ w t w', s = w ++ (t ++ w') ∧ Blank w ∧ Derives (.value v) t ∧ Blank w'

/-! ## A reader -/

def skip (s : List UInt8) : List UInt8 := s.dropWhile isSpace

def readWord (word : List UInt8) (v : Value) (s : List UInt8) : Option (Value × List UInt8) :=
  if word.isPrefixOf s then some (v, s.drop word.length) else none

def readNumber (s : List UInt8) : Option (Value × List UInt8) :=
  if isNumber (s.takeWhile isNumeric) then
    some (.number (s.takeWhile isNumeric), s.dropWhile isNumeric)
  else none

mutual

/-- The value at the front, and what follows it; the depth is bounded by the first argument. -/
def readValue : ℕ → List UInt8 → Option (Value × List UInt8)
  | n + 1, b :: s =>
    if b = 0x22 then (readTokens s).map fun p => (.string (decoded p.1), p.2)
    else if b = 0x5b then
      if (skip s).head? = some 0x5d then some (.array [], (skip s).tail)
      else (readElements n s).map fun p => (.array p.1, p.2)
    else if b = 0x7b then
      if (skip s).head? = some 0x7d then some (.object [], (skip s).tail)
      else (readMembers n s).map fun p => (.object p.1, p.2)
    else if b = 0x6e then readWord nullText .null (b :: s)
    else if b = 0x74 then readWord trueText (.bool true) (b :: s)
    else if b = 0x66 then readWord falseText (.bool false) (b :: s)
    else readNumber (b :: s)
  | _, _ => none

/-- Elements up to the closing bracket. -/
def readElements : ℕ → List UInt8 → Option (List Value × List UInt8)
  | n + 1, s =>
    match readValue n (skip s) with
    | some (v, s) =>
      match skip s with
      | b :: s =>
        if b = 0x2c then (readElements n s).map fun p => (v :: p.1, p.2)
        else if b = 0x5d then some ([v], s)
        else none
      | [] => none
    | none => none
  | 0, _ => none

/-- A member, from its name on. -/
def readMember : ℕ → List UInt8 → Option ((List UInt8 × Value) × List UInt8)
  | n + 1, b :: s =>
    if b = 0x22 then
      match readTokens s with
      | some (ts, s) =>
        match skip s with
        | b :: s =>
          if b = 0x3a then (readValue n (skip s)).map fun p => ((decoded ts, p.1), p.2) else none
        | [] => none
      | none => none
    else none
  | _, _ => none

/-- Members up to the closing brace. -/
def readMembers : ℕ → List UInt8 → Option (List (List UInt8 × Value) × List UInt8)
  | n + 1, s =>
    match readMember n (skip s) with
    | some (m, s) =>
      match skip s with
      | b :: s =>
        if b = 0x2c then (readMembers n s).map fun p => (m :: p.1, p.2)
        else if b = 0x7d then some ([m], s)
        else none
      | [] => none
    | none => none
  | 0, _ => none

end

/-- The value of a text. -/
def read (s : List UInt8) : Option Value :=
  match readValue s.length (skip s) with
  | some (v, s) => if skip s = [] then some v else none
  | none => none

/-! ## The reader on derived texts -/

theorem skip_append {w : List UInt8} (blank : Blank w) (s : List UInt8) : skip (w ++ s) = skip s :=
  List.dropWhile_append_of_pos blank

theorem skip_cons {b : UInt8} (h : isSpace b = false) (s : List UInt8) :
    skip (b :: s) = b :: s := by
  rw [skip, List.dropWhile_cons_of_neg (by simp [h])]

theorem skip_blank {w : List UInt8} (blank : Blank w) : skip w = [] := by
  have h := skip_append blank []
  rw [List.append_nil] at h
  exact h

/-- No byte of a number follows. -/
def Ends (s : List UInt8) : Prop := ∀ b ∈ s.head?, isNumeric b = false

theorem isNumeric_of_isSpace {b : UInt8} (h : isSpace b = true) : isNumeric b = false := by
  simp only [isSpace, Bool.or_eq_true, decide_eq_true_eq] at h
  rcases h with ((rfl | rfl) | rfl) | rfl <;> rfl

/-- White space and a byte that numbers do not have. -/
theorem ends_append {w : List UInt8} (blank : Blank w) {b : UInt8} (h : isNumeric b = false)
    (s : List UInt8) : Ends (w ++ b :: s) := by
  intro b' hb'
  cases w with
  | nil =>
    rw [List.nil_append, List.head?_cons, Option.mem_some_iff] at hb'
    exact hb' ▸ h
  | cons c w =>
    rw [List.cons_append, List.head?_cons, Option.mem_some_iff] at hb'
    exact hb' ▸ isNumeric_of_isSpace (blank c (by simp))

theorem ends_blank {w : List UInt8} (blank : Blank w) : Ends w := by
  intro b hb
  exact isNumeric_of_isSpace (blank b (List.mem_of_mem_head? hb))

theorem readNumber_append {t : List UInt8} (ok : isNumber t = true) {rest : List UInt8}
    (ends : Ends rest) : readNumber (t ++ rest) = some (.number t, rest) := by
  have hall : ∀ b ∈ t, isNumeric b = true := by
    rw [isNumber, Bool.and_eq_true, List.all_eq_true] at ok
    exact ok.1
  have hstop : rest.takeWhile isNumeric = [] ∧ rest.dropWhile isNumeric = rest := by
    cases rest with
    | nil => exact ⟨rfl, rfl⟩
    | cons b rest =>
      have hb : ¬ isNumeric b = true := by simp [ends b (by simp)]
      exact ⟨List.takeWhile_cons_of_neg hb, List.dropWhile_cons_of_neg hb⟩
  have htake : (t ++ rest).takeWhile isNumeric = t := by
    rw [List.takeWhile_append_of_pos hall, hstop.1, List.append_nil]
  have hdrop : (t ++ rest).dropWhile isNumeric = rest := by
    rw [List.dropWhile_append_of_pos hall, hstop.2]
  rw [readNumber, htake, hdrop, if_pos ok]

theorem readWord_append (word : List UInt8) (v : Value) (rest : List UInt8) :
    readWord word v (word ++ rest) = some (v, rest) := by
  rw [readWord, if_pos (by simp), List.drop_left]

theorem exists_cons_of_isNumber {t : List UInt8} (ok : isNumber t = true) :
    ∃ b t', t = b :: t' ∧ isNumeric b = true := by
  cases t with
  | nil => exact absurd ok (by decide)
  | cons b t =>
    rw [isNumber, Bool.and_eq_true, List.all_eq_true] at ok
    exact ⟨b, t, rfl, ok.1 b (by simp)⟩

theorem ne_of_isNumeric {b c : UInt8} (hb : isNumeric b = true) (hc : isNumeric c = false) :
    b ≠ c := by
  rintro rfl
  rw [hb] at hc
  exact absurd hc (by simp)

/-- The first byte of a value is no white space and closes nothing. -/
theorem Derives.head {v : Value} {t : List UInt8} (h : Derives (.value v) t) :
    ∃ b t', t = b :: t' ∧ isSpace b = false ∧ b ≠ 0x5d := by
  cases h with
  | nullWord => exact ⟨_, _, rfl, by decide, by decide⟩
  | trueWord => exact ⟨_, _, rfl, by decide, by decide⟩
  | falseWord => exact ⟨_, _, rfl, by decide, by decide⟩
  | number ok =>
    obtain ⟨b, t', ht, hb⟩ := exists_cons_of_isNumber ok
    have hspace : isSpace b = false := by
      by_contra h
      rw [isNumeric_of_isSpace (by simpa using h)] at hb
      exact absurd hb (by simp)
    exact ⟨b, t', ht, hspace, ne_of_isNumeric hb (by decide)⟩
  | string ts => exact ⟨_, _, rfl, by decide, by decide⟩
  | emptyArray blank => exact ⟨_, _, rfl, by decide, by decide⟩
  | array h => exact ⟨_, _, rfl, by decide, by decide⟩
  | emptyObject blank => exact ⟨_, _, rfl, by decide, by decide⟩
  | object h => exact ⟨_, _, rfl, by decide, by decide⟩

theorem Derives.skip_value {v : Value} {t : List UInt8} (h : Derives (.value v) t)
    (rest : List UInt8) : skip (t ++ rest) = t ++ rest := by
  obtain ⟨b, t', rfl, hb, -⟩ := h.head
  exact skip_cons hb (t' ++ rest)

theorem Derives.skip_member {m : List UInt8 × Value} {t : List UInt8} (h : Derives (.member m) t)
    (rest : List UInt8) : skip (t ++ rest) = t ++ rest := by
  cases h with
  | member ts blank blank' h => exact skip_cons (by decide) _

/-- Elements do not begin with a closing bracket. -/
theorem Derives.head_elements {vs : List Value} {t : List UInt8} (h : Derives (.elements vs) t)
    (rest : List UInt8) : (skip (t ++ rest)).head? ≠ some 0x5d := by
  have hhead : ∀ {v t w : _} (s : List UInt8), Blank w → Derives (.value v) t →
      (skip (w ++ (t ++ s))).head? ≠ some 0x5d := by
    intro v t w s blank h
    obtain ⟨b, t', rfl, hb, hne⟩ := h.head
    rw [skip_append blank, List.cons_append, skip_cons hb, List.head?_cons, Ne, Option.some_inj]
    exact hne
  cases h with
  | lastElement blank h blank' =>
    rw [List.append_assoc, List.append_assoc]
    exact hhead _ blank h
  | nextElement blank h blank' h' =>
    rw [List.append_assoc, List.append_assoc]
    exact hhead _ blank h

theorem Derives.head_members {ms : List (List UInt8 × Value)} {t : List UInt8}
    (h : Derives (.members ms) t) (rest : List UInt8) : (skip (t ++ rest)).head? ≠ some 0x7d := by
  have hhead : ∀ {m t w : _} (s : List UInt8), Blank w → Derives (.member m) t →
      (skip (w ++ (t ++ s))).head? ≠ some 0x7d := by
    intro m t w s blank h
    rw [skip_append blank, h.skip_member]
    cases h with
    | member ts blank blank' h => exact fun h => absurd (Option.some.inj h) (by decide)
  cases h with
  | lastMember blank h blank' =>
    rw [List.append_assoc, List.append_assoc]
    exact hhead _ blank h
  | nextMember blank h blank' h' =>
    rw [List.append_assoc, List.append_assoc]
    exact hhead _ blank h

/-- What the reader finds in a derived text, given depth enough. -/
def Reads : Node → List UInt8 → Prop
  | .value v, t => ∀ n rest, t.length ≤ n → Ends rest → readValue n (t ++ rest) = some (v, rest)
  | .elements vs, t =>
    ∀ n rest, t.length < n → readElements n (t ++ 0x5d :: rest) = some (vs, rest)
  | .member m, t => ∀ n rest, t.length ≤ n → Ends rest → readMember n (t ++ rest) = some (m, rest)
  | .members ms, t =>
    ∀ n rest, t.length < n → readMembers n (t ++ 0x7d :: rest) = some (ms, rest)

theorem reads_number {t : List UInt8} (ok : isNumber t = true) : Reads (.value (.number t)) t := by
  intro n rest hn ends
  obtain ⟨b, t', rfl, hb⟩ := exists_cons_of_isNumber ok
  obtain ⟨n, rfl⟩ := Nat.exists_eq_succ_of_ne_zero (Nat.ne_of_gt (Nat.lt_of_lt_of_le (by simp) hn))
  rw [List.cons_append, readValue, if_neg (ne_of_isNumeric hb (by decide)),
    if_neg (ne_of_isNumeric hb (by decide)), if_neg (ne_of_isNumeric hb (by decide)),
    if_neg (ne_of_isNumeric hb (by decide)), if_neg (ne_of_isNumeric hb (by decide)),
    if_neg (ne_of_isNumeric hb (by decide))]
  exact readNumber_append ok ends

theorem reads_string (ts : List Token) : Reads (.value (.string (decoded ts))) (literal ts) := by
  intro n rest hn ends
  cases n with
  | zero => exact absurd hn (by simp [literal])
  | succ n =>
    rw [literal, List.cons_append, List.append_assoc, readValue, if_pos rfl, List.singleton_append,
      readTokens_content]
    rfl

theorem Reads.array {vs : List Value} {t : List UInt8} (h : Reads (.elements vs) t)
    (derives : Derives (.elements vs) t) : Reads (.value (.array vs)) (0x5b :: (t ++ [0x5d])) := by
  intro n rest hn ends
  cases n with
  | zero => exact absurd hn (by simp)
  | succ n =>
    have hlength : t.length < n := by
      rw [List.length_cons, List.length_append, List.length_singleton] at hn
      omega
    rw [List.cons_append, List.append_assoc, readValue, if_neg (by decide), if_pos rfl,
      if_neg (derives.head_elements _), List.singleton_append, h n rest hlength]
    rfl

theorem Reads.object {ms : List (List UInt8 × Value)} {t : List UInt8} (h : Reads (.members ms) t)
    (derives : Derives (.members ms) t) : Reads (.value (.object ms)) (0x7b :: (t ++ [0x7d])) := by
  intro n rest hn ends
  cases n with
  | zero => exact absurd hn (by simp)
  | succ n =>
    have hlength : t.length < n := by
      rw [List.length_cons, List.length_append, List.length_singleton] at hn
      omega
    rw [List.cons_append, List.append_assoc, readValue, if_neg (by decide), if_neg (by decide),
      if_pos rfl, if_neg (derives.head_members _), List.singleton_append, h n rest hlength]
    rfl

section Lists

variable {v : Value} {vs : List Value} {m : List UInt8 × Value} {ms : List (List UInt8 × Value)}
  {t t' w w' : List UInt8}

/-- The first element is read, whatever closes or separates it. -/
theorem Reads.element (h : Reads (.value v) t) (derives : Derives (.value v) t) (blank : Blank w)
    (blank' : Blank w') {b : UInt8} (hb : isNumeric b = false) (hs : isSpace b = false) {n : ℕ}
    (hn : t.length ≤ n) (rest : List UInt8) :
    readElements (n + 1) (w ++ (t ++ (w' ++ b :: rest))) =
      if b = 0x2c then (readElements n rest).map fun p => (v :: p.1, p.2)
      else if b = 0x5d then some ([v], rest)
      else none := by
  rw [readElements, skip_append blank, derives.skip_value,
    h n _ hn (ends_append blank' hb rest)]
  simp only [skip_append blank', skip_cons hs]

theorem Reads.lastElement (h : Reads (.value v) t) (derives : Derives (.value v) t)
    (blank : Blank w) (blank' : Blank w') : Reads (.elements [v]) (w ++ (t ++ w')) := by
  intro n rest hn
  cases n with
  | zero => exact absurd hn (by simp)
  | succ n =>
    have hlength : t.length ≤ n := by
      simp only [List.length_append] at hn
      omega
    rw [List.append_assoc, List.append_assoc,
      h.element derives blank blank' (by decide) (by decide) hlength,
      if_neg (by decide), if_pos rfl]

theorem Reads.nextElement (h : Reads (.value v) t) (derives : Derives (.value v) t)
    (blank : Blank w) (blank' : Blank w') (h' : Reads (.elements vs) t') :
    Reads (.elements (v :: vs)) (w ++ (t ++ (w' ++ 0x2c :: t'))) := by
  intro n rest hn
  cases n with
  | zero => exact absurd hn (by simp)
  | succ n =>
    simp only [List.length_append, List.length_cons] at hn
    have hlength : t.length ≤ n := by omega
    have hlength' : t'.length < n := by omega
    rw [List.append_assoc, List.append_assoc, List.append_assoc, List.cons_append,
      h.element derives blank blank' (by decide) (by decide) hlength, if_pos rfl,
      h' n rest hlength']
    rfl

theorem Reads.member (ts : List Token) (h : Reads (.value v) t) (derives : Derives (.value v) t)
    (blank : Blank w) (blank' : Blank w') :
    Reads (.member (decoded ts, v)) (literal ts ++ (w ++ 0x3a :: (w' ++ t))) := by
  intro n rest hn ends
  cases n with
  | zero => exact absurd hn (by simp [literal])
  | succ n =>
    have hlength : t.length ≤ n := by
      simp only [literal, List.length_append, List.length_cons] at hn
      omega
    have hcolon : skip (w ++ 0x3a :: (w' ++ (t ++ rest))) = 0x3a :: (w' ++ (t ++ rest)) := by
      rw [skip_append blank, skip_cons (by decide)]
    have htext : literal ts ++ (w ++ 0x3a :: (w' ++ t)) ++ rest =
        0x22 :: (content ts ++ 0x22 :: (w ++ 0x3a :: (w' ++ (t ++ rest)))) := by
      simp [literal]
    rw [htext, readMember, if_pos rfl, readTokens_content]
    simp only [hcolon, if_true, skip_append blank', derives.skip_value, h n rest hlength ends]
    rfl

theorem Reads.firstMember (h : Reads (.member m) t) (derives : Derives (.member m) t)
    (blank : Blank w) (blank' : Blank w') {b : UInt8} (hb : isNumeric b = false)
    (hs : isSpace b = false) {n : ℕ} (hn : t.length ≤ n) (rest : List UInt8) :
    readMembers (n + 1) (w ++ (t ++ (w' ++ b :: rest))) =
      if b = 0x2c then (readMembers n rest).map fun p => (m :: p.1, p.2)
      else if b = 0x7d then some ([m], rest)
      else none := by
  rw [readMembers, skip_append blank, derives.skip_member,
    h n _ hn (ends_append blank' hb rest)]
  simp only [skip_append blank', skip_cons hs]

theorem Reads.lastMember (h : Reads (.member m) t) (derives : Derives (.member m) t)
    (blank : Blank w) (blank' : Blank w') : Reads (.members [m]) (w ++ (t ++ w')) := by
  intro n rest hn
  cases n with
  | zero => exact absurd hn (by simp)
  | succ n =>
    have hlength : t.length ≤ n := by
      simp only [List.length_append] at hn
      omega
    rw [List.append_assoc, List.append_assoc,
      h.firstMember derives blank blank' (by decide) (by decide) hlength, if_neg (by decide),
      if_pos rfl]

theorem Reads.nextMember (h : Reads (.member m) t) (derives : Derives (.member m) t)
    (blank : Blank w) (blank' : Blank w') (h' : Reads (.members ms) t') :
    Reads (.members (m :: ms)) (w ++ (t ++ (w' ++ 0x2c :: t'))) := by
  intro n rest hn
  cases n with
  | zero => exact absurd hn (by simp)
  | succ n =>
    simp only [List.length_append, List.length_cons] at hn
    have hlength : t.length ≤ n := by omega
    have hlength' : t'.length < n := by omega
    rw [List.append_assoc, List.append_assoc, List.append_assoc, List.cons_append,
      h.firstMember derives blank blank' (by decide) (by decide) hlength, if_pos rfl,
      h' n rest hlength']
    rfl

end Lists

/-- Words and empty brackets are read at any depth but none. -/
theorem reads_of_succ {v : Value} {b : UInt8} {t : List UInt8}
    (h : ∀ n rest, readValue (n + 1) (b :: (t ++ rest)) = some (v, rest)) :
    Reads (.value v) (b :: t) := by
  intro n rest hn ends
  cases n with
  | zero => exact absurd hn (by simp)
  | succ n => exact h n rest

/-- What the grammar derives, the reader finds. -/
theorem Derives.reads {node : Node} {t : List UInt8} (h : Derives node t) : Reads node t := by
  induction h with
  | nullWord => exact reads_of_succ fun n rest => readWord_append nullText .null rest
  | trueWord => exact reads_of_succ fun n rest => readWord_append trueText (.bool true) rest
  | falseWord => exact reads_of_succ fun n rest => readWord_append falseText (.bool false) rest
  | number ok => exact reads_number ok
  | string ts => exact reads_string ts
  | emptyArray blank =>
    apply reads_of_succ
    intro n rest
    rw [List.append_assoc, readValue, if_neg (by decide), if_pos rfl, skip_append blank]
    rfl
  | array h ih => exact ih.array h
  | emptyObject blank =>
    apply reads_of_succ
    intro n rest
    rw [List.append_assoc, readValue, if_neg (by decide), if_neg (by decide), if_pos rfl,
      skip_append blank]
    rfl
  | object h ih => exact ih.object h
  | lastElement blank h blank' ih => exact ih.lastElement h blank blank'
  | nextElement blank h blank' h' ih ih' => exact ih.nextElement h blank blank' ih'
  | member ts blank blank' h ih => exact ih.member ts h blank blank'
  | lastMember blank h blank' ih => exact ih.lastMember h blank blank'
  | nextMember blank h blank' h' ih ih' => exact ih.nextMember h blank blank' ih'

theorem read_of_denotes {s : List UInt8} {v : Value} (h : Denotes s v) : read s = some v := by
  obtain ⟨-, w, t, w', rfl, blank, derives, blank'⟩ := h
  have hlength : t.length ≤ (w ++ (t ++ w')).length := by
    simp only [List.length_append]
    omega
  have hread := derives.reads (w ++ (t ++ w')).length w' hlength (ends_blank blank')
  rw [read, skip_append blank, derives.skip_value, hread]
  simp only [skip_blank blank', if_true]

theorem Denotes.unique {s : List UInt8} {v v' : Value} (h : Denotes s v) (h' : Denotes s v') :
    v = v' :=
  Option.some.inj ((read_of_denotes h).symm.trans (read_of_denotes h'))

end PasswordHook.JsonGrammar
