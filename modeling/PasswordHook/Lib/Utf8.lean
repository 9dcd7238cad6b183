import Mathlib

/-!
# UTF-8

Characters at the front of a list of bytes, with the decoder of the standard library:
`decodeChar? bs` is `c` exactly if `bs` starts with the encoding of `c`
(`decodeChar?_eq_some_iff`).  The encoding of a character is its own byte below 128, and from 128 on
all of its bytes are at least 128.
-/

namespace PasswordHook.Utf8

/-- The encoding of a character. -/
abbrev encode (c : Char) : List UInt8 := String.utf8EncodeChar c

/-- The character the bytes start with, if they start with one. -/
def decodeChar? (bs : List UInt8) : Option Char := bs.toByteArray.utf8DecodeChar? 0

/-- Bytes that are a sequence of characters. -/
def Valid (bs : List UInt8) : Prop := ∃ cs : List Char, bs = cs.flatMap encode

theorem length_encode (c : Char) : (encode c).length = c.utf8Size := String.length_utf8EncodeChar c

theorem decodeChar?_encode_append (c : Char) (rest : List UInt8) :
    decodeChar? (encode c ++ rest) = some c := by
  rw [decodeChar?, List.toByteArray_append]
  exact ByteArray.utf8DecodeChar?_utf8EncodeChar_append

theorem decodeChar?_eq_some_iff {bs : List UInt8} {c : Char} :
    decodeChar? bs = some c ↔ ∃ rest, bs = encode c ++ rest := by
  constructor
  · intro h
    obtain ⟨l, hl⟩ := ByteArray.exists_of_utf8DecodeChar?_eq_some h
    refine ⟨l.data.toList, ?_⟩
    have := congrArg (fun b : ByteArray => b.data.toList) hl
    simpa using this
  · rintro ⟨rest, rfl⟩
    exact decodeChar?_encode_append c rest

theorem encode_of_lt {c : Char} (h : c.toNat < 128) : encode c = [UInt8.ofNat c.toNat] := by
  have hsize : c.utf8Size = 1 := by
    rw [Char.utf8Size_eq_one_iff, UInt32.le_iff_toNat_le]
    exact Nat.le_of_lt_succ h
  exact String.utf8EncodeChar_eq_singleton hsize

theorem le_or_mask (x : UInt8) {mask : UInt8} (h : 128 ≤ mask) : 128 ≤ x ||| mask := by
  have hmask : mask ≤ x ||| mask := by
    rw [UInt8.le_iff_toNat_le, UInt8.toNat_or]
    exact Nat.right_le_or
  exact UInt8.le_trans h hmask

theorem le_of_mem_encode {c : Char} (h : 128 ≤ c.toNat) {b : UInt8} (hb : b ∈ encode c) :
    128 ≤ b := by
  have hone : c.utf8Size ≠ 1 := by
    rw [Ne, Char.utf8Size_eq_one_iff, UInt32.le_iff_toNat_le]
    exact Nat.not_le_of_lt h
  rcases c.utf8Size_eq with hc | hc | hc | hc
  · exact absurd hc hone
  · rw [encode, String.utf8EncodeChar_eq_cons_cons hc] at hb
    simp only [List.mem_cons, List.not_mem_nil, or_false] at hb
    rcases hb with rfl | rfl <;> exact le_or_mask _ (by decide)
  · rw [encode, String.utf8EncodeChar_eq_cons_cons_cons hc] at hb
    simp only [List.mem_cons, List.not_mem_nil, or_false] at hb
    rcases hb with rfl | rfl | rfl <;> exact le_or_mask _ (by decide)
  · rw [encode, String.utf8EncodeChar_eq_cons_cons_cons_cons hc] at hb
    simp only [List.mem_cons, List.not_mem_nil, or_false] at hb
    rcases hb with rfl | rfl | rfl | rfl <;> exact le_or_mask _ (by decide)

/-- Bytes below 128 stand for themselves. -/
theorem encode_ofNat {b : UInt8} (h : b < 128) : encode (Char.ofNat b.toNat) = [b] := by
  have checked : ∀ n : Fin 128, encode (Char.ofNat n) = [UInt8.ofNat n] := by decide
  have := checked ⟨b.toNat, UInt8.lt_iff_toNat_lt.1 h⟩
  simpa using this

theorem decodeChar?_of_lt {b : UInt8} (h : b < 128) (rest : List UInt8) :
    decodeChar? (b :: rest) = some (Char.ofNat b.toNat) := by
  rw [← List.singleton_append, ← encode_ofNat h]
  exact decodeChar?_encode_append _ rest

/-- From 128 on, a character at the front has bytes from 128 on only. -/
theorem le_of_mem_encode_of_decode {b : UInt8} {rest : List UInt8} {c : Char} (hb : 128 ≤ b)
    (h : decodeChar? (b :: rest) = some c) {b' : UInt8} (hb' : b' ∈ encode c) : 128 ≤ b' := by
  obtain ⟨tail, htail⟩ := decodeChar?_eq_some_iff.1 h
  by_cases hc : c.toNat < 128
  · rw [encode_of_lt hc, List.cons_append] at htail
    have hhead := (List.cons.inj htail).1
    have hlt : UInt8.ofNat c.toNat < 128 := by
      rw [UInt8.lt_iff_toNat_lt, UInt8.toNat_ofNat', Nat.mod_eq_of_lt (by omega)]
      exact hc
    exact absurd (hhead ▸ hlt) (UInt8.not_lt.2 hb)
  · exact le_of_mem_encode (not_lt.1 hc) hb'

/-- A sequence of bytes ends with at most one character. -/
theorem append_encode_inj {x y : List UInt8} {c d : Char} (h : x ++ encode c = y ++ encode d) :
    x = y ∧ c = d := by
  -- a character cannot end inside another one: its first byte is none of the later bytes of that
  -- one
  have hsize : ∀ {x y : List UInt8} {c d : Char}, x ++ encode c = y ++ encode d →
      d.utf8Size ≤ c.utf8Size := by
    intro x y c d h
    by_contra hlt
    have hlength := congrArg List.length h
    rw [List.length_append, List.length_append, length_encode, length_encode] at hlength
    have hpos := Char.utf8Size_pos c
    have hindex : d.utf8Size - c.utf8Size < (encode d).length := by
      rw [length_encode]
      omega
    have hfirst : (encode c)[0]? = (encode d)[d.utf8Size - c.utf8Size]? := by
      have hat := congrArg (fun l : List UInt8 => l[x.length]?) h
      simp only [List.getElem?_append_right le_rfl, Nat.sub_self] at hat
      rw [hat, List.getElem?_append_right (by omega)]
      congr 1
      omega
    rw [List.getElem?_eq_getElem hindex, List.getElem?_eq_getElem (by rw [length_encode]; omega),
      Option.some.injEq] at hfirst
    have hbyte := UInt8.isUTF8FirstByte_getElem_zero_utf8EncodeChar (c := c)
    rw [hfirst, UInt8.isUTF8FirstByte_getElem_utf8EncodeChar] at hbyte
    omega
  have hlength : (encode c).length = (encode d).length := by
    rw [length_encode, length_encode]
    exact le_antisymm (hsize h.symm) (hsize h)
  obtain ⟨hxy, hcd⟩ := List.append_inj' h hlength
  refine ⟨hxy, ?_⟩
  have hc := decodeChar?_encode_append c []
  rw [hcd, decodeChar?_encode_append] at hc
  exact (Option.some.inj hc).symm

theorem valid_nil : Valid [] := ⟨[], rfl⟩

theorem valid_encode (c : Char) : Valid (encode c) := ⟨[c], by simp⟩

theorem Valid.append {bs bs' : List UInt8} (h : Valid bs) (h' : Valid bs') : Valid (bs ++ bs') := by
  obtain ⟨cs, rfl⟩ := h
  obtain ⟨cs', rfl⟩ := h'
  exact ⟨cs ++ cs', by rw [List.flatMap_append]⟩

theorem Valid.of_encode_append {c : Char} {bs : List UInt8} (h : Valid (encode c ++ bs)) :
    Valid bs := by
  obtain ⟨cs, hcs⟩ := h
  cases cs with
  | nil => exact absurd (List.append_eq_nil_iff.1 hcs).1 String.utf8EncodeChar_ne_nil
  | cons d cs =>
    have hc := decodeChar?_encode_append c bs
    rw [hcs, List.flatMap_cons, decodeChar?_encode_append, Option.some.injEq] at hc
    rw [← hc, List.flatMap_cons] at hcs
    exact ⟨cs, List.append_cancel_left hcs⟩

theorem Valid.of_append_encode {c : Char} {bs : List UInt8} (h : Valid (bs ++ encode c)) :
    Valid bs := by
  obtain ⟨cs, hcs⟩ := h
  rcases List.eq_nil_or_concat cs with rfl | ⟨cs, d, rfl⟩
  · exact absurd (List.append_eq_nil_iff.1 hcs).2 String.utf8EncodeChar_ne_nil
  · rw [List.concat_eq_append, List.flatMap_append, List.flatMap_singleton] at hcs
    exact ⟨cs, (append_encode_inj hcs).1⟩

theorem valid_of_lt {bs : List UInt8} (h : ∀ b ∈ bs, b < 128) : Valid bs := by
  induction bs with
  | nil => exact valid_nil
  | cons b bs ih =>
    have hb : Valid [b] := ⟨[Char.ofNat b.toNat], by simp [encode_ofNat (h b (by simp))]⟩
    exact hb.append (ih fun b' hb' => h b' (by simp [hb']))

end PasswordHook.Utf8
