import PasswordHook.Handler.PasswordBytes
import PasswordHook.Lib.Buffers

/-!
# The buffers of decoded passwords

`decodeJSONStringBytes` on buffers.  No byte between the quotes gives more than three bytes, so the
buffer it starts with is never left, whatever the growth policy (`decoding_stays`); on an error it
is zeroed.
-/

namespace PasswordHook

open JsonString

section Decode

variable (grow : ℕ → ℕ → ℕ)

/-- The loop of `decodeJSONStringBytes`, with the error it stops at. -/
def decodeItemsTo : ℕ → Bytes → Heap × Slice → (Heap × Slice) × Option Err
  | _, [], out => (out, none)
  | 0, _ :: _, out => (out, none)
  | turns + 1, b :: s, out =>
    match decodeItem b s with
    | .error err => (out, some err)
    | .ok (piece, s) => decodeItemsTo turns s (Heap.append grow out.1 out.2 piece)

/-- The buffer the loop starts with. -/
def decodeBuffer (h : Heap) (data : Bytes) : Heap × Slice := h.make 0 ((data.length - 2) * 3)

/-- `decodeJSONStringBytes` on buffers. -/
def decodeJSONStringBytesTo (h : Heap) (data : Bytes) : Heap × Except Err Slice :=
  if data.length < 2 ∨ data.head? ≠ some 0x22 ∨ data.getLast? ≠ some 0x22 then
    (h, .error (.new "password must be a json string"))
  else
    let r := decodeItemsTo grow (data.length - 2) ((data.drop 1).dropLast) (decodeBuffer h data)
    match r.2 with
    | some err => (r.1.1.zero r.1.2, .error err)
    | none => (r.1.1, .ok r.1.2)

/-- `passwordcrypto.ZeroBytes` on the password field. -/
def zeroPassword (field : Heap × Option Slice) : Heap :=
  match field.2 with
  | some p => field.1.zero p
  | none => field.1

/-- `passwordBytes.UnmarshalJSON` on buffers: the heap and the field after it. -/
def unmarshalPasswordTo (field : Heap × Option Slice) (data : Bytes) : Heap × Option Slice :=
  let h := zeroPassword field
  if data = bytesOf "null" then (h, none)
  else
    match decodeJSONStringBytesTo grow h data with
    | (h, .error _) => (h, none)
    | (h, .ok decoded) => (h, some decoded)

end Decode

/-! ## The bound -/

theorem length_encode_le (c : Char) : (Utf8.encode c).length ≤ 4 := by
  rw [Utf8.length_encode]
  rcases c.utf8Size_eq with hc | hc | hc | hc <;> omega

/-- What one turn adds is at most three times what it takes. -/
theorem length_decodeItem {b : UInt8} {s piece s' : Bytes} (h : decodeItem b s = .ok (piece, s')) :
    piece.length + 3 * s'.length ≤ 3 * (s.length + 1) := by
  by_cases hslash : b = 0x5c
  · subst hslash
    cases s with
    | nil => exact absurd h (by simp [decodeItem])
    | cons e s =>
      by_cases hu : e = 0x75
      · subst hu
        cases hdecode : decodeUnicodeEscape s with
        | error err =>
          rw [decodeItem_unicode_error hdecode] at h
          exact absurd h (by simp)
        | ok p =>
          rw [decodeItem_unicode hdecode] at h
          obtain ⟨rfl, rfl⟩ := Prod.mk.inj (Except.ok.inj h)
          have hpiece := length_encode_le (runeChar p.1)
          have hrest : (s.drop p.2).length ≤ s.length := by
            rw [List.length_drop]
            omega
          rw [List.length_cons]
          omega
      · cases hshort : shortEscape? e with
        | none =>
          rw [decodeItem_of_not_escape hshort hu] at h
          exact absurd h (by simp)
        | some value =>
          rw [decodeItem_short hshort] at h
          obtain ⟨rfl, rfl⟩ := Prod.mk.inj (Except.ok.inj h)
          have hpiece := length_encode_le (Char.ofNat value.toNat)
          rw [List.length_cons]
          omega
  · rw [decodeItem.eq_def, if_pos hslash] at h
    split_ifs at h with hquote hcontrol hlt
    · obtain ⟨rfl, rfl⟩ := Prod.mk.inj (Except.ok.inj h)
      rw [List.length_singleton]
      omega
    · obtain ⟨rfl, rfl⟩ := Prod.mk.inj (Except.ok.inj h)
      cases hdecode : Utf8.decodeChar? (b :: s) with
      | some c =>
        obtain ⟨rest, hrest⟩ := Utf8.decodeChar?_eq_some_iff.1 hdecode
        have hlength := congrArg List.length hrest
        rw [List.length_append, List.length_cons, Utf8.length_encode] at hlength
        rw [decodeRune_of_decode hdecode, List.length_drop, List.length_cons]
        simp only [appendRune, List.nil_append, runeChar_toNat, Utf8.length_encode]
        omega
      | none =>
        rw [decodeRune_of_none (List.cons_ne_nil b s) hdecode]
        have hpiece : (appendRune [] runeError).length = 3 := by decide
        simp only [hpiece, List.drop_succ_cons, List.drop_zero]
        omega

/-! ## The loop -/

section Loop

variable {grow : ℕ → ℕ → ℕ} {h : Heap} {out : Slice}

variable (grow) in
/-- With room for three bytes for every byte that is left, the loop appends in place; it gives the
bytes and the error of the decoder. -/
theorem decodeItemsTo_appended (turns : ℕ) {s : Bytes} (hs : h.Holds out)
    (room : out.len + 3 * s.length ≤ h.cap out) :
    ∃ bytes, Heap.Appended h out bytes (decodeItemsTo grow turns s (h, out)).1.1
        (decodeItemsTo grow turns s (h, out)).1.2 ∧
      bytes.length ≤ 3 * s.length ∧
      decodeItems decodeItem turns s (h.contents out) =
        match (decodeItemsTo grow turns s (h, out)).2 with
        | none => .ok (h.contents out ++ bytes)
        | some err => .error err := by
  induction turns generalizing s h out with
  | zero =>
    refine ⟨[], ?_, Nat.zero_le _, ?_⟩
    · cases s <;> exact hs.appended_nil
    · cases s <;> exact congrArg Except.ok (List.append_nil _).symm
  | succ turns ih =>
    cases s with
    | nil => exact ⟨[], hs.appended_nil, Nat.zero_le _, congrArg Except.ok (List.append_nil _).symm⟩
    | cons b s =>
      cases hitem : decodeItem b s with
      | error err =>
        refine ⟨[], ?_, Nat.zero_le _, ?_⟩
        · rw [decodeItemsTo, hitem]
          exact hs.appended_nil
        · rw [decodeItemsTo, decodeItems, hitem]
      | ok p =>
        obtain ⟨piece, s'⟩ := p
        have hbound := length_decodeItem hitem
        rw [List.length_cons] at room
        have hfirst := hs.append grow piece
        obtain ⟨-, hcap, -⟩ := hfirst.stays (by omega)
        have hroom : (Heap.append grow h out piece).2.len + 3 * s'.length ≤
            (Heap.append grow h out piece).1.cap (Heap.append grow h out piece).2 := by
          rw [hcap, hfirst.len]
          omega
        obtain ⟨bytes, hrest, hlength, hvalue⟩ := ih hfirst.holds hroom
        refine ⟨piece ++ bytes, ?_, ?_, ?_⟩
        · rw [decodeItemsTo, hitem]
          exact hfirst.trans hs hrest
        · rw [List.length_append, List.length_cons]
          omega
        · rw [hfirst.contents, List.append_assoc] at hvalue
          rw [decodeItemsTo, decodeItems, hitem]
          exact hvalue

/-- Where the loop is after any number of turns: in the buffer it started with, within its
capacity. -/
structure Decoding (h : Heap) (data : Bytes) (r : Heap × Slice) : Prop where
  holds : r.1.Holds r.2
  id : r.2.id = h.next
  next : r.1.next = h.next + 1
  cap : r.1.cap r.2 = (data.length - 2) * 3
  frame : ∀ i < h.next, r.1.buffer i = h.buffer i
  spare : ∀ b ∈ r.1.spare r.2, b = 0

theorem decoding_decodeBuffer (h : Heap) (data : Bytes) :
    Decoding h data (decodeBuffer h data) where
  holds := ⟨Nat.lt_succ_self _, Nat.zero_le _⟩
  id := rfl
  next := rfl
  cap := by
    show ((h.alloc (List.replicate ((data.length - 2) * 3) 0)).buffer h.next).length = _
    rw [Heap.buffer_alloc_next, List.length_replicate]
  frame i hi := Heap.buffer_alloc_of_lt hi _
  spare b hb := by
    have hspare : (decodeBuffer h data).1.spare (decodeBuffer h data).2 =
        List.replicate ((data.length - 2) * 3) 0 := Heap.buffer_alloc_next _
    rw [hspare] at hb
    exact List.eq_of_mem_replicate hb

theorem length_between (data : Bytes) : ((data.drop 1).dropLast).length = data.length - 2 := by
  rw [List.length_dropLast, List.length_drop]
  omega

theorem room_decodeBuffer (h : Heap) (data : Bytes) :
    (decodeBuffer h data).2.len + 3 * ((data.drop 1).dropLast).length ≤
      (decodeBuffer h data).1.cap (decodeBuffer h data).2 := by
  rw [(decoding_decodeBuffer h data).cap, length_between]
  show 0 + 3 * (data.length - 2) ≤ _
  omega

/-- The loop never leaves its buffer. -/
theorem decoding_stays (grow : ℕ → ℕ → ℕ) (h : Heap) (data : Bytes) (turns : ℕ) :
    Decoding h data
      (decodeItemsTo grow turns ((data.drop 1).dropLast) (decodeBuffer h data)).1 := by
  have hstart := decoding_decodeBuffer h data
  have hroom := room_decodeBuffer h data
  obtain ⟨bytes, happended, hlength, -⟩ := decodeItemsTo_appended grow turns hstart.holds hroom
  obtain ⟨hid, hcap, hnext⟩ := happended.stays (by omega)
  refine ⟨happended.holds, hid.trans hstart.id, hnext.trans hstart.next, hcap.trans hstart.cap, ?_,
    happended.spare hstart.spare⟩
  intro i hi
  have hlt : i < (decodeBuffer h data).1.next := Nat.lt_succ_of_lt hi
  rw [happended.frame i hlt (Nat.ne_of_lt hi), hstart.frame i hi]

/-- On buffers the decoder gives what it gives on bytes. -/
theorem decodeJSONStringBytesTo_contents (grow : ℕ → ℕ → ℕ) (h : Heap) (data : Bytes) :
    (decodeJSONStringBytesTo grow h data).2.map (decodeJSONStringBytesTo grow h data).1.contents =
      decodeJSONStringBytes data := by
  rw [decodeJSONStringBytesTo, decodeJSONStringBytes]
  by_cases hquoted : data.length < 2 ∨ data.head? ≠ some 0x22 ∨ data.getLast? ≠ some 0x22
  · rw [if_pos hquoted, if_pos hquoted]
    rfl
  · have hstart := decoding_decodeBuffer h data
    obtain ⟨bytes, happended, -, hvalue⟩ :=
      decodeItemsTo_appended grow (data.length - 2) hstart.holds (room_decodeBuffer h data)
    have hempty : (decodeBuffer h data).1.contents (decodeBuffer h data).2 = [] := List.take_zero
    rw [if_neg hquoted, if_neg hquoted]
    have hcontents := happended.contents
    rw [hempty, List.nil_append] at hcontents
    rw [hempty, List.nil_append] at hvalue
    rw [hvalue]
    show Except.map _ _ = _
    cases hresult : (decodeItemsTo grow (data.length - 2) ((data.drop 1).dropLast)
      (decodeBuffer h data)).2 with
    | some err => simp only [hresult, Except.map]
    | none =>
      simp only [hresult, Except.map]
      exact congrArg Except.ok hcontents

end Loop

/-! ## The password field -/

section Field

variable {grow : ℕ → ℕ → ℕ} {h₀ : Heap} {field : Heap × Option Slice}

/-- Of the buffers allocated since `h₀`, all are zero but that of the field, which is zero behind
the password. -/
structure FieldOnly (h₀ : Heap) (field : Heap × Option Slice) : Prop where
  next_le : h₀.next ≤ field.1.next
  spare : ∀ p, field.2 = some p → ∀ b ∈ field.1.spare p, b = 0
  cleared : ∀ i, h₀.next ≤ i → i < field.1.next → (∀ p, field.2 = some p → i ≠ p.id) →
    ∀ b ∈ field.1.buffer i, b = 0

theorem fieldOnly_self (h₀ : Heap) : FieldOnly h₀ (h₀, none) where
  next_le := le_refl _
  spare p hp := absurd hp (by simp)
  cleared i hge hlt := absurd hge (not_le.2 hlt)

theorem FieldOnly.zeroed (hf : FieldOnly h₀ field) : FieldOnly h₀ (zeroPassword field, none) := by
  unfold zeroPassword
  obtain ⟨h, p⟩ := field
  cases p with
  | none => exact ⟨hf.next_le, fun p hp => absurd hp (by simp), hf.cleared⟩
  | some p =>
    refine ⟨hf.next_le, fun p hp => absurd hp (by simp), fun i hge hlt _ => ?_⟩
    by_cases hi : i = p.id
    · rw [hi]
      exact Heap.buffer_zero_self h p (hf.spare p rfl)
    · intro b hb
      change b ∈ (h.zero p).buffer i at hb
      rw [Heap.zero, Heap.buffer_put_of_ne hi] at hb
      apply hf.cleared i hge hlt _ b hb
      intro q hq
      rwa [← Option.some.inj hq]

variable (grow) in
/-- The decoder allocates one buffer and clears it on an error. -/
theorem FieldOnly.decode {h : Heap} (hf : FieldOnly h₀ (h, none)) (data : Bytes) :
    FieldOnly h₀ ((decodeJSONStringBytesTo grow h data).1,
      (decodeJSONStringBytesTo grow h data).2.toOption) := by
  rw [decodeJSONStringBytesTo]
  by_cases hquoted : data.length < 2 ∨ data.head? ≠ some 0x22 ∨ data.getLast? ≠ some 0x22
  · rw [if_pos hquoted]
    exact hf
  · rw [if_neg hquoted]
    have hend := decoding_stays grow h data (data.length - 2)
    generalize decodeItemsTo grow (data.length - 2) ((data.drop 1).dropLast)
      (decodeBuffer h data) = r at hend
    have hfield : FieldOnly h₀ (r.1.1, some r.1.2) := by
      refine ⟨?_, fun p hp => ?_, fun i hge hlt hne b hb => ?_⟩
      · show h₀.next ≤ r.1.1.next
        rw [hend.next]
        exact Nat.le_succ_of_le hf.next_le
      · rw [← Option.some.inj hp]
        exact hend.spare
      · have hother : i ≠ r.1.2.id := hne r.1.2 rfl
        have hbefore : i < h.next := by
          have hlt' : i < r.1.1.next := hlt
          rw [hend.next] at hlt'
          rw [hend.id] at hother
          omega
        have hb' : b ∈ r.1.1.buffer i := hb
        rw [hend.frame i hbefore] at hb'
        exact hf.cleared i hge hbefore (fun p hp => absurd hp (by simp)) b hb'
    cases hr : r.2 with
    | none =>
      simp only [hr]
      exact hfield
    | some err =>
      simp only [hr]
      exact hfield.zeroed

theorem FieldOnly.unmarshal (hf : FieldOnly h₀ field) (data : Bytes) :
    FieldOnly h₀ (unmarshalPasswordTo grow field data) := by
  have hzero := hf.zeroed
  unfold unmarshalPasswordTo
  by_cases hnull : data = bytesOf "null"
  · simp only [if_pos hnull]
    exact hzero
  · simp only [if_neg hnull]
    have hdecoded := hzero.decode grow data
    generalize decodeJSONStringBytesTo grow (zeroPassword field) data = r at hdecoded
    obtain ⟨h, result⟩ := r
    cases result with
    | error err => exact hdecoded
    | ok decoded => exact hdecoded

/-- Any sequence of calls of `UnmarshalJSON`: by induction on the calls. -/
theorem FieldOnly.unmarshalAll (hf : FieldOnly h₀ field) (calls : List Bytes) :
    FieldOnly h₀ (calls.foldl (unmarshalPasswordTo grow) field) := by
  induction calls generalizing field with
  | nil => exact hf
  | cons data calls ih => exact ih (hf.unmarshal data)

end Field

end PasswordHook
