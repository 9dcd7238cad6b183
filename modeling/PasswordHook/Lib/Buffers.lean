import Mathlib

/-!
# Byte buffers

A heap of byte buffers, each with the bytes it holds over its whole capacity, and slices from the
start of a buffer.  What lies between the length of a slice and the capacity of its buffer is its
spare part.  An append writes to the spare part as long as it suffices, and otherwise moves to a new
buffer and leaves the old one as it is.  So a buffer that was left keeps its contents, and zeroing
the last buffer clears all that were appended to exactly when the first had room for everything
(`cleared_iff`).  The capacities depend on the lengths of the pieces only (`cap_appendAll`).
-/

namespace PasswordHook

/-- The buffers allocated so far. -/
structure Heap where
  next : ℕ
  buffer : ℕ → List UInt8

structure Slice where
  id : ℕ
  len : ℕ
  deriving DecidableEq

namespace Heap

section

variable (h : Heap)

def put (i : ℕ) (bytes : List UInt8) : Heap := ⟨h.next, Function.update h.buffer i bytes⟩

def alloc (bytes : List UInt8) : Heap := ⟨h.next + 1, Function.update h.buffer h.next bytes⟩

/-- A new buffer of zeros. -/
def make (len cap : ℕ) : Heap × Slice := (h.alloc (List.replicate cap 0), ⟨h.next, len⟩)

variable (s : Slice)

def cap : ℕ := (h.buffer s.id).length

def contents : List UInt8 := (h.buffer s.id).take s.len

def spare : List UInt8 := (h.buffer s.id).drop s.len

/-- The slice lies in a buffer of the heap. -/
structure Holds : Prop where
  lt : s.id < h.next
  le : s.len ≤ h.cap s

/-- The bytes are written to the start of the slice. -/
def copy (bytes : List UInt8) : Heap :=
  h.put s.id (bytes.take s.len ++ (h.buffer s.id).drop (min bytes.length s.len))

/-- The spare part is overwritten. -/
def fill (spare : List UInt8) : Heap := h.put s.id (h.contents s ++ spare)

def zero : Heap := h.put s.id (List.replicate s.len 0 ++ h.spare s)

end

variable {h : Heap} {s : Slice}

@[simp] theorem buffer_put_self (i : ℕ) (bytes : List UInt8) :
    (h.put i bytes).buffer i = bytes := by
  simp [put]

theorem buffer_put_of_ne {i j : ℕ} (hij : j ≠ i) (bytes : List UInt8) :
    (h.put i bytes).buffer j = h.buffer j := by
  simp [put, hij]

@[simp] theorem buffer_alloc_next (bytes : List UInt8) : (h.alloc bytes).buffer h.next = bytes := by
  simp [alloc]

theorem buffer_alloc_of_lt {i : ℕ} (hi : i < h.next) (bytes : List UInt8) :
    (h.alloc bytes).buffer i = h.buffer i := by
  simp [alloc, Nat.ne_of_lt hi]

theorem contents_append_spare (h : Heap) (s : Slice) : h.contents s ++ h.spare s = h.buffer s.id :=
  List.take_append_drop s.len (h.buffer s.id)

theorem Holds.length_contents (hs : h.Holds s) : (h.contents s).length = s.len :=
  List.length_take_of_le hs.le

theorem length_spare (h : Heap) (s : Slice) : (h.spare s).length = h.cap s - s.len :=
  List.length_drop

/-- A slice extended over a part of the spare part that was filled. -/
theorem Holds.fill (hs : h.Holds s) {spare : List UInt8} {n : ℕ} (hn : n ≤ spare.length) :
    (h.fill s spare).Holds ⟨s.id, s.len + n⟩ ∧
      (h.fill s spare).contents ⟨s.id, s.len + n⟩ = h.contents s ++ spare.take n := by
  have hbuffer : (h.fill s spare).buffer s.id = h.contents s ++ spare := buffer_put_self _ _
  refine ⟨⟨hs.lt, ?_⟩, ?_⟩
  · rw [cap, hbuffer, List.length_append, hs.length_contents]
    exact Nat.add_le_add_left hn s.len
  · have hle : (h.contents s).length ≤ s.len + n := by
      rw [hs.length_contents]
      omega
    rw [contents, hbuffer]
    show (h.contents s ++ spare).take (s.len + n) = _
    rw [List.take_append, List.take_of_length_le hle, hs.length_contents, Nat.add_sub_cancel_left]

theorem contents_put_of_ne {i : ℕ} (hi : s.id ≠ i) (bytes : List UInt8) :
    (h.put i bytes).contents s = h.contents s := by
  rw [contents, buffer_put_of_ne hi, contents]

theorem contents_alloc_of_lt (hs : s.id < h.next) (bytes : List UInt8) :
    (h.alloc bytes).contents s = h.contents s := by
  rw [contents, buffer_alloc_of_lt hs, contents]

theorem contents_zero (h : Heap) (s : Slice) : ∀ b ∈ (h.zero s).contents s, b = 0 := by
  intro b hb
  rw [contents, zero, buffer_put_self, List.take_left' List.length_replicate] at hb
  exact List.eq_of_mem_replicate hb

/-- Zeroing a slice leaves the zeros of every slice. -/
theorem contents_zero_of_zero {t : Slice} (ht : ∀ b ∈ h.contents t, b = 0) :
    ∀ b ∈ (h.zero s).contents t, b = 0 := by
  intro b hb
  by_cases hid : t.id = s.id
  · rw [contents, zero, hid, buffer_put_self, List.take_append, List.length_replicate] at hb
    rcases List.mem_append.1 hb with hb | hb
    · exact List.eq_of_mem_replicate (List.mem_of_mem_take hb)
    · rw [spare, ← List.drop_take] at hb
      apply ht b
      rw [contents, hid]
      exact List.mem_of_mem_drop hb
  · rw [zero, contents_put_of_ne hid] at hb
    exact ht b hb

/-! ## Appends -/

section

variable (grow : ℕ → ℕ → ℕ)

/-- The bytes after the slice; `grow` is the capacity for an old capacity and a new length. -/
def append (h : Heap) (s : Slice) (bytes : List UInt8) : Heap × Slice :=
  let len := s.len + bytes.length
  if len ≤ h.cap s then
    (h.put s.id (h.contents s ++ (bytes ++ (h.spare s).drop bytes.length)), ⟨s.id, len⟩)
  else
    let cap := max (grow (h.cap s) len) len
    (h.alloc (h.contents s ++ (bytes ++ List.replicate (cap - len) 0)), ⟨h.next, len⟩)

/-- A new buffer with the bytes. -/
def ofBytes (h : Heap) (bytes : List UInt8) : Heap × Slice :=
  (h.alloc (bytes ++ List.replicate (grow 0 bytes.length - bytes.length) 0), ⟨h.next, bytes.length⟩)

def appendAll (b : Heap × Slice) (pieces : List (List UInt8)) : Heap × Slice :=
  pieces.foldl (fun b bytes => append grow b.1 b.2 bytes) b

/-- The capacity for `len` bytes: the old one as long as it suffices. -/
def capFor (cap len : ℕ) : ℕ := if len ≤ cap then cap else max (grow cap len) len

/-- The capacity when pieces of these lengths have been appended to `len` bytes. -/
def capAfter (cap len : ℕ) : List ℕ → ℕ
  | [] => cap
  | n :: lengths => capAfter (capFor grow cap (len + n)) (len + n) lengths

end

/-- What appends can do. -/
structure Appended (h : Heap) (s : Slice) (bytes : List UInt8) (h' : Heap) (s' : Slice) : Prop where
  holds : h'.Holds s'
  len : s'.len = s.len + bytes.length
  contents : h'.contents s' = h.contents s ++ bytes
  next_le : h.next ≤ h'.next
  frame : ∀ i < h.next, i ≠ s.id → h'.buffer i = h.buffer i
  stays : s.len + bytes.length ≤ h.cap s → s'.id = s.id ∧ h'.cap s' = h.cap s ∧ h'.next = h.next
  moves : h.cap s < s.len + bytes.length → h.next ≤ s'.id
  left : s'.id ≠ s.id → h.contents s <+: h'.buffer s.id
  spare : (∀ b ∈ h.spare s, b = 0) → ∀ b ∈ h'.spare s', b = 0

theorem Holds.appended_nil (hs : h.Holds s) : Appended h s [] h s where
  holds := hs
  len := rfl
  contents := (List.append_nil _).symm
  next_le := le_refl _
  frame _ _ _ := rfl
  stays _ := ⟨rfl, rfl, rfl⟩
  moves hlt := absurd hs.le (not_le.2 hlt)
  left hne := absurd rfl hne
  spare hzero := hzero

/-- A new buffer with the bytes and zeros after them. -/
theorem alloc_padded (h : Heap) (bytes : List UInt8) (n : ℕ) :
    (h.alloc (bytes ++ List.replicate n 0)).Holds ⟨h.next, bytes.length⟩ ∧
      (h.alloc (bytes ++ List.replicate n 0)).contents ⟨h.next, bytes.length⟩ = bytes ∧
      ∀ b ∈ (h.alloc (bytes ++ List.replicate n 0)).spare ⟨h.next, bytes.length⟩, b = 0 := by
  refine ⟨⟨Nat.lt_succ_self _, ?_⟩, ?_, fun b hb => ?_⟩
  · rw [cap, buffer_alloc_next, List.length_append]
    exact Nat.le_add_right _ _
  · rw [contents, buffer_alloc_next, List.take_left]
  · rw [spare, buffer_alloc_next, List.drop_left] at hb
    exact List.eq_of_mem_replicate hb

theorem Holds.append (hs : h.Holds s) (grow : ℕ → ℕ → ℕ) (bytes : List UInt8) :
    Appended h s bytes (append grow h s bytes).1 (append grow h s bytes).2 := by
  have hlength := hs.length_contents
  unfold Heap.append
  by_cases hroom : s.len + bytes.length ≤ h.cap s
  · simp only [if_pos hroom]
    have hbuffer :
        (h.put s.id (h.contents s ++ (bytes ++ (h.spare s).drop bytes.length))).buffer s.id =
        (h.contents s ++ bytes) ++ (h.spare s).drop bytes.length := by
      rw [buffer_put_self, List.append_assoc]
    have hlen : (h.contents s ++ bytes).length = s.len + bytes.length := by
      rw [List.length_append, hlength]
    have hcap : (h.put s.id (h.contents s ++ (bytes ++ (h.spare s).drop bytes.length))).cap
        ⟨s.id, s.len + bytes.length⟩ = h.cap s := by
      rw [cap, hbuffer, List.length_append, hlen, List.length_drop, length_spare]
      omega
    refine ⟨⟨hs.lt, hcap ▸ hroom⟩, rfl, ?_, le_refl _, fun i _ hne => buffer_put_of_ne hne _,
      fun _ => ⟨rfl, hcap, rfl⟩, fun hlt => absurd hroom (not_le.2 hlt), fun hne =>
        absurd rfl hne, ?_⟩
    · rw [contents, hbuffer, List.take_left' hlen]
    · intro hzero b hb
      rw [spare, hbuffer, List.drop_left' hlen] at hb
      exact hzero b (List.mem_of_mem_drop hb)
  · simp only [if_neg hroom, ← List.append_assoc]
    have hlen : (h.contents s ++ bytes).length = s.len + bytes.length := by
      rw [List.length_append, hlength]
    rw [← hlen]
    obtain ⟨hholds, hcontents, hspare⟩ := h.alloc_padded (h.contents s ++ bytes)
      (max (grow (h.cap s) (h.contents s ++ bytes).length) (h.contents s ++ bytes).length -
        (h.contents s ++ bytes).length)
    refine ⟨hholds, hlen, hcontents, Nat.le_succ _, fun i hi _ => buffer_alloc_of_lt hi _, ?_,
      fun _ => le_refl _, fun _ => ?_, fun _ => hspare⟩
    · intro hle
      exact absurd hle hroom
    · rw [buffer_alloc_of_lt hs.lt, ← contents_append_spare h s]
      exact List.prefix_append _ _

theorem cap_append (hs : h.Holds s) (grow : ℕ → ℕ → ℕ) (bytes : List UInt8) :
    (append grow h s bytes).1.cap (append grow h s bytes).2 =
      capFor grow (h.cap s) (s.len + bytes.length) := by
  by_cases hroom : s.len + bytes.length ≤ h.cap s
  · rw [capFor, if_pos hroom]
    exact ((hs.append grow bytes).stays hroom).2.1
  · have hlength := hs.length_contents
    rw [cap, capFor, if_neg hroom, Heap.append]
    simp only [if_neg hroom, buffer_alloc_next, List.length_append, List.length_replicate, hlength]
    omega

theorem cap_ofBytes (grow : ℕ → ℕ → ℕ) (h : Heap) (bytes : List UInt8) :
    (ofBytes grow h bytes).1.cap (ofBytes grow h bytes).2 =
      max (grow 0 bytes.length) bytes.length := by
  rw [cap, ofBytes, buffer_alloc_next, List.length_append, List.length_replicate]
  omega

theorem Appended.trans {h' h'' : Heap} {s' s'' : Slice} {bytes bytes' : List UInt8}
    (hs : h.Holds s) (first : Appended h s bytes h' s') (last : Appended h' s' bytes' h'' s'') :
    Appended h s (bytes ++ bytes') h'' s'' := by
  have hlen : (bytes ++ bytes').length = bytes.length + bytes'.length := List.length_append
  have hlt : s.id < h'.next := lt_of_lt_of_le hs.lt first.next_le
  refine ⟨last.holds, ?_, ?_, le_trans first.next_le last.next_le, fun i hi hne => ?_,
    fun hroom => ?_, fun hfull => ?_, fun hne => ?_, fun hzero => last.spare (first.spare hzero)⟩
  · rw [last.len, first.len, hlen, Nat.add_assoc]
  · rw [last.contents, first.contents, List.append_assoc]
  · have hne' : i ≠ s'.id := by
      intro heq
      by_cases hroom : s.len + bytes.length ≤ h.cap s
      · exact hne (heq.trans (first.stays hroom).1)
      · have := first.moves (not_le.1 hroom)
        omega
    rw [last.frame i (lt_of_lt_of_le hi first.next_le) hne', first.frame i hi hne]
  · rw [hlen] at hroom
    obtain ⟨hid, hcap, hnext⟩ := first.stays (by omega)
    obtain ⟨hid', hcap', hnext'⟩ := last.stays (by rw [first.len, hcap]; omega)
    exact ⟨hid'.trans hid, hcap'.trans hcap, hnext'.trans hnext⟩
  · rw [hlen] at hfull
    have hnext := first.next_le
    by_cases hroom' : s'.len + bytes'.length ≤ h'.cap s'
    · rw [(last.stays hroom').1]
      apply first.moves
      by_contra hroom
      have hcap := (first.stays (not_lt.1 hroom)).2.1
      rw [first.len, hcap] at hroom'
      omega
    · have := last.moves (not_le.1 hroom')
      omega
  · by_cases hid : s'.id = s.id
    · have hkept := last.left (fun heq => hne (heq.trans hid))
      rw [first.contents, hid] at hkept
      exact (List.prefix_append _ _).trans hkept
    · rw [last.frame s.id hlt (fun heq => hid heq.symm)]
      exact first.left hid

theorem Holds.appendAll (hs : h.Holds s) (grow : ℕ → ℕ → ℕ) (pieces : List (List UInt8)) :
    Appended h s pieces.flatten (appendAll grow (h, s) pieces).1
      (appendAll grow (h, s) pieces).2 := by
  induction pieces generalizing h s with
  | nil => exact hs.appended_nil
  | cons bytes pieces ih =>
    have hfirst := hs.append grow bytes
    rw [List.flatten_cons]
    exact hfirst.trans hs (ih hfirst.holds)

theorem cap_appendAll (hs : h.Holds s) (grow : ℕ → ℕ → ℕ) (pieces : List (List UInt8)) :
    (appendAll grow (h, s) pieces).1.cap (appendAll grow (h, s) pieces).2 =
      capAfter grow (h.cap s) s.len (pieces.map List.length) := by
  induction pieces generalizing h s with
  | nil => rfl
  | cons bytes pieces ih =>
    have hfirst := hs.append grow bytes
    refine (ih hfirst.holds).trans ?_
    rw [List.map_cons, capAfter, cap_append hs grow bytes, hfirst.len]

theorem buffer_zero_self (h : Heap) (s : Slice) (hspare : ∀ b ∈ h.spare s, b = 0) :
    ∀ b ∈ (h.zero s).buffer s.id, b = 0 := by
  intro b hb
  rw [zero, buffer_put_self] at hb
  rcases List.mem_append.1 hb with hb | hb
  · exact List.eq_of_mem_replicate hb
  · exact hspare b hb

theorem buffer_zero_of_zero {i : ℕ} (hi : ∀ b ∈ h.buffer i, b = 0) :
    ∀ b ∈ (h.zero s).buffer i, b = 0 := by
  intro b hb
  by_cases hid : i = s.id
  · rw [zero, hid, buffer_put_self] at hb
    rcases List.mem_append.1 hb with hb | hb
    · exact List.eq_of_mem_replicate hb
    · apply hi b
      rw [hid]
      exact List.mem_of_mem_drop hb
  · rw [zero, buffer_put_of_ne hid] at hb
    exact hi b hb

/-- Zeroing the slice in the end clears every buffer the appends went through if and only if the
buffer of the first had room for all of them. -/
theorem cleared_iff (hs : h.Holds s) (hspare : ∀ b ∈ h.spare s, b = 0)
    (hbyte : ∃ b ∈ h.contents s, b ≠ 0) (grow : ℕ → ℕ → ℕ) (first : List UInt8)
    (rest : List (List UInt8)) :
    let b := append grow h s first
    let last := appendAll grow b rest
    (∀ n, ∀ x ∈ (last.1.zero last.2).buffer (appendAll grow b (rest.take n)).2.id, x = 0) ↔
      s.len + (first.length + rest.flatten.length) ≤ b.1.cap b.2 := by
  intro b last
  have hb : Appended h s first b.1 b.2 := hs.append grow first
  have hlast : Appended b.1 b.2 rest.flatten last.1 last.2 := hb.holds.appendAll grow rest
  constructor
  · intro hclear
    by_contra hroom
    -- the appends have left the first buffer, which keeps what it had
    have hleft : last.2.id ≠ b.2.id := by
      have hmoved := hlast.moves (by rw [hb.len]; omega)
      have hin := hb.holds.lt
      omega
    obtain ⟨x, hx, hne⟩ := hbyte
    have hkept := hlast.left hleft
    rw [hb.contents] at hkept
    apply hne
    apply hclear 0 x
    show x ∈ (last.1.zero last.2).buffer b.2.id
    rw [zero, buffer_put_of_ne hleft.symm]
    exact hkept.subset (List.mem_append_left first hx)
  · intro hroom n
    have htake : (rest.take n).flatten.length ≤ rest.flatten.length := by
      calc (rest.take n).flatten.length
          ≤ (rest.take n).flatten.length + (rest.drop n).flatten.length := Nat.le_add_right _ _
        _ = rest.flatten.length := by
          rw [← List.length_append, ← List.flatten_append, List.take_append_drop]
    have hstays := (hb.holds.appendAll grow (rest.take n)).stays (by rw [hb.len]; omega)
    have hend := hlast.stays (by rw [hb.len]; omega)
    have hid : (appendAll grow b (rest.take n)).2.id = last.2.id := hstays.1.trans hend.1.symm
    rw [hid]
    exact buffer_zero_self last.1 last.2 (hlast.spare (hb.spare hspare))

/-! ## Allocation -/

/-- The buffers of the first heap are in the second as they were. -/
structure Extends (h h' : Heap) : Prop where
  next_le : h.next ≤ h'.next
  frame : ∀ i < h.next, h'.buffer i = h.buffer i

theorem Extends.refl (h : Heap) : h.Extends h := ⟨le_rfl, fun _ _ => rfl⟩

theorem Extends.trans {h' h'' : Heap} (first : h.Extends h') (last : h'.Extends h'') :
    h.Extends h'' where
  next_le := first.next_le.trans last.next_le
  frame i hi := (last.frame i (lt_of_lt_of_le hi first.next_le)).trans (first.frame i hi)

theorem extends_alloc (h : Heap) (bytes : List UInt8) : h.Extends (h.alloc bytes) :=
  ⟨Nat.le_succ _, fun _ hi => buffer_alloc_of_lt hi bytes⟩

theorem Extends.contents_eq {h' : Heap} (hext : h.Extends h') (hs : s.id < h.next) :
    h'.contents s = h.contents s := by
  rw [contents, hext.frame s.id hs, contents]

end Heap

end PasswordHook
