import PasswordHook.Go.Readers
import PasswordHook.Lib.Buffers

/-!
# Package `sensitiveio`

`ReadAll` reads into a buffer that it replaces when it is full or nearly full, and zeroes the
buffers it replaces.  The loop takes fuel for its turns; a reader that yields its bytes in the end
is read completely with enough of it (`readAll_of_yields`).
-/

namespace PasswordHook

namespace Heap

variable (h : Heap) (buf : Slice)

def growZeroing (minCapacity : ℕ) : Heap × Slice :=
  let newCapacity := h.cap buf + h.cap buf / 2
  let newCapacity := if newCapacity < minCapacity then minCapacity else newCapacity
  let newCapacity := if newCapacity = 0 then 512 else newCapacity
  let made := h.make buf.len newCapacity
  let copied := made.1.copy made.2 (h.contents buf)
  (copied.zero ⟨buf.id, h.cap buf⟩, made.2)

end Heap

/-- The buffer before `Read`, which gets what is left of its capacity. -/
def beforeRead (h : Heap) (buf : Slice) : Heap × Slice :=
  if buf.len = h.cap buf then h.growZeroing buf (buf.len + 1) else (h, buf)

/-- The buffer at the end of a turn, when little is left of its capacity. -/
def afterRead (h : Heap) (buf : Slice) : Heap × Slice :=
  if h.cap buf - buf.len < h.cap buf / 16 then h.growZeroing buf (buf.len + 1) else (h, buf)

/-- A turn of the loop from the answer of `Read` on. -/
def onRead (loop : Heap → Slice → ReadProg (Option (Heap × Slice × Option Err))) (h : Heap)
    (buf : Slice) (answer : ReadAnswer (h.spare buf)) :
    ReadProg (Option (Heap × Slice × Option Err)) :=
  let filled := h.fill buf answer.slice
  let buf : Slice := ⟨buf.id, buf.len + answer.n⟩
  match answer.err with
  | some .eof => return some (filled, buf, none)
  | some (.other err) => return some (filled, buf, some err)
  | none => loop (afterRead filled buf).1 (afterRead filled buf).2

/-- The loop of `ReadAll`. -/
def readAllLoop : ℕ → Heap → Slice → ReadProg (Option (Heap × Slice × Option Err))
  | 0, _, _ => return none
  | fuel + 1, h, buf => do
    let ready := beforeRead h buf
    let answer ← Prog.perform (I := readInterface) (ready.1.spare ready.2)
    onRead (readAllLoop fuel) ready.1 ready.2 answer

def readAll (fuel : ℕ) (h : Heap) : ReadProg (Option (Heap × Slice × Option Err)) :=
  let made := h.make 0 512
  readAllLoop fuel made.1 made.2

/-! ## The buffer and the replaced ones -/

section

variable {h₀ h : Heap} {buf : Slice} {bytes : Bytes}

/-- The buffer has the bytes read so far, those it replaced are zero over their whole capacity, and
those of before the call are as they were. -/
structure Reading (h₀ h : Heap) (buf : Slice) (bytes : Bytes) : Prop where
  holds : h.Holds buf
  contents : h.contents buf = bytes
  fresh : h₀.next ≤ buf.id
  frame : ∀ i < h₀.next, h.buffer i = h₀.buffer i
  replaced : ∀ i, h₀.next ≤ i → i < h.next → i ≠ buf.id → ∀ b ∈ h.buffer i, b = 0

theorem reading_make (h₀ : Heap) (cap : ℕ) :
    Reading h₀ (h₀.make 0 cap).1 (h₀.make 0 cap).2 [] where
  holds := ⟨Nat.lt_succ_self _, Nat.zero_le _⟩
  contents := List.take_zero
  fresh := le_refl _
  frame i hi := Heap.buffer_alloc_of_lt hi _
  replaced i hge hlt hne := absurd (Nat.lt_succ_iff.1 hlt) (by
    have : i ≠ h₀.next := hne
    omega)

/-- What `growZeroing` does: a larger buffer with the contents, and zeros in the old one. -/
theorem growZeroing_eq (hs : h.Holds buf) (minCapacity : ℕ) :
    ∃ cap ≥ minCapacity, h.growZeroing buf minCapacity =
      ((h.alloc (h.contents buf ++ List.replicate (cap - buf.len) 0)).put buf.id
        (List.replicate (h.cap buf) 0), ⟨h.next, buf.len⟩) := by
  have hne : buf.id ≠ h.next := Nat.ne_of_lt hs.lt
  unfold Heap.growZeroing
  lift_lets
  intro grown atLeast newCapacity made copied
  refine ⟨newCapacity, ?_, ?_⟩
  · show minCapacity ≤ if atLeast = 0 then 512 else atLeast
    have hle : minCapacity ≤ atLeast := by
      show minCapacity ≤ if grown < minCapacity then minCapacity else grown
      split_ifs <;> omega
    split_ifs <;> omega
  · have hcopied :
        copied = h.alloc (h.contents buf ++ List.replicate (newCapacity - buf.len) 0) := by
      show (h.alloc (List.replicate newCapacity 0)).copy ⟨h.next, buf.len⟩ (h.contents buf) = _
      rw [Heap.copy, Heap.buffer_alloc_next, hs.length_contents, Nat.min_self, List.drop_replicate,
        List.take_of_length_le (le_of_eq hs.length_contents)]
      simp [Heap.put, Heap.alloc]
    have hold : copied.spare ⟨buf.id, h.cap buf⟩ = [] := by
      rw [hcopied, Heap.spare, Heap.buffer_alloc_of_lt hs.lt]
      exact List.drop_length
    rw [Heap.zero, hold, List.append_nil, hcopied]
    rfl

theorem Reading.growZeroing (hr : Reading h₀ h buf bytes) {minCapacity : ℕ}
    (hmin : buf.len < minCapacity) :
    Reading h₀ (h.growZeroing buf minCapacity).1 (h.growZeroing buf minCapacity).2 bytes ∧
      (h.growZeroing buf minCapacity).2.len <
        (h.growZeroing buf minCapacity).1.cap (h.growZeroing buf minCapacity).2 := by
  obtain ⟨cap, hcap, heq⟩ := growZeroing_eq hr.holds minCapacity
  rw [heq]
  have hlt := hr.holds.lt
  have hlength := hr.holds.length_contents
  have hnew : ((h.alloc (h.contents buf ++ List.replicate (cap - buf.len) 0)).put buf.id
      (List.replicate (h.cap buf) 0)).buffer h.next =
        h.contents buf ++ List.replicate (cap - buf.len) 0 := by
    rw [Heap.buffer_put_of_ne (Nat.ne_of_gt hlt), Heap.buffer_alloc_next]
  have hroom : buf.len < ((h.alloc (h.contents buf ++ List.replicate (cap - buf.len) 0)).put buf.id
      (List.replicate (h.cap buf) 0)).cap ⟨h.next, buf.len⟩ := by
    rw [Heap.cap, hnew, List.length_append, hlength, List.length_replicate]
    omega
  refine ⟨⟨⟨Nat.lt_succ_self _, le_of_lt hroom⟩, ?_, le_trans hr.fresh (le_of_lt hlt), ?_, ?_⟩,
    hroom⟩
  · rw [Heap.contents, hnew]
    exact (List.take_left' hlength).trans hr.contents
  · intro i hi
    have hne : i ≠ buf.id := by
      have := hr.fresh
      omega
    rw [Heap.buffer_put_of_ne hne, Heap.buffer_alloc_of_lt (by have := hr.fresh; omega)]
    exact hr.frame i hi
  · intro i hge hi hne b hb
    by_cases hold : i = buf.id
    · rw [hold, Heap.buffer_put_self] at hb
      exact List.eq_of_mem_replicate hb
    · have hbefore : i < h.next := by
        have : i ≠ h.next := hne
        have : i < h.next + 1 := hi
        omega
      rw [Heap.buffer_put_of_ne hold, Heap.buffer_alloc_of_lt hbefore] at hb
      exact hr.replaced i hge hbefore hold b hb

/-- `Read` always gets a slice that is not empty. -/
theorem Reading.beforeRead (hr : Reading h₀ h buf bytes) :
    Reading h₀ (beforeRead h buf).1 (beforeRead h buf).2 bytes ∧
      (beforeRead h buf).1.spare (beforeRead h buf).2 ≠ [] := by
  have hspare : ∀ {h : Heap} {buf : Slice}, buf.len < h.cap buf → h.spare buf ≠ [] := by
    intro h buf hlt
    apply List.ne_nil_of_length_pos
    rw [Heap.length_spare]
    omega
  unfold PasswordHook.beforeRead
  split_ifs with hfull
  · obtain ⟨hgrown, hroom⟩ := hr.growZeroing (Nat.lt_succ_self buf.len)
    exact ⟨hgrown, hspare hroom⟩
  · exact ⟨hr, hspare (lt_of_le_of_ne hr.holds.le hfull)⟩

theorem Reading.afterRead (hr : Reading h₀ h buf bytes) :
    Reading h₀ (afterRead h buf).1 (afterRead h buf).2 bytes := by
  unfold PasswordHook.afterRead
  split_ifs
  · exact (hr.growZeroing (Nat.lt_succ_self buf.len)).1
  · exact hr

/-- The buffer after `Read`, whatever it left in the part it did not read to. -/
theorem Reading.fill (hr : Reading h₀ h buf bytes) (answer : ReadAnswer (h.spare buf)) :
    Reading h₀ (h.fill buf answer.slice) ⟨buf.id, buf.len + answer.n⟩ (bytes ++ answer.data) := by
  obtain ⟨hholds, hcontents⟩ := hr.holds.fill (answer.length_slice ▸ answer.n_le)
  refine ⟨hholds, ?_, hr.fresh, fun i hi => ?_, fun i hge hlt hne b hb => ?_⟩
  · rw [hcontents, hr.contents]
    rfl
  · have hne : i ≠ buf.id := by
      have := hr.fresh
      omega
    rw [Heap.fill, Heap.buffer_put_of_ne hne]
    exact hr.frame i hi
  · rw [Heap.fill, Heap.buffer_put_of_ne hne] at hb
    exact hr.replaced i hge hlt hne b hb

/-! ## Runs -/

/-- The error that `ReadAll` returns for one of `Read`. -/
def ReadErr.returned : ReadErr → Option Err
  | .eof => none
  | .other err => some err

/-- The last call of `Read` has returned an error, the only one, and this is what `ReadAll` makes of
it. -/
def EndedWith (τ : List ReadEvent) (err : Option Err) : Prop :=
  ∃ front last e, τ = front ++ [last] ∧ (∀ e ∈ front, e.answer.err = none) ∧
    last.answer.err = some e ∧ err = e.returned

/-- What holds when the loop stops: it has run out of fuel while `Read` went on, or it returns. -/
def LoopEnd (h₀ : Heap) (bytes : Bytes) (fuel : ℕ) (τ : List ReadEvent) :
    Option (Heap × Slice × Option Err) → Prop
  | none => τ.length = fuel ∧ ∀ e ∈ τ, e.answer.err = none
  | some (h', buf', err) => EndedWith τ err ∧ Reading h₀ h' buf' (bytes ++ delivered τ)

theorem EndedWith.cons {τ : List ReadEvent} {err : Option Err} (h : EndedWith τ err) {e : ReadEvent}
    (he : e.answer.err = none) : EndedWith (e :: τ) err := by
  obtain ⟨front, last, e', rfl, hfront, hlast, herr⟩ := h
  exact ⟨e :: front, last, e', rfl, List.forall_mem_cons.2 ⟨he, hfront⟩, hlast, herr⟩

theorem LoopEnd.cons {fuel : ℕ} {e : ReadEvent} {τ : List ReadEvent}
    {r : Option (Heap × Slice × Option Err)} (h : LoopEnd h₀ (bytes ++ e.answer.data) fuel τ r)
    (he : e.answer.err = none) : LoopEnd h₀ bytes (fuel + 1) (e :: τ) r := by
  cases r with
  | none => exact ⟨congrArg (· + 1) h.1, List.forall_mem_cons.2 ⟨he, h.2⟩⟩
  | some result =>
    obtain ⟨h', buf', err⟩ := result
    obtain ⟨hended, hreading⟩ := h
    refine ⟨hended.cons he, ?_⟩
    rwa [List.append_assoc] at hreading

/-- A turn: the call of `Read`, and the loop with what it left unless it returned an error. -/
theorem exec_readAllLoop_succ {fuel : ℕ} {τ : List ReadEvent}
    {r : Option (Heap × Slice × Option Err)} (hr : Reading h₀ h buf bytes)
    (run : Prog.Exec (readAllLoop (fuel + 1) h buf) τ r) :
    ∃ (e : ReadEvent) (τ' : List ReadEvent), τ = e :: τ' ∧ e.call ≠ [] ∧
      ((∃ err h' buf', e.answer.err = some err ∧ τ' = [] ∧ r = some (h', buf', err.returned) ∧
          Reading h₀ h' buf' (bytes ++ e.answer.data)) ∨
        (e.answer.err = none ∧ ∃ h' buf', Reading h₀ h' buf' (bytes ++ e.answer.data) ∧
          Prog.Exec (readAllLoop fuel h' buf') τ' r)) := by
  obtain ⟨hready, hspare⟩ := hr.beforeRead
  obtain ⟨answer, τ', rfl, rest⟩ := Prog.exec_call_iff.1 run
  have hfilled := hready.fill answer
  refine ⟨_, τ', rfl, hspare, ?_⟩
  have hrest :
      Prog.Exec (onRead (readAllLoop fuel) (beforeRead h buf).1 (beforeRead h buf).2 answer)
      τ' r := rest
  unfold onRead at hrest
  cases herr : answer.err with
  | none =>
    rw [herr] at hrest
    exact .inr ⟨herr, _, _, hfilled.afterRead, hrest⟩
  | some err =>
    refine .inl ⟨err, _, _, herr, ?_, ?_, hfilled⟩
    · cases err <;> rw [herr] at hrest <;> exact (Prog.exec_ret_iff.1 hrest).1
    · cases err <;> rw [herr] at hrest <;> exact (Prog.exec_ret_iff.1 hrest).2.symm

/-- Whatever `Read` answers, by induction on the turns. -/
theorem exec_readAllLoop {fuel : ℕ} {τ : List ReadEvent} {r : Option (Heap × Slice × Option Err)}
    (hr : Reading h₀ h buf bytes) (run : Prog.Exec (readAllLoop fuel h buf) τ r) :
    (∀ e ∈ τ, e.call ≠ []) ∧ LoopEnd h₀ bytes fuel τ r := by
  induction fuel generalizing h buf bytes τ with
  | zero =>
    obtain ⟨rfl, rfl⟩ := Prog.exec_ret_iff.1 run
    exact ⟨fun e he => absurd he List.not_mem_nil, rfl, fun e he => absurd he List.not_mem_nil⟩
  | succ fuel ih =>
    obtain ⟨e, τ', rfl, hcall, hcases⟩ := exec_readAllLoop_succ hr run
    rcases hcases with ⟨err, h', buf', herr, rfl, rfl, hreading⟩ | ⟨herr, h', buf', hreading, rest⟩
    · refine ⟨List.forall_mem_singleton.2 hcall, ?_, ?_⟩
      · exact ⟨[], e, err, rfl, fun e he => absurd he List.not_mem_nil, herr, rfl⟩
      · simpa [delivered] using hreading
    · obtain ⟨hcalls, hend⟩ := ih hreading rest
      exact ⟨List.forall_mem_cons.2 ⟨hcall, hcalls⟩, hend.cons herr⟩

variable {σ : Type} {read : Reader σ} {s : σ}

variable (read s h buf) in
/-- A turn against a reader. -/
theorem runWith_readAllLoop_succ (fuel : ℕ) :
    (readAllLoop (fuel + 1) h buf).runWith (I := readInterface) read s =
      (onRead (readAllLoop fuel) (beforeRead h buf).1 (beforeRead h buf).2
        (read ((beforeRead h buf).1.spare (beforeRead h buf).2) s).2).runWith
          (I := readInterface) read
        (read ((beforeRead h buf).1.spare (beforeRead h buf).2) s).1 := rfl

/-- A reader that yields its bytes in the end is read completely: by induction on its turns. -/
theorem readAllLoop_of_yields {rest : Bytes} (hy : Yields read s rest)
    (hr : Reading h₀ h buf bytes) :
    ∃ enough, ∀ fuel ≥ enough, ∃ h' buf',
      ((readAllLoop fuel h buf).runWith (I := readInterface) read s).2 = some (h', buf', none) ∧
        Reading h₀ h' buf' (bytes ++ rest) := by
  induction hy generalizing h buf bytes with
  | @turn s rest last more left ih =>
    obtain ⟨hready, hspare⟩ := hr.beforeRead
    have hturn := runWith_readAllLoop_succ h buf read s
    generalize beforeRead h buf = ready at hready hspare hturn
    have hfilled := hready.fill (read (ready.1.spare ready.2) s).2
    cases herr : (read (ready.1.spare ready.2) s).2.err with
    | none =>
      have hprefix := more _ hspare herr
      obtain ⟨enough, hrun⟩ := ih _ hspare herr hfilled.afterRead
      refine ⟨enough + 1, fun fuel hfuel => ?_⟩
      obtain ⟨fuel, rfl⟩ : ∃ n, fuel = n + 1 := ⟨fuel - 1, by omega⟩
      obtain ⟨h', buf', hresult, hreading⟩ := hrun fuel (by omega)
      refine ⟨h', buf', ?_, ?_⟩
      · rw [hturn, onRead, herr]
        exact hresult
      · rw [List.append_assoc] at hreading
        have hsplit : (read (ready.1.spare ready.2) s).2.data ++
            rest.drop (read (ready.1.spare ready.2) s).2.n = rest := by
          rw [← ReadAnswer.length_data]
          exact List.prefix_iff_eq_append.1 hprefix
        rwa [hsplit] at hreading
    | some e =>
      obtain ⟨heof, hdata⟩ := last _ hspare (by rw [herr]; simp)
      refine ⟨1, fun fuel hfuel => ?_⟩
      obtain ⟨fuel, rfl⟩ : ∃ n, fuel = n + 1 := ⟨fuel - 1, by omega⟩
      rw [hdata] at hfilled
      refine ⟨_, _, ?_, hfilled⟩
      rw [hturn, onRead, heof]
      rfl

theorem readAll_of_yields {rest : Bytes} (hy : Yields read s rest) (h₀ : Heap) :
    ∃ enough, ∀ fuel ≥ enough, ∃ h' buf',
      ((readAll fuel h₀).runWith (I := readInterface) read s).2 = some (h', buf', none) ∧
        Reading h₀ h' buf' rest :=
  readAllLoop_of_yields hy (reading_make h₀ 512)

/-- A reader that comes to an error is read to it: by induction on its turns. -/
theorem readAllLoop_of_ends (ends : Ends read s) (hr : Reading h₀ h buf bytes) :
    ∃ enough, ∀ fuel ≥ enough,
      ((readAllLoop fuel h buf).runWith (I := readInterface) read s).2 ≠ none := by
  induction ends generalizing h buf bytes with
  | @turn s left ih =>
    obtain ⟨hready, hspare⟩ := hr.beforeRead
    have hturn := runWith_readAllLoop_succ h buf read s
    generalize beforeRead h buf = ready at hready hspare hturn
    cases herr : (read (ready.1.spare ready.2) s).2.err with
    | none =>
      have hfilled := hready.fill (read (ready.1.spare ready.2) s).2
      obtain ⟨enough, hrun⟩ := ih _ hspare herr hfilled.afterRead
      refine ⟨enough + 1, fun fuel hfuel => ?_⟩
      obtain ⟨fuel, rfl⟩ : ∃ n, fuel = n + 1 := ⟨fuel - 1, by omega⟩
      rw [hturn, onRead, herr]
      exact hrun fuel (by omega)
    | some err =>
      refine ⟨1, fun fuel hfuel => ?_⟩
      obtain ⟨fuel, rfl⟩ : ∃ n, fuel = n + 1 := ⟨fuel - 1, by omega⟩
      rw [hturn, onRead, herr]
      cases err with
      | eof => exact Option.some_ne_none _
      | other err => exact Option.some_ne_none _

/-- `ReadAll` over any reader.  Every `Read` gets a slice that is not empty.  When it returns,
`Read` has come to its only error; the result has exactly the bytes delivered, with that error
unless it is the end of the file; every other buffer it made is zero over its whole capacity.  It
goes on as long as `Read` does, and no longer. -/
theorem readAll_exact (h₀ : Heap) :
    (∀ fuel τ r, Prog.Exec (readAll fuel h₀) τ r → ∀ e ∈ τ, e.call ≠ ([] : Bytes)) ∧
    (∀ fuel τ h' buf err, Prog.Exec (readAll fuel h₀) τ (some (h', buf, err)) →
      EndedWith τ err ∧ h'.contents buf = delivered τ ∧
        ∀ i, h₀.next ≤ i → i < h'.next → i ≠ buf.id → ∀ b ∈ h'.buffer i, b = 0) ∧
    (∀ fuel τ, Prog.Exec (readAll fuel h₀) τ none →
      τ.length = fuel ∧ ∀ e : ReadEvent, e ∈ τ → e.answer.err = none) ∧
    ∀ (σ : Type) (read : Reader σ) (s : σ), Ends read s → ∃ enough, ∀ fuel ≥ enough,
      ((readAll fuel h₀).runWith (I := readInterface) read s).2 ≠ none := by
  have hstart := reading_make h₀ 512
  refine ⟨fun fuel τ r run => (exec_readAllLoop hstart run).1, ?_, ?_, ?_⟩
  · intro fuel τ h' buf err run
    obtain ⟨hended, hreading⟩ := (exec_readAllLoop hstart run).2
    exact ⟨hended, hreading.contents, hreading.replaced⟩
  · intro fuel τ run
    exact (exec_readAllLoop hstart run).2
  · intro σ read s ends
    exact readAllLoop_of_ends ends hstart

/-- More bytes than the first buffer has room for: it is replaced, and left zero. -/
theorem readAll_exact_bytesReader :
    let bytes := List.replicate 600 7
    ∃ h' buf, ((readAll 3 ⟨0, fun _ => []⟩).runWith (I := readInterface) bytesReader bytes).2 =
      some (h', buf, none) ∧ h'.contents buf = bytes ∧ buf.id ≠ 0 ∧ (h'.buffer 0).length = 512 ∧
        ∀ b ∈ h'.buffer 0, b = 0 := by
  intro bytes
  have run := Prog.exec_runWith (I := readInterface) bytesReader (readAll 3 ⟨0, fun _ => []⟩) bytes
  have hbytes : delivered ((readAll 3 ⟨0, fun _ => []⟩).traceWith (I := readInterface) bytesReader
      bytes) = bytes := by decide +kernel
  have hend : ((readAll 3 ⟨0, fun _ => []⟩).runWith (I := readInterface) bytesReader bytes).2.map
      (fun result => (result.2.2, result.2.1.id, result.1.next, (result.1.buffer 0).length)) =
        some (none, 1, 2, 512) := by decide +kernel
  cases hresult :
    ((readAll 3 ⟨0, fun _ => []⟩).runWith (I := readInterface) bytesReader bytes).2 with
  | none =>
    rw [hresult] at hend
    exact absurd hend (by simp)
  | some result =>
    obtain ⟨h', buf, err⟩ := result
    rw [hresult] at run hend
    simp only [Option.map_some, Option.some.injEq, Prod.mk.injEq] at hend
    obtain ⟨rfl, hid, hnext, hlength⟩ := hend
    obtain ⟨-, hcontents, hreplaced⟩ := (readAll_exact ⟨0, fun _ => []⟩).2.1 _ _ _ _ _ run
    have hne : 0 ≠ buf.id := by omega
    exact ⟨h', buf, rfl, hcontents.trans hbytes, hne.symm, hlength,
      hreplaced 0 (le_refl _) (by omega) hne⟩

end

end PasswordHook
