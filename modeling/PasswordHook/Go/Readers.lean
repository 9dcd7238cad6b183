import PasswordHook.Go.Errors
import PasswordHook.Go.Text
import PasswordHook.Lib.Prog

/-!
# Package `io`

A `Read` call gets a slice and returns how many bytes it wrote to its start; it may use the rest of
the slice as scratch space.  A reader is a state that answers these calls.
-/

namespace PasswordHook

inductive ReadErr where
  | eof
  | other (err : Err)
  deriving DecidableEq

/-- The answer to `Read(p)`: the slice after the call, and the results. -/
structure ReadAnswer (p : Bytes) where
  slice : Bytes
  n : ℕ
  err : Option ReadErr
  length_slice : slice.length = p.length
  n_le : n ≤ p.length

/-- The bytes that were read. -/
def ReadAnswer.data {p : Bytes} (a : ReadAnswer p) : Bytes := a.slice.take a.n

def readInterface : Interface := ⟨Bytes, ReadAnswer⟩

abbrev ReadProg := Prog readInterface

/-- A call of `Read` with its answer. -/
abbrev ReadEvent := Event readInterface

def ReadEvent.answer (e : ReadEvent) : ReadAnswer e.call := e.resp

/-- The bytes that a sequence of calls delivered. -/
def delivered (τ : List ReadEvent) : Bytes := τ.flatMap fun e => e.answer.data

/-- A reader with states in `σ`. -/
abbrev Reader (σ : Type) := (p : Bytes) → σ → σ × ReadAnswer p

/-- The state yields the bytes and then the end of the file, whatever slices it is given, in pieces
of any size, with the last piece or after it. -/
inductive Yields {σ : Type} (read : Reader σ) : σ → Bytes → Prop
  | turn {s : σ} {bytes : Bytes}
      (last : ∀ p, p ≠ [] → (read p s).2.err ≠ none →
        (read p s).2.err = some .eof ∧ (read p s).2.data = bytes)
      (more : ∀ p, p ≠ [] → (read p s).2.err = none → (read p s).2.data <+: bytes)
      (rest : ∀ p, p ≠ [] → (read p s).2.err = none →
        Yields read (read p s).1 (bytes.drop (read p s).2.n)) : Yields read s bytes

/-- The state comes to an error in the end, be it the end of the file, whatever slices it is
given. -/
inductive Ends {σ : Type} (read : Reader σ) : σ → Prop
  | turn {s : σ} (rest : ∀ p, p ≠ [] → (read p s).2.err = none → Ends read (read p s).1) :
      Ends read s

/-- `Read` of an `io.LimitedReader`: the limit `N` is part of the state. -/
def limitReader {σ : Type} (read : Reader σ) : Reader (ℤ × σ) := fun p s =>
  if s.1 ≤ 0 then (s, ⟨p, 0, some .eof, rfl, Nat.zero_le _⟩)
  else
    let q := p.take s.1.toNat
    let r := read q s.2
    ((s.1 - r.2.n, r.1),
      { slice := r.2.slice ++ p.drop s.1.toNat
        n := r.2.n
        err := r.2.err
        length_slice := by
          rw [List.length_append, r.2.length_slice, ← List.length_append, List.take_append_drop]
        n_le := le_trans r.2.n_le (List.length_take_le' _ _) })

section

variable {σ : Type} {read : Reader σ} {s : σ}

theorem ReadAnswer.length_data {p : Bytes} (a : ReadAnswer p) : a.data.length = a.n :=
  List.length_take_of_le (a.length_slice ▸ a.n_le)

variable (read) in
theorem limitReader_of_pos {n : ℤ} (hn : 0 < n) (p : Bytes) (s : σ) :
    (limitReader read p (n, s)).1 =
      (n - (read (p.take n.toNat) s).2.n, (read (p.take n.toNat) s).1) ∧
      (limitReader read p (n, s)).2.n = (read (p.take n.toNat) s).2.n ∧
      (limitReader read p (n, s)).2.err = (read (p.take n.toNat) s).2.err ∧
      (limitReader read p (n, s)).2.data = (read (p.take n.toNat) s).2.data := by
  have hread : limitReader read p (n, s) = _ := if_neg (not_le.2 hn)
  rw [hread]
  refine ⟨rfl, rfl, rfl, ?_⟩
  apply List.take_append_of_le_length
  rw [ReadAnswer.length_slice]
  exact (read (p.take n.toNat) s).2.n_le

theorem yields_limitReader_of_nonpos {n : ℤ} (hn : n ≤ 0) (s : σ) :
    Yields (limitReader read) (n, s) [] := by
  have hread : ∀ p, limitReader read p (n, s) = ((n, s), ⟨p, 0, some .eof, rfl, Nat.zero_le _⟩) :=
    fun p => if_pos hn
  refine .turn (fun p _ _ => ?_) (fun p _ hnone => ?_) (fun p _ hnone => ?_)
  · rw [hread]
    exact ⟨rfl, rfl⟩
  · rw [hread] at hnone
    exact absurd hnone (by simp)
  · rw [hread] at hnone
    exact absurd hnone (by simp)

/-- A limited reader yields what its reader does, up to the limit. -/
theorem Yields.limit {bytes : Bytes} (h : Yields read s bytes) (n : ℤ) :
    Yields (limitReader read) (n, s) (bytes.take n.toNat) := by
  induction h generalizing n with
  | @turn s bytes last more rest ih =>
    by_cases hn : n ≤ 0
    · rw [Int.toNat_of_nonpos hn, List.take_zero]
      exact yields_limitReader_of_nonpos hn s
    · have hpos : 0 < n := not_le.1 hn
      have hslice : ∀ {p : Bytes}, p ≠ [] → p.take n.toNat ≠ [] := by
        intro p hp hnil
        rcases List.take_eq_nil_iff.1 hnil with hzero | hempty
        · omega
        · exact hp hempty
      have hbound : ∀ p : Bytes, (read (p.take n.toNat) s).2.n ≤ n.toNat := fun p =>
        le_trans (ReadAnswer.n_le _) (List.length_take_le _ _)
      refine .turn (fun p hp herr => ?_) (fun p hp hnone => ?_) (fun p hp hnone => ?_)
      · obtain ⟨-, -, hlimit, hdata⟩ := limitReader_of_pos read hpos p s
        rw [hlimit] at herr ⊢
        obtain ⟨heof, hbytes⟩ := last _ (hslice hp) herr
        refine ⟨heof, hdata.trans ?_⟩
        have hlength : bytes.length ≤ n.toNat := by
          rw [← hbytes, ReadAnswer.length_data]
          exact hbound p
        rw [hbytes, List.take_of_length_le hlength]
      · obtain ⟨-, -, hlimit, hdata⟩ := limitReader_of_pos read hpos p s
        rw [hlimit] at hnone
        rw [hdata]
        refine List.prefix_take_iff.2 ⟨more _ (hslice hp) hnone, ?_⟩
        rw [ReadAnswer.length_data]
        exact hbound p
      · obtain ⟨hstate, hcount, hlimit, -⟩ := limitReader_of_pos read hpos p s
        rw [hlimit] at hnone
        rw [hstate, hcount, List.drop_take]
        have hleft := ih _ (hslice hp) hnone (n - (read (p.take n.toNat) s).2.n)
        have hcast : (n - ((read (p.take n.toNat) s).2.n : ℤ)).toNat =
            n.toNat - (read (p.take n.toNat) s).2.n := by omega
        rwa [hcast] at hleft

end

/-- `Read` of a `bytes.Reader` over the bytes that are left. -/
def bytesReader : Reader Bytes := fun p left =>
  if left = [] then (left, ⟨p, 0, some .eof, rfl, Nat.zero_le _⟩)
  else
    (left.drop p.length,
      { slice := left.take p.length ++ p.drop left.length
        n := min left.length p.length
        err := none
        length_slice := by
          rw [List.length_append, List.length_take, List.length_drop]
          omega
        n_le := Nat.min_le_right _ _ })

theorem yields_bytesReader (bytes : Bytes) : Yields bytesReader bytes bytes := by
  induction hn : bytes.length using Nat.strong_induction_on generalizing bytes with
  | _ n ih =>
    by_cases hnil : bytes = []
    · have hread : ∀ p, bytesReader p bytes = (bytes, ⟨p, 0, some .eof, rfl, Nat.zero_le _⟩) :=
        fun p => if_pos hnil
      refine .turn (fun p _ _ => ?_) (fun p _ hnone => ?_) (fun p _ hnone => ?_)
      · rw [hread]
        exact ⟨rfl, hnil.symm⟩
      · rw [hread] at hnone
        exact absurd hnone (by simp)
      · rw [hread] at hnone
        exact absurd hnone (by simp)
    · have hread : ∀ p, bytesReader p bytes = (bytes.drop p.length, _) := fun p => if_neg hnil
      have hdata : ∀ p, (bytesReader p bytes).2.data = bytes.take p.length := by
        intro p
        rw [hread]
        show (bytes.take p.length ++ p.drop bytes.length).take (min bytes.length p.length) = _
        rw [List.take_left' (by rw [List.length_take, Nat.min_comm])]
      refine .turn (fun p _ herr => ?_) (fun p _ _ => ?_) (fun p hp _ => ?_)
      · rw [hread] at herr
        exact absurd rfl herr
      · rw [hdata]
        exact List.take_prefix _ _
      · have hpos := List.length_pos_of_ne_nil hp
        have hlength := List.length_pos_of_ne_nil hnil
        have hrest := ih (bytes.drop p.length).length (by rw [List.length_drop]; omega) _ rfl
        rw [hread]
        have hdrop : bytes.drop (min bytes.length p.length) = bytes.drop p.length := by
          rcases le_total bytes.length p.length with hle | hle
          · rw [Nat.min_eq_left hle, List.drop_length, List.drop_eq_nil_of_le hle]
          · rw [Nat.min_eq_right hle]
        show Yields bytesReader (bytes.drop p.length) (bytes.drop (min bytes.length p.length))
        rwa [hdrop]

end PasswordHook
