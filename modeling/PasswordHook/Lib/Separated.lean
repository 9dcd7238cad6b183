import Mathlib

/-!
# Fields joined by a separator

A list of fields is written with a separator between them.  The text determines the first field if
the separator is not in it (`append_cons_inj`), and all of them if the separator is in none of them:
then no other list of as many fields, whatever is in it, gives the same text (`intercalate_inj`).
-/

namespace PasswordHook

variable {α : Type}

theorem append_cons_inj {c : α} {x y a b : List α} (hx : c ∉ x) (hy : c ∉ y)
    (h : x ++ c :: a = y ++ c :: b) : x = y ∧ a = b := by
  induction x generalizing y with
  | nil =>
    cases y with
    | nil => exact ⟨rfl, (List.cons.inj h).2⟩
    | cons d y => exact absurd (List.cons.inj h).1 (fun e => hy (e ▸ List.mem_cons_self))
  | cons d x ih =>
    cases y with
    | nil => exact absurd (List.cons.inj h).1.symm (fun e => hx (e ▸ List.mem_cons_self))
    | cons e y =>
      obtain ⟨hde, hrest⟩ := List.cons.inj h
      obtain ⟨hxy, hab⟩ := ih (fun m => hx (List.mem_cons_of_mem _ m))
        (fun m => hy (List.mem_cons_of_mem _ m)) hrest
      exact ⟨by rw [hde, hxy], hab⟩

section Count

variable [DecidableEq α] {sep : α}

/-- The separators of a text are those between the fields and those in them. -/
theorem count_intercalate (sep : α) (x : List α) (xs : List (List α)) :
    ([sep].intercalate (x :: xs)).count sep =
      xs.length + ((x :: xs).map (List.count sep)).sum := by
  induction xs generalizing x with
  | nil => simp
  | cons y xs ih =>
    rw [List.intercalate_cons_cons, List.count_append, List.count_append, ih]
    simp only [List.count_singleton_self, List.length_cons, List.map_cons, List.sum_cons]
    omega

theorem not_mem_of_intercalate_eq {x y : List α} {xs ys : List (List α)}
    (free : ∀ f ∈ x :: xs, sep ∉ f) (len : xs.length = ys.length)
    (h : [sep].intercalate (x :: xs) = [sep].intercalate (y :: ys)) : ∀ f ∈ y :: ys, sep ∉ f := by
  have hcount := congrArg (List.count sep) h
  have hzero : ((x :: xs).map (List.count sep)).sum = 0 := by
    rw [List.sum_eq_zero_iff]
    intro n hn
    obtain ⟨f, hf, rfl⟩ := List.mem_map.1 hn
    exact List.count_eq_zero.2 (free f hf)
  rw [count_intercalate, count_intercalate, hzero, len] at hcount
  have hsum : ((y :: ys).map (List.count sep)).sum = 0 := by omega
  intro f hf
  apply List.count_eq_zero.1
  exact List.sum_eq_zero_iff.1 hsum _ (List.mem_map_of_mem hf)

/-- Fields without the separator are determined by their text and their number. -/
theorem intercalate_inj {xs ys : List (List α)} (free : ∀ f ∈ xs, sep ∉ f)
    (h : [sep].intercalate xs = [sep].intercalate ys) (len : xs.length = ys.length) : xs = ys := by
  cases xs with
  | nil => exact (List.length_eq_zero_iff.1 len.symm).symm
  | cons x xs =>
    cases ys with
    | nil => exact absurd len (by simp)
    | cons y ys =>
      have free' := not_mem_of_intercalate_eq free (Nat.succ_inj.1 len) h
      rw [← List.splitOn_intercalate sep free (by simp), h,
        List.splitOn_intercalate sep free' (by simp)]

end Count

end PasswordHook
