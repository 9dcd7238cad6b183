import Mathlib

/-!
# Grouping by a key

The elements of a list are put into a map one after the other, each under its key, where it is
combined with what the map has there.  What a key ends with depends on the elements of that key
alone (`lookup_gather`), and the elements taken key by key are those of the list again
(`perm_flatMap_filter`).
-/

namespace PasswordHook

/-- A map; the order of its entries means nothing. -/
abbrev KeyMap (κ ν : Type) := AList fun _ : κ => ν

section

variable {ι κ ν : Type}

def KeyMap.values (m : KeyMap κ ν) : List ν := m.entries.map Sigma.snd

variable [DecidableEq κ]

theorem KeyMap.mem_values_iff {m : KeyMap κ ν} {v : ν} :
    v ∈ m.values ↔ ∃ k, m.lookup k = some v := by
  rw [KeyMap.values, List.mem_map]
  constructor
  · rintro ⟨⟨k, w⟩, hmem, rfl⟩
    exact ⟨k, AList.mem_lookup_iff.2 hmem⟩
  · rintro ⟨k, hk⟩
    exact ⟨⟨k, v⟩, AList.mem_lookup_iff.1 hk, rfl⟩

/-- The values in the order of any list of the keys. -/
theorem KeyMap.values_perm {m : KeyMap κ ν} {ks : List κ} (nodup : ks.Nodup)
    (mem : ∀ k, k ∈ ks ↔ k ∈ m) {g : κ → ν} (hg : ∀ k ∈ ks, m.lookup k = some (g k)) :
    m.values.Perm (ks.map g) := by
  have hvalues : m.values = m.keys.map g := by
    rw [KeyMap.values, AList.keys, List.keys, List.map_map]
    apply List.map_congr_left
    rintro ⟨k, v⟩ hentry
    have hlookup : m.lookup k = some v := AList.mem_lookup_iff.2 hentry
    have hk : k ∈ ks := (mem k).2 (AList.lookup_isSome.1 (Option.isSome_of_eq_some hlookup))
    exact Option.some.inj (hlookup.symm.trans (hg k hk))
  have hkeys : m.keys.Perm ks :=
    (List.perm_ext_iff_of_nodup m.keys_nodup nodup).2 fun k => (mem k).symm
  rw [hvalues]
  exact hkeys.map g

/-- A new value takes the place of the one that was there. -/
theorem KeyMap.values_insert (m : KeyMap κ ν) (k : κ) (v : ν) :
    ∃ rest, KeyMap.values (m.insert k v) = v :: rest ∧
      m.values.Perm ((m.lookup k).toList ++ rest) := by
  refine ⟨(List.kerase k m.entries).map Sigma.snd, ?_, ?_⟩
  · rw [KeyMap.values, AList.entries_insert, List.map_cons]
  · by_cases hk : k ∈ m.entries.keys
    · obtain ⟨w, l₁, l₂, -, hl, herase⟩ := List.exists_of_kerase hk
      have hlookup : m.lookup k = some w := by
        apply AList.mem_lookup_iff.2
        rw [hl]
        exact List.mem_append_right _ List.mem_cons_self
      rw [hlookup, KeyMap.values, herase, hl, List.map_append, List.map_cons, List.map_append]
      exact List.perm_middle
    · have hnone : m.lookup k = none := AList.lookup_eq_none.2 hk
      rw [hnone, List.kerase_of_notMem_keys hk]
      rfl

/-! ## Gathering -/

/-- Combine an element with what the map has at its key. -/
def collect (key : ι → κ) (combine : Option ν → ι → ν) (m : KeyMap κ ν) (i : ι) : KeyMap κ ν :=
  m.insert (key i) (combine (m.lookup (key i)) i)

def gather (key : ι → κ) (combine : Option ν → ι → ν) (is : List ι) : KeyMap κ ν :=
  is.foldl (collect key combine) ∅

variable {key : ι → κ} {combine : Option ν → ι → ν} {is : List ι}

theorem lookup_foldl_collect (m : KeyMap κ ν) (k : κ) :
    (is.foldl (collect key combine) m).lookup k =
      (is.filter fun i => key i = k).foldl (fun v i => some (combine v i)) (m.lookup k) := by
  induction is generalizing m with
  | nil => rfl
  | cons i is ih =>
    rw [List.foldl_cons, ih]
    by_cases hk : key i = k
    · rw [List.filter_cons_of_pos (by simpa using hk), List.foldl_cons, collect, ← hk,
        AList.lookup_insert]
    · rw [List.filter_cons_of_neg (by simpa using hk), collect, AList.lookup_insert_ne (Ne.symm hk)]

/-- What a key ends with comes from its own elements, in order. -/
theorem lookup_gather (k : κ) :
    (gather key combine is).lookup k =
      (is.filter fun i => key i = k).foldl (fun v i => some (combine v i)) none :=
  lookup_foldl_collect ∅ k

theorem mem_foldl_collect_iff (m : KeyMap κ ν) (k : κ) :
    k ∈ is.foldl (collect key combine) m ↔ k ∈ m ∨ ∃ i ∈ is, key i = k := by
  induction is generalizing m with
  | nil => simp
  | cons i is ih =>
    rw [List.foldl_cons, ih, collect, AList.mem_insert]
    simp only [List.mem_cons, exists_eq_or_imp, eq_comm (a := k)]
    tauto

theorem mem_gather_iff {k : κ} : k ∈ gather key combine is ↔ ∃ i ∈ is, key i = k := by
  rw [gather, mem_foldl_collect_iff]
  simp [AList.notMem_empty]

/-! ## Groups -/

/-- The groups of a list, each in the order of the list. -/
def groups (key : ι → κ) (is : List ι) : KeyMap κ (List ι) :=
  gather key (fun group i => group.getD [] ++ [i]) is

theorem foldl_append_some (group is : List ι) :
    is.foldl (fun v i => some (Option.getD v [] ++ [i])) (some group) = some (group ++ is) := by
  induction is generalizing group with
  | nil => simp
  | cons i is ih =>
    rw [List.foldl_cons, Option.getD_some, ih, List.append_assoc, List.singleton_append]

theorem lookup_groups {k : κ} (h : k ∈ groups key is) :
    (groups key is).lookup k = some (is.filter fun i => key i = k) := by
  obtain ⟨i, hi, hk⟩ := mem_gather_iff.1 h
  rw [groups, lookup_gather]
  have hmem : i ∈ is.filter fun i => key i = k := List.mem_filter.2 ⟨hi, by simpa using hk⟩
  obtain ⟨j, rest, hrest⟩ := List.exists_cons_of_ne_nil (List.ne_nil_of_mem hmem)
  rw [hrest, List.foldl_cons]
  exact foldl_append_some [j] rest

/-- The elements taken key by key. -/
theorem perm_flatMap_filter {ks : List κ} (nodup : ks.Nodup) (mem : ∀ i ∈ is, key i ∈ ks) :
    (ks.flatMap fun k => is.filter fun i => key i = k).Perm is := by
  induction ks generalizing is with
  | nil =>
    have hnil : is = [] := List.eq_nil_iff_forall_not_mem.2 fun i hi => List.not_mem_nil (mem i hi)
    rw [hnil]
    rfl
  | cons k ks ih =>
    obtain ⟨hk, hks⟩ := List.nodup_cons.1 nodup
    -- the keys after the first see the list without the elements of the first
    have hrest : (ks.flatMap fun k' => is.filter fun i => key i = k') =
        ks.flatMap fun k' => (is.filter fun i => !decide (key i = k)).filter fun i =>
          key i = k' := by
      apply List.flatMap_congr
      intro k' hk'
      rw [List.filter_filter]
      apply List.filter_congr
      intro i _
      by_cases hi : key i = k'
      · have hne : key i ≠ k := fun h => hk (h ▸ hi ▸ hk')
        simp [hi, hi ▸ hne]
      · simp [hi]
    rw [List.flatMap_cons, hrest]
    refine List.Perm.trans (List.Perm.append_left _ (ih hks ?_)) (List.filter_append_perm _ is)
    intro i hi
    obtain ⟨hmem, hne⟩ := List.mem_filter.1 hi
    exact (List.mem_cons.1 (mem i hmem)).resolve_left (by simpa using hne)

end

end PasswordHook
