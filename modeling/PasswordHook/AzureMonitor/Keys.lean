import PasswordHook.AzureMonitor.Metrics
import PasswordHook.Lib.Separated

/-!
# Series and their keys

A sample belongs to a series: its trimmed name, with the labels that are kept, in the order of the
label names.  The recorder only has the texts `SeriesID.key` and `SeriesID.groupKey` of a series.
They determine it if there is no zero byte in its name and its label values (`separate_nulFree`).
-/

namespace PasswordHook

/-- A name with labels, in the order of the label names. -/
structure SeriesID where
  name : Bytes
  labels : List (Bytes × Bytes)
  deriving DecidableEq

namespace SeriesID

def dimNames (id : SeriesID) : List Bytes := id.labels.map Prod.fst

def dimValues (id : SeriesID) : List Bytes := id.labels.map Prod.snd

/-- The text under which its samples are added up. -/
def key (id : SeriesID) : Bytes :=
  [0].intercalate (id.name :: id.labels.flatMap fun label => [label.1, label.2])

/-- The text under which it is put into a payload. -/
def groupKey (id : SeriesID) : Bytes := id.name ++ 0 :: [0].intercalate id.dimNames

end SeriesID

/-- The series of a name and a map of labels. -/
def seriesID (name : Bytes) (labels : Labels) : SeriesID :=
  ⟨name, (sortedLabelNames labels).map fun key => (key, labels.get key)⟩

def Sample.id (s : Sample) : SeriesID := seriesID s.name s.labels

def MetricPoint.id (point : MetricPoint) : SeriesID := seriesID point.name point.labels

/-- The labels that are kept, in the order of their names; `keep` is what is kept of a value. -/
def keptLabels (keep : Bytes → Bytes) (labels : Labels) : List (Bytes × Bytes) :=
  allowedNames.filterMap fun key =>
    ((labels.lookup key).filter fun value => trimSpaceBytes value ≠ []).map fun value =>
      (key, keep value)

/-- The series a recording belongs to, if it has a name. -/
def Recording.series (keep : Bytes → Bytes) (r : Recording) : Option SeriesID :=
  let name := trimSpaceBytes r.name
  if name = [] then none else some ⟨name, keptLabels keep r.labels⟩

theorem mem_keptLabels_iff {keep : Bytes → Bytes} {labels : Labels} {label : Bytes × Bytes} :
    label ∈ keptLabels keep labels ↔ label.1 ∈ allowedNames ∧ ∃ value,
      labels.lookup label.1 = some value ∧ trimSpaceBytes value ≠ [] ∧ keep value = label.2 := by
  rw [keptLabels, List.mem_filterMap]
  constructor
  · rintro ⟨key, hkey, hlabel⟩
    obtain ⟨value, hvalue, rfl⟩ := Option.map_eq_some_iff.1 hlabel
    obtain ⟨hlookup, hblank⟩ := Option.filter_eq_some_iff.1 hvalue
    exact ⟨hkey, value, hlookup, by simpa using hblank, rfl⟩
  · rintro ⟨hkey, value, hlookup, hblank, hkeep⟩
    refine ⟨label.1, hkey, ?_⟩
    rw [hlookup, Option.filter_some_pos (by simpa using hblank), Option.map_some, hkeep]

/-! ## Names in order -/

theorem pairwise_sortStrings (keys : List Bytes) : (sortStrings keys).Pairwise (· ≤ ·) :=
  List.pairwise_insertionSort _ keys

theorem perm_sortStrings (keys : List Bytes) : (sortStrings keys).Perm keys :=
  List.perm_insertionSort _ keys

theorem allowedNames_sorted : allowedNames.Pairwise (· ≤ ·) := by decide +kernel

theorem allowedNames_nodup : allowedNames.Nodup := by decide +kernel

theorem allowedNames_plain : ∀ key ∈ allowedNames, key ≠ [] ∧ 0 ∉ key ∧ ∀ b ∈ key, b < 128 := by
  decide +kernel

/-- Labels of allowed names are in the order of the list of these names. -/
theorem sortedLabelNames_of_allowed {labels : Labels} (h : ∀ key ∈ labels, key ∈ allowedNames) :
    sortedLabelNames labels = allowedNames.filter fun key => key ∈ labels := by
  have hantisymm : ∀ key key' : Bytes, key ∈ sortedLabelNames labels →
      key' ∈ (allowedNames.filter fun key => key ∈ labels) → key ≤ key' → key' ≤ key → key = key' :=
    fun _ _ _ _ => List.le_antisymm
  apply List.Perm.eq_of_pairwise hantisymm (pairwise_sortStrings _) (allowedNames_sorted.filter _)
  apply (perm_sortStrings _).trans
  apply (List.perm_ext_iff_of_nodup labels.keys_nodup (allowedNames_nodup.filter _)).2
  intro key
  rw [List.mem_filter, decide_eq_true_iff]
  exact ⟨fun hkey => ⟨h key hkey, hkey⟩, fun hkey => hkey.2⟩

/-! ## The labels that are kept -/

/-- A map with all of the nine names has all of them. -/
theorem mem_of_length_keys {out : Labels} (allowed : ∀ key ∈ out, key ∈ allowedNames)
    (full : out.keys.length = 9) {key : Bytes} (h : key ∈ allowedNames) : key ∈ out := by
  have hsub : out.keys.Subperm allowedNames := List.subperm_of_subset out.keys_nodup allowed
  have hperm : out.keys.Perm allowedNames := hsub.perm_of_length_le (by rw [full]; decide)
  exact hperm.symm.subset h

section

variable {key value : Bytes}

theorem keptValue_none (key : Bytes) : keptValue key none = none := by
  unfold keptValue
  split_ifs <;> rfl

theorem keptValue_of_not_allowed (h : key ∉ allowedNames) (value : Option Bytes) :
    keptValue key value = none :=
  if_neg h

theorem keptValue_of_blank (h : trimSpaceBytes value = []) : keptValue key (some value) = none := by
  unfold keptValue
  split_ifs
  · rw [Option.filter_some_neg (by simpa using h)]
    rfl
  · rfl

theorem keptValue_of_kept (hname : key ∈ allowedNames) (h : trimSpaceBytes value ≠ []) :
    keptValue key (some value) = some (trimSpaceBytes value) := by
  rw [keptValue, if_pos hname, Option.filter_some_pos (by simpa using h)]
  rfl

end

/-- The loop ends early only when no other label could be kept. -/
theorem lookup_of_full {out : Labels} (allowed : ∀ key ∈ out, key ∈ allowedNames)
    (full : out.keys.length = 9) (key : Bytes) (value : Option Bytes) :
    out.lookup key = (out.lookup key).or (keptValue key value) := by
  by_cases hname : key ∈ allowedNames
  · have hmem := mem_of_length_keys allowed full hname
    obtain ⟨v, hv⟩ := Option.isSome_iff_exists.1 (AList.lookup_isSome.2 hmem)
    rw [hv, Option.some_or]
  · rw [keptValue_of_not_allowed hname, Option.or_none]

theorem lookup_allowedLabelsLoop {rest : List (Σ _ : Bytes, Bytes)} {out : Labels}
    (nodup : rest.NodupKeys) (apart : ∀ key ∈ rest.keys, key ∉ out)
    (allowed : ∀ key ∈ out, key ∈ allowedNames) (key : Bytes) :
    (allowedLabelsLoop rest out).lookup key =
      (out.lookup key).or (keptValue key (rest.dlookup key)) := by
  induction rest generalizing out with
  | nil => rw [allowedLabelsLoop, List.dlookup_nil, keptValue_none, Option.or_none]
  | cons entry rest ih =>
    obtain ⟨k, value⟩ := entry
    obtain ⟨hk, hrest⟩ := List.nodupKeys_cons.1 nodup
    have hout : out.lookup k = none := AList.lookup_eq_none.2 (apart k List.mem_cons_self)
    have happart : ∀ key ∈ rest.keys, key ∉ out := fun key h => apart key (List.mem_cons_of_mem _ h)
    have hnone : rest.dlookup k = none := List.dlookup_eq_none.2 hk
    -- a label that is dropped leaves the map as it is
    have hdropped : keptValue k (some value) = none →
        (allowedLabelsLoop rest out).lookup key =
          (out.lookup key).or (keptValue key (List.dlookup key (⟨k, value⟩ :: rest))) := by
      intro hvalue
      rw [ih hrest happart allowed]
      by_cases hkey : key = k
      · rw [hkey, List.dlookup_cons_eq, hvalue, hnone, keptValue_none]
      · rw [List.dlookup_cons_ne _ _ hkey]
    rw [allowedLabelsLoop]
    by_cases hname : k ∈ allowedNames
    · rw [if_neg (not_not.2 hname)]
      by_cases hblank : trimSpaceBytes value = []
      · rw [if_pos hblank]
        exact hdropped (keptValue_of_blank hblank)
      · rw [if_neg hblank]
        have hvalue := keptValue_of_kept hname hblank
        have hkept : (out.lookup key).or (keptValue key (List.dlookup key (⟨k, value⟩ :: rest))) =
            ((out.insert k (trimSpaceBytes value)).lookup key).or
              (keptValue key (List.dlookup key rest)) := by
          by_cases hkey : key = k
          · rw [hkey, hout, List.dlookup_cons_eq, hvalue, AList.lookup_insert, Option.none_or,
              Option.some_or]
          · rw [List.dlookup_cons_ne _ _ hkey, AList.lookup_insert_ne hkey]
        have hallowed : ∀ key ∈ out.insert k (trimSpaceBytes value), key ∈ allowedNames := by
          intro key hmem
          rcases (AList.mem_insert _).1 hmem with rfl | hmem
          · exact hname
          · exact allowed key hmem
        have happart' : ∀ key ∈ rest.keys, key ∉ out.insert k (trimSpaceBytes value) := by
          intro key hmem hinsert
          rcases (AList.mem_insert _).1 hinsert with rfl | hinsert
          · exact hk hmem
          · exact happart key hmem hinsert
        dsimp only
        rw [hkept]
        split_ifs with hfull
        · exact lookup_of_full hallowed hfull key _
        · exact ih hrest happart' hallowed
    · rw [if_pos hname]
      exact hdropped (keptValue_of_not_allowed hname _)

theorem lookup_allowedLabels (labels : Labels) (key : Bytes) :
    (allowedLabels labels).lookup key = keptValue key (labels.lookup key) := by
  rw [allowedLabels, lookup_allowedLabelsLoop labels.nodupKeys (fun _ _ => AList.notMem_empty _)
    (fun key h => absurd h (AList.notMem_empty key)), AList.lookup_empty, Option.none_or]
  rfl

theorem allowed_of_mem_allowedLabels {labels : Labels} {key : Bytes}
    (h : key ∈ allowedLabels labels) :
    key ∈ allowedNames := by
  have hsome := AList.lookup_isSome.2 h
  by_contra hname
  rw [lookup_allowedLabels, keptValue_of_not_allowed hname] at hsome
  exact absurd hsome (by simp)

/-- The recorder keeps the labels it should. -/
theorem seriesID_allowedLabels (name : Bytes) (labels : Labels) :
    seriesID name (allowedLabels labels) = ⟨name, keptLabels trimSpaceBytes labels⟩ := by
  rw [seriesID, sortedLabelNames_of_allowed fun _ => allowed_of_mem_allowedLabels, keptLabels,
    ← List.filterMap_eq_filter, List.map_filterMap]
  congr 1
  apply List.filterMap_congr
  intro key hkey
  have hlookup := lookup_allowedLabels labels key
  rw [keptValue, if_pos hkey] at hlookup
  cases hvalue : (labels.lookup key).filter fun value => trimSpaceBytes value ≠ [] with
  | none =>
    rw [hvalue] at hlookup
    have hnot : key ∉ allowedLabels labels := AList.lookup_eq_none.1 hlookup
    simp [hnot]
  | some value =>
    rw [hvalue] at hlookup
    have hmem : key ∈ allowedLabels labels :=
      AList.lookup_isSome.1 (Option.isSome_of_eq_some hlookup)
    simp [hmem, Labels.get, hlookup]

/-! ## Keys -/

theorem dimNames_seriesID (name : Bytes) (labels : Labels) :
    (seriesID name labels).dimNames = sortedLabelNames labels := by
  simp [SeriesID.dimNames, seriesID, Function.comp_def]

theorem metricKey_eq (name : Bytes) (labels : Labels) :
    metricKey name labels = (seriesID name labels).key := by
  simp [metricKey, SeriesID.key, seriesID, List.flatMap_map]

theorem groupKey_eq (point : MetricPoint) : point.groupKey = point.id.groupKey := by
  rw [SeriesID.groupKey, MetricPoint.id, dimNames_seriesID]
  rfl

/-- Within the set, the keys determine the series and the payload it belongs to. -/
structure Separate (ids : Set SeriesID) : Prop where
  key : ∀ id ∈ ids, ∀ id' ∈ ids, id.key = id'.key → id = id'
  group : ∀ id ∈ ids, ∀ id' ∈ ids, id.groupKey = id'.groupKey →
    id.name = id'.name ∧ id.dimNames = id'.dimNames

theorem Separate.mono {ids ids' : Set SeriesID} (h : Separate ids') (hsub : ids ⊆ ids') :
    Separate ids where
  key id hid id' hid' := h.key id (hsub hid) id' (hsub hid')
  group id hid id' hid' := h.group id (hsub hid) id' (hsub hid')

/-- A series with labels of allowed names only, without a zero byte in its name and its values. -/
structure SeriesID.NulFree (id : SeriesID) : Prop where
  name : 0 ∉ id.name
  labels : ∀ label ∈ id.labels, label.1 ∈ allowedNames ∧ 0 ∉ label.2

theorem flatMap_pairs_inj {ls ls' : List (Bytes × Bytes)}
    (h : (ls.flatMap fun label => [label.1, label.2]) = ls'.flatMap fun label =>
      [label.1, label.2]) :
    ls = ls' := by
  induction ls generalizing ls' with
  | nil =>
    cases ls' with
    | nil => rfl
    | cons label ls' => exact absurd h (by simp)
  | cons label ls ih =>
    cases ls' with
    | nil => exact absurd h (by simp)
    | cons label' ls' =>
      simp only [List.flatMap_cons, List.cons_append, List.nil_append, List.cons.injEq] at h
      rw [ih h.2.2, Prod.ext h.1 h.2.1]

theorem SeriesID.NulFree.parts {id : SeriesID} (h : id.NulFree) :
    ∀ part ∈ id.name :: id.labels.flatMap fun label => [label.1, label.2], 0 ∉ part := by
  intro part hpart
  rcases List.mem_cons.1 hpart with rfl | hpart
  · exact h.name
  · obtain ⟨label, hlabel, hpart⟩ := List.mem_flatMap.1 hpart
    obtain ⟨hname, hvalue⟩ := h.labels label hlabel
    rcases List.mem_pair.1 hpart with rfl | rfl
    · exact (allowedNames_plain _ hname).2.1
    · exact hvalue

theorem SeriesID.NulFree.dimNames {id : SeriesID} (h : id.NulFree) :
    ∀ name ∈ id.dimNames, name ∈ allowedNames := by
  intro name hname
  obtain ⟨label, hlabel, rfl⟩ := List.mem_map.1 hname
  exact (h.labels label hlabel).1

/-- Lists of allowed names are determined by their texts, also the empty one. -/
theorem intercalate_allowed_inj {names names' : List Bytes}
    (h : ∀ name ∈ names, name ∈ allowedNames) (h' : ∀ name ∈ names', name ∈ allowedNames)
    (heq : [0].intercalate names = [0].intercalate names') : names = names' := by
  have hfree : ∀ {names : List Bytes}, (∀ name ∈ names, name ∈ allowedNames) →
      ∀ name ∈ names, (0 : UInt8) ∉ name :=
    fun h name hname => (allowedNames_plain name (h name hname)).2.1
  have hne : ∀ {names : List Bytes}, (∀ name ∈ names, name ∈ allowedNames) → names ≠ [] →
      [(0 : UInt8)].intercalate names ≠ [] := by
    intro names h hnil hempty
    have hsplit := List.splitOn_intercalate 0 (hfree h) hnil
    rw [hempty] at hsplit
    have hmem : ([] : Bytes) ∈ names := by
      rw [← hsplit]
      exact List.mem_singleton_self _
    exact (allowedNames_plain [] (h [] hmem)).1 rfl
  by_cases hnil : names = []
  · by_cases hnil' : names' = []
    · rw [hnil, hnil']
    · rw [hnil] at heq
      exact absurd heq.symm (hne h' hnil')
  · by_cases hnil' : names' = []
    · rw [hnil'] at heq
      exact absurd heq (hne h hnil)
    · rw [← List.splitOn_intercalate 0 (hfree h) hnil, heq,
        List.splitOn_intercalate 0 (hfree h') hnil']

/-- Without zero bytes in names and values, series are kept apart. -/
theorem separate_nulFree : Separate {id | id.NulFree} where
  key id hid id' hid' heq := by
    have hparts : id.name :: id.labels.flatMap (fun label => [label.1, label.2]) =
        id'.name :: id'.labels.flatMap fun label => [label.1, label.2] := by
      rw [← List.splitOn_intercalate 0 hid.parts (List.cons_ne_nil _ _),
        ← List.splitOn_intercalate 0 hid'.parts (List.cons_ne_nil _ _)]
      exact congrArg (List.splitOn 0) heq
    obtain ⟨hname, hlabels⟩ := List.cons.inj hparts
    cases id
    cases id'
    exact congrArg₂ SeriesID.mk hname (flatMap_pairs_inj hlabels)
  group id hid id' hid' heq := by
    obtain ⟨hname, hnames⟩ := append_cons_inj hid.name hid'.name heq
    exact ⟨hname, intercalate_allowed_inj hid.dimNames hid'.dimNames hnames⟩

end PasswordHook
