import PasswordHook.Go.Slog
import PasswordHook.Go.Text

/-!
# Masking log attributes

`MaskingHandler` of package `logger`.  The leaves it emits are compared with those of the handler it
wraps: `MaskedAs` says that every leaf with a sensitive name on the way to it is masked, alone or
with its group, and that every other leaf is there as it was.  The handler does that for the
attributes it is given, by `maskAttr`, but not for the groups that `WithGroup` opens
(`masking_complete_iff`).
-/

namespace PasswordHook

variable {α : Type} (U : Unicode)

/-! ## The handler -/

/-- `strings.Contains` -/
def containsText (s text : String) : Bool := decide (text.toList <:+: s.toList)

/-- `keyNormalizer.Replace` -/
def normalizeKey (s : String) : String :=
  String.ofList (s.toList.filter fun c => c ≠ '_' && c ≠ '-' && c ≠ '.')

def isSensitiveKey (key : String) : Bool :=
  let normalized := normalizeKey (toLower U key)
  containsText normalized "password" || containsText normalized "passwd" ||
    containsText normalized "secret" || containsText normalized "token"

def maskText : String := "****"

mutual

/-- `maskAttr`; the value is resolved before the key is looked at. -/
def maskAttr (attr : Attr α) : Attr α :=
  if isSensitiveKey U attr.1 then (attr.1, .leaf (.string maskText))
  else
    match _h : attr.2.resolve with
    | .leaf v => (attr.1, .leaf v)
    | .group attrs => (attr.1, .group (withoutEmptyGroups (maskAttrs attrs)))
termination_by sizeOf attr
decreasing_by exact sizeOf_resolve _h

def maskAttrs : List (Attr α) → List (Attr α)
  | [] => []
  | attr :: attrs => maskAttr attr :: maskAttrs attrs
termination_by attrs => sizeOf attrs

end

/-- `MaskingHandler` -/
structure MaskingHandler (α : Type) where
  next : Sink α

namespace MaskingHandler

/-- `NewMaskingHandler` -/
def new (next : Sink α) : MaskingHandler α := ⟨next⟩

def withAttrs (h : MaskingHandler α) (attrs : List (Attr α)) : MaskingHandler α :=
  ⟨h.next.withAttrs (maskAttrs U attrs)⟩

def withGroup (h : MaskingHandler α) (name : String) : MaskingHandler α := ⟨h.next.withGroup name⟩

def derive (h : MaskingHandler α) : Derivation α → MaskingHandler α
  | .withAttrs attrs => h.withAttrs U attrs
  | .withGroup name => h.withGroup name

/-- `Handle`, for a record with these attributes. -/
def handle (h : MaskingHandler α) (attrs : List (Attr α)) : List (Emitted α) :=
  h.next.handle (withoutEmptyGroups (maskAttrs U attrs))

end MaskingHandler

variable {U}

theorem maskAttr_of_sensitive (attr : Attr α) (h : isSensitiveKey U attr.1 = true) :
    maskAttr U attr = (attr.1, .leaf (.string maskText)) := by
  rw [maskAttr.eq_def, if_pos h]

theorem maskAttr_of_leaf (attr : Attr α) {v : LeafValue α} (h : isSensitiveKey U attr.1 = false)
    (hv : attr.2.resolve = .leaf v) : maskAttr U attr = (attr.1, .leaf v) := by
  rw [maskAttr.eq_def, if_neg (by simp [h])]
  split
  · simp_all
  · simp_all

theorem maskAttr_of_group (attr : Attr α) {attrs : List (Attr α)}
    (h : isSensitiveKey U attr.1 = false) (hv : attr.2.resolve = .group attrs) :
    maskAttr U attr = (attr.1, .group (withoutEmptyGroups (maskAttrs U attrs))) := by
  rw [maskAttr.eq_def, if_neg (by simp [h])]
  split
  · simp_all
  · simp_all

/-! ## What masking should do -/

variable (U) in
/-- A name on the path is sensitive. -/
def SensitivePath (path : List String) : Prop := ∃ name ∈ path, isSensitiveKey U name = true

/-- The paths of attributes that have no leaf: a group that is empty, or has such attributes
only. -/
inductive HollowAt : List String → List (Attr α) → List String → Prop
  | here {groups : List String} {attrs : List (Attr α)} (attr : Attr α) (mem : attr ∈ attrs)
      (hollow : attrLeaves groups attr = []) : HollowAt groups attrs (groups ++ [attr.1])
  | inside {groups path : List String} {attrs inner : List (Attr α)} (attr : Attr α)
      (mem : attr ∈ attrs) (group : attr.2.resolve = .group inner)
      (below : HollowAt (enterGroup groups attr.1) inner path) : HollowAt groups attrs path

theorem HollowAt.mono {groups path : List String} {attrs attrs' : List (Attr α)}
    (h : HollowAt groups attrs path) (hsub : attrs ⊆ attrs') : HollowAt groups attrs' path := by
  cases h with
  | here attr mem hollow => exact .here attr (hsub mem) hollow
  | inside attr mem group below => exact .inside attr (hsub mem) group below

variable (U) in
/-- The leaves of the second list are those of the first, with every leaf on a sensitive path
masked, alone or together with the leaves of its group, and every other one as it was.  A sensitive
attribute without leaves, at one of the hollow paths, is masked too. -/
inductive MaskedAs (hollow : List String → Prop) : List (Emitted α) → List (Emitted α) → Prop
  | nil : MaskedAs hollow [] []
  | kept (e : Emitted α) {plain masked : List (Emitted α)} (plainPath : ¬ SensitivePath U e.path)
      (rest : MaskedAs hollow plain masked) : MaskedAs hollow (e :: plain) (e :: masked)
  | masked (path : List String) {block plain masked : List (Emitted α)}
      (sensitive : SensitivePath U path) (nonempty : block ≠ [])
      (covers : ∀ e ∈ block, path <+: e.path) (rest : MaskedAs hollow plain masked) :
      MaskedAs hollow (block ++ plain) (⟨path, .string maskText⟩ :: masked)
  | leafless (path : List String) {plain masked : List (Emitted α)}
      (sensitive : SensitivePath U path) (isHollow : hollow path)
      (rest : MaskedAs hollow plain masked) :
      MaskedAs hollow plain (⟨path, .string maskText⟩ :: masked)

section

variable {hollow hollow' : List String → Prop}

theorem MaskedAs.mono {plain masked : List (Emitted α)} (h : MaskedAs U hollow plain masked)
    (hsub : ∀ path, hollow path → hollow' path) : MaskedAs U hollow' plain masked := by
  induction h with
  | nil => exact .nil
  | kept e hplain rest ih => exact .kept e hplain ih
  | masked path sensitive nonempty covers rest ih => exact .masked path sensitive nonempty covers ih
  | leafless path sensitive isHollow rest ih =>
    exact .leafless path sensitive (hsub path isHollow) ih

theorem MaskedAs.append {plain plain' masked masked' : List (Emitted α)}
    (h : MaskedAs U hollow plain masked) (h' : MaskedAs U hollow plain' masked') :
    MaskedAs U hollow (plain ++ plain') (masked ++ masked') := by
  induction h with
  | nil => exact h'
  | kept e hplain rest ih => exact .kept e hplain ih
  | masked path sensitive nonempty covers rest ih =>
    rw [List.append_assoc]
    exact .masked path sensitive nonempty covers ih
  | leafless path sensitive isHollow rest ih => exact .leafless path sensitive isHollow ih

/-- Whatever is emitted on a sensitive path is a mask. -/
theorem MaskedAs.value_of_sensitive {plain masked : List (Emitted α)}
    (h : MaskedAs U hollow plain masked) {e : Emitted α} (he : e ∈ masked)
    (sensitive : SensitivePath U e.path) : e.value = .string maskText := by
  induction h with
  | nil => cases he
  | kept e' hplain rest ih =>
    rcases List.mem_cons.1 he with rfl | he
    · exact absurd sensitive hplain
    · exact ih he
  | masked path sensitive' nonempty covers rest ih =>
    rcases List.mem_cons.1 he with rfl | he
    · rfl
    · exact ih he
  | leafless path sensitive' isHollow rest ih =>
    rcases List.mem_cons.1 he with rfl | he
    · rfl
    · exact ih he

end

/-! ## The attributes -/

theorem not_sensitive_empty : isSensitiveKey U "" = false := by
  have hempty : normalizeKey (toLower U "") = "" := rfl
  simp only [isSensitiveKey, hempty]
  decide

theorem sensitivePath_append {path path' : List String} :
    SensitivePath U (path ++ path') ↔ SensitivePath U path ∨ SensitivePath U path' := by
  simp only [SensitivePath, List.mem_append, or_and_right, exists_or]

theorem sensitivePath_singleton {name : String} :
    SensitivePath U [name] ↔ isSensitiveKey U name = true := by
  simp [SensitivePath]

/-- The names that are open inside a group. -/
theorem sensitivePath_enterGroup {groups : List String} {name : String} :
    SensitivePath U (enterGroup groups name) ↔
      SensitivePath U groups ∨ isSensitiveKey U name = true := by
  unfold enterGroup
  split_ifs with hname
  · simp [hname, not_sensitive_empty]
  · rw [sensitivePath_append, sensitivePath_singleton]

theorem le_enterGroup (groups : List String) (name : String) :
    groups <+: enterGroup groups name := by
  unfold enterGroup
  split_ifs
  · exact List.prefix_rfl
  · exact List.prefix_append _ _

/-- The leaves under some groups have them on their path. -/
theorem groups_prefix_leavesOf (attrs : List (Attr α)) :
    ∀ groups, ∀ e ∈ leavesOf groups attrs, groups <+: e.path := by
  apply attrs_induction (P := fun attr => ∀ groups, ∀ e ∈ attrLeaves groups attr, groups <+: e.path)
    (Q := fun attrs => ∀ groups, ∀ e ∈ leavesOf groups attrs, groups <+: e.path)
  · intro attr v hv groups e he
    rw [attrLeaves_of_leaf hv, List.mem_singleton] at he
    rw [he]
    exact List.prefix_append _ _
  · intro attr attrs hv ih groups e he
    rw [attrLeaves_of_group hv] at he
    exact (le_enterGroup groups attr.1).trans (ih _ e he)
  · intro groups e he
    rw [leavesOf] at he
    cases he
  · intro attr attrs ihattr ihattrs groups e he
    rw [leavesOf, List.mem_append] at he
    rcases he with he | he
    · exact ihattr groups e he
    · exact ihattrs groups e he

/-- The leaves of an attribute with a sensitive key have it on their path. -/
theorem key_prefix_attrLeaves {attr : Attr α} (h : isSensitiveKey U attr.1 = true)
    (groups : List String) : ∀ e ∈ attrLeaves groups attr, groups ++ [attr.1] <+: e.path := by
  have hname : attr.1 ≠ "" := by
    intro hempty
    rw [hempty, not_sensitive_empty] at h
    cases h
  intro e he
  cases hv : attr.2.resolve with
  | leaf v =>
    rw [attrLeaves_of_leaf hv, List.mem_singleton] at he
    rw [he]
  | group attrs =>
    rw [attrLeaves_of_group hv, enterGroup, if_neg hname] at he
    exact groups_prefix_leavesOf attrs _ e he

theorem maskedAs_of_sensitive {attr : Attr α} (h : isSensitiveKey U attr.1 = true)
    (groups : List String) : MaskedAs U (HollowAt groups [attr]) (attrLeaves groups attr)
      (attrLeaves groups (maskAttr U attr)) := by
  have hpath : SensitivePath U (groups ++ [attr.1]) :=
    sensitivePath_append.2 (.inr (sensitivePath_singleton.2 h))
  rw [maskAttr_of_sensitive attr h, attrLeaves_leaf]
  by_cases hleaves : attrLeaves groups attr = []
  · rw [hleaves]
    exact .leafless _ hpath (.here attr (List.mem_singleton_self _) hleaves) .nil
  · have hmasked : MaskedAs U (HollowAt groups [attr]) (attrLeaves groups attr ++ [])
        [⟨groups ++ [attr.1], .string maskText⟩] :=
      .masked _ hpath hleaves (key_prefix_attrLeaves h groups) .nil
    rwa [List.append_nil] at hmasked

/-- Under groups that are not sensitive the attributes are masked as they should be. -/
theorem maskedAs_leavesOf (attrs : List (Attr α)) : ∀ groups, ¬ SensitivePath U groups →
    MaskedAs U (HollowAt groups attrs) (leavesOf groups attrs)
      (leavesOf groups (maskAttrs U attrs)) := by
  apply attrs_induction (P := fun attr => ∀ groups, ¬ SensitivePath U groups →
      MaskedAs U (HollowAt groups [attr]) (attrLeaves groups attr)
        (attrLeaves groups (maskAttr U attr)))
    (Q := fun attrs => ∀ groups, ¬ SensitivePath U groups →
      MaskedAs U (HollowAt groups attrs) (leavesOf groups attrs)
        (leavesOf groups (maskAttrs U attrs)))
  · intro attr v hv groups hgroups
    cases hkey : isSensitiveKey U attr.1 with
    | true => exact maskedAs_of_sensitive hkey groups
    | false =>
      have hplain : ¬ SensitivePath U (groups ++ [attr.1]) := by
        rw [sensitivePath_append, sensitivePath_singleton, hkey]
        simpa using hgroups
      rw [maskAttr_of_leaf attr hkey hv, attrLeaves_of_leaf hv, attrLeaves_leaf]
      exact .kept _ hplain .nil
  · intro attr attrs hv ih groups hgroups
    cases hkey : isSensitiveKey U attr.1 with
    | true => exact maskedAs_of_sensitive hkey groups
    | false =>
      have hinside : ¬ SensitivePath U (enterGroup groups attr.1) := by
        rw [sensitivePath_enterGroup, hkey]
        simpa using hgroups
      rw [maskAttr_of_group attr hkey hv, attrLeaves_of_group hv, attrLeaves_group,
        leavesOf_withoutEmptyGroups]
      exact (ih _ hinside).mono fun path => .inside attr (List.mem_singleton_self _) hv
  · intro groups hgroups
    rw [maskAttrs, leavesOf]
    exact .nil
  · intro attr attrs ihattr ihattrs groups hgroups
    rw [maskAttrs, leavesOf, leavesOf]
    apply MaskedAs.append
    · exact (ihattr groups hgroups).mono fun path h => h.mono (by simp)
    · exact (ihattrs groups hgroups).mono fun path h => h.mono (by simp)

/-! ## Derived handlers -/

/-- The handler that a sequence of derivations gives without masking. -/
def plainHandler (ops : List (Derivation α)) : Sink α := ops.foldl Sink.derive .new

variable (U) in
/-- The handler that the sequence gives from a masking handler. -/
def maskingHandler (ops : List (Derivation α)) : MaskingHandler α :=
  ops.foldl (MaskingHandler.derive U) (.new .new)

/-- The groups that a sequence of derivations opens. -/
theorem groups_maskingHandler (ops : List (Derivation α)) :
    (maskingHandler U ops).next.groups = (plainHandler ops).groups := by
  induction ops using List.reverseRecOn with
  | nil => rfl
  | append_singleton ops op ih =>
    simp only [maskingHandler, plainHandler, List.foldl_append, List.foldl_cons, List.foldl_nil]
      at ih ⊢
    cases op with
    | withAttrs attrs => exact ih
    | withGroup name => exact congrArg (enterGroup · name) ih

/-- A sensitive path is open just if a sensitive group was opened. -/
theorem sensitivePath_plainHandler (ops : List (Derivation α)) :
    SensitivePath U (plainHandler ops).groups ↔
      ∃ name, .withGroup name ∈ ops ∧ isSensitiveKey U name = true := by
  induction ops using List.reverseRecOn with
  | nil => simp [plainHandler, Sink.new, SensitivePath]
  | append_singleton ops op ih =>
    simp only [plainHandler, List.foldl_append, List.foldl_cons, List.foldl_nil] at ih ⊢
    cases op with
    | withAttrs attrs =>
      refine Iff.trans ih ?_
      simp
    | withGroup name =>
      refine sensitivePath_enterGroup.trans ?_
      rw [ih]
      constructor
      · rintro (⟨name', hmem, hname⟩ | hname)
        · exact ⟨name', List.mem_append_left _ hmem, hname⟩
        · exact ⟨name, by simp, hname⟩
      · rintro ⟨name', hmem, hname⟩
        rcases List.mem_append.1 hmem with hmem | hmem
        · exact .inl ⟨name', hmem, hname⟩
        · cases List.mem_singleton.1 hmem
          exact .inr hname

theorem groups_prefix_derive (s : Sink α) (op : Derivation α) :
    s.groups <+: (s.derive op).groups := by
  cases op with
  | withAttrs attrs => exact List.prefix_rfl
  | withGroup name => exact le_enterGroup s.groups name

/-- The paths of attributes without a leaf that were attached on the way to a handler. -/
def HollowAttached (ops : List (Derivation α)) (path : List String) : Prop :=
  ∃ before attrs after, ops = before ++ .withAttrs attrs :: after ∧
    HollowAt (plainHandler before).groups attrs path

/-- The paths of attributes without a leaf in a record or attached to its handler. -/
def HollowIn (ops : List (Derivation α)) (attrs : List (Attr α)) (path : List String) : Prop :=
  HollowAttached ops path ∨ HollowAt (plainHandler ops).groups attrs path

theorem HollowAttached.append {ops : List (Derivation α)} {path : List String}
    (h : HollowAttached ops path) (op : Derivation α) : HollowAttached (ops ++ [op]) path := by
  obtain ⟨before, attrs, after, rfl, hat⟩ := h
  exact ⟨before, attrs, after ++ [op], by simp, hat⟩

/-- The attributes attached to a derived handler are masked, if no sensitive group is open. -/
theorem maskedAs_attached (ops : List (Derivation α))
    (hgroups : ¬ SensitivePath U (plainHandler ops).groups) :
    MaskedAs U (HollowAttached ops) (plainHandler ops).attached
      (maskingHandler U ops).next.attached := by
  induction ops using List.reverseRecOn with
  | nil => exact .nil
  | append_singleton ops op ih =>
    have hplain : plainHandler (ops ++ [op]) = (plainHandler ops).derive op := by
      simp [plainHandler]
    have hmasking : maskingHandler U (ops ++ [op]) = (maskingHandler U ops).derive U op := by
      simp [maskingHandler]
    rw [hplain] at hgroups ⊢
    rw [hmasking]
    -- Groups stay open, so none was sensitive before.
    have hbefore : ¬ SensitivePath U (plainHandler ops).groups := by
      intro hsensitive
      obtain ⟨rest, hrest⟩ := groups_prefix_derive (plainHandler ops) op
      exact hgroups (hrest ▸ sensitivePath_append.2 (.inl hsensitive))
    have hattached := (ih hbefore).mono fun path h => h.append op
    cases op with
    | withAttrs attrs =>
      apply hattached.append
      rw [groups_maskingHandler]
      exact (maskedAs_leavesOf attrs _ hbefore).mono fun path h => ⟨ops, attrs, [], rfl, h⟩
    | withGroup name => exact hattached

/-- A record is masked as it should be, if no sensitive group is open. -/
theorem maskedAs_handle (ops : List (Derivation α))
    (hgroups : ¬ SensitivePath U (plainHandler ops).groups) (attrs : List (Attr α)) :
    MaskedAs U (HollowIn ops attrs) ((plainHandler ops).handle attrs)
      ((maskingHandler U ops).handle U attrs) := by
  apply ((maskedAs_attached ops hgroups).mono fun path => .inl).append
  rw [leavesOf_withoutEmptyGroups, groups_maskingHandler]
  exact (maskedAs_leavesOf attrs _ hgroups).mono fun path => .inr

theorem handle_singleton (h : MaskingHandler α) (attr : Attr α) :
    h.handle U [attr] = h.next.attached ++ attrLeaves h.next.groups (maskAttr U attr) := by
  rw [MaskingHandler.handle, Sink.handle, leavesOf_withoutEmptyGroups, maskAttrs, maskAttrs,
    leavesOf_singleton]

/-- An attribute that is not sensitive by itself. -/
def plainAttr (α : Type) : Attr α := ("x", .leaf (.string "v"))

theorem isSensitiveKey_plainAttr : isSensitiveKey U (plainAttr α).1 = false := by
  have hlower : toLower U "x" = "x" := by
    have hx : U.toLower 'x' = 'x' := U.lower_ascii 'x' (by decide)
    simp [toLower, hx]
  rw [isSensitiveKey, plainAttr, hlower]
  decide

theorem handle_plainAttr (h : MaskingHandler α) : h.handle U [plainAttr α] =
    h.next.attached ++ [⟨h.next.groups ++ ["x"], .string "v"⟩] := by
  rw [handle_singleton, maskAttr_of_leaf (plainAttr α) isSensitiveKey_plainAttr rfl,
    attrLeaves_leaf]
  rfl

/-- What an open group does to an attribute, and what a group around the attribute does. -/
theorem handle_withGroup_iff (h : MaskingHandler α) (name : String) :
    (∀ attr, (h.withGroup name).handle U [attr] = h.handle U [(name, .group [attr])]) ↔
      isSensitiveKey U name = false := by
  constructor
  · intro hsame
    cases hname : isSensitiveKey U name with
    | false => rfl
    | true =>
      have hattr := hsame (plainAttr α)
      rw [handle_plainAttr, handle_singleton, maskAttr_of_sensitive (name, _) hname,
        attrLeaves_leaf] at hattr
      have hvalue := congrArg Emitted.value (List.singleton_inj.1 (List.append_cancel_left hattr))
      exact absurd hvalue (by simp [maskText])
  · intro hname attr
    rw [handle_singleton, handle_singleton, maskAttr_of_group (name, .group [attr]) hname rfl,
      attrLeaves_group, leavesOf_withoutEmptyGroups, maskAttrs, maskAttrs, leavesOf_singleton]
    rfl

/-- Masking is complete for the records of a derived handler just if none of the groups that were
opened on the way to it is sensitive; and an open group masks an attribute as a group around it does
just if it is not. -/
theorem masking_complete_iff (U : Unicode) (ops : List (Derivation α)) :
    ((∀ attrs, MaskedAs U (HollowIn ops attrs) ((plainHandler ops).handle attrs)
        ((maskingHandler U ops).handle U attrs)) ↔
      ∀ name, .withGroup name ∈ ops → isSensitiveKey U name = false) ∧
    ∀ name, (∀ attr, (maskingHandler U (ops ++ [.withGroup name])).handle U [attr] =
        (maskingHandler U ops).handle U [(name, .group [attr])]) ↔
      isSensitiveKey U name = false := by
  have hopened : (∀ name, .withGroup name ∈ ops → isSensitiveKey U name = false) ↔
      ¬ SensitivePath U (plainHandler ops).groups := by
    rw [sensitivePath_plainHandler]
    simp
  rw [hopened]
  refine ⟨⟨fun hcomplete hsensitive => ?_, maskedAs_handle ops⟩, fun name => ?_⟩
  · -- An attribute logged under the sensitive groups is emitted as it is.
    have hmasked := hcomplete [plainAttr α]
    rw [handle_plainAttr, groups_maskingHandler] at hmasked
    have hvalue := hmasked.value_of_sensitive (List.mem_append_right _ (List.mem_singleton_self _))
      (sensitivePath_append.2 (.inl hsensitive))
    exact absurd hvalue (by simp [maskText])
  · have hwithGroup : maskingHandler U (ops ++ [.withGroup name]) =
        (maskingHandler U ops).withGroup name := by
      simp [maskingHandler, MaskingHandler.derive]
    rw [hwithGroup]
    exact handle_withGroup_iff _ name

/-- The value of a secret, logged under a group that is opened and in a group of its own. -/
theorem withGroup_leaks :
    let value : Attr Unit := ("value", .leaf (.string "hunter2"))
    let opened := maskingHandler .ascii [.withGroup "secret"]
    opened.handle .ascii [value] = [⟨["secret", "value"], .string "hunter2"⟩] ∧
      ¬ MaskedAs .ascii (HollowIn [.withGroup "secret"] [value])
        ((plainHandler [.withGroup "secret"]).handle [value]) (opened.handle .ascii [value]) ∧
      (maskingHandler .ascii []).handle .ascii [("secret", .group [value])] =
        [⟨["secret"], .string "****"⟩] := by
  intro value opened
  have hsecret : isSensitiveKey .ascii "secret" = true := by decide +kernel
  have hemitted : opened.handle .ascii [value] = [⟨["secret", "value"], .string "hunter2"⟩] := by
    rw [handle_singleton, maskAttr_of_leaf value (by decide +kernel) rfl, attrLeaves_leaf]
    rfl
  refine ⟨hemitted, ?_, ?_⟩
  · rw [hemitted]
    intro hmasked
    have hvalue := hmasked.value_of_sensitive List.mem_cons_self ⟨"secret", by simp, hsecret⟩
    exact absurd hvalue (by simp [maskText])
  · rw [handle_singleton, maskAttr_of_sensitive ("secret", _) hsecret, attrLeaves_leaf]
    rfl

end PasswordHook
