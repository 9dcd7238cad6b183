import Mathlib

/-!
# Structured logging

The values of package `slog` and what a handler emits.  A value is a leaf, a group of attributes or
a `LogValuer`, which is asked for its value when it is logged; a handler keeps the groups that were
opened and the attributes that were attached, and emits every leaf with the names on the way to it.
-/

namespace PasswordHook

variable {α : Type}

/-- A value that is neither a group nor a `LogValuer`; `Resolve` answers with an error when
`LogValue` panics or is called too many times. -/
inductive LeafValue (α : Type) where
  | string (s : String)
  | any (a : α)
  | panicked
  | calledTooManyTimes
  deriving DecidableEq

/-- `slog.Value`; a `LogValuer` holds what it answers, nothing if it panics. -/
inductive LogValue (α : Type) where
  | leaf (v : LeafValue α)
  | group (attrs : List (String × LogValue α))
  | logValuer (answer : LogValue α)
  | panickingLogValuer

/-- `slog.Attr` -/
abbrev Attr (α : Type) := String × LogValue α

/-! ## Resolving -/

/-- A value that is not a `LogValuer`. -/
inductive Resolved (α : Type) where
  | leaf (v : LeafValue α)
  | group (attrs : List (Attr α))

def Resolved.value : Resolved α → LogValue α
  | .leaf v => .leaf v
  | .group attrs => .group attrs

def maxLogValues : ℕ := 100

/-- The loop of `Value.Resolve`, with the rounds that are left. -/
def LogValue.resolveFor : ℕ → LogValue α → Resolved α
  | 0, _ => .leaf .calledTooManyTimes
  | _ + 1, .leaf v => .leaf v
  | _ + 1, .group attrs => .group attrs
  | rounds + 1, .logValuer answer => answer.resolveFor rounds
  | _ + 1, .panickingLogValuer => .leaf .panicked

/-- `Value.Resolve` -/
def LogValue.resolve (v : LogValue α) : Resolved α := v.resolveFor maxLogValues

/-- A group that a value resolves to is part of it. -/
theorem LogValue.sizeOf_resolveFor {attrs : List (Attr α)} {rounds : ℕ} {v : LogValue α}
    (h : v.resolveFor rounds = .group attrs) : sizeOf attrs < sizeOf v := by
  induction rounds generalizing v with
  | zero => simp [resolveFor] at h
  | succ rounds ih =>
    cases v with
    | leaf v => simp [resolveFor] at h
    | group attrs' =>
      obtain rfl : attrs' = attrs := by simpa [resolveFor] using h
      simp
    | logValuer answer =>
      have := ih h
      simp only [LogValue.logValuer.sizeOf_spec]
      omega
    | panickingLogValuer => simp [resolveFor] at h

theorem sizeOf_resolve {attr : Attr α} {attrs : List (Attr α)} (h : attr.2.resolve = .group attrs) :
    sizeOf attrs < sizeOf attr := by
  have hvalue := LogValue.sizeOf_resolveFor h
  have hattr : sizeOf attr = 1 + sizeOf attr.1 + sizeOf attr.2 := rfl
  omega

section Induction

variable {P : Attr α → Prop} {Q : List (Attr α) → Prop}

mutual

theorem attr_induction (leaf : ∀ attr v, attr.2.resolve = .leaf v → P attr)
    (group : ∀ attr attrs, attr.2.resolve = .group attrs → Q attrs → P attr) (nil : Q [])
    (cons : ∀ attr attrs, P attr → Q attrs → Q (attr :: attrs)) (attr : Attr α) : P attr :=
  match h : attr.2.resolve with
  | .leaf v => leaf attr v h
  | .group attrs => group attr attrs h (attrs_induction leaf group nil cons attrs)
termination_by sizeOf attr
decreasing_by exact sizeOf_resolve h

/-- Induction over attributes as they resolve. -/
theorem attrs_induction (leaf : ∀ attr v, attr.2.resolve = .leaf v → P attr)
    (group : ∀ attr attrs, attr.2.resolve = .group attrs → Q attrs → P attr) (nil : Q [])
    (cons : ∀ attr attrs, P attr → Q attrs → Q (attr :: attrs)) (attrs : List (Attr α)) : Q attrs :=
  match attrs with
  | [] => nil
  | attr :: attrs =>
    cons attr attrs (attr_induction leaf group nil cons attr)
      (attrs_induction leaf group nil cons attrs)
termination_by sizeOf attrs

end

end Induction

/-! ## Emitting -/

/-- A leaf as it is emitted, with the names on the way to it, its own key last. -/
structure Emitted (α : Type) where
  path : List String
  value : LeafValue α
  deriving DecidableEq

/-- The groups that are open inside a group; one without a name opens nothing. -/
def enterGroup (groups : List String) (name : String) : List String :=
  if name = "" then groups else groups ++ [name]

mutual

/-- The leaves of an attribute under the groups that are open. -/
def attrLeaves (groups : List String) (attr : Attr α) : List (Emitted α) :=
  match _h : attr.2.resolve with
  | .leaf v => [⟨groups ++ [attr.1], v⟩]
  | .group attrs => leavesOf (enterGroup groups attr.1) attrs
termination_by sizeOf attr
decreasing_by exact sizeOf_resolve _h

def leavesOf (groups : List String) : List (Attr α) → List (Emitted α)
  | [] => []
  | attr :: attrs => attrLeaves groups attr ++ leavesOf groups attrs
termination_by attrs => sizeOf attrs

end

theorem attrLeaves_of_leaf {attr : Attr α} {v : LeafValue α} (h : attr.2.resolve = .leaf v)
    (groups : List String) : attrLeaves groups attr = [⟨groups ++ [attr.1], v⟩] := by
  rw [attrLeaves]
  split
  · simp_all
  · simp_all

theorem attrLeaves_of_group {attr : Attr α} {attrs : List (Attr α)}
    (h : attr.2.resolve = .group attrs) (groups : List String) :
    attrLeaves groups attr = leavesOf (enterGroup groups attr.1) attrs := by
  rw [attrLeaves]
  split
  · simp_all
  · simp_all

@[simp] theorem attrLeaves_leaf (groups : List String) (key : String) (v : LeafValue α) :
    attrLeaves groups (key, .leaf v) = [⟨groups ++ [key], v⟩] := attrLeaves_of_leaf rfl groups

@[simp] theorem attrLeaves_group (groups : List String) (key : String) (attrs : List (Attr α)) :
    attrLeaves groups (key, .group attrs) = leavesOf (enterGroup groups key) attrs :=
  attrLeaves_of_group rfl groups

@[simp] theorem leavesOf_singleton (groups : List String) (attr : Attr α) :
    leavesOf groups [attr] = attrLeaves groups attr := by
  rw [leavesOf, leavesOf, List.append_nil]

/-! ## Handlers -/

/-- What can be derived from a handler. -/
inductive Derivation (α : Type) where
  | withAttrs (attrs : List (Attr α))
  | withGroup (name : String)

/-- A handler that emits: the groups that are open and the leaves of the attributes attached. -/
structure Sink (α : Type) where
  groups : List String
  attached : List (Emitted α)

namespace Sink

def new : Sink α := ⟨[], []⟩

def withAttrs (s : Sink α) (attrs : List (Attr α)) : Sink α :=
  { s with attached := s.attached ++ leavesOf s.groups attrs }

def withGroup (s : Sink α) (name : String) : Sink α :=
  { s with groups := enterGroup s.groups name }

def derive (s : Sink α) : Derivation α → Sink α
  | .withAttrs attrs => s.withAttrs attrs
  | .withGroup name => s.withGroup name

/-- The leaves emitted for a record with these attributes. -/
def handle (s : Sink α) (attrs : List (Attr α)) : List (Emitted α) :=
  s.attached ++ leavesOf s.groups attrs

end Sink

/-! ## Empty groups -/

/-- `Value.isEmptyGroup` -/
def LogValue.isEmptyGroup : LogValue α → Bool
  | .group [] => true
  | _ => false

/-- The attributes without the empty groups, as `GroupValue` and `Record.AddAttrs` keep them. -/
def withoutEmptyGroups (attrs : List (Attr α)) : List (Attr α) :=
  attrs.filter fun attr => !attr.2.isEmptyGroup

theorem LogValue.eq_of_isEmptyGroup {v : LogValue α} (h : v.isEmptyGroup = true) :
    v = .group [] := by
  unfold isEmptyGroup at h
  split at h
  · rfl
  · cases h

/-- An empty group emits nothing. -/
theorem leavesOf_withoutEmptyGroups (groups : List String) (attrs : List (Attr α)) :
    leavesOf groups (withoutEmptyGroups attrs) = leavesOf groups attrs := by
  induction attrs with
  | nil => rfl
  | cons attr attrs ih =>
    unfold withoutEmptyGroups at ih ⊢
    rw [leavesOf]
    cases hempty : attr.2.isEmptyGroup with
    | true =>
      have hgroup : attr.2.resolve = .group [] := by
        rw [LogValue.eq_of_isEmptyGroup hempty]
        rfl
      rw [List.filter_cons_of_neg (by simp [hempty]), ih, attrLeaves_of_group hgroup, leavesOf,
        List.nil_append]
    | false => rw [List.filter_cons_of_pos (by simp [hempty]), leavesOf, ih]

end PasswordHook
