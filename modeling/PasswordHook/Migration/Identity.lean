import PasswordHook.Go.Errors
import PasswordHook.Go.Text

/-!
# Events, identities and account names

Package `migration`: which events are accepted, how the common name of a request is classified, and
the user principal name built from it.
-/

namespace PasswordHook

/-! ## Event types -/

/-- `EventType`, a string type; a request may carry any text. -/
structure EventType where
  text : String
  deriving DecidableEq

def eventLoginBootstrap : EventType := ⟨"login_bootstrap"⟩

def eventPasswordChange : EventType := ⟨"password_change"⟩

def eventPasswordRecovery : EventType := ⟨"password_recovery"⟩

def validEventType (t : EventType) : Bool :=
  t = eventLoginBootstrap || t = eventPasswordChange || t = eventPasswordRecovery

def errInvalidEventType : Err := .new "migration: invalid event type"

/-! ## Identities -/

inductive IdentityType where
  | unknown
  | studentID
  | employeeID
  | externalEmail
  deriving DecidableEq

def allDigits (U : Unicode) (value : String) : Bool := value.toList.all U.isDigit

def startsWithLetter (U : Unicode) (value : String) : Bool := value.toList.head?.any U.isLetter

def allLettersDigitsOrHyphen (U : Unicode) (value : String) : Bool :=
  value.toList.all fun r => r = '-' || U.isLetter r || U.isDigit r

def classifyCN (U : Unicode) (cn : String) : IdentityType :=
  let normalized := trimSpace cn
  if normalized = "" then .unknown
  else if '@' ∈ normalized.toList then .externalEmail
  else if allDigits U normalized then .studentID
  else if startsWithLetter U normalized && allLettersDigitsOrHyphen U normalized then .employeeID
  else .unknown

def errExternalIdentity : Err := .new "external email identities are not migrated in phase 1"

def errUnknownIdentity : Err := .new "cn is not a supported phase 1 identity"

def buildUPN (U : Unicode) (cn primaryDomain : String) : Except Err String :=
  let normalizedCN := trimSpace cn
  let domain := toLower U (trimSpace primaryDomain)
  if normalizedCN = "" then .error errUnknownIdentity
  else if domain = "" then .error (.new "entra primary domain is required")
  else
    match classifyCN U normalizedCN with
    | .studentID => .ok (normalizedCN ++ "@" ++ domain)
    | .employeeID => .ok (normalizedCN ++ "@" ++ domain)
    | .externalEmail => .error errExternalIdentity
    | .unknown => .error errUnknownIdentity

/-! ## What a built name looks like -/

/-- The characters of a classified common name are letters, digits and hyphens. -/
theorem not_space_of_classifyCN {U : Unicode} {cn : String}
    (h : classifyCN U cn = .studentID ∨ classifyCN U cn = .employeeID) :
    ∀ c ∈ (trimSpace cn).toList, isSpace c = false := by
  intro c hc
  unfold classifyCN at h
  dsimp only at h
  split_ifs at h with h₁ h₂ h₃ h₄
  · exact absurd h (by simp)
  · exact absurd h (by simp)
  · exact U.digit_not_space c (List.all_eq_true.1 h₃ c hc)
  · have hall := List.all_eq_true.1 (Bool.and_eq_true_iff.1 h₄).2 c hc
    simp only [Bool.or_eq_true, decide_eq_true_eq] at hall
    rcases hall with (rfl | hall) | hall
    · decide
    · exact U.letter_not_space c hall
    · exact U.digit_not_space c hall
  · exact absurd h (by simp)

/-- A built name is the trimmed common name, an `@` and the lower-cased domain. -/
theorem buildUPN_eq_ok {U : Unicode} {cn primaryDomain upn : String}
    (h : buildUPN U cn primaryDomain = .ok upn) :
    upn = trimSpace cn ++ "@" ++ toLower U (trimSpace primaryDomain) ∧ trimSpace cn ≠ "" ∧
      toLower U (trimSpace primaryDomain) ≠ "" ∧
      (∀ c ∈ (trimSpace cn).toList, isSpace c = false) := by
  unfold buildUPN at h
  dsimp only at h
  split_ifs at h with h₁ h₂
  have hspace : ∀ t, classifyCN U (trimSpace cn) = t → t = .studentID ∨ t = .employeeID →
      ∀ c ∈ (trimSpace cn).toList, isSpace c = false := by
    rintro t ht htype
    rw [← ht] at htype
    have := not_space_of_classifyCN htype
    rwa [trimSpace_trimSpace] at this
  split at h
  · rename_i ht
    exact ⟨(Except.ok.inj h).symm, h₁, h₂, hspace _ ht (.inl rfl)⟩
  · rename_i ht
    exact ⟨(Except.ok.inj h).symm, h₁, h₂, hspace _ ht (.inr rfl)⟩
  · exact absurd h (by simp)
  · exact absurd h (by simp)

theorem getLast?_append_of_ne_nil {l₁ l₂ : List Char} (h : l₂ ≠ []) :
    (l₁ ++ l₂).getLast? = l₂.getLast? := by
  rw [List.getLast?_append]
  cases hl : l₂.getLast? with
  | none => exact absurd (List.getLast?_eq_none_iff.1 hl) h
  | some c => rfl

/-- A built name has no white space at its ends. -/
theorem trimmed_buildUPN {U : Unicode} {cn primaryDomain upn : String}
    (h : buildUPN U cn primaryDomain = .ok upn) : Trimmed upn.toList := by
  obtain ⟨rfl, hcn, hdomain, hspace⟩ := buildUPN_eq_ok h
  have hcn' : (trimSpace cn).toList ≠ [] := fun e => hcn (String.toList_inj.1 e)
  have hdomain' : (toLower U (trimSpace primaryDomain)).toList ≠ [] := fun e =>
    hdomain (String.toList_inj.1 e)
  have htrim : Trimmed (toLower U (trimSpace primaryDomain)).toList := by
    rw [toList_toLower, toList_trimSpace]
    exact (trimmed_trimChars _).toLower U
  rw [String.toList_append, String.toList_append]
  refine ⟨fun c hc => ?_, fun c hc => ?_⟩
  · rw [List.append_assoc, List.head?_append_of_ne_nil _ hcn'] at hc
    exact hspace c (List.mem_of_mem_head? hc)
  · rw [getLast?_append_of_ne_nil hdomain'] at hc
    exact htrim.2 c hc

end PasswordHook
