import PasswordHook.Go.Text

/-!
# Problem documents

Package `problem`: the body of an answer that reports an error.
-/

namespace PasswordHook

structure Problem where
  type : String
  title : String
  status : ℕ
  detail : String
  /-- The field `Instance`. -/
  instancePath : String
  traceID : String
  deriving DecidableEq

namespace Problem

def defaultBaseURL : String := "https://nycu.edu.tw/problems"

/-- `strings.TrimRight(value, "/")` -/
def trimRightSlash (value : String) : String := String.ofList (value.toList.rdropWhile (· = '/'))

def typeURL (baseURL slug : String) : String :=
  let baseURL := trimRightSlash baseURL
  (if baseURL = "" then defaultBaseURL else baseURL) ++ "/" ++ slug

/-- What the constructors of the package have in common. -/
def of (slug title : String) (status : ℕ) (baseURL instancePath traceID detail : String) :
    Problem :=
  ⟨typeURL baseURL slug, title, status, detail, instancePath, traceID⟩

def validation : (baseURL instancePath traceID detail : String) → Problem :=
  of "validation-error" "Validation Error" 400

def unauthorized : (baseURL instancePath traceID detail : String) → Problem :=
  of "unauthorized" "Unauthorized" 401

def tooManyRequests : (baseURL instancePath traceID detail : String) → Problem :=
  of "too-many-requests" "Too Many Requests" 429

def payloadTooLarge : (baseURL instancePath traceID detail : String) → Problem :=
  of "payload-too-large" "Payload Too Large" 413

def internal : (baseURL instancePath traceID detail : String) → Problem :=
  of "internal-error" "Internal Server Error" 500

variable {baseURL instancePath traceID detail : String}

@[simp] theorem status_validation : (validation baseURL instancePath traceID detail).status = 400 :=
  rfl

@[simp] theorem status_unauthorized :
    (unauthorized baseURL instancePath traceID detail).status = 401 := rfl

@[simp] theorem status_tooManyRequests :
    (tooManyRequests baseURL instancePath traceID detail).status = 429 := rfl

@[simp] theorem status_payloadTooLarge :
    (payloadTooLarge baseURL instancePath traceID detail).status = 413 := rfl

@[simp] theorem status_internal : (internal baseURL instancePath traceID detail).status = 500 := rfl

end Problem

end PasswordHook
