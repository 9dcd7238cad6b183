import PasswordHook.Handler.Buffers
import PasswordHook.Migration.Service

/-!
# `Hook.ServeHTTP`

The handler of a hook request, with the buffers that hold the password.  A decoded password dies in
four ways: a second value of the field overwrites it, a null replaces it, its decoding fails, or the
request ends.  On every path its buffer is zero when the handler returns
(`password_buffers_cleared`).
-/

namespace PasswordHook

open Prog

/-- `errors.Is` -/
def Err.is : Err → Err → Bool
  | .wrap msg err, target => Err.wrap msg err = target || err.is target
  | .join err₁ err₂, target => Err.join err₁ err₂ = target || err₁.is target || err₂.is target
  | .permanent reason err, target => Err.permanent reason err = target || err.is target
  | .graphPermanent code op err, target => Err.graphPermanent code op err = target || err.is target
  | .graphTransient code op err, target => Err.graphTransient code op err = target || err.is target
  | err, target => err = target

/-- A request to the hook: what reading and unmarshalling its body come to, with the values that
`json.Unmarshal` hands to `UnmarshalJSON` of the password, in order. -/
structure HookPost where
  method : String
  readErr : Option Err
  passwordValues : List Bytes
  unmarshalErr : Option Err
  cn : String
  eventType : EventType
  displayName : String
  mail : String

inductive HookResponse where
  | methodNotAllowed
  | validation (detail : String)
  /-- The detail is the text of the error. -/
  | identity (err : Err)
  | internal (detail : String)
  | accepted (decision : Decision)

def HookResponse.status : HookResponse → ℕ
  | .methodNotAllowed => 405
  | .validation _ => 400
  | .identity _ => 400
  | .internal _ => 500
  | .accepted _ => 202

/-- `passwordHookRequest.validate`, for a password of the given length. -/
def HookPost.validate (r : HookPost) (passwordLen : ℕ) : String :=
  if trimSpace r.cn = "" then "Field 'cn' is required"
  else if passwordLen = 0 then "Field 'password' is required"
  else if trimSpace r.displayName = "" then "Field 'displayName' is required"
  else if trimSpace r.mail = "" then "Field 'mail' is required"
  else if trimSpace r.eventType.text = "" then "Field 'eventType' is required"
  else if !validEventType r.eventType then
    "Field 'eventType' must be one of login_bootstrap, password_change, password_recovery"
  else ""

/-- The password in the field; nil is empty. -/
def passwordOf (field : Heap × Option Slice) : Bytes :=
  match field.2 with
  | some p => field.1.contents p
  | none => []

section Serve

variable (grow : ℕ → ℕ → ℕ) (U : Unicode) (svc : Service) (traceID : String)

/-- The answer to what `Submit` returned. -/
def submitResponse (result : Decision × Option Err) : HookResponse :=
  match result.2 with
  | some err =>
    if err.is errUnknownIdentity || err.is errExternalIdentity then .identity err
    else .internal "failed to accept password sync request"
  | none => .accepted result.1

/-- `ServeHTTP` from the unmarshalling on, with the heap it leaves.  `Submit` zeroes the password it
was given, and the handler zeroes its field on the way out. -/
def serveBodyOn (r : HookPost) (field : Heap × Option Slice) : HookProg (Heap × HookResponse) :=
  if r.unmarshalErr ≠ none then
    return (zeroPassword field, .validation "request body must be valid json")
  else if r.validate (passwordOf field).length ≠ "" then
    return (zeroPassword field, .validation (r.validate (passwordOf field).length))
  else do
    let result ← submit U svc traceID
      { cn := r.cn
        eventType := r.eventType
        password := passwordOf field
        displayName := r.displayName
        mail := r.mail }
    return (zeroPassword (zeroPassword field, field.2), submitResponse result)

/-- `Hook.ServeHTTP`, with the heap it leaves. -/
def serveHTTPOn (h : Heap) (r : HookPost) : HookProg (Heap × HookResponse) :=
  if r.method ≠ "POST" then return (h, .methodNotAllowed)
  else if r.readErr ≠ none then return (h, .validation "request body must be readable")
  else serveBodyOn U svc traceID r (r.passwordValues.foldl (unmarshalPasswordTo grow) (h, none))

end Serve

/-! ## The heap the handler leaves -/

/-- The buffers allocated since `h₀` are zero over their whole capacity. -/
def Cleared (h₀ h : Heap) : Prop := ∀ i, h₀.next ≤ i → i < h.next → ∀ b ∈ h.buffer i, b = 0

theorem FieldOnly.cleared_zeroed {h₀ : Heap} {field : Heap × Option Slice}
    (hf : FieldOnly h₀ field) : Cleared h₀ (zeroPassword field) := fun i hge hlt =>
  hf.zeroed.cleared i hge hlt fun p hp => absurd hp (by simp)

/-- Zeroing a second time changes nothing. -/
theorem Cleared.zeroed {h₀ h : Heap} (hc : Cleared h₀ h) (p : Option Slice) :
    Cleared h₀ (zeroPassword (h, p)) := by
  cases p with
  | none => exact hc
  | some p =>
    intro i hge hlt
    exact Heap.buffer_zero_of_zero (hc i hge hlt)

section

variable {grow : ℕ → ℕ → ℕ} {U : Unicode} {svc : Service} {traceID : String} {h h' : Heap}
  {r : HookPost} {τ : List HookEvent} {response : HookResponse}

theorem cleared_serveBodyOn {field : Heap × Option Slice} (hfield : FieldOnly h field)
    (run : Exec (serveBodyOn U svc traceID r field) τ (h', response)) : Cleared h h' := by
  unfold serveBodyOn at run
  split_ifs at run
  · rw [← (Prod.mk.inj (exec_ret_iff.1 run).2).1]
    exact hfield.cleared_zeroed
  · rw [← (Prod.mk.inj (exec_ret_iff.1 run).2).1]
    exact hfield.cleared_zeroed
  · obtain ⟨result, τ₁, τ₂, rfl, -, hrest⟩ := exec_bind_iff.1 run
    rw [← (Prod.mk.inj (exec_ret_iff.1 hrest).2).1]
    exact hfield.cleared_zeroed.zeroed field.2

theorem cleared_serveHTTPOn (run : Exec (serveHTTPOn grow U svc traceID h r) τ (h', response)) :
    Cleared h h' := by
  have hself : Cleared h h := fun i hge hlt => absurd hge (not_le.2 hlt)
  unfold serveHTTPOn at run
  split_ifs at run
  · rw [← (Prod.mk.inj (exec_ret_iff.1 run).2).1]
    exact hself
  · rw [← (Prod.mk.inj (exec_ret_iff.1 run).2).1]
    exact hself
  · exact cleared_serveBodyOn ((fieldOnly_self h).unmarshalAll r.passwordValues) run

end

/-- No password is left in a buffer.  After any number of turns the decoder is in the buffer it
allocated, within its capacity of three bytes for each byte between the quotes, for every growth
policy; and when the handler returns, every buffer the decoder allocated for the request is zero. -/
theorem password_buffers_cleared (grow : ℕ → ℕ → ℕ) :
    (∀ (h : Heap) (data : Bytes) (turns : ℕ),
      let r := (decodeItemsTo grow turns ((data.drop 1).dropLast) (decodeBuffer h data)).1
      r.2.id = h.next ∧ r.1.next = h.next + 1 ∧ r.1.cap r.2 = 3 * (data.length - 2) ∧
        r.2.len ≤ 3 * (data.length - 2)) ∧
    ∀ (U : Unicode) (svc : Service) (traceID : String) (h : Heap) (r : HookPost)
      (τ : List HookEvent)
      (h' : Heap) (response : HookResponse),
      Exec (serveHTTPOn grow U svc traceID h r) τ (h', response) →
        ∀ i, h.next ≤ i → i < h'.next → ∀ b ∈ h'.buffer i, b = 0 := by
  refine ⟨fun h data turns => ?_, fun U svc traceID h r τ h' response run =>
    cleared_serveHTTPOn run⟩
  have hstays := decoding_stays grow h data turns
  have hle := hstays.holds.le
  rw [hstays.cap] at hle
  exact ⟨hstays.id, hstays.next, hstays.cap.trans (Nat.mul_comm _ _), hle.trans (by omega)⟩

/-- A request with the password twice: the second value does not decode. -/
def repeatedPassword : HookPost where
  method := "POST"
  readErr := none
  passwordValues := [bytesOf "\"ab\"", bytesOf "\"a\\q\""]
  unmarshalErr := some (.new "password contains invalid json escape 'q'")
  cn := "b11001"
  eventType := ⟨"password_change"⟩
  displayName := ""
  mail := ""

theorem password_buffers_cleared_repeated :
    ∃ h' response,
      Exec (serveHTTPOn (fun cap _ => 2 * cap) .ascii (newService "nycu.edu.tw" true true true 0) ""
        ⟨0, fun _ => []⟩ repeatedPassword) [] (h', response) ∧
      response.status = 400 ∧ h'.next = 2 ∧ ∀ i < 2, ∀ b ∈ h'.buffer i, b = 0 := by
  have hrun : ∃ h' response,
      Exec (serveHTTPOn (fun cap _ => 2 * cap) .ascii (newService "nycu.edu.tw" true true true 0) ""
        ⟨0, fun _ => []⟩ repeatedPassword) [] (h', response) ∧
      response.status = 400 ∧ h'.next = 2 :=
    ⟨_, _, .refl _, rfl, by decide +kernel⟩
  obtain ⟨h', response, hexec, hstatus, hnext⟩ := hrun
  refine ⟨h', response, hexec, hstatus, hnext, fun i hi => ?_⟩
  exact (password_buffers_cleared fun cap _ => 2 * cap).2 _ _ _ _ _ _ _ _ hexec i (Nat.zero_le i)
    (hnext ▸ hi)

end PasswordHook
