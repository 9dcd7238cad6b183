import PasswordHook.Config.Overlap
import PasswordHook.Middleware.HMAC
import PasswordHook.SensitiveInput.ReadAll

/-!
# The limit of the body

`Wrap` reads one byte more than the limit allows and decides by the length of what it got.  The
limit is an `int64`, and one more than the largest is negative: at that limit every body is read as
empty (`body_limit_iff`).
-/

namespace PasswordHook

open Prog

namespace HMAC

variable (m : HMAC) (mac : Bytes → Bytes → Bytes)

/-- `sensitiveio.ReadAll(io.LimitReader(r.Body, m.maxBodyBytes+1))`, for a body in the state `s`. -/
def readLimited {σ : Type} (read : Reader σ) (fuel : ℕ) (h : Heap) (s : σ) :
    Option (Except Err Bytes) :=
  match ((readAll fuel h).runWith (I := readInterface) (limitReader read)
    (wrapInt64 (m.maxBodyBytes + 1), s)).2 with
  | none => none
  | some (h', buf, none) => some (.ok (h'.contents buf))
  | some (_, _, some err) => some (.error err)

/-- The body `Wrap` goes on with. -/
def limitBody : Except Err Bytes → Except Rejection Bytes
  | .error _ => .error .unreadable
  | .ok body => if m.maxBodyBytes < body.length then .error .tooLarge else .ok body

/-- `Wrap` from the body on. -/
def wrapBody (r : HookRequest) : Except Rejection Bytes → HmacProg Verdict
  | .error why => return .rejected why
  | .ok body =>
    match parseInt64 r.timestampHeader with
    | none => return .rejected .headers
    | some timestamp =>
      if r.nonce = [] || r.signature = [] then return .rejected .headers
      else m.wrapParsed mac r body timestamp

variable {m mac} {r : HookRequest}

theorem wrap_eq_wrapBody : m.wrap mac r = m.wrapBody mac r (m.limitBody (m.readBody r)) := by
  rw [wrap]
  cases m.readBody r with
  | error err => rfl
  | ok body =>
    by_cases hsize : m.maxBodyBytes < body.length
    · simp [limitBody, wrapBody, hsize]
    · have hbody : m.limitBody (.ok body) = .ok body := if_neg hsize
      rw [hbody]
      exact if_neg hsize

/-- The body is the one whose signature is checked and that the next handler gets. -/
theorem exec_wrapBody {outcome : Except Rejection Bytes} {τ : List HmacEvent} {v : Verdict}
    (hrun : Exec (m.wrapBody mac r outcome) τ v) :
    (v = .rejected .tooLarge ↔ outcome = .error .tooLarge) ∧
      ∀ body, outcome = .ok body → ∀ forwarded, v = .forwarded forwarded →
        forwarded = body ∧
          m.validSignature mac r.timestampHeader r.nonce body r.signature = true := by
  cases outcome with
  | error why =>
    obtain ⟨-, rfl⟩ := exec_ret_iff.1 hrun
    simp
  | ok body =>
    have hne : v ≠ .rejected .tooLarge ∧ ∀ forwarded, v = .forwarded forwarded →
        forwarded = body ∧
          m.validSignature mac r.timestampHeader r.nonce body r.signature = true := by
      rw [wrapBody] at hrun
      split at hrun
      · obtain ⟨-, rfl⟩ := exec_ret_iff.1 hrun
        simp
      · split_ifs at hrun
        · obtain ⟨-, rfl⟩ := exec_ret_iff.1 hrun
          simp
        · obtain ⟨now, τ', -, hcases⟩ := exec_wrapParsed hrun
          rcases hcases with ⟨-, -, rfl⟩ | ⟨-, -, -, rfl⟩ | ⟨hpasses, -, -, rfl⟩ |
            ⟨hpasses, -, t, ok, -, rfl⟩
          · simp
          · simp
          · exact ⟨by simp, fun forwarded h => ⟨(Verdict.forwarded.inj h).symm, hpasses.signed⟩⟩
          · cases ok with
            | true =>
              exact ⟨by simp, fun forwarded h => ⟨(Verdict.forwarded.inj h).symm, hpasses.signed⟩⟩
            | false => simp
    refine ⟨⟨fun h => absurd h hne.1, fun h => absurd h (by simp)⟩, fun body' hbody => ?_⟩
    obtain rfl := Except.ok.inj hbody
    exact hne.2

/-! ## Reading up to the limit -/

section

variable {σ : Type} {read : Reader σ} {s : σ}

theorem wrapInt64_succ_of_lt (hmax : m.maxBodyBytes < maxInt64) :
    wrapInt64 (m.maxBodyBytes + 1) = m.maxBodyBytes + 1 := by
  have hpos := m.maxBodyBytes_pos
  apply wrapInt64_of_mem
  · simp only [minInt64]
    omega
  · omega

/-- `readBody` is what `ReadAll` of the limited body returns. -/
theorem readLimited_eq (hread : r.readErr = none) (hy : Yields read s r.content) (h : Heap) :
    ∃ enough, ∀ fuel ≥ enough, m.readLimited read fuel h s = some (m.readBody r) := by
  obtain ⟨enough, hrun⟩ := readAll_of_yields (hy.limit (wrapInt64 (m.maxBodyBytes + 1))) h
  refine ⟨enough, fun fuel hfuel => ?_⟩
  obtain ⟨h', buf, hresult, hreading⟩ := hrun fuel hfuel
  rw [readLimited, hresult, readBody_of_readErr_none m hread]
  exact congrArg (fun b => some (Except.ok b)) hreading.contents

/-- The outcome for a body within the limit, and for one over it. -/
theorem limitBody_readBody (hread : r.readErr = none) (hmax : m.maxBodyBytes < maxInt64) :
    m.limitBody (m.readBody r) =
      if m.maxBodyBytes < r.content.length then .error .tooLarge else .ok r.content := by
  have hpos := m.maxBodyBytes_pos
  rw [readBody_of_readErr_none m hread, wrapInt64_succ_of_lt hmax, limitBody, List.length_take]
  by_cases hlong : m.maxBodyBytes < r.content.length
  · rw [if_pos (by omega), if_pos hlong]
  · rw [if_neg (by omega), if_neg hlong, List.take_of_length_le (by omega)]

/-- At the largest limit every body is read as empty. -/
theorem limitBody_readBody_top (htop : m.maxBodyBytes = maxInt64) :
    m.limitBody (m.readBody r) = .ok [] := by
  have hwrap : wrapInt64 (maxInt64 + 1) ≤ 0 := by decide
  have hbody : m.readBody r = .ok [] := by
    rw [readBody, htop]
    exact if_pos hwrap
  rw [hbody, limitBody]
  exact if_neg (not_lt.2 (le_of_lt m.maxBodyBytes_pos))

/-- The limit of the body, for every reader of a readable body.  `Wrap` goes on with what `ReadAll`
of the limited body returns: it answers 413 exactly when that is over the limit, and otherwise
checks the signature of these bytes and hands them on.  For a limit that is an `int64` they are the
body, and over the limit exactly when the body is, if and only if the limit is not the largest
`int64` or the body is empty. -/
theorem body_limit_iff (int64 : m.maxBodyBytes ≤ maxInt64) (mac : Bytes → Bytes → Bytes)
    (readable : r.readErr = none) (body : Yields read s r.content) (h : Heap) :
    (∃ enough, ∀ fuel ≥ enough, m.readLimited read fuel h s = some (m.readBody r)) ∧
    m.wrap mac r = m.wrapBody mac r (m.limitBody (m.readBody r)) ∧
    (∀ outcome τ v, Exec (m.wrapBody mac r outcome) τ v →
      (v = .rejected .tooLarge ↔ outcome = .error .tooLarge) ∧
        ∀ body, outcome = .ok body → ∀ forwarded, v = .forwarded forwarded → forwarded = body ∧
          m.validSignature mac r.timestampHeader r.nonce body r.signature = true) ∧
    (m.limitBody (m.readBody r) =
        (if m.maxBodyBytes < r.content.length then .error .tooLarge else .ok r.content) ↔
      m.maxBodyBytes < maxInt64 ∨ r.content = []) := by
  refine ⟨readLimited_eq readable body h, wrap_eq_wrapBody, fun outcome τ v hrun =>
    exec_wrapBody hrun, ?_⟩
  by_cases hmax : m.maxBodyBytes < maxInt64
  · exact ⟨fun _ => .inl hmax, fun _ => limitBody_readBody readable hmax⟩
  · rw [limitBody_readBody_top (le_antisymm int64 (not_lt.1 hmax))]
    constructor
    · intro hexact
      split_ifs at hexact
      exact .inr (Except.ok.inj hexact).symm
    · rintro (hlt | hnil)
      · exact absurd hlt hmax
      · rw [hnil, if_neg]
        exact not_lt.2 (le_of_lt m.maxBodyBytes_pos)

end

/-- A body of two bytes under the limit of the sample. -/
theorem body_limit_iff_sample :
    sample.limitBody (sample.readBody ⟨bytesOf "hi", none, [], [], []⟩) = .ok (bytesOf "hi") := by
  have hlimit := (body_limit_iff (m := sample) (r := ⟨bytesOf "hi", none, [], [], []⟩) (by decide)
    sampleMac rfl (yields_bytesReader _) ⟨0, fun _ => []⟩).2.2.2
  exact hlimit.2 (.inl (by decide))

/-- The sample at the largest limit. -/
def unlimited : HMAC := { sample with maxBodyBytes := maxInt64, maxBodyBytes_pos := by decide }

/-- The largest limit is accepted at start-up and by the constructor, and at that limit a body of
two bytes is read as empty. -/
theorem unlimited_reads_nothing :
    Config.validateHTTP (fun _ => "") { Config.sample with hookMaxBodyBytes := maxInt64 } = none ∧
    (newHMACWithOptions (bytesOf "shared-secret") (some (60 * second)) (30 * second) (by decide)
      maxInt64).toOption.map HMAC.maxBodyBytes = some maxInt64 ∧
    (∃ enough, ∀ fuel ≥ enough,
      unlimited.readLimited bytesReader fuel ⟨0, fun _ => []⟩ (bytesOf "hi") = some (.ok [])) ∧
    unlimited.limitBody (.ok []) = .ok [] := by
  refine ⟨by decide +kernel, by decide +kernel, ?_, by decide +kernel⟩
  have hread := readLimited_eq (m := unlimited) (r := ⟨bytesOf "hi", none, [], [], []⟩) rfl
    (yields_bytesReader _) ⟨0, fun _ => []⟩
  exact hread

end HMAC

end PasswordHook
