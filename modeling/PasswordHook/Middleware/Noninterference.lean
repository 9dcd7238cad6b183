import PasswordHook.Lib.Simulation
import PasswordHook.Middleware.Freshness

/-!
# Rejected requests

Requests through `Wrap` one after the other.  A request that is not forwarded leaves a nonce store
in which nobody can tell that it was there, so it has no influence on any other
(`rejected_invisible`).
-/

namespace PasswordHook

open Prog

theorem aging_keeps (ttl : ℤ) : Expiry.Aging (MemoryNonceStore.keeps ttl) := by
  intro now now' seen hle hlive
  simp only [MemoryNonceStore.keeps, decide_eq_true_eq] at hlive ⊢
  exact (Time.sub_mono hle seen).trans hlive

namespace HMAC

/-- A request with the readings of the clock for it. -/
structure Visit where
  request : HookRequest
  checkedAt : Time
  usedAt : Time

/-- The answers to the calls of `Wrap` during a visit. -/
def Visit.answer (v : Visit) : (c : HmacCall) → MemoryNonceStore → MemoryNonceStore × c.Resp
  | .since, s => (s, v.checkedAt)
  | .useNow, s => (s, v.usedAt)
  | .useLocked nonce ttl now, s => s.use nonce ttl now

variable (m : HMAC) (mac : Bytes → Bytes → Bytes)

/-- One visit. -/
def visit (s : MemoryNonceStore) (v : Visit) : MemoryNonceStore × Verdict :=
  (m.wrap mac v.request).runWith v.answer s

/-- What becomes of the visits of a run. -/
def verdicts (vs : List Visit) : List Verdict := (runFrom (m.visit mac) .new vs).2

/-- The visit comes to the nonce store. -/
def Arrives (v : Visit) : Prop :=
  m.nonces = true ∧ ∃ body timestamp, m.Readable v.request body timestamp ∧
    m.Passes mac v.request body timestamp v.checkedAt

variable {m mac} {v : Visit} {s s' : MemoryNonceStore}

/-- A visit that does not come to the store leaves it alone, and the verdict does not depend on
it. -/
theorem visit_of_not_arrives (h : ¬ m.Arrives mac v) :
    ∃ verdict, ∀ s, m.visit mac s v = (s, verdict) := by
  unfold visit
  rcases m.wrap_cases mac v.request with ⟨why, -, hwrap⟩ | ⟨body, timestamp, hread⟩
  · exact ⟨.rejected why, fun s => by rw [hwrap]; rfl⟩
  have hrun : ∀ s, (m.wrap mac v.request).runWith v.answer s =
      (m.wrapChecked mac v.request body timestamp v.checkedAt).runWith v.answer s := by
    intro s
    rw [hread.wrap_eq]
    rfl
  simp only [hrun, wrapChecked]
  by_cases hfresh : m.fresh v.checkedAt timestamp = true
  · rw [if_pos hfresh]
    by_cases hsigned : m.validSignature mac v.request.timestampHeader v.request.nonce body
        v.request.signature = true
    · have hnonces : ¬ m.nonces = true :=
        fun hn => h ⟨hn, body, timestamp, hread, ⟨hfresh, hsigned⟩⟩
      rw [if_pos hsigned, if_neg hnonces]
      exact ⟨.forwarded body, fun _ => rfl⟩
    · rw [if_neg hsigned]
      exact ⟨.rejected .mismatch, fun _ => rfl⟩
  · rw [if_neg hfresh]
    exact ⟨.rejected .stale, fun _ => rfl⟩

/-- A visit that comes to the store is decided by `Use`. -/
theorem visit_of_arrives (h : m.Arrives mac v) : ∃ body, ∀ s : MemoryNonceStore, m.visit mac s v =
    ((s.use v.request.nonce m.nonceTTL v.usedAt).1,
      if (s.use v.request.nonce m.nonceTTL v.usedAt).2 then .forwarded body
      else .rejected .replay) := by
  obtain ⟨hnonces, body, timestamp, hread, hpass⟩ := h
  refine ⟨body, fun s => ?_⟩
  have hrun : m.visit mac s v =
      (m.wrapChecked mac v.request body timestamp v.checkedAt).runWith v.answer s := by
    rw [visit, hread.wrap_eq]
    rfl
  rw [hrun, wrapChecked, if_pos hpass.fresh, if_pos hpass.signed, if_pos hnonces]
  rfl

variable (m mac) in
/-- None of the visits can tell the stores apart. -/
def AlikeFor (vs : List Visit) (s s' : MemoryNonceStore) : Prop :=
  ∀ v ∈ vs, m.Arrives mac v →
    Expiry.Alike (MemoryNonceStore.keeps m.nonceTTL) v.usedAt s.seenAt s'.seenAt

/-- Stores that a visit cannot tell apart give it one verdict, and it leaves stores that no later
visit can tell apart. -/
theorem AlikeFor.visit {vs : List Visit} (h : m.AlikeFor mac (v :: vs) s s') :
    (m.visit mac s v).2 = (m.visit mac s' v).2 ∧
      m.AlikeFor mac vs (m.visit mac s v).1 (m.visit mac s' v).1 := by
  by_cases harrives : m.Arrives mac v
  · have hclaim := (h v List.mem_cons_self harrives).claim_eq v.request.nonce
    have huse : s.use v.request.nonce m.nonceTTL v.usedAt =
        s'.use v.request.nonce m.nonceTTL v.usedAt := by
      unfold MemoryNonceStore.use
      rw [hclaim]
    obtain ⟨body, hvisit⟩ := visit_of_arrives harrives
    rw [hvisit s, hvisit s', huse]
    exact ⟨rfl, fun w _ _ => Expiry.Alike.refl _⟩
  · obtain ⟨verdict, hvisit⟩ := visit_of_not_arrives harrives
    rw [hvisit s, hvisit s']
    exact ⟨rfl, fun w hw => h w (List.mem_cons_of_mem _ hw)⟩

/-- A visit that is not forwarded leaves a store that no later visit can tell from the one
before. -/
theorem AlikeFor.of_rejected {vs : List Visit} (h : m.AlikeFor mac (v :: vs) s s')
    (clock : ∀ w ∈ vs, m.Arrives mac v → m.Arrives mac w → v.usedAt ≤ w.usedAt)
    (rejected : (m.visit mac s v).2.isForwarded = false) :
    m.AlikeFor mac vs (m.visit mac s v).1 s' := by
  by_cases harrives : m.Arrives mac v
  · obtain ⟨body, hvisit⟩ := visit_of_arrives harrives
    rw [hvisit s] at rejected ⊢
    have hfailed : (s.use v.request.nonce m.nonceTTL v.usedAt).2 = false := by
      cases hused : (s.use v.request.nonce m.nonceTTL v.usedAt).2 with
      | false => rfl
      | true =>
        rw [hused] at rejected
        exact absurd rejected (by simp [Verdict.isForwarded])
    have hswept := Expiry.alike_claim_of_failed (aging_keeps m.nonceTTL) hfailed
    intro w hw hw'
    have hlater := hswept.later (aging_keeps m.nonceTTL) (clock w hw harrives hw')
    exact hlater.trans (h w (List.mem_cons_of_mem _ hw) hw')
  · obtain ⟨verdict, hvisit⟩ := visit_of_not_arrives harrives
    rw [hvisit s]
    exact fun w hw => h w (List.mem_cons_of_mem _ hw)

/-- The elements that are kept. -/
def kept {α : Type} (keep : List Bool) (xs : List α) : List α :=
  ((keep.zip xs).filter (·.1)).map (·.2)

/-- The run lemma: what holds of `verdicts` holds from any two stores the visits cannot tell
apart. -/
theorem verdicts_kept {vs : List Visit} {keep : List Bool} (h : m.AlikeFor mac vs s s')
    (clock : vs.Pairwise fun v w => m.Arrives mac v → m.Arrives mac w → v.usedAt ≤ w.usedAt)
    (length : keep.length = vs.length)
    (dropped : ∀ p ∈ keep.zip (runFrom (m.visit mac) s vs).2, p.1 = false →
      p.2.isForwarded = false) :
    (runFrom (m.visit mac) s' (kept keep vs)).2 = kept keep (runFrom (m.visit mac) s vs).2 := by
  induction vs generalizing keep s s' with
  | nil => simp [kept]
  | cons v vs ih =>
    obtain ⟨hfirst, hrest⟩ := List.pairwise_cons.1 clock
    cases keep with
    | nil => simp [kept]
    | cons b keep =>
      rw [runFrom_cons] at dropped
      simp only [List.zip_cons_cons, List.mem_cons, forall_eq_or_imp] at dropped
      have hlength : keep.length = vs.length := by simpa using length
      cases b with
      | true =>
        obtain ⟨hverdict, hlater⟩ := h.visit
        have hkept := ih hlater hrest hlength dropped.2
        simpa [kept, hverdict] using hkept
      | false =>
        have hlater := h.of_rejected hfirst (dropped.1 rfl)
        have hkept := ih hlater hrest hlength dropped.2
        simpa [kept] using hkept

/-- Taking requests that were not forwarded out of a run leaves the verdicts on all others as they
are. -/
theorem rejected_invisible {vs : List Visit} {keep : List Bool} (length : keep.length = vs.length)
    (clock : vs.Pairwise fun v w => m.Arrives mac v → m.Arrives mac w → v.usedAt ≤ w.usedAt)
    (dropped : ∀ p ∈ keep.zip (m.verdicts mac vs), p.1 = false → p.2.isForwarded = false) :
    m.verdicts mac (kept keep vs) = kept keep (m.verdicts mac vs) :=
  verdicts_kept (fun _ _ _ => Expiry.Alike.refl _) clock length dropped

/-- A visit at the sample reading. -/
def sampleVisit (nonce body content : String) : Visit where
  request :=
    { sample.portalRequest sampleMac (bytesOf "1764403200") (bytesOf nonce) (bytesOf body) with
      content := bytesOf content }
  checkedAt := sampleClock
  usedAt := sampleClock

/-- A replay and a request with another body than the signed one, taken out of a run of four. -/
theorem rejected_invisible_four :
    let vs := [sampleVisit "n1" "a" "a", sampleVisit "n1" "a" "a", sampleVisit "n2" "b" "c",
      sampleVisit "n2" "b" "b"]
    sample.verdicts sampleMac vs = [.forwarded (bytesOf "a"), .rejected .replay,
      .rejected .mismatch, .forwarded (bytesOf "b")] ∧
    sample.verdicts sampleMac [sampleVisit "n1" "a" "a", sampleVisit "n2" "b" "b"] =
      [.forwarded (bytesOf "a"), .forwarded (bytesOf "b")] := by
  intro vs
  have hverdicts : sample.verdicts sampleMac vs = [.forwarded (bytesOf "a"), .rejected .replay,
      .rejected .mismatch, .forwarded (bytesOf "b")] := by decide +kernel
  have clock : vs.Pairwise fun v w => sample.Arrives sampleMac v → sample.Arrives sampleMac w →
      v.usedAt ≤ w.usedAt := by
    simp [vs, sampleVisit]
  have dropped : ∀ p ∈ [true, false, false, true].zip (sample.verdicts sampleMac vs), p.1 = false →
      p.2.isForwarded = false := by
    rw [hverdicts]
    decide
  have hkept : sample.verdicts sampleMac (kept [true, false, false, true] vs) =
      kept [true, false, false, true] (sample.verdicts sampleMac vs) :=
    rejected_invisible rfl clock dropped
  rw [hverdicts] at hkept
  exact ⟨hverdicts, hkept⟩

end HMAC

end PasswordHook
