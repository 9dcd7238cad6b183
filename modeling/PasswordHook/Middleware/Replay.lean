import PasswordHook.Lib.Interleave
import PasswordHook.Middleware.Freshness

/-!
# Replays

Requests at the same time, each with its own readings of the clock.  A nonce stays in the store
until the clock has passed its timestamp by the TTL less the skew; up to then no other request with
that timestamp and nonce is forwarded (`no_replay`).  A request whose freshness was checked in time
can come to the store later than that, and then a replay is forwarded (`replay_forwarded`).
-/

namespace PasswordHook

open Prog

namespace HMAC

variable {m : HMAC} {mac : Bytes → Bytes → Bytes}

/-- The clock and the nonce store. -/
structure GateState where
  clock : Time
  store : MemoryNonceStore

/-- The answers to the calls of `Wrap`; what happens under the lock is one step. -/
def gateAnswer : (c : HmacCall) → GateState → c.Resp → GateState → Prop
  | .since, g, t, g' => t = g.clock ∧ g' = g
  | .useNow, g, t, g' => t = g.clock ∧ g' = g
  | .useLocked nonce ttl now, g, unused, g' =>
    unused = (g.store.use nonce ttl now).2 ∧ g' = ⟨g.clock, (g.store.use nonce ttl now).1⟩

variable (m mac) in
/-- Any number of requests; the threads for a request are its arrivals. -/
def gate : System HookRequest (fun _ => hmacInterface) (fun _ => Verdict) GateState where
  init g := g.store = .new
  spawn _ r p := p = m.wrap mac r
  call _ := gateAnswer
  env g g' := g.clock ≤ g'.clock ∧ g'.store = g.store

abbrev GateWorld := World (fun _ : HookRequest => hmacInterface) (fun _ => Verdict) GateState

abbrev GateLabel := Label (fun _ : HookRequest => hmacInterface) (fun _ => Verdict)

abbrev GateThread := Thread hmacInterface Verdict

/-- From the timestamp to the clock. -/
def age (timestamp : ℤ) (now : Time) : ℤ := now.nano - (Time.unix timestamp).nano

/-- `time.Since` does not saturate in the step. -/
def Unsaturated (_ : GateWorld) : GateLabel → Prop
  | .call r _ ⟨.since, now⟩ => ∀ timestamp, parseInt64 r.timestampHeader = some timestamp →
      minInt64 ≤ age timestamp now ∧ age timestamp now ≤ maxInt64
  | _ => True

variable (m) in
/-- A request that takes the lock does so while its nonce cannot have been dropped, and the age of
its timestamp is not the least `Duration` at the check. -/
def InTime (W : GateWorld) : GateLabel → Prop
  | .call r _ ⟨.useLocked _ _ _, _⟩ => ∀ timestamp, parseInt64 r.timestampHeader = some timestamp →
      age timestamp W.shared.clock ≤ m.nonceTTL - m.skew
  | .call r _ ⟨.since, now⟩ => ∀ timestamp, parseInt64 r.timestampHeader = some timestamp →
      age timestamp now ≠ minInt64
  | _ => True

variable (m) in
/-- The arrival was told that its nonce is unused. -/
def Admitted (W : GateWorld) (r : HookRequest) (i : ℕ) : Prop :=
  ∃ t u, W.pool r i = some t ∧ HmacEvent.used r.nonce m.nonceTTL u true ∈ t.past

/-- A call under the lock is the last of a run, after the two readings of the clock. -/
theorem exec_wrap_used {r : HookRequest} {τ : List HmacEvent} {verdict : Verdict} {nonce : Bytes}
    {ttl : ℤ} {u : Time} {unused : Bool} (h : Exec (m.wrap mac r) τ verdict)
    (he : HmacEvent.used nonce ttl u unused ∈ τ) :
    ∃ body timestamp c, m.Readable r body timestamp ∧ m.Passes mac r body timestamp c ∧
      τ = [.checked c, .read u, .used r.nonce m.nonceTTL u unused] ∧
      nonce = r.nonce ∧ ttl = m.nonceTTL := by
  rcases m.wrap_cases mac r with ⟨why, -, hwrap⟩ | ⟨body, timestamp, hread⟩
  · rw [hwrap] at h
    rw [(exec_ret_iff.1 h).1] at he
    exact absurd he List.not_mem_nil
  rw [hread.wrap_eq] at h
  obtain ⟨c, τ', rfl, hcases⟩ := exec_wrapParsed h
  have hshort : τ' ≠ [] := by
    rintro rfl
    exact absurd (congrArg Event.call (List.mem_singleton.1 he)) (by simp [HmacEvent.used,
      HmacEvent.checked])
  rcases hcases with ⟨-, hnil, -⟩ | ⟨-, -, hnil, -⟩ | ⟨-, -, hnil, -⟩ | ⟨hpass, -, t, ok, rfl, -⟩
  · exact absurd hnil hshort
  · exact absurd hnil hshort
  · exact absurd hnil hshort
  · simp only [List.mem_cons, List.not_mem_nil, or_false] at he
    rcases he with he | he | he <;> cases he
    exact ⟨body, timestamp, c, hread, hpass, rfl, rfl, rfl⟩

/-- An entry that is not too old for `Use` stays, and its nonce is not given out again. -/
theorem use_of_young {s : MemoryNonceStore} {key nonce : Bytes} {ttl : ℤ} {seen u : Time}
    (held : s.seenAt key = some seen) (ttl_pos : 0 < ttl) (young : u.nano - seen.nano ≤ ttl) :
    (s.use nonce ttl u).1.seenAt key = some seen ∧
    (key = nonce → (s.use nonce ttl u).2 = false) := by
  have hkeeps : MemoryNonceStore.keeps ttl u seen = true := by
    rw [MemoryNonceStore.keeps, decide_eq_true_eq, Time.sub]
    unfold minInt64 maxInt64
    split_ifs <;> omega
  have hswept : Expiry.sweep (MemoryNonceStore.keeps ttl) u s.seenAt key = some seen :=
    Expiry.sweep_eq_some.2 ⟨held, hkeeps⟩
  have hfails : key = nonce → (s.use nonce ttl u).2 = false := by
    rintro rfl
    exact Expiry.claim_snd_eq_false.2 ⟨seen, held, hkeeps⟩
  refine ⟨?_, hfails⟩
  by_cases hunused : (s.use nonce ttl u).2 = true
  · have hne : key ≠ nonce := by
      intro he
      rw [hfails he] at hunused
      exact absurd hunused (by decide)
    show (Expiry.claim _ s.seenAt u nonce).1 key = some seen
    rw [Expiry.claim_of_succeeded hunused, Function.update_of_ne hne, hswept]
  · show (Expiry.claim _ s.seenAt u nonce).1 key = some seen
    rw [Expiry.claim_of_failed (Bool.eq_false_iff.2 hunused), hswept]

theorem use_of_unused {s : MemoryNonceStore} {nonce : Bytes} {ttl : ℤ} {u : Time}
    (h : (s.use nonce ttl u).2 = true) : (s.use nonce ttl u).1.seenAt nonce = some u := by
  show (Expiry.claim _ s.seenAt u nonce).1 nonce = some u
  rw [Expiry.claim_of_succeeded h, Function.update_self]

/-! ## The invariant -/

section Invariant

variable {W W' : GateWorld} {ℓ : GateLabel}

variable (m mac) in
/-- What holds in every world of a run whose steps are in time. -/
structure Guarded (W : GateWorld) : Prop where
  threads : W.Threaded
  start : ∀ r i (t : GateThread), W.pool r i = some t → t.start = m.wrap mac r
  checked : ∀ r i (t : GateThread), W.pool r i = some t → ∀ c, HmacEvent.checked c ∈ t.past →
    c ≤ W.shared.clock ∧ ∀ timestamp, parseInt64 r.timestampHeader = some timestamp →
      minInt64 < age timestamp c ∧ age timestamp c ≤ maxInt64
  read : ∀ r i (t : GateThread), W.pool r i = some t → ∀ u, HmacEvent.read u ∈ t.past →
    u ≤ W.shared.clock
  ordered : ∀ r i (t : GateThread), W.pool r i = some t → ∀ c u τ,
    t.past = HmacEvent.checked c :: HmacEvent.read u :: τ → c ≤ u
  held : ∀ r i, m.Admitted W r i → ∀ timestamp, parseInt64 r.timestampHeader = some timestamp →
    m.nonceTTL - m.skew < age timestamp W.shared.clock ∨
      ∃ seen, W.shared.store.seenAt r.nonce = some seen ∧ -m.skew ≤ age timestamp seen
  single : ∀ r i r' i', m.Admitted W r i → m.Admitted W r' i' →
    r.timestampHeader = r'.timestampHeader → r.nonce = r'.nonce → r = r' ∧ i = i'

theorem clock_le (h : Step (m.gate mac) W ℓ W') : W.shared.clock ≤ W'.shared.clock := by
  cases h with
  | spawn free allowed => exact le_rfl
  | @call r i t c f resp g thread next answer =>
    cases c with
    | since => rw [World.setThread_shared, answer.2]
    | useNow => rw [World.setThread_shared, answer.2]
    | useLocked nonce ttl now => rw [World.setThread_shared, answer.2]
  | env change => exact change.1

/-- The store changes only under the lock. -/
theorem store_cases (h : Step (m.gate mac) W ℓ W') :
    W'.shared.store = W.shared.store ∨ ∃ r i t nonce ttl now f, W.pool r i = some t ∧
      t.rest = .call (.useLocked nonce ttl now) f ∧
      ℓ = .call r i (HmacEvent.used nonce ttl now (W.shared.store.use nonce ttl now).2) ∧
      W'.shared = ⟨W.shared.clock, (W.shared.store.use nonce ttl now).1⟩ := by
  cases h with
  | spawn free allowed => exact .inl rfl
  | @call r i t c f resp g thread next answer =>
    cases c with
    | since => exact .inl (congrArg GateState.store answer.2)
    | useNow => exact .inl (congrArg GateState.store answer.2)
    | useLocked nonce ttl now =>
      refine .inr ⟨r, i, t, nonce, ttl, now, f, thread, next, ?_, answer.2⟩
      rw [← answer.1]
      rfl
  | env change => exact .inl change.2

/-- Where a thread stands that is about to take the lock. -/
theorem Guarded.about_to_use (hW : Guarded m mac W) {r : HookRequest} {i : ℕ} {t : GateThread}
    (ht : W.pool r i = some t) {nonce : Bytes} {ttl : ℤ} {u : Time} {f : Bool → HmacProg Verdict}
    (next : t.rest = .call (.useLocked nonce ttl u) f) :
    nonce = r.nonce ∧ ttl = m.nonceTTL ∧ u ≤ W.shared.clock ∧
      ∃ timestamp, parseInt64 r.timestampHeader = some timestamp ∧ -m.skew ≤ age timestamp u := by
  have hsteps := hW.threads r i t ht
  rw [hW.start r i t ht, next] at hsteps
  have resp : ∀ c : hmacInterface.Call, Nonempty (hmacInterface.Resp c) := by
    intro c
    cases c with
    | since => exact ⟨Time.zero⟩
    | useNow => exact ⟨Time.zero⟩
    | useLocked nonce ttl now => exact ⟨true⟩
  obtain ⟨τ, verdict, hexec⟩ := (hsteps.snoc true).exists_exec resp
  have hmem :
      HmacEvent.used nonce ttl u true ∈ t.past ++ [⟨.useLocked nonce ttl u, true⟩] ++ τ := by
    simp [HmacEvent.used]
  obtain ⟨body, timestamp, c, hread, hpass, htrace, rfl, rfl⟩ := exec_wrap_used hexec hmem
  -- the two readings of the clock come first
  have hpast : t.past = [HmacEvent.checked c, HmacEvent.read u] := by
    rcases hp : t.past with _ | ⟨e₁, _ | ⟨e₂, _ | ⟨e₃, past⟩⟩⟩ <;> rw [hp] at htrace
    · cases (List.cons.inj htrace).1
    · cases (List.cons.inj (List.cons.inj htrace).2).1
    · obtain ⟨rfl, hrest⟩ := List.cons.inj htrace
      rw [(List.cons.inj hrest).1]
    · have := congrArg List.length htrace
      simp at this
  have hcu : c ≤ u := hW.ordered r i t ht c u [] hpast
  obtain ⟨-, hclose⟩ := hW.checked r i t ht c (by simp [hpast])
  refine ⟨rfl, rfl, hW.read r i t ht u (by simp [hpast]), timestamp, hread.parsed, ?_⟩
  obtain ⟨hlow, hhigh⟩ := hclose timestamp hread.parsed
  rw [Time.le_def] at hcu
  have hfresh := (fresh_iff (m := m) (d := age timestamp c) rfl).1 hpass.fresh
  have habs := abs_cases (age timestamp c)
  have hskew := m.skew_le
  have hage : age timestamp u = age timestamp c + (u.nano - c.nano) := by
    unfold age
    omega
  omega

theorem admitted_step (h : Step (m.gate mac) W ℓ W') {r : HookRequest} {i : ℕ}
    (ha : m.Admitted W' r i) : m.Admitted W r i ∨ ∃ t u f, W.pool r i = some t ∧
      t.rest = .call (.useLocked r.nonce m.nonceTTL u) f ∧
      ℓ = .call r i (HmacEvent.used r.nonce m.nonceTTL u true) ∧
      (W.shared.store.use r.nonce m.nonceTTL u).2 = true ∧
      W'.shared = ⟨W.shared.clock, (W.shared.store.use r.nonce m.nonceTTL u).1⟩ := by
  obtain ⟨t, u, ht, hmem⟩ := ha
  rcases h.pool_cases ht with ⟨hp, -, -, -⟩ | ⟨t₀, c, f, resp, h₀, hnext, hlabel, answer, rfl⟩ | h₀
  · rw [hp] at hmem
    exact absurd hmem List.not_mem_nil
  · rcases List.mem_append.1 hmem with hmem | hmem
    · exact .inl ⟨t₀, u, h₀, hmem⟩
    · cases List.mem_singleton.1 hmem
      exact .inr ⟨t₀, u, f, h₀, hnext, hlabel, answer.1.symm, answer.2⟩
  · exact .inl ⟨t, u, h₀, hmem⟩

/-- The nonce of an admitted arrival stays in the store until the clock has passed its window. -/
theorem Guarded.held_step (hW : Guarded m mac W) (h : Step (m.gate mac) W ℓ W') {r : HookRequest}
    {i : ℕ} (ha : m.Admitted W' r i) {timestamp : ℤ}
    (hparsed : parseInt64 r.timestampHeader = some timestamp) :
    m.nonceTTL - m.skew < age timestamp W'.shared.clock ∨
      ∃ seen, W'.shared.store.seenAt r.nonce = some seen ∧ -m.skew ≤ age timestamp seen := by
  have hclock := clock_le h
  rw [Time.le_def] at hclock
  rcases admitted_step h ha with hold | ⟨t, u, f, ht, hnext, -, hunused, hshared⟩
  · rcases hW.held r i hold timestamp hparsed with hpassed | ⟨seen, hseen, hage⟩
    · left
      unfold age at hpassed ⊢
      omega
    rcases store_cases h with hstore | ⟨r', i', t', nonce, ttl, now, f, ht', hnext, -, hshared⟩
    · exact .inr ⟨seen, by rw [hstore, hseen], hage⟩
    · obtain ⟨rfl, rfl, hnow, -⟩ := hW.about_to_use ht' hnext
      rw [Time.le_def] at hnow
      -- `Use` drops the entry only when the window has passed
      by_cases hyoung : now.nano - seen.nano ≤ m.nonceTTL
      · rw [hshared]
        exact .inr ⟨seen, (use_of_young hseen m.nonceTTL_pos hyoung).1, hage⟩
      · left
        unfold age at hage ⊢
        omega
  · obtain ⟨-, -, -, timestamp', hparsed', hage⟩ := hW.about_to_use ht hnext
    rw [hparsed, Option.some_inj] at hparsed'
    rw [hshared, hparsed']
    exact .inr ⟨u, use_of_unused hunused, hage⟩

/-- No arrival is admitted while another one with its timestamp and nonce holds the nonce. -/
theorem Guarded.not_admitted_twice (hW : Guarded m mac W) (inTime : InTime m W ℓ)
    {r r' : HookRequest} {i i' : ℕ} {u : Time} (ha : m.Admitted W r i)
    (label : ℓ = .call r' i' (HmacEvent.used r'.nonce m.nonceTTL u true))
    (early : u ≤ W.shared.clock) (header : r.timestampHeader = r'.timestampHeader)
    (nonce : r.nonce = r'.nonce) {timestamp : ℤ}
    (hparsed : parseInt64 r.timestampHeader = some timestamp) :
    (W.shared.store.use r'.nonce m.nonceTTL u).2 = false := by
  rw [label] at inTime
  have hwindow := inTime timestamp (by rw [← header]; exact hparsed)
  rw [Time.le_def] at early
  rcases hW.held r i ha timestamp hparsed with hpassed | ⟨seen, hseen, hage⟩
  · exact absurd hwindow (not_le.2 hpassed)
  · apply (use_of_young hseen m.nonceTTL_pos _).2 nonce
    unfold age at hage hwindow
    omega

theorem Guarded.single_step (hW : Guarded m mac W) (inTime : InTime m W ℓ)
    (h : Step (m.gate mac) W ℓ W') {r r' : HookRequest} {i i' : ℕ} (ha : m.Admitted W' r i)
    (ha' : m.Admitted W' r' i') (header : r.timestampHeader = r'.timestampHeader)
    (nonce : r.nonce = r'.nonce) : r = r' ∧ i = i' := by
  rcases admitted_step h ha with hold | ⟨t, u, f, ht, hnext, hlabel, hunused, -⟩
  · rcases admitted_step h ha' with hold' | ⟨t', u', f', ht', hnext', hlabel', hunused', -⟩
    · exact hW.single r i r' i' hold hold' header nonce
    · obtain ⟨-, -, early, timestamp, hparsed, -⟩ := hW.about_to_use ht' hnext'
      rw [← header] at hparsed
      rw [hW.not_admitted_twice inTime hold hlabel' early header nonce hparsed] at hunused'
      exact absurd hunused' (by decide)
  · rcases admitted_step h ha' with hold' | ⟨t', u', f', ht', hnext', hlabel', hunused', -⟩
    · obtain ⟨-, -, early, timestamp, hparsed, -⟩ := hW.about_to_use ht hnext
      rw [header] at hparsed
      rw [hW.not_admitted_twice inTime hold' hlabel early header.symm nonce.symm hparsed] at hunused
      exact absurd hunused (by decide)
    · rw [hlabel] at hlabel'
      injection hlabel' with hr hi
      exact ⟨hr, hi⟩

theorem guarded_init (g : GateState) : Guarded m mac ⟨g, fun _ _ => none⟩ where
  threads _ _ _ ht := absurd ht (by simp)
  start _ _ _ ht := absurd ht (by simp)
  checked _ _ _ ht := absurd ht (by simp)
  read _ _ _ ht := absurd ht (by simp)
  ordered _ _ _ ht := absurd ht (by simp)
  held _ _ ha := by
    obtain ⟨t, u, ht, -⟩ := ha
    exact absurd ht (by simp)
  single _ _ _ _ ha := by
    obtain ⟨t, u, ht, -⟩ := ha
    exact absurd ht (by simp)

theorem Guarded.step (hW : Guarded m mac W) (unsaturated : Unsaturated W ℓ) (inTime : InTime m W ℓ)
    (h : Step (m.gate mac) W ℓ W') : Guarded m mac W' where
  threads := hW.threads.step h
  start r i t ht := by
    rcases h.pool_cases ht with ⟨-, -, -, hspawn⟩ | ⟨t₀, c, f, resp, h₀, -, -, -, rfl⟩ | h₀
    · exact hspawn
    · exact hW.start r i t₀ h₀
    · exact hW.start r i t h₀
  checked r i t ht c hmem := by
    have keep : ∀ {t₀ : GateThread}, W.pool r i = some t₀ → HmacEvent.checked c ∈ t₀.past → _ :=
      fun h₀ hmem₀ => (hW.checked r i _ h₀ c hmem₀).imp_left (·.trans (clock_le h))
    rcases h.pool_cases ht with ⟨hp, -, -, -⟩ | ⟨t₀, e, f, resp, h₀, -, hlabel, answer, rfl⟩ | h₀
    · rw [hp] at hmem
      exact absurd hmem List.not_mem_nil
    · rcases List.mem_append.1 hmem with hmem | hmem
      · exact keep h₀ hmem
      · cases List.mem_singleton.1 hmem
        refine ⟨by rw [answer.2, answer.1], fun timestamp hparsed => ?_⟩
        rw [hlabel] at unsaturated inTime
        obtain ⟨hlow, hhigh⟩ := unsaturated timestamp hparsed
        exact ⟨lt_of_le_of_ne hlow (inTime timestamp hparsed).symm, hhigh⟩
    · exact keep h₀ hmem
  read r i t ht u hmem := by
    rcases h.pool_cases ht with ⟨hp, -, -, -⟩ | ⟨t₀, e, f, resp, h₀, -, hlabel, answer, rfl⟩ | h₀
    · rw [hp] at hmem
      exact absurd hmem List.not_mem_nil
    · rcases List.mem_append.1 hmem with hmem | hmem
      · exact (hW.read r i t₀ h₀ u hmem).trans (clock_le h)
      · cases List.mem_singleton.1 hmem
        rw [answer.2, answer.1]
    · exact (hW.read r i t h₀ u hmem).trans (clock_le h)
  ordered r i t ht c u τ hpast := by
    rcases h.pool_cases ht with ⟨hp, -, -, -⟩ | ⟨t₀, e, f, resp, h₀, -, hlabel, answer, rfl⟩ | h₀
    · rw [hp] at hpast
      exact absurd hpast (by simp)
    · rcases hp : t₀.past with _ | ⟨e₁, _ | ⟨e₂, past⟩⟩ <;> simp only [hp] at hpast
      · exact absurd (congrArg List.length hpast) (by simp)
      -- the thread has just read the clock, which its check had read before
      · obtain ⟨rfl, hrest⟩ := List.cons.inj hpast
        cases (List.cons.inj hrest).1
        rw [answer.1]
        exact (hW.checked r i t₀ h₀ c (by simp [hp])).1
      · obtain ⟨rfl, hrest⟩ := List.cons.inj hpast
        obtain ⟨rfl, -⟩ := List.cons.inj hrest
        exact hW.ordered r i t₀ h₀ c u past hp
    · exact hW.ordered r i t h₀ c u τ hpast
  held r i ha timestamp hparsed := hW.held_step h ha hparsed
  single r i r' i' ha ha' := hW.single_step inTime h ha ha'

/-- A request that is forwarded has been told that its nonce is unused. -/
theorem Guarded.admitted (hW : Guarded m mac W) (nonces : m.nonces = true) {r : HookRequest} {i : ℕ}
    {t : GateThread} {body : Bytes} (ht : W.pool r i = some t)
    (forwarded : t.rest = .ret (.forwarded body)) : m.Admitted W r i := by
  have hexec := hW.threads r i t ht
  rw [hW.start r i t ht, forwarded] at hexec
  rcases m.wrap_cases mac r with ⟨why, -, hwrap⟩ | ⟨body', timestamp, hread⟩
  · rw [hwrap] at hexec
    exact absurd (exec_ret_iff.1 hexec).2 (by simp)
  rw [hread.wrap_eq] at hexec
  obtain ⟨c, τ, hpast, hcases⟩ := exec_wrapParsed hexec
  rcases hcases with ⟨-, -, hv⟩ | ⟨-, -, -, hv⟩ | ⟨-, hnone, -⟩ | ⟨-, -, u, unused, rfl, hv⟩
  · exact absurd hv (by simp)
  · exact absurd hv (by simp)
  · rw [nonces] at hnone
    exact absurd hnone (by decide)
  · cases unused with
    | false => exact absurd hv (by simp)
    | true => exact ⟨t, u, ht, by simp [hpast]⟩

/-- A run whose steps are in time forwards no two requests with one timestamp and nonce. -/
theorem no_replay (nonces : m.nonces = true)
    (h : Reach (m.gate mac) (fun W ℓ => Unsaturated W ℓ ∧ InTime m W ℓ) W) {r r' : HookRequest}
    {i i' : ℕ} {t t' : GateThread} {body body' : Bytes} (ht : W.pool r i = some t)
    (ht' : W.pool r' i' = some t') (forwarded : t.rest = .ret (.forwarded body))
    (forwarded' : t'.rest = .ret (.forwarded body'))
    (header : r.timestampHeader = r'.timestampHeader) (nonce : r.nonce = r'.nonce) :
    r = r' ∧ i = i' := by
  have hW : Guarded m mac W := h.invariant (fun g _ => guarded_init g)
    fun _ _ _ hW hC hs => hW.step hC.1 hC.2 hs
  exact hW.single r i r' i' (hW.admitted nonces ht forwarded) (hW.admitted nonces ht' forwarded')
    header nonce

end Invariant

/-! ## Runs -/

section Runs

variable {W : GateWorld} {C : GateWorld → GateLabel → Prop} {r : HookRequest} {i : ℕ} {body : Bytes}
  {timestamp : ℤ}

/-- An arrival comes to its freshness check. -/
theorem reach_checked (h : Reach (m.gate mac) C W) (free : W.pool r i = none)
    (readable : m.Readable r body timestamp) (starts : C W (.spawn r i (m.wrap mac r)))
    (meets : ∀ W' : GateWorld, W'.shared = W.shared →
      C W' (.call r i (HmacEvent.checked W.shared.clock))) :
    ∃ W', Reach (m.gate mac) C W' ∧ W'.shared = W.shared ∧
      W'.pool r i = some ⟨m.wrap mac r, [HmacEvent.checked W.shared.clock],
        m.wrapChecked mac r body timestamp W.shared.clock⟩ ∧ W.SameBut W' r i := by
  have hspawn := h.step starts (Step.spawn free rfl)
  have hnext : m.wrap mac r = .call .since fun now => m.wrapChecked mac r body timestamp now := by
    rw [readable.wrap_eq]
    rfl
  have hanswer : gateAnswer .since W.shared W.shared.clock W.shared := ⟨rfl, rfl⟩
  refine ⟨_,
    hspawn.step (meets _ rfl) (Step.call (World.setThread_pool_self _ _ _ _) hnext hanswer), rfl,
    World.setThread_pool_self _ _ _ _, fun r' i' hne => ?_⟩
  rw [World.setThread_pool_of_ne _ _ hne]
  exact World.setThread_pool_of_ne _ _ hne

/-- An arrival that has passed comes to the store. -/
theorem reach_used (h : Reach (m.gate mac) C W) {start : HmacProg Verdict} {past : List HmacEvent}
    {c : Time} (thread : W.pool r i = some ⟨start, past, m.wrapChecked mac r body timestamp c⟩)
    (passes : m.Passes mac r body timestamp c) (nonces : m.nonces = true) {unused : Bool}
    (answer : unused = (W.shared.store.use r.nonce m.nonceTTL W.shared.clock).2)
    (meets : ∀ W' : GateWorld, W'.shared = W.shared →
      C W' (.call r i (HmacEvent.read W.shared.clock)) ∧
      C W' (.call r i (HmacEvent.used r.nonce m.nonceTTL W.shared.clock unused))) :
    ∃ W' past', Reach (m.gate mac) C W' ∧
      W'.shared = ⟨W.shared.clock, (W.shared.store.use r.nonce m.nonceTTL W.shared.clock).1⟩ ∧
      W'.pool r i = some ⟨start, past', .ret (if unused then .forwarded body
        else .rejected .replay)⟩ ∧ W.SameBut W' r i := by
  have hnext : m.wrapChecked mac r body timestamp c = .call .useNow fun now =>
      .call (.useLocked r.nonce m.nonceTTL now) fun (unused : Bool) =>
        .ret (if unused then .forwarded body else .rejected .replay) := by
    rw [wrapChecked, if_pos passes.fresh, if_pos passes.signed, if_pos nonces]
    rfl
  have hread : gateAnswer .useNow W.shared W.shared.clock W.shared := ⟨rfl, rfl⟩
  have hused : gateAnswer (.useLocked r.nonce m.nonceTTL W.shared.clock) W.shared unused
      ⟨W.shared.clock, (W.shared.store.use r.nonce m.nonceTTL W.shared.clock).1⟩ := ⟨answer, rfl⟩
  have hfirst := h.step (meets W rfl).1 (Step.call thread hnext hread)
  refine ⟨_, _, hfirst.step ?_ (Step.call (World.setThread_pool_self _ _ _ _) rfl hused), rfl,
    World.setThread_pool_self _ _ _ _, fun r' i' hne => ?_⟩
  · exact (meets (World.setThread _ _ _ _) rfl).2
  · rw [World.setThread_pool_of_ne _ _ hne]
    exact World.setThread_pool_of_ne _ _ hne

/-- An arrival passes and comes to the store, with no time in between. -/
theorem reach_wrap (h : Reach (m.gate mac) C W) (free : W.pool r i = none)
    (readable : m.Readable r body timestamp) (passes : m.Passes mac r body timestamp W.shared.clock)
    (nonces : m.nonces = true) {unused : Bool}
    (answer : unused = (W.shared.store.use r.nonce m.nonceTTL W.shared.clock).2)
    (starts : C W (.spawn r i (m.wrap mac r)))
    (meets : ∀ W' : GateWorld, W'.shared = W.shared →
      C W' (.call r i (HmacEvent.checked W.shared.clock)) ∧
      C W' (.call r i (HmacEvent.read W.shared.clock)) ∧
      C W' (.call r i (HmacEvent.used r.nonce m.nonceTTL W.shared.clock unused))) :
    ∃ W' past', Reach (m.gate mac) C W' ∧
      W'.shared = ⟨W.shared.clock, (W.shared.store.use r.nonce m.nonceTTL W.shared.clock).1⟩ ∧
      W'.pool r i = some ⟨m.wrap mac r, past', .ret (if unused then .forwarded body
        else .rejected .replay)⟩ ∧ W.SameBut W' r i := by
  obtain ⟨W₁, h₁, hs₁, ht₁, hf₁⟩ := reach_checked h free readable starts
    fun W' hW' => (meets W' hW').1
  rw [← hs₁] at passes answer meets ⊢
  obtain ⟨W₂, past₂, h₂, hs₂, ht₂, hf₂⟩ := reach_used h₁ (hs₁ ▸ ht₁) passes nonces answer
    fun W' hW' => (meets W' hW').2
  exact ⟨W₂, past₂, h₂, hs₂, ht₂, fun r' i' hne => (hf₂ r' i' hne).trans (hf₁ r' i' hne)⟩

/-- Time passes. -/
theorem reach_later (h : Reach (m.gate mac) C W) {clock : Time} (later : W.shared.clock ≤ clock)
    (meets : C W .env) : Reach (m.gate mac) C ⟨⟨clock, W.shared.store⟩, W.pool⟩ :=
  h.step meets (Step.env ⟨later, rfl⟩)

end Runs

/-! ## A request and its replay -/

def sampleHookRequest : HookRequest :=
  sample.portalRequest sampleMac (bytesOf "1764403200") (bytesOf "n1") (bytesOf "body")

theorem readable_sampleHookRequest :
    sample.Readable sampleHookRequest (bytesOf "body") 1764403200 :=
  readable_portalRequest (by decide) (by decide) (by decide +kernel) (by decide)

/-- The clock, so many nanoseconds after the timestamp. -/
def sampleAfter (d : ℤ) : Time := (Time.unix 1764403200).add d

theorem age_sampleAfter {timestamp : ℤ}
    (h : parseInt64 sampleHookRequest.timestampHeader = some timestamp) (d : ℤ) :
    age timestamp (sampleAfter d) = d := by
  rw [readable_sampleHookRequest.parsed, Option.some_inj] at h
  rw [← h, age, sampleAfter, Time.add]
  exact add_sub_cancel_left _ d

theorem passes_sampleHookRequest {d : ℤ} (fresh : sample.fresh (sampleAfter d) 1764403200 = true) :
    sample.Passes sampleMac sampleHookRequest (bytesOf "body") 1764403200 (sampleAfter d) :=
  passes_portalRequest fresh

/-- What the sample request meets when it is checked and used so long after its timestamp. -/
theorem meets_sampleHookRequest {d : ℤ} (low : minInt64 < d)
    (high : d ≤ sample.nonceTTL - sample.skew) {W : GateWorld}
    (clock : W.shared.clock = sampleAfter d) (i : ℕ) (unused : Bool) :
    let C := fun (W : GateWorld) ℓ => Unsaturated W ℓ ∧ InTime sample W ℓ
    C W (.call sampleHookRequest i (HmacEvent.checked (sampleAfter d))) ∧
    C W (.call sampleHookRequest i (HmacEvent.read (sampleAfter d))) ∧
    C W (.call sampleHookRequest i (HmacEvent.used sampleHookRequest.nonce sample.nonceTTL
      (sampleAfter d) unused)) := by
  have hbound : sample.nonceTTL - sample.skew ≤ maxInt64 := by decide
  refine ⟨⟨fun timestamp parsed => ?_, fun timestamp parsed => ?_⟩, ⟨trivial, trivial⟩, trivial,
    fun timestamp parsed => ?_⟩
  · rw [age_sampleAfter parsed]
    exact ⟨low.le, high.trans hbound⟩
  · rw [age_sampleAfter parsed]
    exact low.ne'
  · rw [clock, age_sampleAfter parsed]
    exact high

/-- The nonce store once the request was used 30 seconds before its timestamp. -/
def sampleStore : MemoryNonceStore :=
  (MemoryNonceStore.new.use sampleHookRequest.nonce sample.nonceTTL (sampleAfter (-30 * second))).1

/-- The request is forwarded 30 seconds before its timestamp, and a minute passes. -/
theorem reach_sampleStore : ∃ (W : GateWorld) (past : List HmacEvent),
    Reach (sample.gate sampleMac) (fun W ℓ => Unsaturated W ℓ ∧ InTime sample W ℓ) W ∧
    W.shared = ⟨sampleAfter (30 * second), sampleStore⟩ ∧
    W.pool sampleHookRequest 0 = some ⟨sample.wrap sampleMac sampleHookRequest, past,
      .ret (.forwarded (bytesOf "body"))⟩ ∧ W.pool sampleHookRequest 1 = none := by
  have hinit : Reach (sample.gate sampleMac) (fun W ℓ => Unsaturated W ℓ ∧ InTime sample W ℓ)
      ⟨⟨sampleAfter (-30 * second), .new⟩, fun _ _ => none⟩ := .init rfl
  have hunused : true = (MemoryNonceStore.new.use sampleHookRequest.nonce sample.nonceTTL
      (sampleAfter (-30 * second))).2 := by decide +kernel
  obtain ⟨W, past, h, hs, ht, hf⟩ := reach_wrap (i := 0) hinit rfl readable_sampleHookRequest
    (passes_sampleHookRequest (by decide +kernel)) rfl hunused ⟨trivial, trivial⟩ fun W' hW' =>
      meets_sampleHookRequest (by decide) (by decide) (congrArg GateState.clock hW') 0 true
  have hlater : W.shared.clock ≤ sampleAfter (30 * second) := by
    rw [hs]
    decide
  refine ⟨_, past, reach_later h hlater ⟨trivial, trivial⟩, ?_, ht, hf _ 1 (by simp)⟩
  exact congrArg (GateState.mk _) (congrArg GateState.store hs)

/-- The replay comes to the store while the nonce is kept. -/
theorem no_replay_sample : ∃ W : GateWorld,
    Reach (sample.gate sampleMac) (fun W ℓ => Unsaturated W ℓ ∧ InTime sample W ℓ) W ∧
    (∃ t, W.pool sampleHookRequest 0 = some t ∧ t.rest = .ret (.forwarded (bytesOf "body"))) ∧
    (∃ t, W.pool sampleHookRequest 1 = some t ∧ t.rest = .ret (.rejected .replay)) ∧
    ∀ i t, W.pool sampleHookRequest i = some t → t.rest = .ret (.forwarded (bytesOf "body")) →
      i = 0 := by
  obtain ⟨W₁, past, h₁, hs₁, ht₁, hfree⟩ := reach_sampleStore
  have hclock : W₁.shared.clock = sampleAfter (30 * second) := congrArg GateState.clock hs₁
  have hused : false = (W₁.shared.store.use sampleHookRequest.nonce sample.nonceTTL
      W₁.shared.clock).2 := by
    rw [hs₁]
    decide +kernel
  obtain ⟨W, past', h, hs, ht, hf⟩ := reach_wrap (i := 1) h₁ hfree readable_sampleHookRequest
    (hclock ▸ passes_sampleHookRequest (by decide +kernel)) rfl hused ⟨trivial, trivial⟩
    fun W' hW' => hclock ▸ meets_sampleHookRequest (by decide) (by decide)
      ((congrArg GateState.clock hW').trans hclock) 1 false
  have ht₀ := (hf sampleHookRequest 0 (by simp)).trans ht₁
  refine ⟨W, h, ⟨_, ht₀, rfl⟩, ⟨_, ht, rfl⟩, fun i t hi forwarded => ?_⟩
  exact (no_replay rfl h hi ht₀ forwarded rfl rfl rfl).2

/-- A request is used 30 seconds before its timestamp; its replay is checked 30 seconds after the
timestamp, comes to the store a nanosecond later, and is forwarded. -/
theorem replay_forwarded : sample.nonceTTL = 2 * sample.skew ∧ ∃ W : GateWorld,
    Reach (sample.gate sampleMac) Unsaturated W ∧ ∃ t t' : GateThread,
      W.pool sampleHookRequest 0 = some t ∧ W.pool sampleHookRequest 1 = some t' ∧
      t.rest = .ret (.forwarded (bytesOf "body")) ∧
      t'.rest = .ret (.forwarded (bytesOf "body")) := by
  refine ⟨by decide, ?_⟩
  obtain ⟨W₁, past, h₁, hs₁, ht₁, hfree⟩ := reach_sampleStore
  have hclock : W₁.shared.clock = sampleAfter (30 * second) := congrArg GateState.clock hs₁
  have hweak := h₁.mono fun _ _ hC => hC.1
  obtain ⟨W₂, h₂, hs₂, ht₂, hf₂⟩ := reach_checked (i := 1) hweak hfree readable_sampleHookRequest
    trivial fun W' hW' => hclock ▸ (meets_sampleHookRequest (by decide) (by decide)
      ((congrArg GateState.clock hW').trans hclock) 1 true).1.1
  have hlater : W₂.shared.clock ≤ sampleAfter (30 * second + 1) := by
    rw [hs₂, hs₁]
    decide
  have h₃ := reach_later h₂ hlater trivial
  have hevicted : true = (W₂.shared.store.use sampleHookRequest.nonce sample.nonceTTL
      (sampleAfter (30 * second + 1))).2 := by
    rw [hs₂, hs₁]
    decide +kernel
  obtain ⟨W, past', h, -, ht, hf⟩ := reach_used h₃ ht₂
    (hclock ▸ passes_sampleHookRequest (by decide +kernel)) rfl hevicted
    fun _ _ => ⟨trivial, trivial⟩
  have ht₀ : W.pool sampleHookRequest 0 = _ :=
    (hf _ 0 (by simp)).trans ((hf₂ _ 0 (by simp)).trans ht₁)
  exact ⟨W, h, _, _, ht₀, ht, rfl, rfl⟩

end HMAC

end PasswordHook
