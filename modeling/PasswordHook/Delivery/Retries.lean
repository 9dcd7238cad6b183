import PasswordHook.Delivery.Upsert
import PasswordHook.Worker.Shutdown

/-!
# The retry policy

Over a script, the worker attempts a message until an attempt succeeds or fails for good, sleeps its
backoffs in between, and settles the message by the verdict of the last attempt (`retry_policy`).
-/

namespace PasswordHook

open Prog

/-! ## Views of the log -/

/-- The number of an attempt, at its decryption. -/
def attemptsSeen (n : ℕ) : SyncCall → Option ℕ
  | .worker (.decrypt _ _) => some n
  | _ => none

def sleepsSeen (_ : ℕ) : SyncCall → Option ℤ
  | .worker (.sleep delay) => some delay
  | _ => none

def deadLettersSeen (_ : ℕ) : SyncCall → Option DeadLetterEntry
  | .worker (.recordPasswordSyncFailure entry) => some entry
  | _ => none

def syncedSeen (_ : ℕ) : SyncCall → Option (String × Time)
  | .worker (.markSynced upn t) => some (upn, t)
  | _ => none

/-- A view that finds nothing in the calls of an attempt. -/
structure ReadsSettlement {β : Type} (f : ℕ → SyncCall → Option β) : Prop where
  processor : ReadsWorker f
  decrypt : ∀ n env aad, f n (.worker (.decrypt env aad)) = none
  zeroPlaintext : ∀ n, f n (.worker .zeroPlaintext) = none
  sleep : ∀ n delay, f n (.worker (.sleep delay)) = none

theorem readsSettlement_deadLettersSeen : ReadsSettlement deadLettersSeen :=
  ⟨fun _ _ => rfl, fun _ _ _ => rfl, fun _ => rfl, fun _ _ => rfl⟩

theorem readsSettlement_syncedSeen : ReadsSettlement syncedSeen :=
  ⟨fun _ _ => rfl, fun _ _ _ => rfl, fun _ => rfl, fun _ _ => rfl⟩

theorem view_start {β : Type} (f : ℕ → SyncCall → Option β) : Bench.start.view f = [] := rfl

theorem view_after_none {β : Type} {f : ℕ → SyncCall → Option β} {s : Bench} {c : SyncCall}
    (h : f (s.attemptOf c) c = none) : (s.after c).view f = s.view f := by
  rw [Bench.view_after, h]
  exact List.append_nil _

theorem view_after_some {β : Type} {f : ℕ → SyncCall → Option β} {s : Bench} {c : SyncCall} {b : β}
    (h : f (s.attemptOf c) c = some b) : (s.after c).view f = s.view f ++ [b] := by
  rw [Bench.view_after, h]
  rfl

section Worker

variable {script : ℕ → AttemptScript} {password : Bytes} {E : Surroundings} {client : GraphClient}
  {α : Type}

/-- A program of the worker on the bench. -/
def runWorker (script : ℕ → AttemptScript) (password : Bytes) (E : Surroundings)
    (client : GraphClient) (p : WorkerProg α) (s : Bench) : Bench × α :=
  p.runWith (fun c => (onGraph client c).runWith (scripted script password E)) s

theorem runWorker_bind {β : Type} (p : WorkerProg α) (f : α → WorkerProg β) (s : Bench) :
    runWorker script password E client (p.bind f) s =
      runWorker script password E client (f (runWorker script password E client p s).2)
        (runWorker script password E client p s).1 :=
  runWith_bind _ p f s

theorem benchRun_eq (J : Json) (w : Worker) (msg : Option MessagePtr) :
    benchRun script password E J w client msg =
      (runWorker script password E client (processMessage J w msg) .start).1 :=
  congrArg Prod.fst (runWith_interp _ _ (processMessage J w msg) Bench.start)

theorem runWorker_call {c : WorkerCall} {k : c.Resp → WorkerProg α} {s : Bench}
    {r : Bench × c.Resp} (h : (onGraph client c).runWith (scripted script password E) s = r) :
    runWorker script password E client (.call c k) s =
      runWorker script password E client (k r.2) r.1 := by
  show runWorker script password E client (k ((onGraph client c).runWith _ s).2)
    ((onGraph client c).runWith _ s).1 = _
  rw [h]

/-! ## One pass through the loop -/

/-- The bench when the password of a message has been decrypted. -/
def Bench.decrypted (s : Bench) (m : PasswordSyncMessage) : Bench :=
  s.after (.worker (.decrypt (envelopeOf m) (passwordAAD m.cn m.upn m.enqueuedAt)))

/-- The bench after an attempt, up to the return of the processor, and what that returned. -/
def attemptedBench (script : ℕ → AttemptScript) (password : Bytes) (E : Surroundings)
    (client : GraphClient) (m : PasswordSyncMessage) (s : Bench) : Bench × Option Err :=
  let r := runProcessor script E (Processor.processPasswordSync client (commandOf m password))
    (s.decrypted m)
  (r.1.after (.worker .zeroPlaintext), r.2)

/-- The requests of the attempts at a message. -/
def requestsFrom (script : ℕ → AttemptScript) (client : GraphClient) (m : PasswordSyncMessage)
    (password : Bytes) (i : ℕ) : List (GraphMethod × String × Bytes) :=
  (script i).requests client ⟨m.upn, m.displayName, m.mail⟩ password

/-- What attempts leave on the bench: the numbers of the attempts and the delays between them. -/
structure Attempted (requests : ℕ → List (GraphMethod × String × Bytes)) (s s' : Bench)
    (numbers : List ℕ) (delays : List ℤ) : Prop where
  attempt : s'.attempt = s.attempt + numbers.length
  attempts : s'.view attemptsSeen = s.view attemptsSeen ++ numbers
  sleeps : s'.view sleepsSeen = s.view sleepsSeen ++ delays
  requests : ∀ i, s'.view (requestsIn i) = s.view (requestsIn i) ++
    if i ∈ numbers then requests i else []
  settlement : ∀ {β : Type} {f : ℕ → SyncCall → Option β}, ReadsSettlement f → s'.view f = s.view f

variable (script password E client) in
theorem attempted_attemptedBench (m : PasswordSyncMessage) (s : Bench) :
    attemptVerdict (attemptedBench script password E client m s).2 =
        (script (s.attempt + 1)).verdict m.upn password ∧
      Attempted (requestsFrom script client m password) s
        (attemptedBench script password E client m s).1 [s.attempt + 1] [] := by
  have hattempt : (s.decrypted m).attempt = s.attempt + 1 := rfl
  have hprocessor := runProcessor_processPasswordSync script E client (commandOf m password)
    (s := s.decrypted m) rfl
  have hframe := runProcessor_frame script E
    (Processor.processPasswordSync client (commandOf m password)) (s.decrypted m)
  rw [attemptedBench]
  generalize runProcessor script E (Processor.processPasswordSync client (commandOf m password))
    (s.decrypted m) = r at hprocessor hframe ⊢
  rw [hattempt] at hprocessor
  obtain ⟨hverdict, hupserted⟩ := hprocessor
  refine ⟨hverdict, hupserted.attempt, ?_, ?_, fun i => ?_, fun {β f} hf => ?_⟩
  · refine (view_after_none rfl).trans ((hframe.2 fun _ _ => rfl).trans ?_)
    exact view_after_some rfl
  · refine (view_after_none rfl).trans ((hframe.2 fun _ _ => rfl).trans ?_)
    exact (view_after_none rfl).trans (List.append_nil _).symm
  · have hdecrypted : (s.decrypted m).view (requestsIn i) = s.view (requestsIn i) :=
      view_requestsIn_after rfl i s
    refine (view_requestsIn_after rfl i _).trans ((hupserted.requests i).trans ?_)
    rw [hdecrypted, hattempt]
    by_cases hi : s.attempt + 1 = i
    · subst hi
      rw [if_pos rfl, if_pos List.mem_cons_self]
      rfl
    · rw [if_neg hi, if_neg (fun h => hi (List.mem_singleton.1 h).symm)]
  · refine (view_after_none (hf.zeroPlaintext _)).trans ((hframe.2 hf.processor).trans ?_)
    exact view_after_none (hf.decrypt _ _ _)

theorem runWorker_attemptOnce (m : PasswordSyncMessage) (n : ℕ)
    (transient : Err → WorkerProg ProcessorResult) (s : Bench) :
    runWorker script password E client (attemptOnce m n transient) s =
      runWorker script password E client
        (attemptEnd n transient (attemptedBench script password E client m s).2)
        (attemptedBench script password E client m s).1 := by
  have hdecrypt : (onGraph client
      (.decrypt (envelopeOf m) (passwordAAD m.cn m.upn m.enqueuedAt))).runWith
        (scripted script password E) s = (s.decrypted m, Except.ok password) := rfl
  have hprocess : (onGraph client (.processPasswordSync (commandOf m password))).runWith
      (scripted script password E) (s.decrypted m) =
        runProcessor script E (Processor.processPasswordSync client (commandOf m password))
          (s.decrypted m) := runWith_processor _ _
  rw [attemptedBench]
  refine (runWorker_call hdecrypt).trans ((runWorker_call hprocess).trans ?_)
  generalize runProcessor script E (Processor.processPasswordSync client (commandOf m password))
    (s.decrypted m) = r
  obtain ⟨s', answer⟩ := r
  cases answer with
  | none => rfl
  | some err => rfl

section Ends

variable {n : ℕ} {transient : Err → WorkerProg ProcessorResult} {answer : Option Err}

theorem attemptEnd_synced (h : attemptVerdict answer = .synced) :
    attemptEnd n transient answer = .ret ⟨none, n, false, false⟩ := by
  cases answer with
  | none => rfl
  | some err =>
    rw [attemptVerdict] at h
    split_ifs at h

theorem attemptEnd_permanent (h : attemptVerdict answer = .permanent) :
    ∃ err, attemptEnd n transient answer = .ret ⟨some err, n, true, false⟩ := by
  cases answer with
  | none => exact absurd h (by simp [attemptVerdict])
  | some err =>
    rw [attemptVerdict] at h
    split_ifs at h with hp
    obtain ⟨permanentErr, hp⟩ := Option.isSome_iff_exists.1 hp
    exact ⟨permanentErr, by rw [attemptEnd, hp]; rfl⟩

theorem attemptEnd_transient (h : attemptVerdict answer = .transient) :
    ∃ err, ∀ transient : Err → WorkerProg ProcessorResult,
      attemptEnd n transient answer = transient err := by
  cases answer with
  | none => exact absurd h (by simp [attemptVerdict])
  | some err =>
    rw [attemptVerdict] at h
    split_ifs at h with hp
    rw [Option.not_isSome_iff_eq_none] at hp
    exact ⟨err, fun transient => by rw [attemptEnd, hp]⟩

end Ends

/-! ## The loop -/

/-- Attempt `k` is the last of the attempts from `n` on: those before it are transient, and it
decides, or the backoffs are used up. -/
structure LastAttempt (verdict : ℕ → AttemptVerdict) (backoffs n k : ℕ) : Prop where
  first_le : n ≤ k
  le_backoffs : k ≤ n + backoffs
  transient : ∀ i, n ≤ i → i < k → verdict i = .transient
  decides : verdict k = .transient → k = n + backoffs

/-- The result of the attempts, by the verdict of the last one. -/
structure ResultOf (v : AttemptVerdict) (k : ℕ) (result : ProcessorResult) : Prop where
  attempts : result.attempts = k
  retryCanceled : result.retryCanceled = false
  err : result.err = none ↔ v = .synced
  permanent : result.permanent = decide (v = .permanent)

theorem resultOf_failed {v : AttemptVerdict} (hv : v ≠ .synced) (k : ℕ) (err : Err) :
    ResultOf v k ⟨some err, k, decide (v = .permanent), false⟩ :=
  ⟨rfl, rfl, iff_of_false (Option.some_ne_none err) hv, rfl⟩

theorem Attempted.trans {requests : ℕ → List (GraphMethod × String × Bytes)} {s s' s'' : Bench}
    {numbers numbers' : List ℕ} {delays delays' : List ℤ}
    (h : Attempted requests s s' numbers delays) (h' : Attempted requests s' s'' numbers' delays')
    (hapart : ∀ i ∈ numbers, i ∉ numbers') :
    Attempted requests s s'' (numbers ++ numbers') (delays ++ delays') where
  attempt := by rw [h'.attempt, h.attempt, List.length_append, Nat.add_assoc]
  attempts := by rw [h'.attempts, h.attempts, List.append_assoc]
  sleeps := by rw [h'.sleeps, h.sleeps, List.append_assoc]
  requests i := by
    rw [h'.requests i, h.requests i, List.append_assoc]
    by_cases hi : i ∈ numbers
    · simp [hi, hapart i hi]
    · simp [hi]
  settlement hf := (h'.settlement hf).trans (h.settlement hf)

/-- A backoff. -/
theorem Attempted.sleep {requests : ℕ → List (GraphMethod × String × Bytes)} {s s' : Bench}
    {numbers : List ℕ} (h : Attempted requests s s' numbers []) (delay : ℤ) :
    Attempted requests s (s'.after (.worker (.sleep delay))) numbers [delay] where
  attempt := h.attempt
  attempts := (view_after_none rfl).trans h.attempts
  sleeps := (view_after_some rfl).trans (by rw [h.sleeps, List.append_nil])
  requests i := (view_requestsIn_after rfl i s').trans (h.requests i)
  settlement hf := (view_after_none (hf.sleep _ _)).trans (h.settlement hf)

/-- An attempt that decides. -/
theorem runWorker_attemptOnce_decides (m : PasswordSyncMessage) {n : ℕ} {s : Bench}
    (hn : s.attempt + 1 = n) (hv : (script n).verdict m.upn password ≠ .transient)
    (transient : Err → WorkerProg ProcessorResult) :
    ResultOf ((script n).verdict m.upn password) n
        (runWorker script password E client (attemptOnce m n transient) s).2 ∧
      Attempted (requestsFrom script client m password) s
        (runWorker script password E client (attemptOnce m n transient) s).1 [n] [] := by
  have hattempt := attempted_attemptedBench script password E client m s
  rw [hn] at hattempt
  obtain ⟨hverdict, hattempted⟩ := hattempt
  rw [runWorker_attemptOnce]
  cases hcase : (script n).verdict m.upn password with
  | synced =>
    rw [attemptEnd_synced (hverdict.trans hcase)]
    exact ⟨⟨rfl, rfl, ⟨fun _ => rfl, fun _ => rfl⟩, rfl⟩, hattempted⟩
  | permanent =>
    have hend : ∃ err, attemptEnd n transient _ = _ := attemptEnd_permanent (hverdict.trans hcase)
    obtain ⟨err, hend⟩ := hend
    rw [hend]
    exact ⟨resultOf_failed (by decide) n err, hattempted⟩
  | transient => exact absurd hcase hv

variable (E client) in
/-- An attempt that does not. -/
theorem runWorker_attemptOnce_transient (m : PasswordSyncMessage) {n : ℕ} {s : Bench}
    (hn : s.attempt + 1 = n) (hv : (script n).verdict m.upn password = .transient) :
    ∃ err s', (∀ transient : Err → WorkerProg ProcessorResult,
        runWorker script password E client (attemptOnce m n transient) s =
          runWorker script password E client (transient err) s') ∧
      Attempted (requestsFrom script client m password) s s' [n] [] := by
  have hattempt := attempted_attemptedBench script password E client m s
  rw [hn] at hattempt
  obtain ⟨hverdict, hattempted⟩ := hattempt
  obtain ⟨err, hend⟩ := attemptEnd_transient (n := n) (hverdict.trans hv)
  exact ⟨err, _, fun transient => by rw [runWorker_attemptOnce, hend], hattempted⟩

/-- The last attempt, if it is the present one. -/
theorem lastAttempt_self {verdict : ℕ → AttemptVerdict} {backoffs n : ℕ}
    (h : verdict n = .transient → backoffs = 0) : LastAttempt verdict backoffs n n where
  first_le := le_refl n
  le_backoffs := Nat.le_add_right n backoffs
  transient i hi hlt := absurd hi (by omega)
  decides hv := by
    have := h hv
    omega

theorem LastAttempt.cons {verdict : ℕ → AttemptVerdict} {backoffs n k : ℕ}
    (h : LastAttempt verdict backoffs (n + 1) k) (hn : verdict n = .transient) :
    LastAttempt verdict (backoffs + 1) n k where
  first_le := le_trans (Nat.le_succ n) h.first_le
  le_backoffs := by
    have := h.le_backoffs
    omega
  transient i hi hlt := by
    by_cases hin : i = n
    · rw [hin, hn]
    · exact h.transient i (by omega) hlt
  decides hv := by
    have := h.decides hv
    omega

variable (script password E client) in
/-- The loop: by induction on the backoffs that are left. -/
theorem runWorker_attemptPasswordSync (m : PasswordSyncMessage) (backoffs : List ℤ) {n : ℕ}
    {s : Bench} (hn : s.attempt + 1 = n) :
    ∃ k, LastAttempt (fun i => (script i).verdict m.upn password) backoffs.length n k ∧
      ResultOf ((script k).verdict m.upn password) k
        (runWorker script password E client (attemptPasswordSync m backoffs n) s).2 ∧
      Attempted (requestsFrom script client m password) s
        (runWorker script password E client (attemptPasswordSync m backoffs n) s).1
        (List.range' n (k + 1 - n)) (backoffs.take (k - n)) := by
  have hlength : n + 1 - n = 1 := by omega
  induction backoffs generalizing n s with
  | nil =>
    rw [attemptPasswordSync]
    refine ⟨n, lastAttempt_self fun _ => rfl, ?_⟩
    rw [hlength, Nat.sub_self]
    by_cases hv : (script n).verdict m.upn password = .transient
    · obtain ⟨err, s', hrun, hattempted⟩ := runWorker_attemptOnce_transient E client m hn hv
      rw [hrun, hv]
      exact ⟨resultOf_failed (by decide) n err, hattempted⟩
    · exact runWorker_attemptOnce_decides m hn hv _
  | cons delay backoffs ih =>
    by_cases hv : (script n).verdict m.upn password = .transient
    · obtain ⟨err, s', hrun, hattempted⟩ := runWorker_attemptOnce_transient E client m hn hv
      have hnext : runWorker script password E client
          (attemptPasswordSync m (delay :: backoffs) n) s =
          runWorker script password E client (attemptPasswordSync m backoffs (n + 1))
            (s'.after (.worker (.sleep delay))) := by
        rw [attemptPasswordSync]
        exact (hrun _).trans (runWorker_call rfl)
      have hslept := hattempted.sleep delay
      have hattempt : (s'.after (.worker (.sleep delay))).attempt + 1 = n + 1 := by
        rw [hslept.attempt, List.length_singleton, hn]
      obtain ⟨k, hlast, hresult, hrest⟩ := ih hattempt (by omega)
      have hfirst := hlast.first_le
      refine ⟨k, hlast.cons hv, ?_⟩
      rw [hnext]
      refine ⟨hresult, ?_⟩
      have hboth := hslept.trans hrest (by simp)
      have hnumbers : [n] ++ List.range' (n + 1) (k + 1 - (n + 1)) = List.range' n (k + 1 - n) := by
        rw [show k + 1 - n = k + 1 - (n + 1) + 1 by omega, List.range'_succ]
        rfl
      have hdelays : [delay] ++ backoffs.take (k - (n + 1)) = (delay :: backoffs).take (k - n) := by
        rw [show k - n = k - (n + 1) + 1 by omega, List.take_succ_cons]
        rfl
      rw [hnumbers, hdelays] at hboth
      exact hboth
    · refine ⟨n, lastAttempt_self fun h => absurd h hv, ?_⟩
      rw [hlength, Nat.sub_self]
      exact runWorker_attemptOnce_decides m hn hv _

/-! ## Settling -/

variable (script password E client) in
theorem runWith_onGraph_of_detached {c : WorkerCall} (h : c.isDetached = true) (s : Bench) :
    ∃ r : c.Resp, (onGraph client c).runWith (scripted script password E) s =
      (s.after (.worker c), r) := by
  cases c with
  | processPasswordSync cmd => exact absurd h Bool.false_ne_true
  | _ => exact ⟨_, rfl⟩

theorem after_worker_of_detached {c : WorkerCall} (h : c.isDetached = true) (s : Bench) :
    (s.after (.worker c)).attempt = s.attempt ∧
      (s.after (.worker c)).log = s.log ++ [(s.attempt, .worker c)] := by
  cases c with
  | decrypt env aad => exact absurd h Bool.false_ne_true
  | _ => exact ⟨rfl, rfl⟩

variable (script password E client) in
/-- A run of the worker follows a trace; calls outside the attempts go to the log as they are. -/
theorem runWorker_trace (p : WorkerProg α) (s : Bench) :
    ∃ τ, Exec p τ (runWorker script password E client p s).2 ∧
      ((∀ e ∈ τ, e.call.isDetached = true) →
        (runWorker script password E client p s).1.log =
          s.log ++ τ.map fun e => (s.attempt, .worker e.call)) := by
  induction p generalizing s with
  | ret a => exact ⟨[], .refl _, fun _ => (List.append_nil _).symm⟩
  | call c k ih =>
    obtain ⟨τ, hexec, hlog⟩ := ih ((onGraph client c).runWith (scripted script password E) s).2
      ((onGraph client c).runWith (scripted script password E) s).1
    refine ⟨⟨c, _⟩ :: τ, .call c k _ hexec, fun hdetached => ?_⟩
    have hc : WorkerCall.isDetached c = true := hdetached _ List.mem_cons_self
    refine (hlog fun e he => hdetached e (List.mem_cons_of_mem _ he)).trans ?_
    obtain ⟨r, hrun⟩ := runWith_onGraph_of_detached script password E client hc s
    obtain ⟨hattempt, hafter⟩ := after_worker_of_detached hc s
    rw [hrun, hattempt, hafter, List.append_assoc]
    rfl

/-- A view of calls that were added to the log. -/
theorem view_of_log {β : Type} {s s' : Bench} {τ : List WorkerEvent}
    (h : s'.log = s.log ++ τ.map fun e => (s.attempt, .worker e.call))
    (f : ℕ → SyncCall → Option β) :
    s'.view f = s.view f ++ τ.filterMap fun e => f s.attempt (.worker e.call) := by
  rw [Bench.view, h, List.filterMap_append, List.filterMap_map]
  rfl

/-- A view that finds nothing in metrics and logs. -/
def SkipsReports {β : Type} (f : ℕ → SyncCall → Option β) : Prop :=
  ∀ n c, WorkerCall.isReport c = true → f n (.worker c) = none

theorem Reports.filterMap {β : Type} {τ : List WorkerEvent} (h : Reports τ)
    {f : ℕ → SyncCall → Option β} (hf : SkipsReports f) (n : ℕ) :
    (τ.filterMap fun e => f n (.worker e.call)) = [] := by
  rw [List.filterMap_eq_nil_iff]
  intro e he
  exact hf n e.call (h e he)

theorem skipsReports_deadLettersSeen : SkipsReports deadLettersSeen := by
  intro n c hc
  cases c <;> first | rfl | exact absurd hc Bool.false_ne_true

theorem skipsReports_syncedSeen : SkipsReports syncedSeen := by
  intro n c hc
  cases c <;> first | rfl | exact absurd hc Bool.false_ne_true

/-- What settling leaves on the bench. -/
structure SettledBench (s s' : Bench) (entries : List DeadLetterEntry)
    (marks : List (String × Time)) : Prop where
  entries : s'.view deadLettersSeen = s.view deadLettersSeen ++ entries
  marks : s'.view syncedSeen = s.view syncedSeen ++ marks
  attempts : s'.view attemptsSeen = s.view attemptsSeen
  sleeps : s'.view sleepsSeen = s.view sleepsSeen
  requests : ∀ i, s'.view (requestsIn i) = s.view (requestsIn i)

theorem settledBench_of_log {s s' : Bench} {l reports : List WorkerEvent}
    (hreports : Reports reports)
    (hlog : s'.log = s.log ++ (l ++ reports).map fun e => (s.attempt, .worker e.call))
    (hdetached : ∀ e ∈ l ++ reports, e.call.isDetached = true) :
    SettledBench s s' (l.filterMap fun e => deadLettersSeen s.attempt (.worker e.call))
      (l.filterMap fun e => syncedSeen s.attempt (.worker e.call)) := by
  have hnone : ∀ {β : Type} {f : ℕ → SyncCall → Option β},
      (∀ n c, WorkerCall.isDetached c = true → f n (.worker c) = none) → s'.view f = s.view f := by
    intro β f hf
    rw [view_of_log hlog, List.filterMap_eq_nil_iff.2 fun e he => hf _ e.call (hdetached e he),
      List.append_nil]
  refine ⟨?_, ?_, hnone ?_, hnone ?_, fun i => hnone ?_⟩
  · rw [view_of_log hlog, List.filterMap_append, hreports.filterMap skipsReports_deadLettersSeen,
      List.append_nil]
  · rw [view_of_log hlog, List.filterMap_append, hreports.filterMap skipsReports_syncedSeen,
      List.append_nil]
  · intro n c hc
    cases c <;> first | rfl | exact absurd hc Bool.false_ne_true
  · intro n c hc
    cases c <;> first | rfl | exact absurd hc Bool.false_ne_true
  · intro n c _
    exact ite_self none

variable (script password E client) in
theorem runWorker_settle (msg : Option MessagePtr) (m : PasswordSyncMessage)
    {result : ProcessorResult} {v : AttemptVerdict} {k : ℕ} (h : ResultOf v k result) (s : Bench) :
    ∃ t, SettledBench s (runWorker script password E client (settle msg m result) s).1
      (if v = .synced then [] else [failureEntry m result t])
      (if v = .synced then [(m.upn, m.enqueuedAt)] else []) := by
  obtain ⟨τ, hexec, hlog⟩ := runWorker_trace script password E client (settle msg m result) s
  have hdetached := detached_settle hexec
  have hadded := hlog hdetached
  unfold settle at hexec
  by_cases hv : v = .synced
  · rw [if_pos (h.err.2 hv)] at hexec
    obtain ⟨marked, answer, reports, rfl, hreports⟩ := exec_settleSynced hexec
    refine ⟨.zero, ?_⟩
    rw [if_pos hv, if_pos hv]
    exact settledBench_of_log (l := [_, _, _]) hreports hadded hdetached
  · rw [if_neg (fun herr => hv (h.err.1 herr)), h.retryCanceled, if_neg Bool.false_ne_true] at hexec
    obtain ⟨t, reports, hreports, ⟨err, answer, rfl⟩ | ⟨marked, answer, rfl⟩⟩ :=
      exec_settleFailed hexec
    · refine ⟨t, ?_⟩
      rw [if_neg hv, if_neg hv]
      exact settledBench_of_log (l := [_, _, _, _]) hreports hadded hdetached
    · refine ⟨t, ?_⟩
      rw [if_neg hv, if_neg hv]
      exact settledBench_of_log (l := [_, _, _, _, _]) hreports hadded hdetached

end Worker

theorem requests_length_le (a : AttemptScript) (client : GraphClient) (user : User)
    (password : Bytes) : (a.requests client user password).length ≤ 1 := by
  rw [AttemptScript.requests]
  split_ifs <;> simp

theorem method_of_mem_requests {a : AttemptScript} {client : GraphClient} {user : User}
    {password : Bytes} {req : GraphMethod × String × Bytes}
    (h : req ∈ a.requests client user password) :
    (req.1 = .patch ↔ a.lookup = .status 200) ∧ (req.1 = .post ↔ a.lookup = .status 404) := by
  rw [AttemptScript.requests] at h
  split_ifs at h with hvalid hfound habsent
  · exact absurd h List.not_mem_nil
  · rw [List.mem_singleton.1 h, hfound.1]
    simp
  · rw [List.mem_singleton.1 h, habsent.1]
    simp
  · exact absurd h List.not_mem_nil

/-- The retry policy, over every script of what Graph and the network do.  The attempts stop at the
first one that succeeds or fails for good, or when the backoffs are used up; the worker sleeps the
first backoffs in order; an attempt sends at most one request with the password, by what its lookup
returned; and the message is marked synced, or gets one dead-letter entry, by the verdict of the
last attempt. -/
theorem retry_policy {J : Json} {w : Worker} {msg : Option MessagePtr} {m : PasswordSyncMessage}
    (decoded : decodePasswordSyncMessage J msg = .ok m) (client : GraphClient)
    (script : ℕ → AttemptScript) (password : Bytes) (E : Surroundings) :
    ∃ k, LastAttempt (fun i => (script i).verdict m.upn password) w.retryBackoffs.length 1 k ∧
      (benchRun script password E J w client msg).view attemptsSeen = List.range' 1 k ∧
      (benchRun script password E J w client msg).view sleepsSeen = w.retryBackoffs.take (k - 1) ∧
      (∀ i, (benchRun script password E J w client msg).view (requestsIn i) =
        if 1 ≤ i ∧ i ≤ k then
          (script i).requests client ⟨m.upn, m.displayName, m.mail⟩ password else []) ∧
      (∀ i, ((benchRun script password E J w client msg).view (requestsIn i)).length ≤ 1 ∧
        ∀ req ∈ (benchRun script password E J w client msg).view (requestsIn i),
          (req.1 = .patch ↔ (script i).lookup = .status 200) ∧
          (req.1 = .post ↔ (script i).lookup = .status 404)) ∧
      (benchRun script password E J w client msg).view syncedSeen =
        (if (script k).verdict m.upn password = .synced then [(m.upn, m.enqueuedAt)] else []) ∧
      ((benchRun script password E J w client msg).view deadLettersSeen).map
          (fun entry => (entry.attempts, entry.reason)) =
        if (script k).verdict m.upn password = .synced then []
        else if (script k).verdict m.upn password = .permanent then
          [(k, deadLetterReasonPermanentProcessor)]
        else [(k, deadLetterReasonTransientRetriesExhausted)] := by
  obtain ⟨k, hlast, hresult, hattempted⟩ :=
    runWorker_attemptPasswordSync script password E client m w.retryBackoffs (n := 1)
      (s := .start) rfl
  have hrun : benchRun script password E J w client msg =
      (runWorker script password E client (settle msg m
        (runWorker script password E client (attemptPasswordSync m w.retryBackoffs 1) .start).2)
        (runWorker script password E client (attemptPasswordSync m w.retryBackoffs 1)
          .start).1).1 := by
    rw [benchRun_eq, processMessage, decoded]
    exact congrArg Prod.fst (runWorker_bind (attemptPasswordSync m w.retryBackoffs 1) _ .start)
  generalize runWorker script password E client (attemptPasswordSync m w.retryBackoffs 1) .start = r
    at hrun hresult hattempted
  obtain ⟨t, hsettled⟩ := runWorker_settle script password E client msg m hresult r.1
  rw [← hrun] at hsettled
  have hrequests : ∀ i, (benchRun script password E J w client msg).view (requestsIn i) =
      if 1 ≤ i ∧ i ≤ k then
        (script i).requests client ⟨m.upn, m.displayName, m.mail⟩ password else [] := by
    intro i
    rw [hsettled.requests i, hattempted.requests i]
    have hmem : i ∈ List.range' 1 (k + 1 - 1) ↔ 1 ≤ i ∧ i ≤ k := by
      rw [List.mem_range'_1]
      omega
    simp only [hmem, view_start, List.nil_append]
    rfl
  refine ⟨k, hlast, ?_, ?_, hrequests, fun i => ?_, ?_, ?_⟩
  · rw [hsettled.attempts, hattempted.attempts, view_start, List.nil_append, Nat.add_sub_cancel]
  · rw [hsettled.sleeps, hattempted.sleeps, view_start, List.nil_append]
  · rw [hrequests i]
    split_ifs
    · exact ⟨requests_length_le _ _ _ _, fun req hreq => method_of_mem_requests hreq⟩
    · exact ⟨Nat.zero_le 1, fun req hreq => absurd hreq List.not_mem_nil⟩
  · rw [hsettled.marks, hattempted.settlement readsSettlement_syncedSeen, view_start,
      List.nil_append]
  · rw [hsettled.entries, hattempted.settlement readsSettlement_deadLettersSeen, view_start,
      List.nil_append]
    split_ifs with hsynced hpermanent
    · rfl
    · simp only [List.map_cons, List.map_nil, failureEntry, hresult.attempts, hresult.permanent,
        hpermanent]
      rfl
    · simp only [List.map_cons, List.map_nil, failureEntry, hresult.attempts, hresult.permanent,
        hpermanent]
      rfl

/-- Graph is unavailable for the first lookup; from then on it knows no user and creates one. -/
def unavailableOnce (i : ℕ) : AttemptScript :=
  if i = 1 then ⟨.status 503, .status 503, trivial, trivial⟩
  else ⟨.status 404, .status 201, trivial, trivial⟩

theorem retry_policy_unavailableOnce : ∃ ptr E,
    decodePasswordSyncMessage .flat (some ptr) = .ok sampleMessage ∧
    let s := benchRun unavailableOnce [112] E .flat (newWorker 1 0 0 [second, 2 * second])
      ⟨"https://graph.example.com", "scope"⟩ (some ptr)
    s.view attemptsSeen = [1, 2] ∧ s.view sleepsSeen = [second] ∧
      s.view syncedSeen = [("b11001@example.edu", sampleReading.utc)] ∧
      (s.view deadLettersSeen).map (fun entry => (entry.attempts, entry.reason)) = [] := by
  obtain ⟨ptr, hptr⟩ := decode_sampleMessage
  refine ⟨ptr, ⟨fun _ => "", fun _ => .zero, fun _ c => (worker_resp_nonempty c).some⟩, hptr, ?_⟩
  obtain ⟨k, hlast, hattempts, hsleeps, -, -, hsynced, hdead⟩ :=
    retry_policy (w := newWorker 1 0 0 [second, 2 * second]) hptr
      ⟨"https://graph.example.com", "scope"⟩
      unavailableOnce [112] ⟨fun _ => "", fun _ => .zero, fun _ c => (worker_resp_nonempty c).some⟩
  have hfirst : (unavailableOnce 1).verdict sampleMessage.upn [112] = .transient := by
    decide +kernel
  have hsecond : (unavailableOnce 2).verdict sampleMessage.upn [112] = .synced := by decide +kernel
  obtain rfl : k = 2 := by
    have h1 : k ≠ 1 := by
      rintro rfl
      exact absurd (hlast.decides hfirst) (by decide)
    have h2 : ¬ 2 < k := by
      intro hlt
      exact absurd ((hlast.transient 2 (by omega) hlt).symm.trans hsecond) (by decide)
    have := hlast.first_le
    omega
  rw [if_pos hsecond] at hsynced hdead
  exact ⟨hattempts, hsleeps, hsynced, hdead⟩

end PasswordHook
