import PasswordHook.AzureMonitor.Ledger

/-!
# Conservation of samples

Every sample that is recorded is posted, pending or lost with a flush that gave up
(`Accounted.recordedIn_eq`), in every interleaving of recordings, flushes, the loop and `Close`.  So
none is lost as long as no flush gives up, and some is as soon as one has (`samples_conserved_iff`).
-/

namespace PasswordHook

open Prog

/-! ## The recorder -/

/-- Every point is at the key of its series. -/
def Stored (A : Set SeriesID) (points : Points) : Prop :=
  ∀ key point, points.lookup key = some point →
    point.id.key = key ∧ point.id ∈ A ∧ point.observed = true ∧ 0 < point.count

section Recorder

variable {A : Set SeriesID} {points : Points} {s : Sample}

theorem Stored.batch (h : Stored A points) : Batch A points.values := by
  intro point hpoint
  obtain ⟨key, hkey⟩ := KeyMap.mem_values_iff.1 hpoint
  obtain ⟨-, hmem, -, hcount⟩ := h key point hkey
  exact ⟨hmem, hcount⟩

/-- The point that a sample is added to is one of its series, or there is none. -/
theorem Stored.add_sample (h : Stored A points) (separate : Separate A) (hs : s.id ∈ A) :
    (((points.lookup s.id.key).getD .zero).add s).id = s.id ∧
      (((points.lookup s.id.key).getD .zero).add s).observed = true ∧
      (((points.lookup s.id.key).getD .zero).add s).count =
        pointCount s.id (points.lookup s.id.key).toList + 1 ∧
      ∀ id, id ≠ s.id → pointCount id (points.lookup s.id.key).toList = 0 := by
  cases hlookup : points.lookup s.id.key with
  | none =>
    rw [Option.getD_none, add_zero_eq]
    exact ⟨rfl, rfl, rfl, fun _ _ => rfl⟩
  | some point =>
    obtain ⟨hkey, hmem, hobserved, -⟩ := h _ point hlookup
    have hid : point.id = s.id := separate.key _ hmem _ hs hkey
    rw [Option.getD_some, add_of_observed hobserved]
    refine ⟨hid, hobserved, ?_, fun id hne => ?_⟩
    · rw [Option.toList_some, pointCount_cons, if_pos hid]
      rfl
    · rw [Option.toList_some, pointCount_cons, if_neg (fun heq => hne (heq.symm.trans hid))]
      rfl

theorem Stored.add (h : Stored A points) (separate : Separate A) (hs : s.id ∈ A) :
    Stored A (points.add s) := by
  obtain ⟨hid, hobserved, hcount, -⟩ := h.add_sample separate hs
  intro key point hpoint
  rw [points_add_eq, collect] at hpoint
  by_cases hkey : key = s.id.key
  · rw [hkey, AList.lookup_insert, Option.some.injEq] at hpoint
    rw [← hpoint, hid, hcount, hkey]
    exact ⟨rfl, hs, hobserved, Nat.succ_pos _⟩
  · rw [AList.lookup_insert_ne hkey] at hpoint
    exact h key point hpoint

/-- Recording adds one sample to its series. -/
theorem Stored.pointCount_add (h : Stored A points) (separate : Separate A) (hs : s.id ∈ A)
    (id : SeriesID) :
    pointCount id (points.add s).values = pointCount id points.values + if s.id = id then 1
      else 0 := by
  obtain ⟨hid, -, hcount, hothers⟩ := h.add_sample separate hs
  obtain ⟨rest, hvalues, hperm⟩ := KeyMap.values_insert points s.id.key
    (((points.lookup s.id.key).getD .zero).add s)
  have hadd : (points.add s).values = ((points.lookup s.id.key).getD .zero).add s :: rest := by
    rw [points_add_eq, collect, hvalues]
  rw [hadd, pointCount_cons, pointCount_perm hperm, pointCount_append, hid, hcount]
  by_cases heq : s.id = id
  · rw [if_pos heq, if_pos heq, heq]
    omega
  · rw [if_neg heq, if_neg heq, hothers id (Ne.symm heq)]
    omega

end Recorder

/-! ## Every interleaving -/

section Worlds

variable {r : MetricRecorderOptions} {A : Set SeriesID} {W W' : MetricWorld} {ℓ : MetricLabel}

theorem ledger_append (τ : List FlusherEvent) (e : FlusherEvent) :
    ledger r (τ ++ [e]) = (ledger r τ).after r e := by
  rw [ledger, List.foldl_append]
  rfl

theorem recordedCount_append (id : SeriesID) (τ : List (Event recordInterface))
    (e : Event recordInterface) :
    recordedCount id (τ ++ [e]) = recordedCount id τ + if Sample.id e.call = id then 1 else 0 := by
  rw [recordedCount, List.countP_append, List.countP_singleton]
  simp [recordedCount]

/-- A trace has failed when one of its flushes gave up. -/
theorem failed_ledger_iff (τ : List FlusherEvent) :
    (ledger r τ).failed = true ↔ ∃ e ∈ τ, ∃ e' ∈ e.flush?, FlushEvent.givesUp r e' = true := by
  induction τ using List.reverseRecOn with
  | nil => simp [ledger, Ledger.empty]
  | append_singleton τ e ih =>
    rw [ledger_append, Ledger.after]
    cases hflush : e.flush? with
    | none => simp [ih, hflush]
    | some e' => simp [ih, hflush, Ledger.next, or_and_right, exists_or]

/-- What holds of the points and of the flushes in every world. -/
structure Accounted (r : MetricRecorderOptions) (A : Set SeriesID) (W : MetricWorld) : Prop where
  finite : W.Finite
  threaded : W.Threaded
  stored : Stored A W.shared.points
  started : ∀ i (t : FlusherThread), W.pool .flusher i = some t →
    (metricSystem r).spawn W.shared .flusher t.start
  batches : ∀ i (t : FlusherThread), W.pool .flusher i = some t →
    ∀ e ∈ t.past, (flusherMonitor r A).assumes e
  /-- What was recorded is in the points or was taken. -/
  flow : ∀ id, recordedIn W id = pointCount id W.shared.points.values +
    W.total .flusher fun t : FlusherThread => (ledger r t.past).taken id

/-- The samples that an event of a flusher takes. -/
def FlusherEvent.takenCount (e : FlusherEvent) (id : SeriesID) : ℕ :=
  (e.flush?.map fun e' => FlushEvent.takenCount e' id).getD 0

theorem taken_ledger_append (τ : List FlusherEvent) (e : FlusherEvent) (id : SeriesID) :
    (ledger r (τ ++ [e])).taken id = (ledger r τ).taken id + e.takenCount id := by
  rw [ledger_append, Ledger.after, FlusherEvent.takenCount]
  cases e.flush? with
  | none => rfl
  | some e' => rfl

/-- An answer to a flusher: a batch leaves the points, or they stay. -/
theorem flusherAnswer_points {c : FlusherCall} {resp : c.Resp} {s s' : RecorderState}
    (h : flusherAnswer c s resp s') (hstored : Stored A s.points) :
    (flusherMonitor r A).assumes (⟨c, resp⟩ : FlusherEvent) ∧ Stored A s'.points ∧
      ∀ id, pointCount id s.points.values =
        pointCount id s'.points.values + FlusherEvent.takenCount (⟨c, resp⟩ : FlusherEvent) id := by
  have stays : ∀ {e : FlusherEvent}, (∀ e' ∈ e.flush?, FlushEvent.taken e' = none) →
      s'.points = s.points → (flusherMonitor r A).assumes e ∧ Stored A s'.points ∧
        ∀ id, pointCount id s.points.values = pointCount id s'.points.values + e.takenCount id := by
    intro e hnone hpoints
    refine ⟨fun e' he' points hpoints => ?_, hpoints ▸ hstored, fun id => ?_⟩
    · rw [hnone e' he'] at hpoints
      exact absurd hpoints (by simp)
    · rw [hpoints, FlusherEvent.takenCount]
      cases hflush : e.flush? with
      | none => rfl
      | some e' => simp [FlushEvent.takenCount, hnone e' hflush, pointCount]
  cases c with
  | recorder c =>
    cases c with
    | takePoints =>
      obtain ⟨hperm, rfl⟩ := h
      refine ⟨?_, fun key point hpoint => absurd hpoint (by simp), fun id => ?_⟩
      · rintro e' ⟨⟩ points ⟨⟩ point hpoint
        exact hstored.batch point (hperm.subset hpoint)
      · rw [← pointCount_perm hperm]
        exact (Nat.zero_add _).symm
    | _ => exact stays (by rintro e' ⟨⟩; rfl) (congrArg RecorderState.points h)
  | wake => exact stays (by rintro e' ⟨⟩) (congrArg RecorderState.points h.2)
  | waitDone => exact stays (by rintro e' ⟨⟩) (congrArg RecorderState.points h.2)
  | _ => exact stays (by rintro e' ⟨⟩) (by rw [h])

/-- A step moves samples from a recording to the points and from there to a flush. -/
theorem Accounted.flow_step (hW : Accounted r A W) (separate : Separate A) (hℓ : RecordsIn A W ℓ)
    (hs : Step (metricSystem r) W ℓ W') :
    Stored A W'.shared.points ∧ ∀ id, recordedIn W' id = pointCount id W'.shared.points.values +
      W'.total .flusher fun t : FlusherThread => (ledger r t.past).taken id := by
  cases hs with
  | @spawn k i p free allowed =>
    refine ⟨hW.stored, fun id => ?_⟩
    cases k with
    | recording =>
      rw [recordedIn, World.total_spawn hW.finite free, World.total_setThread_of_ne _ (by decide)]
      exact hW.flow id
    | flusher =>
      rw [recordedIn, World.total_spawn hW.finite free, World.total_setThread_of_ne _ (by decide)]
      exact hW.flow id
  | @call k i t c f resp s thread next answer =>
    cases k with
    | recording =>
      have hmem : Sample.id c ∈ A := hℓ i _ rfl
      have hanswer : s = { W.shared with points := W.shared.points.add c } := answer
      subst hanswer
      refine ⟨hW.stored.add separate hmem, fun id => ?_⟩
      have hflow := hW.flow id
      have hadd := hW.stored.pointCount_add separate hmem id
      rw [recordedIn, World.total_call hW.finite thread (recordedCount_append id t.past _),
        World.total_setThread_of_ne _ (by decide)]
      rw [recordedIn] at hflow
      show _ = pointCount id (W.shared.points.add c).values + W.total .flusher _
      show W.total .recording _ + (if Sample.id c = id then 1 else 0) = _
      omega
    | flusher =>
      obtain ⟨-, hstored, hcount⟩ := flusherAnswer_points (r := r) answer hW.stored
      refine ⟨hstored, fun id => ?_⟩
      have hflow := hW.flow id
      have hmoved := hcount id
      rw [recordedIn, World.total_call hW.finite thread (taken_ledger_append t.past _ id),
        World.total_setThread_of_ne _ (by decide)]
      rw [recordedIn] at hflow
      show W.total .recording _ = pointCount id s.points.values + (W.total .flusher _ + _)
      omega
  | env change => exact absurd change id

theorem Accounted.step (hW : Accounted r A W) (separate : Separate A) (hℓ : RecordsIn A W ℓ)
    (hs : Step (metricSystem r) W ℓ W') : Accounted r A W' where
  finite := hW.finite.step hs
  threaded := hW.threaded.step hs
  stored := (hW.flow_step separate hℓ hs).1
  flow := (hW.flow_step separate hℓ hs).2
  started i t ht := by
    rcases hs.pool_cases ht with ⟨-, -, -, hstart⟩ | ⟨t₀, c, f, resp, h₀, -, -, -, rfl⟩ | h₀
    · exact hstart
    · exact hW.started i t₀ h₀
    · exact hW.started i t h₀
  batches i t ht e he := by
    rcases hs.pool_cases ht with ⟨hpast, -⟩ | ⟨t₀, c, f, resp, h₀, -, -, answer, rfl⟩ | h₀
    · rw [hpast] at he
      exact absurd he List.not_mem_nil
    · rcases List.mem_append.1 he with he | he
      · exact hW.batches i t₀ h₀ e he
      · rw [List.mem_singleton.1 he]
        exact (flusherAnswer_points answer hW.stored).1
    · exact hW.batches i t h₀ e he

theorem accounted_of_reach (separate : Separate A) (h : Reach (metricSystem r) (RecordsIn A) W) :
    Accounted r A W := by
  apply h.invariant
  · rintro s rfl
    exact
      { finite := fun k => by simp
        threaded := fun k i t ht => absurd ht (by simp)
        stored := fun key point hpoint => absurd hpoint (by simp)
        started := fun i t ht => absurd ht (by simp)
        batches := fun i t ht => absurd ht (by simp)
        flow := fun id => by simp [recordedIn, World.total, pointCount, KeyMap.values] }
  · exact fun W ℓ W' hW hℓ hs => hW.step separate hℓ hs

/-! ## Conservation -/

/-- The ledger of a flusher in any world, and when it has returned. -/
theorem Accounted.ledger (hW : Accounted r A W) (separate : Separate A) {i : ℕ} {t : FlusherThread}
    (ht : W.pool .flusher i = some t) :
    (ledger r t.past).Balanced ∧
      ∀ err, t.rest = .ret err → (PasswordHook.ledger r t.past).Settled := by
  have htracked : t.start.Tracked (flusherMonitor r A) (fun _ L => L.Settled) .empty := by
    rcases hW.started i t ht with hstart | ⟨turns, hstart⟩ | hstart
    · rw [hstart]
      exact tracked_flusherFlush separate Ledger.settled_empty
    · rw [hstart]
      exact tracked_flusherRun separate turns Ledger.settled_empty
    · rw [hstart]
      exact tracked_flusherClose separate Ledger.settled_empty
  obtain ⟨hinv, hrest⟩ := htracked.steps Ledger.settled_empty.1 (hW.threaded .flusher i t ht)
    (hW.batches i t ht)
  refine ⟨hinv, fun err hret => ?_⟩
  rw [hret] at hrest
  exact hrest

/-- The samples of a series that flushes have given up. -/
noncomputable def lostIn (r : MetricRecorderOptions) (W : MetricWorld) (id : SeriesID) : ℕ :=
  W.total .flusher fun t : FlusherThread => (PasswordHook.ledger r t.past).lost id

/-- Every recorded sample is posted, pending or lost, and only one of them. -/
theorem Accounted.recordedIn_eq (hW : Accounted r A W) (separate : Separate A) (id : SeriesID) :
    recordedIn W id = postedIn r W id + pendingIn r W id + lostIn r W id := by
  have htaken :
      (W.total .flusher fun t : FlusherThread => (PasswordHook.ledger r t.past).taken id) =
      W.total .flusher fun t : FlusherThread => (PasswordHook.ledger r t.past).posted id +
        (PasswordHook.ledger r t.past).held id + (PasswordHook.ledger r t.past).lost id :=
    World.total_congr fun i t ht => (hW.ledger separate ht).1.taken id
  rw [hW.flow id, htaken, World.total_add hW.finite, World.total_add hW.finite, postedIn, pendingIn,
    lostIn]
  omega

/-- No flush has given up. -/
def NoneGivenUp (r : MetricRecorderOptions) (W : MetricWorld) : Prop :=
  ∀ i (t : FlusherThread), W.pool .flusher i = some t →
    ∀ e ∈ t.past, ∀ e' ∈ FlusherEvent.flush? e, FlushEvent.givesUp r e' = false

theorem Accounted.conserved_iff (hW : Accounted r A W) (separate : Separate A) :
    (∀ id, Conserved r W id) ↔ NoneGivenUp r W := by
  have hlost : (∀ id, Conserved r W id) ↔ ∀ i (t : FlusherThread), W.pool .flusher i = some t →
      ∀ id, (PasswordHook.ledger r t.past).lost id = 0 := by
    constructor
    · intro h i t ht id
      have hzero : lostIn r W id = 0 := by
        have hsplit := hW.recordedIn_eq separate id
        have hconserved : recordedIn W id = _ := h id
        omega
      exact (World.total_eq_zero_iff hW.finite).1 hzero i t ht
    · intro h id
      have hzero : lostIn r W id = 0 :=
        (World.total_eq_zero_iff hW.finite).2 fun i t ht => h i t ht id
      rw [Conserved, hW.recordedIn_eq separate, hzero, Nat.add_zero]
  rw [hlost]
  refine forall_congr' fun i => forall_congr' fun t => forall_congr' fun ht => ?_
  have hfailed := failed_ledger_iff (r := r) t.past
  rw [(hW.ledger separate ht).1.lost] at hfailed
  constructor
  · intro hnone e he e' he'
    by_contra hgives
    obtain ⟨id, hid⟩ := hfailed.2 ⟨e, he, e', he', Bool.eq_true_of_not_eq_false hgives⟩
    have := hnone id
    omega
  · intro hnone id
    by_contra hid
    obtain ⟨e, he, e', he', hgives⟩ := hfailed.1 ⟨id, Nat.pos_of_ne_zero hid⟩
    rw [hnone e he e' he'] at hgives
    exact Bool.false_ne_true hgives

end Worlds

/-- No sample is lost or counted twice as long as no flush gives up, and whenever one has given up
some sample is lost.  A flush that has returned holds nothing. -/
theorem samples_conserved_iff (r : MetricRecorderOptions) {A : Set SeriesID}
    (separate : Separate A) :
    (∀ W, Reach (metricSystem r) (fun W ℓ => RecordsIn A W ℓ ∧ NotGivenUp r ℓ) W →
      ∀ id, Conserved r W id) ∧
    ∀ W, Reach (metricSystem r) (RecordsIn A) W →
      ((∀ id, Conserved r W id) ↔ NoneGivenUp r W) ∧
        ∀ i (t : FlusherThread) err, W.pool .flusher i = some t → t.rest = .ret err →
          ∀ id, (ledger r t.past).held id = 0 := by
  constructor
  · intro W reach
    have hW : Accounted r A W := accounted_of_reach separate (reach.mono fun _ _ h => h.1)
    apply (hW.conserved_iff separate).2
    exact reach.forall_past (k := MetricRole.flusher) fun W i e h => h.2 i e rfl
  · intro W reach
    have hW : Accounted r A W := accounted_of_reach separate reach
    exact ⟨hW.conserved_iff separate, fun i t err ht hret => ((hW.ledger separate ht).2 err hret).2⟩

/-! ## A flush that cannot get a token -/

/-- One sample, recorded and added. -/
def sampleIncrement : Recording := .inc (bytesOf "hook_requests_total") ∅

def incrementSample : Sample :=
  ⟨trimSpaceBytes sampleIncrement.name, allowedLabels sampleIncrement.labels, sampleIncrement.value⟩

theorem record_sampleIncrement :
    record sampleIncrement = Prog.call (I := recordInterface) incrementSample Prog.ret := by
  have hname : trimSpaceBytes sampleIncrement.name ≠ [] := by decide +kernel
  exact if_neg (t := return ()) hname

/-- The sample is recorded, and then a flusher runs. -/
theorem reach_flusher {r : MetricRecorderOptions} {C : MetricWorld → MetricLabel → Prop}
    (starts : ∀ W k i p, C W (.spawn k i p))
    (records : ∀ W, C W (.call .recording 0 (⟨incrementSample, ()⟩ : Event recordInterface)))
    {p q : FlusherProg (Option Err)} {τ : List FlusherEvent} {s : RecorderState}
    (allowed : p = flusherFlush r ∨ (∃ turns, p = flusherRun r turns) ∨ p = flusherClose r)
    (run : Answers (metricSystem r) MetricRole.flusher ⟨Points.add ∅ incrementSample, false, false⟩
      p τ s q)
    (meets : ∀ W, ∀ e ∈ τ, C W (.call .flusher 0 e)) :
    ∃ W, Reach (metricSystem r) C W ∧ W.shared = s ∧ recordedIn W incrementSample.id = 1 ∧
      ∀ f : FlusherThread → ℕ, W.total .flusher f = f ⟨p, τ, q⟩ := by
  have hinit : Reach (metricSystem r) C ⟨⟨∅, false, false⟩, fun _ _ => none⟩ := .init rfl
  have hrecord : Answers (metricSystem r) MetricRole.recording ⟨∅, false, false⟩
      (record sampleIncrement) [⟨incrementSample, ()⟩]
      ⟨Points.add ∅ incrementSample, false, false⟩ (.ret ()) := by
    rw [record_sampleIncrement]
    exact .call rfl (.nil _ _)
  obtain ⟨W, hW, hshared, hrecording, hframe⟩ := hinit.spawn_answers (k := MetricRole.recording)
    (i := 0) rfl ⟨sampleIncrement, rfl⟩ hrecord (starts _ _ _ _) (by simpa using records)
  rw [← hshared] at run
  have hfree : ∀ i, W.pool .flusher i = none := fun i =>
    hframe .flusher i (fun h => absurd h.1 (by decide))
  obtain ⟨W', hW', hshared', hflusher, hframe'⟩ := hW.spawn_answers (k := MetricRole.flusher)
    (i := 0) (hfree 0) allowed run (starts _ _ _ _) meets
  have hsame : ∀ i, W'.pool .recording i = W.pool .recording i := fun i =>
    hframe' .recording i (fun h => absurd h.1 (by decide))
  refine ⟨W', hW', hshared', ?_, fun f => ?_⟩
  · rw [recordedIn, World.total_of_single ((hsame 0).trans hrecording) fun i hi => ?_]
    · simp [recordedCount]
    · exact (hsame i).trans (hframe .recording i fun h => hi h.2)
  · apply World.total_of_single hflusher
    exact fun i hi => (hframe' .flusher i fun h => hi h.2).trans (hfree i)

/-- A turn of the loop that takes the points and cannot get a token. -/
def refusedTurn (taken : List MetricPoint) (err : Err) : List FlusherEvent :=
  [⟨.wake, Wake.tick⟩, ⟨.recorder .takePoints, taken⟩,
    ⟨.recorder .token, (.error err : Except Err String)⟩,
    ⟨.warn (.wrap "get azure monitor token" err), ()⟩]

theorem answers_refusedTurn {s : RecorderState} {point : MetricPoint} {rest : List MetricPoint}
    (htaken : (point :: rest).Perm s.points.values) (err : Err) :
    Answers (metricSystem sampleRecorder) MetricRole.flusher s (flusherRun sampleRecorder 1)
      (refusedTurn (point :: rest) err) { s with points := ∅ } (.ret none) :=
  .call ⟨by simp, rfl⟩ (.call ⟨htaken, rfl⟩ (.call rfl (.call rfl (.nil _ _))))

theorem recordsIn_incrementSample (W : MetricWorld) (i : ℕ) :
    RecordsIn {id | id.NulFree} W
      (.call .recording i (⟨incrementSample, ()⟩ : Event recordInterface)) := by
  rintro j e ⟨⟩
  have hplain : 0 ∉ incrementSample.id.name ∧
      ∀ label ∈ incrementSample.id.labels, label.1 ∈ allowedNames ∧ 0 ∉ label.2 := by decide +kernel
  exact ⟨hplain.1, hplain.2⟩

/-- The sample is recorded, the loop takes it and the token request fails: it is neither posted nor
pending. -/
theorem failed_flush_loses_sample :
    ∃ W, Reach (metricSystem sampleRecorder) (RecordsIn {id | id.NulFree}) W ∧
      recordedIn W incrementSample.id = 1 ∧ postedIn sampleRecorder W incrementSample.id = 0 ∧
      pendingIn sampleRecorder W incrementSample.id = 0 ∧
      ¬ Conserved sampleRecorder W incrementSample.id := by
  have run : Answers (metricSystem sampleRecorder) MetricRole.flusher
      ⟨Points.add ∅ incrementSample, false, false⟩ (flusherRun sampleRecorder 1)
      (refusedTurn [MetricPoint.zero.add incrementSample] (.new "unavailable")) ⟨∅, false, false⟩
      (.ret none) := answers_refusedTurn (.refl _) _
  obtain ⟨W, hreach, hshared, hrecorded, htotal⟩ := reach_flusher (r := sampleRecorder)
    (C := RecordsIn {id | id.NulFree}) (fun W k i p j e h => absurd h (by simp))
    (fun W => recordsIn_incrementSample W 0) (.inr (.inl ⟨1, rfl⟩))
    run (fun W e _ i e' h => absurd h (by simp))
  have hposted : postedIn sampleRecorder W incrementSample.id = 0 := by
    rw [postedIn, htotal]
    rfl
  have hpending : pendingIn sampleRecorder W incrementSample.id = 0 := by
    rw [pendingIn, htotal, hshared]
    rfl
  refine ⟨W, hreach, hrecorded, hposted, hpending, ?_⟩
  rw [Conserved]
  omega

/-! ## A flush that posts -/

/-- The call of the recorder, as the flusher makes it. -/
def FlushEvent.lift (e : FlushEvent) : FlusherEvent := ⟨.recorder e.call, e.resp⟩

/-- Answers under which every flush succeeds. -/
def acceptFlush : (c : FlushCall) → RecorderState → RecorderState × c.Resp
  | .takePoints, s => ({ s with points := ∅ }, s.points.values)
  | .token, s => (s, (.ok "token" : Except Err String))
  | .now, s => (s, Time.zero)
  | .marshal _, s => (s, (none : Option Err))
  | .newRequest _, s => (s, (none : Option Err))
  | .doRequest _, s => (s, (.ok 200 : Except Err ℤ))

theorem flusherAnswer_acceptFlush (c : FlushCall) (s : RecorderState) :
    flusherAnswer (.recorder c) s (acceptFlush c s).2 (acceptFlush c s).1 := by
  cases c with
  | takePoints => exact ⟨.refl _, rfl⟩
  | _ => rfl

theorem answers_acceptFlush {r : MetricRecorderOptions} (p : FlushProg (Option Err))
    (s : RecorderState) :
    Answers (metricSystem r) MetricRole.flusher s
      (p.interp (J := flusherInterface) fun c => (FlusherCall.recorder c).perform)
      ((p.traceWith (I := flushInterface) acceptFlush s).map FlushEvent.lift)
      (p.runWith (I := flushInterface) acceptFlush s).1
      (.ret (p.runWith (I := flushInterface) acceptFlush s).2) := by
  induction p generalizing s with
  | ret err => exact .nil _ _
  | call c k ih => exact .call (flusherAnswer_acceptFlush c s) (ih _ _)

theorem notGivenUp_acceptFlush {e : FlusherEvent} {p : FlushProg (Option Err)}
    {s : RecorderState} {i : ℕ}
    (h : e ∈ (p.traceWith (I := flushInterface) acceptFlush s).map FlushEvent.lift) :
    NotGivenUp sampleRecorder (.call .flusher i e) := by
  obtain ⟨⟨c, resp⟩, hmem, rfl⟩ := List.mem_map.1 h
  obtain ⟨s', hresp⟩ := exists_of_mem_traceWith (I := flushInterface) hmem
  obtain rfl : resp = (acceptFlush c s').2 := hresp
  rintro j e ⟨⟩ e' ⟨⟩
  cases c with
  | takePoints => exact Bool.and_false _
  | _ => rfl

/-- The sample is recorded, and a flush posts it. -/
theorem samples_conserved_iff_posted :
    Separate {id | id.NulFree} ∧
      ∃ W, Reach (metricSystem sampleRecorder) (fun W ℓ =>
          RecordsIn {id | id.NulFree} W ℓ ∧ NotGivenUp sampleRecorder ℓ) W ∧
        recordedIn W incrementSample.id = 1 ∧ postedIn sampleRecorder W incrementSample.id = 1 ∧
        ∀ id, Conserved sampleRecorder W id := by
  obtain ⟨W, hreach, -, hrecorded, htotal⟩ := reach_flusher (r := sampleRecorder)
    (C := fun W ℓ => RecordsIn {id | id.NulFree} W ℓ ∧ NotGivenUp sampleRecorder ℓ)
    (fun W k i p => ⟨fun j e h => absurd h (by simp), fun j e h => absurd h (by simp)⟩)
    (fun W => ⟨recordsIn_incrementSample W 0, fun j e h => absurd h (by simp)⟩) (.inl rfl)
    (answers_acceptFlush (flush sampleRecorder) _)
    (fun W e he => ⟨fun j e h => absurd h (by simp), notGivenUp_acceptFlush he⟩)
  have hconserved := (samples_conserved_iff sampleRecorder separate_nulFree).1 W hreach
  refine ⟨separate_nulFree, W, hreach, hrecorded, ?_, hconserved⟩
  rw [postedIn, htotal]
  decide +kernel

end PasswordHook
