import PasswordHook.AzureMonitor.Aggregation
import PasswordHook.AzureMonitor.Flusher

/-!
# The ledger of a flush

A flush accounts for every sample it takes: what is not posted is held for as long as the flush goes
on, and lost when it gives up.  With nothing in its hands it starts, and with nothing in its hands
it returns (`tracked_flush_ledger`); so do the loop and `Close`.
-/

namespace PasswordHook

open Prog

/-! ## Counts -/

section Counts

variable {id : SeriesID}

theorem pointCount_cons (point : MetricPoint) (points : List MetricPoint) :
    pointCount id (point :: points) = (if point.id = id then point.count else 0) +
      pointCount id points := by
  unfold pointCount
  by_cases h : point.id = id
  · simp [h]
  · simp [h]

theorem pointCount_append (points points' : List MetricPoint) :
    pointCount id (points ++ points') = pointCount id points + pointCount id points' := by
  simp [pointCount]

theorem pointCount_perm {points points' : List MetricPoint} (h : points.Perm points') :
    pointCount id points = pointCount id points' :=
  ((h.filter _).map _).sum_nat

theorem pointCount_pos {points : List MetricPoint} {point : MetricPoint} (h : point ∈ points)
    (hcount : 0 < point.count) : 0 < pointCount point.id points := by
  obtain ⟨before, after, rfl⟩ := List.append_of_mem h
  have hperm : (before ++ point :: after).Perm (point :: (before ++ after)) := List.perm_middle
  rw [pointCount_perm hperm, pointCount_cons, if_pos rfl]
  omega

theorem reportCount_append (reports reports' : List (ReportedSeries Bytes)) :
    reportCount id (reports ++ reports') = reportCount id reports + reportCount id reports' := by
  simp [reportCount]

theorem reportCount_perm {reports reports' : List (ReportedSeries Bytes)}
    (h : reports.Perm reports') :
    reportCount id reports = reportCount id reports' :=
  ((h.filter _).map _).sum_nat

theorem isOf_report_iff {id' : SeriesID} {summary : Summary} :
    (id'.report summary).IsOf id ↔ id' = id := by
  constructor
  · rintro ⟨hname, hnames, hvalues⟩
    have hlabels : ∀ id : SeriesID, id.labels = id.dimNames.zip id.dimValues := by
      intro id
      rw [SeriesID.dimNames, SeriesID.dimValues, List.zip_map']
      simp
    have hnames' : id'.dimNames = id.dimNames := hnames
    have hvalues' : id'.dimValues = id.dimValues := hvalues
    have heq : id'.labels = id.labels := by rw [hlabels, hlabels id, hnames', hvalues']
    cases id
    cases id'
    exact congrArg₂ SeriesID.mk hname heq
  · rintro rfl
    exact ⟨rfl, rfl, rfl⟩

/-- Reports of points under their own series count their samples. -/
theorem reportCount_points (points : List MetricPoint) :
    reportCount id (points.map fun point => point.id.report point.summary) =
      pointCount id points := by
  induction points with
  | nil => rfl
  | cons point points ih =>
    have hcons : reportCount id ((point :: points).map fun point => point.id.report point.summary) =
        reportCount id [point.id.report point.summary] +
          reportCount id (points.map fun point => point.id.report point.summary) :=
      reportCount_append [point.id.report point.summary] _
    rw [hcons, ih, pointCount_cons]
    congr 1
    by_cases h : point.id = id
    · rw [if_pos h, reportCount, List.filter_cons_of_pos (by simpa using isOf_report_iff.2 h)]
      simp [SeriesID.report, MetricPoint.summary]
    · rw [if_neg h, reportCount,
        List.filter_cons_of_neg (by simpa using fun hof => h (isOf_report_iff.1 hof))]
      rfl

end Counts

/-! ## What a flush takes -/

/-- Points of some series, with at least one sample each. -/
def Batch (A : Set SeriesID) (points : List MetricPoint) : Prop :=
  ∀ point ∈ points, point.id ∈ A ∧ 0 < point.count

section Batches

variable {A : Set SeriesID} {points : List MetricPoint}
  {payloads : List (AzureMonitorPayload Bytes)} {r : MetricRecorderOptions}

theorem Batch.separate (h : Batch A points) (separate : Separate A) :
    Separate {id | ∃ point ∈ points, point.id = id} := by
  apply separate.mono
  rintro id ⟨point, hpoint, rfl⟩
  exact (h point hpoint).1

theorem sum_payloadCount (id : SeriesID)
    (hpayloads : payloads.map AzureMonitorPayload.baseData =
      (sortedGroups points).map (baseDataOf r)) :
    (payloads.map (payloadCount id)).sum = reportCount id (flushReports r points) := by
  have hreports : flushReports r points =
      (payloads.map AzureMonitorPayload.baseData).flatMap AzureMonitorBaseData.reports := by
    rw [hpayloads, List.flatMap_map]
    rfl
  rw [hreports]
  clear hpayloads hreports
  induction payloads with
  | nil => rfl
  | cons payload payloads ih =>
    rw [List.map_cons, List.sum_cons, ih, List.map_cons, List.flatMap_cons, reportCount_append]
    rfl

/-- The payloads of a batch have its samples. -/
theorem Batch.sum_payloadCount (h : Batch A points) (separate : Separate A) (id : SeriesID)
    (hpayloads : payloads.map AzureMonitorPayload.baseData =
      (sortedGroups points).map (baseDataOf r)) :
    (payloads.map (payloadCount id)).sum = pointCount id points := by
  rw [PasswordHook.sum_payloadCount id hpayloads, flushReports,
    reportCount_perm (reports_sortedGroups r (h.separate separate)), reportCount_points]

/-- Every payload of a batch has a sample. -/
theorem Batch.payloadCount_pos (h : Batch A points)
    (hpayloads : payloads.map AzureMonitorPayload.baseData =
      (sortedGroups points).map (baseDataOf r))
    {payload : AzureMonitorPayload Bytes} (hpayload : payload ∈ payloads) :
    ∃ id, 0 < payloadCount id payload := by
  have hdata : payload.baseData ∈ (sortedGroups points).map (baseDataOf r) := by
    rw [← hpayloads]
    exact List.mem_map_of_mem hpayload
  obtain ⟨group, hgroup, hbase⟩ := List.mem_map.1 hdata
  obtain ⟨hfirst, hpoints⟩ := groupKey_of_mem hgroup
  have hcount := (h _ (hpoints _ hfirst).1).2
  refine ⟨(group.headD .zero).id, ?_⟩
  rw [payloadCount, ← hbase, reports_baseDataOf]
  obtain ⟨before, after, hsplit⟩ := List.append_of_mem hfirst
  have hperm : (group.map (group.headD .zero).reportUnder).Perm
      ((group.headD .zero).reportUnder (group.headD .zero) ::
        (before ++ after).map (group.headD .zero).reportUnder) := by
    rw [← List.map_cons]
    apply List.Perm.map
    conv_lhs => rw [hsplit]
    exact List.perm_middle
  rw [reportCount_perm hperm, reportUnder_eq rfl rfl]
  have hone : reportCount (group.headD .zero).id
      [(group.headD .zero).id.report (group.headD .zero).summary] = (group.headD .zero).count := by
    refine (reportCount_points [group.headD .zero]).trans ?_
    rw [pointCount_cons, if_pos rfl]
    rfl
  rw [← List.singleton_append, reportCount_append, hone]
  omega

end Batches

/-! ## The ledger along a flush -/

/-- What was taken is posted, held or lost; and something is lost if, and only if, a flush has given
up. -/
structure Ledger.Balanced (L : Ledger) : Prop where
  taken : ∀ id, L.taken id = L.posted id + L.held id + L.lost id
  lost : L.failed = true ↔ ∃ id, 0 < L.lost id

/-- Balanced, between two flushes. -/
def Ledger.Settled (L : Ledger) : Prop := L.Balanced ∧ ∀ id, L.held id = 0

/-- The flush still has these payloads to post. -/
structure Ledger.Holding (L : Ledger) (payloads : List (AzureMonitorPayload Bytes)) : Prop where
  balanced : L.Balanced
  held : ∀ id, L.held id = (payloads.map (payloadCount id)).sum
  nonempty : ∀ payload ∈ payloads, ∃ id, 0 < payloadCount id payload

theorem Ledger.settled_empty : Ledger.empty.Settled :=
  ⟨⟨fun _ => rfl, by simp [Ledger.empty]⟩, fun _ => rfl⟩

section Ledgers

variable {r : MetricRecorderOptions} {L : Ledger} {e : FlushEvent} {A : Set SeriesID}
  {points : List MetricPoint}

theorem FlushEvent.IsQuiet.ledger (h : e.IsQuiet) : L.next r e = L := by
  obtain ⟨htaken, hfails, hposted⟩ := h
  have hgives : e.givesUp r = false := by rw [FlushEvent.givesUp, htaken, hfails]
  ext <;> simp [Ledger.next, Ledger.holds, FlushEvent.takenCount,
    FlushEvent.postedCount, pointCount, htaken, hposted, hgives]

/-- A call that fails takes nothing and posts nothing. -/
theorem FlushEvent.of_fails (h : e.fails = true) : e.taken = none ∧ e.posted = none := by
  obtain ⟨c, resp⟩ := e
  cases c with
  | takePoints => exact absurd h Bool.false_ne_true
  | doRequest req =>
    refine ⟨rfl, ?_⟩
    cases resp with
    | error err => rfl
    | ok status => exact if_pos (of_decide_eq_true h)
  | _ => exact ⟨rfl, rfl⟩

theorem FlushEvent.of_posted {payload : AzureMonitorPayload Bytes} (h : e.posted = some payload) :
    e.taken = none ∧ e.fails = false := by
  constructor
  · obtain ⟨c, resp⟩ := e
    cases c with
    | doRequest req => rfl
    | _ => exact absurd h (by simp [FlushEvent.posted, FlushCall.posted])
  · by_contra hfails
    rw [(FlushEvent.of_fails (Bool.eq_true_of_not_eq_false hfails)).2] at h
    exact absurd h (by simp)

/-- A flush that gives up loses what it holds. -/
theorem Ledger.Balanced.fails (h : L.Balanced) (hheld : ∃ id, 0 < L.held id)
    (hfails : e.fails = true) :
    (L.next r e).Settled := by
  obtain ⟨htaken, hposted⟩ := FlushEvent.of_fails hfails
  have hgives : e.givesUp r = true := by rw [FlushEvent.givesUp, htaken, hfails]
  have hnext : L.next r e =
      ⟨L.taken, L.posted, fun _ => 0, fun id => L.lost id + L.held id, true⟩ := by
    ext <;> simp [Ledger.next, Ledger.holds, FlushEvent.takenCount,
      FlushEvent.postedCount, pointCount, htaken, hposted, hgives]
  rw [hnext]
  refine ⟨⟨fun id => ?_, ?_⟩, fun _ => rfl⟩
  · have := h.taken id
    dsimp only
    omega
  · obtain ⟨id, hid⟩ := hheld
    refine ⟨fun _ => ⟨id, ?_⟩, fun _ => rfl⟩
    dsimp only
    omega

theorem Ledger.Holding.exists_held {payload : AzureMonitorPayload Bytes}
    {rest : List (AzureMonitorPayload Bytes)} (h : L.Holding (payload :: rest)) :
    ∃ id, 0 < L.held id := by
  obtain ⟨id, hid⟩ := h.nonempty payload List.mem_cons_self
  refine ⟨id, ?_⟩
  rw [h.held, List.map_cons, List.sum_cons]
  omega

theorem Ledger.Holding.posted {payload : AzureMonitorPayload Bytes}
    {rest : List (AzureMonitorPayload Bytes)} (h : L.Holding (payload :: rest))
    (hposted : e.posted = some payload) : (L.next r e).Holding rest := by
  obtain ⟨htaken, hfails⟩ := FlushEvent.of_posted hposted
  have hgives : e.givesUp r = false := by rw [FlushEvent.givesUp, htaken, hfails]
  have hheld : ∀ id, L.held id = payloadCount id payload + (rest.map (payloadCount id)).sum := by
    intro id
    rw [h.held, List.map_cons, List.sum_cons]
  have hnext : L.next r e =
      ⟨L.taken, fun id => L.posted id + payloadCount id payload,
        fun id => (rest.map (payloadCount id)).sum, L.lost, L.failed⟩ := by
    ext <;> simp [Ledger.next, Ledger.holds, FlushEvent.takenCount,
      FlushEvent.postedCount, pointCount, htaken, hposted, hgives, hheld]
  rw [hnext]
  refine ⟨⟨fun id => ?_, h.balanced.lost⟩, fun _ => rfl, fun payload' hpayload' =>
    h.nonempty payload' (List.mem_cons_of_mem _ hpayload')⟩
  have := h.balanced.taken id
  have := hheld id
  dsimp only
  omega

/-- The points are taken and the flush goes on with them. -/
theorem Ledger.next_take (hsource : points ≠ [] → r.tokenSource = true) :
    L.next r (⟨.takePoints, points⟩ : FlushEvent) =
      ⟨fun id => L.taken id + pointCount id points, L.posted, fun id =>
        pointCount id points, L.lost,
        L.failed⟩ := by
  have hgives : FlushEvent.givesUp r (⟨.takePoints, points⟩ : FlushEvent) = false := by
    show (!points.isEmpty && !r.tokenSource) = false
    cases points with
    | nil => rfl
    | cons point points => simp [hsource (List.cons_ne_nil _ _)]
  ext <;> simp [Ledger.next, Ledger.holds, FlushEvent.takenCount, FlushEvent.postedCount,
    FlushEvent.taken, FlushEvent.posted, FlushCall.taken, FlushCall.posted, hgives]

theorem Ledger.Settled.take (h : L.Settled) (hsource : points ≠ [] → r.tokenSource = true) :
    (L.next r (⟨.takePoints, points⟩ : FlushEvent)).Balanced ∧
      ∀ id, (L.next r (⟨.takePoints, points⟩ : FlushEvent)).held id = pointCount id points := by
  rw [Ledger.next_take hsource]
  refine ⟨⟨fun id => ?_, h.1.lost⟩, fun _ => rfl⟩
  have := h.1.taken id
  have := h.2 id
  dsimp only
  omega

/-- Without a token source the points are taken and lost. -/
theorem Ledger.Settled.take_unset (h : L.Settled) (hpoints : ∃ id, 0 < pointCount id points)
    (hunset : r.tokenSource = false) :
    (L.next r (⟨.takePoints, points⟩ : FlushEvent)).Settled := by
  obtain ⟨id, hid⟩ := hpoints
  have hgives : FlushEvent.givesUp r (⟨.takePoints, points⟩ : FlushEvent) = true := by
    show (!points.isEmpty && !r.tokenSource) = true
    cases points with
    | nil => exact absurd hid (Nat.lt_irrefl 0)
    | cons point points => simp [hunset]
  have hnext : L.next r (⟨.takePoints, points⟩ : FlushEvent) =
      ⟨fun id => L.taken id + pointCount id points, L.posted, fun _ => 0,
        fun id => L.lost id + pointCount id points, true⟩ := by
    ext <;> simp [Ledger.next, Ledger.holds, FlushEvent.takenCount, FlushEvent.postedCount,
      FlushEvent.taken, FlushEvent.posted, FlushCall.taken, FlushCall.posted, hgives]
  rw [hnext]
  refine ⟨⟨fun id => ?_, fun _ => ⟨id, ?_⟩, fun _ => rfl⟩, fun _ => rfl⟩
  · have := h.1.taken id
    have := h.2 id
    dsimp only
    omega
  · dsimp only
    omega

end Ledgers

section Programs

variable (r : MetricRecorderOptions) (A : Set SeriesID)

/-- The ledger of a flush, as long as it takes batches. -/
def flushMonitor : Monitor flushInterface Ledger where
  next := Ledger.next r
  assumes e := ∀ points ∈ FlushEvent.taken e, Batch A points
  inv := Ledger.Balanced

def flusherMonitor : Monitor flusherInterface Ledger where
  next := Ledger.after r
  assumes e := ∀ e' ∈ FlusherEvent.flush? e, (flushMonitor r A).assumes e'
  inv := Ledger.Balanced

variable {r A} {L : Ledger}

/-- A flush ends with nothing in its hands. -/
theorem tracked_flush_ledger (separate : Separate A) (h : L.Settled) :
    (flush r).Tracked (flushMonitor r A) (fun _ L => L.Settled) L := by
  apply tracked_flush r (P := fun payloads L => L.Holding payloads)
  · intro L hL
    exact ⟨hL.balanced, hL.held⟩
  · intro payload rest L hL
    refine ⟨hL.balanced, fun e he => he.ledger, fun e he => ?_, fun e he => ?_⟩
    · have hlost : (L.next r e).Settled := hL.balanced.fails hL.exists_held he
      exact ⟨hlost.1, fun _ => hlost⟩
    · exact ⟨(hL.posted he).balanced, hL.posted he⟩
  · rintro points L₁ assumed rfl
    have hbatch : Batch A points := assumed points rfl
    have hpos : points ≠ [] → ∃ id, 0 < pointCount id points := by
      intro hpoints
      obtain ⟨point, rest, rfl⟩ := List.exists_cons_of_ne_nil hpoints
      exact ⟨point.id, pointCount_pos List.mem_cons_self (hbatch point List.mem_cons_self).2⟩
    by_cases hsource : points ≠ [] → r.tokenSource = true
    · obtain ⟨hbalanced, hheld⟩ := h.take hsource
      refine ⟨hbalanced, ?_, fun hpoints hunset => ?_, fun hpoints _ =>
        ⟨fun e he => he.ledger, ?_, ?_⟩⟩
      · rintro rfl
        exact ⟨hbalanced, hheld⟩
      · exact absurd (hsource hpoints) (by rw [hunset]; exact Bool.false_ne_true)
      · intro e he
        obtain ⟨id, hid⟩ := hpos hpoints
        have hlost : ((L.next r (⟨.takePoints, points⟩ : FlushEvent)).next r e).Settled :=
          hbalanced.fails ⟨id, by rw [hheld]; exact hid⟩ he
        exact ⟨hlost.1, fun _ => hlost⟩
      · intro payloads hpayloads
        refine ⟨hbalanced, fun id => ?_, fun payload => hbatch.payloadCount_pos hpayloads⟩
        exact (hheld id).trans (hbatch.sum_payloadCount separate id hpayloads).symm
    · obtain ⟨hpoints, hunset⟩ := Classical.not_imp.1 hsource
      have hsettled := h.take_unset (hpos hpoints) (Bool.eq_false_of_not_eq_true hunset)
      exact ⟨hsettled.1, fun _ => hsettled, fun _ _ _ => hsettled, fun _ hset => absurd hset hunset⟩

theorem tracked_flusherFlush (separate : Separate A) (h : L.Settled) :
    (flusherFlush r).Tracked (flusherMonitor r A) (fun _ L => L.Settled) L := by
  apply (tracked_flush_ledger separate h).interp
  intro c L R hR
  apply tracked_call_iff.2
  intro resp assumed
  exact hR resp (assumed _ rfl)

theorem tracked_flushWithTimeout (separate : Separate A) (h : L.Settled) :
    (flushWithTimeout r).Tracked (flusherMonitor r A) (fun _ L => L.Settled) L := by
  apply tracked_bind_iff.2
  apply (tracked_flusherFlush separate h).mono
  intro err L hL
  cases err with
  | none => exact hL
  | some err => exact fun _ _ => ⟨hL.1, hL⟩

/-- The loop, by induction on its turns. -/
theorem tracked_flusherRun (separate : Separate A) (turns : ℕ) (h : L.Settled) :
    (flusherRun r turns).Tracked (flusherMonitor r A) (fun _ L => L.Settled) L := by
  induction turns generalizing L with
  | zero => exact h
  | succ turns ih =>
    apply tracked_call_iff.2
    intro wake _
    refine ⟨h.1, ?_⟩
    cases wake with
    | tick =>
      show ((flushWithTimeout r).bind _).Tracked (flusherMonitor r A) _ L
      apply tracked_bind_iff.2
      apply (tracked_flushWithTimeout separate h).mono
      exact fun _ L hL => ih hL
    | stop => exact fun _ _ => ⟨h.1, h⟩

theorem tracked_flusherClose (separate : Separate A) (h : L.Settled) :
    (flusherClose r).Tracked (flusherMonitor r A) (fun _ L => L.Settled) L := by
  apply tracked_call_iff.2
  refine fun _ _ => ⟨h.1, tracked_call_iff.2 fun _ _ => ⟨h.1, ?_⟩⟩
  exact tracked_flusherFlush separate h

end Programs

end PasswordHook
