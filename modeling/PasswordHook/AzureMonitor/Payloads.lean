import PasswordHook.AzureMonitor.Keys
import PasswordHook.Lib.Monitor

/-!
# What a flush posts

`Flush` posts one payload for each group of the points it took, and stops at the first failure.
When the keys of the points keep their series apart, the payloads report every point under its own
series (`reports_sortedGroups`).
-/

namespace PasswordHook

open Prog

/-! ## Reports -/

/-- What is known of the values of a series. -/
structure Summary where
  min : ℚ
  max : ℚ
  sum : ℚ
  count : ℕ
  deriving DecidableEq

def MetricPoint.summary (point : MetricPoint) :
    Summary := ⟨point.min, point.max, point.sum, point.count⟩

/-- A series as a payload has it, with the name and the label names of the payload. -/
structure ReportedSeries (S : Type) where
  metric : S
  dimNames : List S
  dimValues : List S
  summary : Summary
  deriving DecidableEq

def ReportedSeries.map {S T : Type} (f : S → T) (r : ReportedSeries S) : ReportedSeries T :=
  ⟨f r.metric, r.dimNames.map f, r.dimValues.map f, r.summary⟩

/-- The series of a payload. -/
def AzureMonitorBaseData.reports {S : Type} (data : AzureMonitorBaseData S) :
    List (ReportedSeries S) :=
  data.series.map fun s => ⟨data.metric, data.dimNames, s.dimValues, ⟨s.min, s.max, s.sum, s.count⟩⟩

/-- The report of a series under its own name and label names. -/
def SeriesID.report (id : SeriesID) (summary : Summary) : ReportedSeries Bytes :=
  ⟨id.name, id.dimNames, id.dimValues, summary⟩

/-- The report of a point in a group that starts with another. -/
def MetricPoint.reportUnder (first point : MetricPoint) : ReportedSeries Bytes :=
  ⟨first.name, first.id.dimNames, first.id.dimNames.map point.labels.get, point.summary⟩

theorem reports_document (payload : AzureMonitorPayload Bytes) :
    payload.document.baseData.reports =
      payload.baseData.reports.map (ReportedSeries.map jsonText) := by
  simp [AzureMonitorPayload.document, AzureMonitorBaseData.reports, ReportedSeries.map,
    Function.comp_def]

theorem reports_baseDataOf (r : MetricRecorderOptions) (group : List MetricPoint) :
    (baseDataOf r group).reports = group.map (group.headD .zero).reportUnder := by
  simp [baseDataOf, AzureMonitorBaseData.reports, MetricPoint.reportUnder, MetricPoint.summary,
    MetricPoint.id, dimNames_seriesID, Function.comp_def]

theorem reportUnder_eq {first point : MetricPoint} (hname : first.name = point.name)
    (hnames : first.id.dimNames = point.id.dimNames) :
    first.reportUnder point = point.id.report point.summary := by
  have hvalues : point.id.dimNames.map point.labels.get = point.id.dimValues := by
    rw [MetricPoint.id, dimNames_seriesID]
    simp [SeriesID.dimValues, seriesID, Function.comp_def]
  rw [MetricPoint.reportUnder, hnames, hvalues, hname]
  rfl

/-! ## Groups -/

section Groups

variable {points group : List MetricPoint}

theorem mem_sortedGroups_iff :
    group ∈ sortedGroups points ↔
      ∃ point ∈ points, group = sortGroup (points.filter fun p => p.groupKey = point.groupKey) := by
  have hlookup : ∀ {key : Bytes}, key ∈ groups MetricPoint.groupKey points →
      (AList.lookup key (groups MetricPoint.groupKey points)).getD [] =
        points.filter fun p => p.groupKey = key :=
    fun h => by rw [lookup_groups h, Option.getD_some]
  rw [sortedGroups, List.mem_map]
  constructor
  · rintro ⟨key, hkey, rfl⟩
    have hmem : key ∈ groups MetricPoint.groupKey points := (perm_sortStrings _).subset hkey
    obtain ⟨point, hpoint, rfl⟩ := mem_gather_iff.1 hmem
    exact ⟨point, hpoint, congrArg sortGroup (hlookup hmem)⟩
  · rintro ⟨point, hpoint, rfl⟩
    have hmem : point.groupKey ∈ groups MetricPoint.groupKey points :=
      mem_gather_iff.2 ⟨point, hpoint, rfl⟩
    exact ⟨point.groupKey, (perm_sortStrings _).symm.subset hmem, congrArg sortGroup (hlookup hmem)⟩

theorem perm_sortGroup (group : List MetricPoint) : (sortGroup group).Perm group :=
  List.perm_insertionSort _ group

/-- Every point is in one group. -/
theorem perm_flatten_sortedGroups (points : List MetricPoint) :
    (sortedGroups points).flatten.Perm points := by
  have hperm : ((sortStrings (groups MetricPoint.groupKey points).keys).flatMap fun key =>
      sortGroup ((AList.lookup key (groups MetricPoint.groupKey points)).getD [])).Perm
        ((sortStrings (groups MetricPoint.groupKey points).keys).flatMap fun key =>
          points.filter fun p => p.groupKey = key) := by
    apply List.Perm.flatMap_left
    intro key hkey
    have hmem : key ∈ groups MetricPoint.groupKey points := (perm_sortStrings _).subset hkey
    rw [lookup_groups hmem, Option.getD_some]
    exact perm_sortGroup _
  refine hperm.trans (perm_flatMap_filter ?_ ?_)
  · exact (perm_sortStrings _).nodup_iff.2 (AList.keys_nodup _)
  · intro point hpoint
    apply (perm_sortStrings _).symm.subset
    exact mem_gather_iff.2 ⟨point, hpoint, rfl⟩

/-- The points of a group have its key, and a group has a first one. -/
theorem groupKey_of_mem (h : group ∈ sortedGroups points) :
    group.headD .zero ∈ group ∧ ∀ point ∈ group,
      point ∈ points ∧ point.groupKey = (group.headD .zero).groupKey := by
  obtain ⟨point, hpoint, rfl⟩ := mem_sortedGroups_iff.1 h
  have hmem : ∀ {p : MetricPoint},
      p ∈ sortGroup (points.filter fun p => p.groupKey = point.groupKey) ↔
        p ∈ points ∧ p.groupKey = point.groupKey := by
    intro p
    rw [(perm_sortGroup _).mem_iff, List.mem_filter, decide_eq_true_iff]
  have hhead : ∀ {l : List MetricPoint}, l ≠ [] → l.headD .zero ∈ l := by
    intro l hl
    cases l with
    | nil => exact absurd rfl hl
    | cons p l => exact List.mem_cons_self
  have hfirst := hhead (List.ne_nil_of_mem (hmem.2 ⟨hpoint, rfl⟩))
  refine ⟨hfirst, fun p hp => ⟨(hmem.1 hp).1, ?_⟩⟩
  rw [(hmem.1 hp).2, (hmem.1 hfirst).2]

/-- The key of its first point determines a group. -/
theorem eq_sortGroup_of_mem (h : group ∈ sortedGroups points) :
    group = sortGroup (points.filter fun p => p.groupKey = (group.headD .zero).groupKey) := by
  obtain ⟨point, hpoint, hgroup⟩ := mem_sortedGroups_iff.1 h
  have hmem : point ∈ group := by
    rw [hgroup, (perm_sortGroup _).mem_iff, List.mem_filter]
    exact ⟨hpoint, by simp⟩
  rw [← ((groupKey_of_mem h).2 point hmem).2]
  exact hgroup

/-- Points whose series are kept apart are reported under their own series. -/
theorem reports_sortedGroups (r : MetricRecorderOptions)
    (separate : Separate {id | ∃ point ∈ points, point.id = id}) :
    ((sortedGroups points).flatMap fun group => (baseDataOf r group).reports).Perm
      (points.map fun point => point.id.report point.summary) := by
  have hreports : ((sortedGroups points).flatMap fun group => (baseDataOf r group).reports) =
      (sortedGroups points).flatten.map fun point => point.id.report point.summary := by
    rw [List.map_flatten, List.flatMap_def]
    congr 1
    apply List.map_congr_left
    intro group hgroup
    obtain ⟨hfirst, hpoints⟩ := groupKey_of_mem hgroup
    rw [reports_baseDataOf]
    apply List.map_congr_left
    intro point hpoint
    obtain ⟨hmem, hkey⟩ := hpoints point hpoint
    rw [groupKey_eq, groupKey_eq] at hkey
    obtain ⟨hname, hnames⟩ := separate.group _ ⟨_, (hpoints _ hfirst).1, rfl⟩ _ ⟨point, hmem, rfl⟩
      hkey.symm
    exact reportUnder_eq hname hnames
  rw [hreports]
  exact (perm_flatten_sortedGroups points).map _

end Groups

/-! ## Events of a flush -/

/-- The points that are taken. -/
def FlushCall.taken : (c : FlushCall) → c.Resp → Option (List MetricPoint)
  | .takePoints, points => some points
  | _, _ => none

/-- The call has failed, and `Flush` returns. -/
def FlushCall.fails : (c : FlushCall) → c.Resp → Bool
  | .token, answer =>
    match (answer : Except Err String) with
    | .error _ => true
    | .ok _ => false
  | .marshal _, err => (err : Option Err).isSome
  | .newRequest _, err => (err : Option Err).isSome
  | .doRequest _, answer =>
    match (answer : Except Err ℤ) with
    | .error _ => true
    | .ok status => status < 200 ∨ 300 ≤ status
  | _, _ => false

/-- The payload whose post has succeeded. -/
def FlushCall.posted : (c : FlushCall) → c.Resp → Option (AzureMonitorPayload Bytes)
  | .doRequest req, answer =>
    match (answer : Except Err ℤ) with
    | .error _ => none
    | .ok status => if status < 200 ∨ 300 ≤ status then none else some req.payload
  | _, _ => none

def FlushEvent.taken (e : FlushEvent) : Option (List MetricPoint) := e.call.taken e.resp

def FlushEvent.fails (e : FlushEvent) : Bool := e.call.fails e.resp

def FlushEvent.posted (e : FlushEvent) : Option (AzureMonitorPayload Bytes) := e.call.posted e.resp

/-- Nothing is taken, posted or given up. -/
def FlushEvent.IsQuiet (e : FlushEvent) : Prop :=
  e.taken = none ∧ e.fails = false ∧ e.posted = none

/-- The payloads of a trace whose posts have succeeded. -/
def postedPayloads (τ : List FlushEvent) : List (AzureMonitorPayload Bytes) :=
  τ.filterMap FlushEvent.posted

/-! ## Rules for monitors of a flush -/

section Rules

variable {σ : Type} {M : Monitor flushInterface σ} (r : MetricRecorderOptions)

theorem tracked_payloadsOf (groups : List (List MetricPoint)) {s : σ} (hinv : M.inv s)
    (quiet : ∀ e : FlushEvent, e.IsQuiet → M.next s e = s) :
    (payloadsOf r groups).Tracked M (fun payloads s' =>
      s' = s ∧ payloads.map AzureMonitorPayload.baseData = groups.map (baseDataOf r)) s := by
  induction groups with
  | nil => exact ⟨rfl, rfl⟩
  | cons group rest ih =>
    apply tracked_bind_iff.2
    apply tracked_call_iff.2
    intro now _
    have hnow : M.next s (⟨.now, now⟩ : FlushEvent) = s := quiet _ ⟨rfl, rfl, rfl⟩
    rw [hnow]
    refine ⟨hinv, ?_⟩
    show ((payloadsOf r rest).bind _).Tracked M _ s
    apply tracked_bind_iff.2
    apply ih.mono
    rintro payloads s' ⟨rfl, hpayloads⟩
    exact ⟨rfl, congrArg (List.cons _) hpayloads⟩

variable (token : String)

theorem tracked_postPayload (payload : AzureMonitorPayload Bytes)
    {Q : Option Err → σ → Prop} {s : σ} (hinv : M.inv s)
    (quiet : ∀ e : FlushEvent, e.IsQuiet → M.next s e = s)
    (failed : ∀ e : FlushEvent, e.fails = true → M.inv (M.next s e) ∧
      ∀ err, Q (some err) (M.next s e)) (posted : ∀ e : FlushEvent, e.posted = some payload →
      M.inv (M.next s e) ∧ Q none (M.next s e)) :
    (postPayload r token payload).Tracked M Q s := by
  apply tracked_call_iff.2
  intro err _
  cases err with
  | some err =>
    obtain ⟨hnext, hQ⟩ := failed ⟨.marshal payload, some err⟩ rfl
    exact ⟨hnext, hQ _⟩
  | none =>
    have hmarshal : M.next s (⟨.marshal payload, none⟩ : FlushEvent) = s := quiet _ ⟨rfl, rfl, rfl⟩
    rw [hmarshal]
    refine ⟨hinv, tracked_call_iff.2 ?_⟩
    intro err _
    cases err with
    | some err =>
      obtain ⟨hnext, hQ⟩ := failed ⟨.newRequest (metricsEndpoint r), some err⟩ rfl
      exact ⟨hnext, hQ _⟩
    | none =>
      have hrequest : M.next s (⟨.newRequest (metricsEndpoint r), none⟩ : FlushEvent) = s :=
        quiet _ ⟨rfl, rfl, rfl⟩
      rw [hrequest]
      refine ⟨hinv, tracked_call_iff.2 ?_⟩
      intro answer _
      cases answer with
      | error err =>
        obtain ⟨hnext, hQ⟩ := failed ⟨.doRequest (metricsRequest r token payload), .error err⟩ rfl
        exact ⟨hnext, hQ _⟩
      | ok status =>
        by_cases hstatus : status < 200 ∨ 300 ≤ status
        · obtain ⟨hnext, hQ⟩ := failed ⟨.doRequest (metricsRequest r token payload), .ok status⟩
            (decide_eq_true hstatus)
          refine ⟨hnext, ?_⟩
          show Q (if status < 200 ∨ 300 ≤ status then _ else none) _
          rw [if_pos hstatus]
          exact hQ _
        · obtain ⟨hnext, hQ⟩ := posted ⟨.doRequest (metricsRequest r token payload), .ok status⟩
            (if_neg hstatus)
          refine ⟨hnext, ?_⟩
          show Q (if status < 200 ∨ 300 ≤ status then _ else none) _
          rw [if_neg hstatus]
          exact hQ

/-- The loop, with an invariant about the payloads that are left. -/
theorem tracked_postPayloads {P : List (AzureMonitorPayload Bytes) → σ → Prop}
    {Q : Option Err → σ → Prop} (done : ∀ s, P [] s → Q none s)
    (turn : ∀ payload rest s, P (payload :: rest) s →
      M.inv s ∧ (∀ e : FlushEvent, e.IsQuiet → M.next s e = s) ∧
        (∀ e : FlushEvent, e.fails = true → M.inv (M.next s e) ∧ ∀ err, Q (some err) (M.next s e)) ∧
        ∀ e : FlushEvent, e.posted = some payload → M.inv (M.next s e) ∧ P rest (M.next s e))
    {payloads : List (AzureMonitorPayload Bytes)} {s : σ} (hP : P payloads s) :
    (postPayloads r token payloads).Tracked M Q s := by
  induction payloads generalizing s with
  | nil => exact done s hP
  | cons payload rest ih =>
    obtain ⟨hinv, quiet, failed, posted⟩ := turn payload rest s hP
    apply tracked_bind_iff.2
    apply tracked_postPayload r token payload hinv quiet
    · exact fun e he => failed e he
    · intro e he
      obtain ⟨hnext, hrest⟩ := posted e he
      exact ⟨hnext, ih hrest⟩

/-- `Flush`: what holds when the points have been taken, and the rule of the loop. -/
theorem tracked_flush {P : List (AzureMonitorPayload Bytes) → σ → Prop} {Q : Option Err → σ → Prop}
    (done : ∀ s, P [] s → Q none s)
    (turn : ∀ payload rest s, P (payload :: rest) s →
      M.inv s ∧ (∀ e : FlushEvent, e.IsQuiet → M.next s e = s) ∧
        (∀ e : FlushEvent, e.fails = true → M.inv (M.next s e) ∧ ∀ err, Q (some err) (M.next s e)) ∧
        ∀ e : FlushEvent, e.posted = some payload → M.inv (M.next s e) ∧ P rest (M.next s e))
    {s : σ}
    (take : ∀ (points : List MetricPoint) (s₁ : σ), M.assumes (⟨.takePoints, points⟩ : FlushEvent) →
      s₁ = M.next s (⟨.takePoints, points⟩ : FlushEvent) →
        M.inv s₁ ∧ (points = [] → Q none s₁) ∧
        (points ≠ [] → r.tokenSource = false → ∀ err, Q (some err) s₁) ∧
        (points ≠ [] → r.tokenSource = true →
          (∀ e : FlushEvent, e.IsQuiet → M.next s₁ e = s₁) ∧
          (∀ e : FlushEvent, e.fails = true → M.inv (M.next s₁ e) ∧
            ∀ err, Q (some err) (M.next s₁ e)) ∧
          ∀ payloads : List (AzureMonitorPayload Bytes),
            payloads.map AzureMonitorPayload.baseData = (sortedGroups points).map (baseDataOf r) →
              P payloads s₁)) :
    (flush r).Tracked M Q s := by
  apply tracked_call_iff.2
  intro points assumed
  obtain ⟨hinv, hempty, hunset, hset⟩ := take points _ assumed rfl
  refine ⟨hinv, ?_⟩
  generalize M.next s (⟨.takePoints, points⟩ : FlushEvent) = s₁ at hinv hempty hunset hset
  show Tracked M Q (if points.length = 0 then _ else if !r.tokenSource then _ else _) s₁
  by_cases hpoints : points = []
  · rw [if_pos (List.length_eq_zero_iff.2 hpoints)]
    exact hempty hpoints
  · rw [if_neg (fun h => hpoints (List.length_eq_zero_iff.1 h))]
    cases hsource : r.tokenSource with
    | false => exact hunset hpoints hsource _
    | true =>
      obtain ⟨quiet, failed, posts⟩ := hset hpoints hsource
      apply tracked_call_iff.2
      intro answer _
      cases answer with
      | error err =>
        obtain ⟨hnext, hQ⟩ := failed ⟨.token, .error err⟩ rfl
        exact ⟨hnext, hQ _⟩
      | ok token =>
        have htoken : M.next s₁ (⟨.token, .ok token⟩ : FlushEvent) = s₁ := quiet _ ⟨rfl, rfl, rfl⟩
        rw [htoken]
        refine ⟨hinv, ?_⟩
        show ((payloadsOf r (sortedGroups points)).bind _).Tracked M Q s₁
        apply tracked_bind_iff.2
        apply (tracked_payloadsOf r (sortedGroups points) hinv quiet).mono
        rintro payloads s' ⟨rfl, hpayloads⟩
        exact tracked_postPayloads r token done turn (posts payloads hpayloads)

end Rules

end PasswordHook
