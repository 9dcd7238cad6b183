import PasswordHook.AzureMonitor.Payloads

/-!
# Aggregation of samples

A flush whose posts succeed reports the samples since the previous one.  It reports each series
once, with the summary of its own samples, exactly when the keys keep the series of these samples
apart and their texts come out of JSON as they are (`reports_faithful_iff`).
-/

namespace PasswordHook

open Prog

/-! ## The points of the samples -/

/-- The sample that a recording adds, if it has a name. -/
def Recording.sample (r : Recording) : Option Sample :=
  let name := trimSpaceBytes r.name
  if name = [] then none else some ⟨name, allowedLabels r.labels, r.value⟩

/-- The points after the samples. -/
def samplePoints (samples : List Sample) : Points :=
  gather (fun s : Sample => s.id.key) (fun point s => (point.getD .zero).add s) samples

theorem points_add_eq (points : Points) (s : Sample) :
    points.add s = collect (fun s : Sample => s.id.key) (fun point s => (point.getD .zero).add s)
      points s := by
  rw [Points.add, metricKey_eq]
  rfl

theorem points_record_eq (points : Points) (r : Recording) :
    points.record r = r.sample.elim points points.add := by
  unfold Points.record record Recording.sample
  by_cases hname : trimSpaceBytes r.name = []
  · simp only [hname, if_true]
    rfl
  · simp only [hname, if_false]
    rfl

theorem foldl_record (rs : List Recording) :
    rs.foldl Points.record ∅ = samplePoints (rs.filterMap Recording.sample) := by
  rw [samplePoints, gather, List.foldl_filterMap]
  congr 1
  funext points r
  rw [points_record_eq]
  cases r.sample with
  | none => rfl
  | some s => exact points_add_eq points s

/-- What is known of a list of values. -/
def summarize (values : List ℚ) : Summary :=
  ⟨values.min?.getD 0, values.max?.getD 0, values.sum, values.length⟩

theorem add_zero_eq (s : Sample) :
    MetricPoint.zero.add s = ⟨s.name, s.labels, s.value, s.value, s.value, 1, true⟩ := by
  simp [MetricPoint.add, MetricPoint.zero]

theorem add_of_observed {point : MetricPoint} (h : point.observed = true) (s : Sample) :
    point.add s =
      { point with
        min := min point.min s.value
        max := max point.max s.value
        sum := point.sum + s.value
        count := point.count + 1 } := by
  unfold MetricPoint.add
  simp only [h, Bool.not_true, Bool.false_eq_true, if_false]
  rcases lt_or_ge s.value point.min with hmin | hmin
  · rcases lt_or_ge point.max s.value with hmax | hmax
    · simp [hmin, hmax, hmin.le, hmax.le]
    · simp [hmin, hmax.not_gt, hmin.le, hmax]
  · rcases lt_or_ge point.max s.value with hmax | hmax
    · simp [hmin.not_gt, hmax, hmin, hmax.le, h]
    · simp [hmin.not_gt, hmax.not_gt, hmin, hmax, h]

theorem foldl_add_of_observed {point : MetricPoint} (h : point.observed = true) (ss : List Sample) :
    ss.foldl (fun v s => some ((Option.getD v .zero).add s)) (some point) =
      some
        { point with
          min := (ss.map Sample.value).foldl min point.min
          max := (ss.map Sample.value).foldl max point.max
          sum := point.sum + (ss.map Sample.value).sum
          count := point.count + ss.length } := by
  induction ss generalizing point with
  | nil => simp
  | cons s ss ih =>
    have hobserved : (point.add s).observed = true := by
      rw [add_of_observed h]
      exact h
    rw [List.foldl_cons, Option.getD_some, ih hobserved, add_of_observed h]
    simp only [List.map_cons, List.foldl_cons, List.sum_cons, List.length_cons, add_assoc,
      add_comm ss.length 1]

/-- The point of a key: the series of one of its samples, with the summary of all of them. -/
theorem lookup_samplePoints {samples : List Sample} {s : Sample} (hs : s ∈ samples) :
    ∃ point, (samplePoints samples).lookup s.id.key = some point ∧
      (∃ s' ∈ samples, s'.id.key = s.id.key ∧ point.id = s'.id) ∧
      point.summary =
        summarize ((samples.filter fun s' => s'.id.key = s.id.key).map Sample.value) := by
  rw [samplePoints, lookup_gather]
  have hmem : s ∈ samples.filter fun s' => s'.id.key = s.id.key := List.mem_filter.2 ⟨hs, by simp⟩
  obtain ⟨first, rest, hrest⟩ := List.exists_cons_of_ne_nil (List.ne_nil_of_mem hmem)
  have hfirst : first ∈ samples.filter fun s' => s'.id.key = s.id.key := by
    rw [hrest]
    exact List.mem_cons_self
  obtain ⟨hsample, hkey⟩ := List.mem_filter.1 hfirst
  rw [hrest, List.foldl_cons, Option.getD_none, add_zero_eq, foldl_add_of_observed rfl]
  refine ⟨_, rfl, ⟨first, hsample, by simpa using hkey, rfl⟩, ?_⟩
  rw [summarize, List.map_cons, List.min?_cons', List.max?_cons', List.sum_cons, List.length_cons,
    List.length_map, Nat.add_comm]
  rfl

theorem mem_samplePoints_iff {samples : List Sample} {key : Bytes} :
    key ∈ samplePoints samples ↔ ∃ s ∈ samples, s.id.key = key :=
  mem_gather_iff

/-- Every point has the series of a sample. -/
theorem id_of_mem_values {samples : List Sample} {point : MetricPoint}
    (h : point ∈ (samplePoints samples).values) : ∃ s ∈ samples, point.id = s.id := by
  obtain ⟨key, hkey⟩ := KeyMap.mem_values_iff.1 h
  obtain ⟨s, hs, rfl⟩ :=
    mem_samplePoints_iff.1 (AList.lookup_isSome.1 (Option.isSome_of_eq_some hkey))
  obtain ⟨point', hpoint', ⟨s', hs', -, hid⟩, -⟩ := lookup_samplePoints hs
  rw [hkey, Option.some.injEq] at hpoint'
  rw [hpoint']
  exact ⟨s', hs', hid⟩

/-! ## What should be reported -/

/-- The reports of the samples: one for each series, with the summary of its samples. -/
def sampleReports (samples : List Sample) : List (ReportedSeries Bytes) :=
  (samples.map Sample.id).dedup.map fun id =>
    id.report (summarize ((samples.filter fun s => s.id = id).map Sample.value))

/-- The points of samples that are kept apart have these reports. -/
theorem points_perm_of_separate {samples : List Sample}
    (separate : Separate {id | id ∈ samples.map Sample.id}) :
    ((samplePoints samples).values.map fun point => point.id.report point.summary).Perm
      (sampleReports samples) := by
  have hinj : ∀ s ∈ samples, ∀ s' ∈ samples, s'.id.key = s.id.key ↔ s'.id = s.id := by
    intro s hs s' hs'
    refine ⟨fun h => ?_, fun h => by rw [h]⟩
    exact separate.key _ (List.mem_map_of_mem hs') _ (List.mem_map_of_mem hs) h
  have hkeys : ((samples.map Sample.id).dedup.map SeriesID.key).Nodup := by
    apply (List.nodup_dedup _).map_on
    intro id hid id' hid' h
    exact separate.key id (List.mem_dedup.1 hid) id' (List.mem_dedup.1 hid') h
  have hmem : ∀ key, key ∈ (samples.map Sample.id).dedup.map SeriesID.key ↔
      key ∈ samplePoints samples := by
    intro key
    rw [mem_samplePoints_iff]
    simp
  let pointAt (key : Bytes) : MetricPoint := ((samplePoints samples).lookup key).getD .zero
  have hvalues : (samplePoints samples).values.Perm
      (((samples.map Sample.id).dedup.map SeriesID.key).map pointAt) := by
    apply KeyMap.values_perm hkeys hmem
    intro key hkey
    obtain ⟨point, hpoint⟩ := Option.isSome_iff_exists.1 (AList.lookup_isSome.2 ((hmem key).1 hkey))
    rw [hpoint]
    exact congrArg some (by simp only [pointAt, hpoint, Option.getD_some])
  refine (hvalues.map _).trans (List.Perm.of_eq ?_)
  rw [sampleReports, List.map_map, List.map_map]
  apply List.map_congr_left
  intro id hid
  obtain ⟨s, hs, rfl⟩ := List.mem_map.1 (List.mem_dedup.1 hid)
  obtain ⟨point, hpoint, ⟨s', hs', hkey, hpointID⟩, hsummary⟩ := lookup_samplePoints hs
  have hfilter : (samples.filter fun s' => s'.id.key = s.id.key) =
      samples.filter fun s' => s'.id = s.id := by
    apply List.filter_congr
    intro s' hs'
    rw [decide_eq_decide]
    exact hinj s hs s' hs'
  simp only [Function.comp_apply, pointAt, hpoint, Option.getD_some]
  rw [hpointID, (hinj s hs s' hs').1 hkey, hsummary, hfilter]

/-! ## What is read back -/

/-- A report as it comes out of JSON. -/
def ReportedSeries.readBack (report : ReportedSeries Bytes) : ReportedSeries Bytes :=
  (report.map jsonText).map bytesOf

/-- The texts of the series come out of JSON as they are. -/
def SeriesID.IsText (id : SeriesID) : Prop :=
  Utf8.Valid id.name ∧ ∀ label ∈ id.labels, Utf8.Valid label.1 ∧ Utf8.Valid label.2

section

variable {id : SeriesID} {summary : Summary}

theorem SeriesID.IsText.dimNames (h : id.IsText) :
    (id.dimNames.map jsonText).map bytesOf = id.dimNames := by
  rw [List.map_map]
  conv_rhs => rw [← List.map_id id.dimNames]
  apply List.map_congr_left
  intro name hname
  obtain ⟨label, hlabel, rfl⟩ := List.mem_map.1 hname
  exact bytesOf_jsonText_iff.2 (h.2 label hlabel).1

theorem SeriesID.IsText.dimValues (h : id.IsText) :
    (id.dimValues.map jsonText).map bytesOf = id.dimValues := by
  rw [List.map_map]
  conv_rhs => rw [← List.map_id id.dimValues]
  apply List.map_congr_left
  intro value hvalue
  obtain ⟨label, hlabel, rfl⟩ := List.mem_map.1 hvalue
  exact bytesOf_jsonText_iff.2 (h.2 label hlabel).2

theorem readBack_report (h : id.IsText) : (id.report summary).readBack = id.report summary := by
  unfold SeriesID.report ReportedSeries.readBack ReportedSeries.map
  rw [h.dimNames, h.dimValues, bytesOf_jsonText_iff.2 h.1]

/-- What is read back is text. -/
theorem isText_of_readBack {report : ReportedSeries Bytes}
    (h : report.readBack = id.report summary) :
    id.IsText := by
  obtain ⟨hname, hnames, hvalues, -⟩ := ReportedSeries.mk.inj h
  have hvalid : ∀ {xs : List String} {ys : List Bytes}, xs.map bytesOf = ys →
      ∀ y ∈ ys, Utf8.Valid y := by
    rintro xs ys rfl y hy
    obtain ⟨x, -, rfl⟩ := List.mem_map.1 hy
    exact valid_bytesOf x
  refine ⟨by rw [← hname]; exact valid_bytesOf _, fun label hlabel => ⟨?_, ?_⟩⟩
  · exact hvalid hnames _ (List.mem_map_of_mem hlabel)
  · exact hvalid hvalues _ (List.mem_map_of_mem hlabel)

end

/-! ## Faithful reports -/

section Faithful

variable (r : MetricRecorderOptions) {samples : List Sample} {points : List MetricPoint}

/-- What the payloads of the points report. -/
def flushReports (points : List MetricPoint) : List (ReportedSeries Bytes) :=
  (sortedGroups points).flatMap fun group => (baseDataOf r group).reports

theorem mem_flushReports_iff {report : ReportedSeries Bytes} :
    report ∈ flushReports r points ↔ ∃ group ∈ sortedGroups points, ∃ point ∈ group,
      (group.headD .zero).reportUnder point = report := by
  simp only [flushReports, List.mem_flatMap, reports_baseDataOf, List.mem_map]

theorem length_flushReports (points : List MetricPoint) :
    (flushReports r points).length = points.length := by
  rw [← (perm_flatten_sortedGroups points).length_eq, flushReports, List.length_flatMap,
    List.length_flatten]
  simp only [reports_baseDataOf, List.length_map]

theorem report_mem_sampleReports {s : Sample} (hs : s ∈ samples) :
    ∃ summary, s.id.report summary ∈ sampleReports samples :=
  ⟨_, List.mem_map_of_mem (List.mem_dedup.2 (List.mem_map_of_mem hs))⟩

/-- As many reports as series: no two series have one key. -/
theorem key_inj_of_length (taken : points.Perm (samplePoints samples).values)
    (hlength : points.length = (sampleReports samples).length) :
    ∀ id ∈ samples.map Sample.id, ∀ id' ∈ samples.map Sample.id, id.key = id'.key → id = id' := by
  have hkeys : (samples.map Sample.id).toFinset.image SeriesID.key =
      (samplePoints samples).keys.toFinset := by
    ext key
    have hmem : key ∈ (samplePoints samples).keys ↔ ∃ s ∈ samples, s.id.key = key :=
      mem_samplePoints_iff
    simp [hmem]
  have hcard : ((samples.map Sample.id).toFinset.image SeriesID.key).card =
      (samples.map Sample.id).toFinset.card := by
    rw [hkeys, List.toFinset_card_of_nodup (AList.keys_nodup _), List.card_toFinset]
    rw [taken.length_eq, sampleReports, List.length_map] at hlength
    rw [← hlength, KeyMap.values, List.length_map, AList.keys, List.keys, List.length_map]
  intro id hid id' hid' h
  exact Finset.card_image_iff.1 hcard (Finset.mem_coe.2 (List.mem_toFinset.2 hid))
    (Finset.mem_coe.2 (List.mem_toFinset.2 hid')) h

/-- The reports come back as those of the samples exactly if the keys keep their series apart and
these are text. -/
theorem reports_faithful_iff (taken : points.Perm (samplePoints samples).values) :
    ((flushReports r points).map ReportedSeries.readBack).Perm (sampleReports samples) ↔
      Separate {id | id ∈ samples.map Sample.id} ∧ ∀ id ∈ samples.map Sample.id, id.IsText := by
  have hids : ∀ point ∈ points, point.id ∈ samples.map Sample.id := by
    intro point hpoint
    obtain ⟨s, hs, hid⟩ := id_of_mem_values (taken.subset hpoint)
    rw [hid]
    exact List.mem_map_of_mem hs
  constructor
  · intro faithful
    -- the report of every series comes from a payload
    have hfrom : ∀ id ∈ samples.map Sample.id, ∃ summary, ∃ group ∈ sortedGroups points,
        ∃ point ∈ group, ((group.headD .zero).reportUnder point).readBack = id.report summary := by
      intro id hid
      obtain ⟨s, hs, rfl⟩ := List.mem_map.1 hid
      obtain ⟨summary, hmem⟩ := report_mem_sampleReports hs
      obtain ⟨report, hreport, hback⟩ := List.mem_map.1 (faithful.symm.subset hmem)
      obtain ⟨group, hgroup, point, hpoint, rfl⟩ := (mem_flushReports_iff r).1 hreport
      exact ⟨summary, group, hgroup, point, hpoint, hback⟩
    have htext : ∀ id ∈ samples.map Sample.id, id.IsText := by
      intro id hid
      obtain ⟨summary, group, -, point, -, hback⟩ := hfrom id hid
      exact isText_of_readBack hback
    -- and the first point of that payload has its name and label names
    have hfirst : ∀ id ∈ samples.map Sample.id, ∃ group ∈ sortedGroups points,
        (group.headD .zero).name = id.name ∧ (group.headD .zero).id.dimNames = id.dimNames := by
      intro id hid
      obtain ⟨summary, group, hgroup, point, -, hback⟩ := hfrom id hid
      obtain ⟨hmem, hpoints⟩ := groupKey_of_mem hgroup
      have htextFirst := htext _ (hids _ (hpoints _ hmem).1)
      obtain ⟨hname, hnames, -, -⟩ := ReportedSeries.mk.inj hback
      exact ⟨group, hgroup, (bytesOf_jsonText_iff.2 htextFirst.1).symm.trans hname,
        htextFirst.dimNames.symm.trans hnames⟩
    refine ⟨⟨key_inj_of_length taken ?_, ?_⟩, htext⟩
    · rw [← faithful.length_eq, List.length_map, length_flushReports]
    · intro id hid id' hid' hkey
      obtain ⟨group, hgroup, hname, hnames⟩ := hfirst id hid
      obtain ⟨group', hgroup', hname', hnames'⟩ := hfirst id' hid'
      have hfirsts : (group.headD .zero).groupKey = (group'.headD .zero).groupKey := by
        rw [groupKey_eq, groupKey_eq]
        show (group.headD .zero).name ++ 0 :: [0].intercalate (group.headD .zero).id.dimNames =
          (group'.headD .zero).name ++ 0 :: [0].intercalate (group'.headD .zero).id.dimNames
        rw [hname, hnames, hname', hnames']
        exact hkey
      have hsame : group = group' := by
        rw [eq_sortGroup_of_mem hgroup, eq_sortGroup_of_mem hgroup', hfirsts]
      rw [← hname, ← hname', ← hnames, ← hnames', hsame]
      exact ⟨rfl, rfl⟩
  · rintro ⟨separate, htext⟩
    have hpoints : Separate {id | ∃ point ∈ points, point.id = id} := by
      apply separate.mono
      rintro id ⟨point, hpoint, rfl⟩
      exact hids point hpoint
    have hperm : (flushReports r points).Perm (sampleReports samples) :=
      (reports_sortedGroups r hpoints).trans
        ((taken.map _).trans (points_perm_of_separate separate))
    have hback : (sampleReports samples).map ReportedSeries.readBack = sampleReports samples := by
      rw [sampleReports, List.map_map]
      apply List.map_congr_left
      intro id hid
      exact readBack_report (htext id (List.mem_dedup.1 hid))
    have hmapped := hperm.map ReportedSeries.readBack
    rwa [hback] at hmapped

end Faithful

/-! ## Recordings since the previous flush -/

/-- What happens to a recorder. -/
inductive RecorderOp where
  | record (r : Recording)
  | flush

def Points.after (points : Points) : RecorderOp → Points
  | .record r => points.record r
  | .flush => ∅

def pointsAfter (ops : List RecorderOp) : Points := ops.foldl Points.after ∅

/-- The recordings since the last flush. -/
def recordedSince (ops : List RecorderOp) : List Recording :=
  ops.foldl (fun rs op =>
    match op with
    | .record r => rs ++ [r]
    | .flush => []) []

/-- The reports that the recordings ask for: one for each series, with the summary of its values. -/
def expectedReports (keep : Bytes → Bytes) (rs : List Recording) : List (ReportedSeries Bytes) :=
  (rs.filterMap (Recording.series keep)).dedup.map fun id =>
    id.report (summarize ((rs.filter fun rec => rec.series keep = some id).map Recording.value))

/-- The documents report these series, each once, and nothing else. -/
def Faithful (keep : Bytes → Bytes) (rs : List Recording)
    (docs : List (AzureMonitorPayload String)) :
    Prop :=
  ((docs.flatMap fun doc => doc.baseData.reports).map (ReportedSeries.map bytesOf)).Perm
    (expectedReports keep rs)

/-- A flush of the points that returned nil; it sees the points in any order. -/
def FlushSucceeds (r : MetricRecorderOptions) (points : Points) (τ : List FlushEvent) : Prop :=
  Exec (flush r) τ none ∧ ∀ e ∈ τ, ∀ taken, e.taken = some taken → taken.Perm points.values

/-- The documents that were posted. -/
def postedDocuments (τ : List FlushEvent) : List (AzureMonitorPayload String) :=
  (postedPayloads τ).map AzureMonitorPayload.document

/-- The values of the labels that are kept are written without outer white space. -/
def Recording.Trimmed (rec : Recording) : Prop :=
  trimSpaceBytes rec.name ≠ [] → ∀ key ∈ allowedNames, ∀ value, rec.labels.lookup key = some value →
    trimSpaceBytes value ≠ [] → trimSpaceBytes value = value

theorem pointsAfter_eq (ops : List RecorderOp) :
    pointsAfter ops = samplePoints ((recordedSince ops).filterMap Recording.sample) := by
  rw [← foldl_record]
  induction ops using List.reverseRecOn with
  | nil => rfl
  | append_singleton ops op ih =>
    rw [pointsAfter, recordedSince, List.foldl_concat, List.foldl_concat]
    cases op with
    | record r =>
      show (pointsAfter ops).record r = (recordedSince ops ++ [r]).foldl Points.record ∅
      rw [ih, List.foldl_concat]
    | flush => rfl

theorem series_eq_sample (rec : Recording) :
    rec.series trimSpaceBytes = rec.sample.map Sample.id := by
  unfold Recording.series Recording.sample
  by_cases hname : trimSpaceBytes rec.name = []
  · simp only [hname, if_true, Option.map_none]
  · simp only [hname, if_false, Option.map_some, Sample.id, seriesID_allowedLabels]

theorem value_of_sample {rec : Recording} {s : Sample} (h : rec.sample = some s) :
    s.value = rec.value := by
  unfold Recording.sample at h
  by_cases hname : trimSpaceBytes rec.name = []
  · simp [hname] at h
  · simp only [hname, if_false, Option.some.injEq] at h
    rw [← h]

theorem values_filterMap_sample (rs : List Recording) (id : SeriesID) :
    ((rs.filterMap Recording.sample).filter fun s => s.id = id).map Sample.value =
      (rs.filter fun rec => rec.series trimSpaceBytes = some id).map Recording.value := by
  induction rs with
  | nil => rfl
  | cons rec rs ih =>
    have hseries := series_eq_sample rec
    cases hsample : rec.sample with
    | none =>
      rw [hsample, Option.map_none] at hseries
      rw [List.filterMap_cons_none hsample, List.filter_cons_of_neg (by simp [hseries]), ih]
    | some s =>
      rw [hsample, Option.map_some] at hseries
      rw [List.filterMap_cons_some hsample]
      by_cases hid : s.id = id
      · rw [List.filter_cons_of_pos (by simpa using hid),
          List.filter_cons_of_pos (by simp [hseries, hid]), List.map_cons, List.map_cons, ih,
          value_of_sample hsample]
      · rw [List.filter_cons_of_neg (by simpa using hid),
          List.filter_cons_of_neg (by simp [hseries, hid]), ih]

theorem map_id_filterMap_sample (rs : List Recording) :
    (rs.filterMap Recording.sample).map Sample.id =
      rs.filterMap (Recording.series trimSpaceBytes) := by
  rw [List.map_filterMap]
  exact List.filterMap_congr fun rec _ => (series_eq_sample rec).symm

theorem sampleReports_eq (rs : List Recording) :
    sampleReports (rs.filterMap Recording.sample) = expectedReports trimSpaceBytes rs := by
  rw [sampleReports, expectedReports, map_id_filterMap_sample]
  apply List.map_congr_left
  intro id _
  rw [values_filterMap_sample]

/-! ## What a flush posts -/

theorem foldl_posted (τ : List FlushEvent) (posted : List (AzureMonitorPayload Bytes)) :
    τ.foldl (fun posted e => posted ++ e.posted.toList) posted = posted ++ postedPayloads τ := by
  induction τ generalizing posted with
  | nil => simp [postedPayloads]
  | cons e τ ih =>
    rw [List.foldl_cons, ih, postedPayloads, postedPayloads, List.filterMap_cons, List.append_assoc]
    cases e.posted with
    | none => rfl
    | some payload => rfl

/-- A flush that returns nil has posted the payloads of all points. -/
theorem exists_taken_of_flush {r : MetricRecorderOptions} {points : Points} {τ : List FlushEvent}
    (run : FlushSucceeds r points τ) :
    ∃ taken, taken.Perm points.values ∧ (postedPayloads τ).map AzureMonitorPayload.baseData =
      (sortedGroups taken).map (baseDataOf r) := by
  let M : Monitor flushInterface (List (AzureMonitorPayload Bytes)) :=
    { next := fun posted e => posted ++ (FlushEvent.posted e).toList
      assumes := fun e => ∀ taken, FlushEvent.taken e = some taken → taken.Perm points.values
      inv := fun _ => True }
  have hquiet : ∀ (posted : List (AzureMonitorPayload Bytes)) (e : FlushEvent), e.IsQuiet →
      M.next posted e = posted := by
    intro posted e he
    show posted ++ e.posted.toList = posted
    rw [he.2.2]
    exact List.append_nil posted
  have htracked : (flush r).Tracked M (fun err posted => err = none → ∃ taken,
      taken.Perm points.values ∧
        posted.map AzureMonitorPayload.baseData = (sortedGroups taken).map (baseDataOf r)) [] := by
    apply tracked_flush r (P := fun left posted => ∃ taken, taken.Perm points.values ∧
      (posted ++ left).map AzureMonitorPayload.baseData = (sortedGroups taken).map (baseDataOf r))
    · intro posted hleft _
      rwa [List.append_nil] at hleft
    · intro payload rest posted hleft
      refine ⟨trivial, hquiet posted, fun _ _ => ⟨trivial, fun _ h => absurd h (by simp)⟩, ?_⟩
      intro e he
      have hnext : M.next posted e = posted ++ [payload] := by
        show posted ++ e.posted.toList = posted ++ [payload]
        rw [he]
        rfl
      rw [hnext, List.append_assoc]
      exact ⟨trivial, hleft⟩
    · rintro taken s₁ assumed rfl
      have htaken : taken.Perm points.values := assumed taken rfl
      refine ⟨trivial, fun hnil _ => ⟨taken, htaken, ?_⟩, fun _ _ _ h => absurd h (by simp), ?_⟩
      · rw [hnil]
        rfl
      · intro _ _
        refine ⟨hquiet _, fun _ _ => ⟨trivial, fun _ h => absurd h (by simp)⟩, ?_⟩
        exact fun payloads hpayloads => ⟨taken, htaken, hpayloads⟩
  have hresult := htracked.exec trivial run.1 run.2 rfl
  have hposted : τ.foldl M.next [] = postedPayloads τ := foldl_posted τ []
  rwa [hposted] at hresult

theorem readBack_documents {r : MetricRecorderOptions} {τ : List FlushEvent}
    {taken : List MetricPoint}
    (h : (postedPayloads τ).map AzureMonitorPayload.baseData =
      (sortedGroups taken).map (baseDataOf r)) :
    ((postedDocuments τ).flatMap fun doc => doc.baseData.reports).map (ReportedSeries.map bytesOf) =
      (flushReports r taken).map ReportedSeries.readBack := by
  have hreports : flushReports r taken =
      ((postedPayloads τ).map AzureMonitorPayload.baseData).flatMap
        AzureMonitorBaseData.reports := by
    rw [h, List.flatMap_map]
    rfl
  rw [hreports, postedDocuments, List.flatMap_map, List.flatMap_map, List.map_flatMap,
    List.map_flatMap]
  apply List.flatMap_congr
  intro payload _
  rw [reports_document, List.map_map]
  rfl

/-! ## Faithful flushes -/

/-- The series of the recordings. -/
def recordedSeries (rs : List Recording) : Set SeriesID :=
  {id | id ∈ rs.filterMap (Recording.series trimSpaceBytes)}

/-- The keys keep the series of the recordings apart, and these are text. -/
def KeptApart (rs : List Recording) : Prop :=
  Separate (recordedSeries rs) ∧ ∀ id ∈ recordedSeries rs, id.IsText

theorem mem_recordedSeries_iff {rs : List Recording} {id : SeriesID} :
    id ∈ recordedSeries rs ↔ ∃ rec ∈ rs, rec.series trimSpaceBytes = some id :=
  List.mem_filterMap

section

variable {r : MetricRecorderOptions} {ops : List RecorderOp} {τ : List FlushEvent}

theorem faithful_iff_keptApart (run : FlushSucceeds r (pointsAfter ops) τ) :
    Faithful trimSpaceBytes (recordedSince ops) (postedDocuments τ) ↔
    KeptApart (recordedSince ops) := by
  obtain ⟨taken, htaken, hposted⟩ := exists_taken_of_flush run
  rw [pointsAfter_eq] at htaken
  have hiff := reports_faithful_iff r htaken
  rw [sampleReports_eq, map_id_filterMap_sample] at hiff
  rw [Faithful, readBack_documents hposted]
  exact hiff

/-- A value in a report that is read back comes from a value that was kept of a recording. -/
theorem exists_kept_of_dimValue (run : FlushSucceeds r (pointsAfter ops) τ)
    {report : ReportedSeries Bytes}
    (h : report ∈ ((postedDocuments τ).flatMap fun doc => doc.baseData.reports).map
      (ReportedSeries.map bytesOf)) {value : Bytes} (hvalue : value ∈ report.dimValues)
    (hne : value ≠ []) :
    ∃ rec ∈ recordedSince ops, trimSpaceBytes rec.name ≠ [] ∧
      ∃ label ∈ keptLabels trimSpaceBytes rec.labels,
      value = bytesOf (jsonText label.2) := by
  obtain ⟨taken, htaken, hposted⟩ := exists_taken_of_flush run
  rw [pointsAfter_eq] at htaken
  rw [readBack_documents hposted] at h
  obtain ⟨report', hreport', rfl⟩ := List.mem_map.1 h
  obtain ⟨group, hgroup, point, hpoint, rfl⟩ := (mem_flushReports_iff r).1 hreport'
  have hmem := ((groupKey_of_mem hgroup).2 point hpoint).1
  obtain ⟨s, hs, hid⟩ := id_of_mem_values (htaken.subset hmem)
  obtain ⟨rec, hrec, hsample⟩ := List.mem_filterMap.1 hs
  have hseries := series_eq_sample rec
  rw [hsample, Option.map_some, Recording.series] at hseries
  obtain ⟨text, htext, rfl⟩ := List.mem_map.1 hvalue
  obtain ⟨written, hwritten, rfl⟩ := List.mem_map.1 htext
  obtain ⟨name, -, rfl⟩ := List.mem_map.1 hwritten
  -- the empty value of a label that the point does not have is not read back as this one
  have hget : point.labels.get name ≠ [] := by
    intro hnil
    rw [hnil] at hne
    exact hne (by decide)
  cases hlookup : point.labels.lookup name with
  | none =>
    rw [Labels.get, hlookup] at hget
    exact absurd rfl hget
  | some w =>
    have hlabel : (name, point.labels.get name) ∈ point.id.labels := by
      apply List.mem_map_of_mem
      apply (perm_sortStrings _).symm.subset
      exact AList.lookup_isSome.1 (Option.isSome_of_eq_some hlookup)
    by_cases hname : trimSpaceBytes rec.name = []
    · simp [hname] at hseries
    · simp only [hname, if_false, Option.some.injEq] at hseries
      rw [hid, ← hseries] at hlabel
      exact ⟨rec, hrec, hname, _, hlabel, rfl⟩

theorem series_eq_of_trimmed {rec : Recording} (h : rec.Trimmed) :
    rec.series (fun value => value) = rec.series trimSpaceBytes := by
  unfold Recording.series
  by_cases hname : trimSpaceBytes rec.name = []
  · simp only [hname, if_true]
  · simp only [hname, if_false, Option.some.injEq, SeriesID.mk.injEq, true_and]
    apply List.filterMap_congr
    intro key hkey
    cases hlookup : rec.labels.lookup key with
    | none => rfl
    | some value =>
      by_cases hblank : trimSpaceBytes value = []
      · rw [Option.filter_some_neg (by simpa using hblank)]
        rfl
      · rw [Option.filter_some_pos (by simpa using hblank), Option.map_some, Option.map_some,
          h hname key hkey value hlookup hblank]

theorem expectedReports_of_trimmed {rs : List Recording} (h : ∀ rec ∈ rs, rec.Trimmed) :
    expectedReports (fun value => value) rs = expectedReports trimSpaceBytes rs := by
  have hseries : rs.filterMap (Recording.series fun value => value) =
      rs.filterMap (Recording.series trimSpaceBytes) :=
    List.filterMap_congr fun rec hrec => series_eq_of_trimmed (h rec hrec)
  rw [expectedReports, expectedReports, hseries]
  apply List.map_congr_left
  intro id _
  congr 2
  have hfilter : (rs.filter fun rec => rec.series (fun value => value) = some id) =
      rs.filter fun rec => rec.series trimSpaceBytes = some id :=
    List.filter_congr fun rec hrec => by rw [series_eq_of_trimmed (h rec hrec)]
  rw [hfilter]

/-- Reports with the values as they were written have trimmed values only. -/
theorem trimmed_of_faithful (run : FlushSucceeds r (pointsAfter ops) τ)
    (faithful : Faithful (fun value => value) (recordedSince ops) (postedDocuments τ)) :
    ∀ rec ∈ recordedSince ops, rec.Trimmed := by
  -- a kept value as it was written is in a report
  have hreported : ∀ rec ∈ recordedSince ops, trimSpaceBytes rec.name ≠ [] →
      ∀ label ∈ keptLabels (fun value => value) rec.labels, ∃ report ∈ ((postedDocuments τ).flatMap
        fun doc => doc.baseData.reports).map (ReportedSeries.map bytesOf),
          label.2 ∈ report.dimValues := by
    intro rec hrec hname label hlabel
    have hseries : rec.series (fun value => value) =
        some ⟨trimSpaceBytes rec.name, keptLabels (fun value => value) rec.labels⟩ := by
      simp only [Recording.series, hname, if_false]
    have hmem := List.mem_dedup.2 (List.mem_filterMap.2 ⟨rec, hrec, hseries⟩)
    exact ⟨_, faithful.symm.subset (List.mem_map_of_mem hmem), List.mem_map_of_mem hlabel⟩
  intro rec hrec hname key hkey value hlookup hblank
  have hlabel : (key, value) ∈ keptLabels (fun value => value) rec.labels :=
    mem_keptLabels_iff.2 ⟨hkey, value, hlookup, hblank, rfl⟩
  have hne : value ≠ [] := by
    rintro rfl
    exact hblank rfl
  obtain ⟨report, hreport, hvalue⟩ := hreported rec hrec hname _ hlabel
  obtain ⟨rec', hrec', hname', label', hlabel', heq⟩ :=
    exists_kept_of_dimValue run hreport hvalue hne
  obtain ⟨hkey', value', hlookup', hblank', hkeep⟩ := mem_keptLabels_iff.1 hlabel'
  -- so the other value is text, and trimming keeps it text
  obtain ⟨report', hreport', hvalue'⟩ := hreported rec' hrec' hname' (label'.1, value')
    (mem_keptLabels_iff.2 ⟨hkey', value', hlookup', hblank', rfl⟩)
  obtain ⟨doc, -, rfl⟩ := List.mem_map.1 hreport'
  obtain ⟨text, -, htext⟩ := List.mem_map.1 hvalue'
  have hvalid : Utf8.Valid value' := by
    have hbytes : bytesOf text = value' := htext
    rw [← hbytes]
    exact valid_bytesOf text
  rw [← hkeep, bytesOf_jsonText_iff.2 hvalid.trimSpaceBytes] at heq
  rw [show value = trimSpaceBytes value' from heq, trimSpaceBytes_trimSpaceBytes]

end

/-- A flush that succeeds reports the recordings since the previous one faithfully, with label
values trimmed, exactly if the keys keep their series apart and these are text; with label values as
they were written, exactly if the values are trimmed as well.  Series without zero bytes are kept
apart. -/
theorem aggregation_faithful_iff (r : MetricRecorderOptions) (ops : List RecorderOp)
    {τ : List FlushEvent} (run : FlushSucceeds r (pointsAfter ops) τ) :
    (Faithful (fun value => value) (recordedSince ops) (postedDocuments τ) ↔
      KeptApart (recordedSince ops) ∧ ∀ rec ∈ recordedSince ops, rec.Trimmed) ∧
    (Faithful trimSpaceBytes (recordedSince ops) (postedDocuments τ) ↔
      KeptApart (recordedSince ops)) ∧
    ((∀ id ∈ recordedSeries (recordedSince ops), 0 ∉ id.name ∧ ∀ label ∈ id.labels, 0 ∉ label.2) →
      Separate (recordedSeries (recordedSince ops))) := by
  have htrimmed := faithful_iff_keptApart run
  refine ⟨⟨fun faithful => ?_, fun h => ?_⟩, htrimmed, fun free => ?_⟩
  · have hvalues := trimmed_of_faithful run faithful
    rw [Faithful, expectedReports_of_trimmed hvalues] at faithful
    exact ⟨htrimmed.1 faithful, hvalues⟩
  · rw [Faithful, expectedReports_of_trimmed h.2]
    exact htrimmed.2 h.1
  · apply separate_nulFree.mono
    intro id hid
    obtain ⟨rec, -, hseries⟩ := mem_recordedSeries_iff.1 hid
    refine ⟨(free id hid).1, fun label hlabel => ⟨?_, (free id hid).2 label hlabel⟩⟩
    rw [Recording.series] at hseries
    by_cases hname : trimSpaceBytes rec.name = []
    · simp [hname] at hseries
    · simp only [hname, if_false, Option.some.injEq] at hseries
      rw [← hseries] at hlabel
      exact (mem_keptLabels_iff.1 hlabel).1

/-! ## A zero byte in a label value -/

def sampleRecorder : MetricRecorderOptions :=
  newMetricRecorder ⟨"https://eastasia.monitoring.azure.com", "/subscriptions/sub",
    "password-hook", true⟩

/-- Answers under which a flush of the points succeeds. -/
def acceptPoints (points : Points) : (c : FlushCall) → Unit → Unit × c.Resp
  | .takePoints, _ => ((), points.values)
  | .token, _ => ((), (.ok "token" : Except Err String))
  | .now, _ => ((), Time.zero)
  | .marshal _, _ => ((), (none : Option Err))
  | .newRequest _, _ => ((), (none : Option Err))
  | .doRequest _, _ => ((), (.ok 200 : Except Err ℤ))

theorem flushSucceeds_acceptPoints (r : MetricRecorderOptions) (points : Points)
    (h : ((flush r).runWith (I := flushInterface) (acceptPoints points) ()).2 = none) :
    FlushSucceeds r points
      ((flush r).traceWith (I := flushInterface) (acceptPoints points) ()) := by
  refine ⟨?_, fun e he taken htaken => ?_⟩
  · have run := exec_runWith (I := flushInterface) (acceptPoints points) (flush r) ()
    rwa [h] at run
  · obtain ⟨s, hresp⟩ := exists_of_mem_traceWith (I := flushInterface) he
    obtain ⟨call, resp⟩ := e
    cases call with
    | takePoints =>
      obtain rfl : resp = taken := Option.some.inj htaken
      have hvalues : resp = points.values := hresp
      rw [hvalues]
    | _ => exact absurd htaken (by simp [FlushEvent.taken, FlushCall.taken])

/-- The label `eventType` with a zero byte in its value, and the two labels it is taken for. -/
def mergedOps : List RecorderOp :=
  [.record (.inc (bytesOf "hook_requests_total")
      ((∅ : Labels).insert (bytesOf "eventType") (bytesOf "login\x00outcome\x00skipped"))),
    .record (.inc (bytesOf "hook_requests_total")
      (((∅ : Labels).insert (bytesOf "eventType") (bytesOf "login")).insert (bytesOf "outcome")
        (bytesOf "skipped")))]

/-- The two recordings are one series when they are posted. -/
theorem zero_byte_merges :
    ∃ τ, FlushSucceeds sampleRecorder (pointsAfter mergedOps) τ ∧
      (postedDocuments τ).map (fun doc => doc.baseData.series.map AzureMonitorSeries.count) =
        [[2]] ∧
      (expectedReports trimSpaceBytes (recordedSince mergedOps)).length = 2 ∧
      ¬ Faithful trimSpaceBytes (recordedSince mergedOps) (postedDocuments τ) ∧
      ¬ Faithful (fun value => value) (recordedSince mergedOps) (postedDocuments τ) := by
  have run := flushSucceeds_acceptPoints sampleRecorder (pointsAfter mergedOps) (by decide +kernel)
  have hone : (((postedDocuments ((flush sampleRecorder).traceWith (I := flushInterface)
      (acceptPoints (pointsAfter mergedOps)) ())).flatMap fun doc => doc.baseData.reports).map
        (ReportedSeries.map bytesOf)).length = 1 := by decide +kernel
  refine ⟨_, run, by decide +kernel, by decide +kernel, fun faithful => ?_, fun faithful => ?_⟩
  · have htwo : (expectedReports trimSpaceBytes (recordedSince mergedOps)).length = 2 := by
      decide +kernel
    rw [← faithful.length_eq, hone] at htwo
    exact absurd htwo (by decide)
  · have htwo : (expectedReports (fun value => value) (recordedSince mergedOps)).length = 2 := by
      decide +kernel
    rw [← faithful.length_eq, hone] at htwo
    exact absurd htwo (by decide)

/-- Two recordings of one status and one of another, with a flush before them. -/
def sampleOps : List RecorderOp :=
  [.record (.inc (bytesOf "hook_requests_total") ∅), .flush,
    .record (.inc (bytesOf "hook_requests_total")
      ((∅ : Labels).insert (bytesOf "status") (bytesOf "202"))),
    .record (.inc (bytesOf "hook_requests_total")
      ((∅ : Labels).insert (bytesOf "status") (bytesOf "400"))),
    .record (.inc (bytesOf " hook_requests_total")
      (((∅ : Labels).insert (bytesOf "status") (bytesOf "202")).insert (bytesOf "traceId")
        (bytesOf "trace-123")))]

theorem aggregation_faithful_iff_sample :
    ∃ τ, FlushSucceeds sampleRecorder (pointsAfter sampleOps) τ ∧
      Faithful (fun value => value) (recordedSince sampleOps) (postedDocuments τ) := by
  have run := flushSucceeds_acceptPoints sampleRecorder (pointsAfter sampleOps) (by decide +kernel)
  obtain ⟨hwritten, -, hseparate⟩ := aggregation_faithful_iff sampleRecorder sampleOps run
  have hplain : ∀ id ∈ (recordedSince sampleOps).filterMap (Recording.series trimSpaceBytes),
      (0 ∉ id.name ∧ ∀ label ∈ id.labels, 0 ∉ label.2) ∧ (∀ b ∈ id.name, b < 128) ∧
        ∀ label ∈ id.labels, (∀ b ∈ label.1, b < 128) ∧ ∀ b ∈ label.2, b < 128 := by decide +kernel
  refine ⟨_, run, hwritten.2 ⟨⟨hseparate fun id hid => (hplain id hid).1, fun id hid => ?_⟩, ?_⟩⟩
  · obtain ⟨-, hname, hlabels⟩ := hplain id hid
    refine ⟨Utf8.valid_of_lt hname, fun label hlabel => ⟨?_, ?_⟩⟩
    · exact Utf8.valid_of_lt (hlabels label hlabel).1
    · exact Utf8.valid_of_lt (hlabels label hlabel).2
  · have hvalues : ∀ rec ∈ recordedSince sampleOps, ∀ key ∈ allowedNames,
        (rec.labels.lookup key).map trimSpaceBytes = rec.labels.lookup key := by decide +kernel
    intro rec hrec _ key hkey value hlookup _
    have hvalue := hvalues rec hrec key hkey
    rw [hlookup, Option.map_some, Option.some.injEq] at hvalue
    exact hvalue

end PasswordHook
