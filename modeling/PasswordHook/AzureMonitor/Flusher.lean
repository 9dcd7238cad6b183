import PasswordHook.AzureMonitor.Payloads
import PasswordHook.Lib.Totals

/-!
# The periodic flusher and the recorder it flushes

`periodicMetricFlusher` of package `app` runs a loop that flushes at every tick until it is stopped;
its `Close` stops the loop, waits for it to end and flushes once more.  Any number of recordings and
flushes run against one recorder; the sections under its lock are single steps.
-/

namespace PasswordHook

open Prog

/-! ## The flusher -/

/-- What the `select` of the loop goes on with. -/
inductive Wake where
  | tick
  | stop
  deriving DecidableEq

inductive FlusherCall where
  | recorder (c : FlushCall)
  /-- The `select` of the loop. -/
  | wake
  /-- `close(p.stop)`, once -/
  | closeStop
  /-- `close(p.done)` -/
  | closeDone
  /-- `<-p.done` -/
  | waitDone
  /-- `slog.Warn("flush azure monitor metrics", …)` -/
  | warn (err : Err)

def FlusherCall.Resp : FlusherCall → Type
  | .recorder c => c.Resp
  | .wake => Wake
  | .closeStop => Unit
  | .closeDone => Unit
  | .waitDone => Unit
  | .warn _ => Unit

def flusherInterface : Interface := ⟨FlusherCall, FlusherCall.Resp⟩

abbrev FlusherProg := Prog flusherInterface

abbrev FlusherEvent := Event flusherInterface

def FlusherCall.perform (c : FlusherCall) :
    FlusherProg c.Resp := Prog.perform (I := flusherInterface) c

/-- The event of the recorder. -/
def FlusherEvent.flush? : FlusherEvent → Option FlushEvent
  | ⟨.recorder c, r⟩ => some ⟨c, r⟩
  | _ => none

variable (r : MetricRecorderOptions)

/-- `flusher.Flush` -/
def flusherFlush : FlusherProg (Option Err) :=
  (flush r).interp (J := flusherInterface) fun c => (FlusherCall.recorder c).perform

def flushWithTimeout : FlusherProg Unit := do
  match ← flusherFlush r with
  | some err => (FlusherCall.warn err).perform
  | none => return ()

/-- `run`, for at most that many turns of its loop. -/
def flusherRun : ℕ → FlusherProg (Option Err)
  | 0 => return none
  | turns + 1 => do
    match ← FlusherCall.wake.perform with
    | .tick =>
      flushWithTimeout r
      flusherRun turns
    | .stop =>
      FlusherCall.closeDone.perform
      return none

def flusherClose : FlusherProg (Option Err) := do
  FlusherCall.closeStop.perform
  FlusherCall.waitDone.perform
  flusherFlush r

/-! ## Recordings and flushes -/

inductive MetricRole where
  | recording
  | flusher
  deriving DecidableEq

abbrev MetricRole.interface : MetricRole → Interface
  | .recording => recordInterface
  | .flusher => flusherInterface

abbrev MetricRole.Result : MetricRole → Type
  | .recording => Unit
  | .flusher => Option Err

structure RecorderState where
  points : Points
  stopped : Bool
  done : Bool

/-- The points are taken in the order of some iteration. -/
def flusherAnswer : (c : FlusherCall) → RecorderState → c.Resp → RecorderState → Prop
  | .recorder .takePoints, s, taken, s' =>
    (taken : List MetricPoint).Perm s.points.values ∧ s' = { s with points := ∅ }
  | .recorder _, s, _, s' => s' = s
  | .wake, s, wake, s' => (wake = Wake.stop → s.stopped = true) ∧ s' = s
  | .closeStop, s, _, s' => s' = { s with stopped := true }
  | .closeDone, s, _, s' => s' = { s with done := true }
  | .waitDone, s, _, s' => s.done = true ∧ s' = s
  | .warn _, s, _, s' => s' = s

/-- The recorder, with any number of recordings, flushes, loops and calls of `Close`. -/
def metricSystem : System MetricRole MetricRole.interface MetricRole.Result RecorderState where
  init s := s = ⟨∅, false, false⟩
  spawn _
    | .recording, p => ∃ rec, p = record rec
    | .flusher, p => p = flusherFlush r ∨ (∃ turns, p = flusherRun r turns) ∨ p = flusherClose r
  call
    | .recording => fun sample s _ s' => s' = { s with points := s.points.add sample }
    | .flusher => flusherAnswer
  env _ _ := False

abbrev MetricWorld := World MetricRole.interface MetricRole.Result RecorderState

abbrev MetricLabel := Label MetricRole.interface MetricRole.Result

abbrev RecordThread := Thread recordInterface Unit

abbrev FlusherThread := Thread flusherInterface (Option Err)

/-! ## Counts -/

/-- The samples of a series that were added. -/
def recordedCount (id : SeriesID) (τ : List (Event recordInterface)) : ℕ :=
  τ.countP fun e => Sample.id e.call = id

/-- The samples of a series in some points. -/
def pointCount (id : SeriesID) (points : List MetricPoint) : ℕ :=
  ((points.filter fun point => point.id = id).map MetricPoint.count).sum

/-- The report is one of the series. -/
def ReportedSeries.IsOf (report : ReportedSeries Bytes) (id : SeriesID) : Prop :=
  report.metric = id.name ∧ report.dimNames = id.dimNames ∧ report.dimValues = id.dimValues

instance (report : ReportedSeries Bytes) (id : SeriesID) : Decidable (report.IsOf id) :=
  inferInstanceAs (Decidable (_ ∧ _ ∧ _))

/-- The samples of a series in some reports. -/
def reportCount (id : SeriesID) (reports : List (ReportedSeries Bytes)) : ℕ :=
  ((reports.filter fun report => report.IsOf id).map fun report => report.summary.count).sum

/-- The samples of a series in a payload. -/
def payloadCount (id : SeriesID) (payload : AzureMonitorPayload Bytes) : ℕ :=
  reportCount id payload.baseData.reports

/-! ## The ledger of a thread -/

/-- With this event `Flush` returns an error: a call failed, or there is no token source. -/
def FlushEvent.givesUp (e : FlushEvent) : Bool :=
  match e.taken with
  | some points => !points.isEmpty && !r.tokenSource
  | none => e.fails

/-- The samples of each series that a thread has taken and posted, that the flush it is in still
holds, and that its flushes have given up. -/
@[ext] structure Ledger where
  taken : SeriesID → ℕ
  posted : SeriesID → ℕ
  held : SeriesID → ℕ
  lost : SeriesID → ℕ
  failed : Bool

def Ledger.empty : Ledger := ⟨fun _ => 0, fun _ => 0, fun _ => 0, fun _ => 0, false⟩

/-- The samples that an event takes, and those it posts. -/
def FlushEvent.takenCount (e : FlushEvent) (id : SeriesID) : ℕ := pointCount id (e.taken.getD [])

def FlushEvent.postedCount (e : FlushEvent) (id : SeriesID) : ℕ :=
  (e.posted.map (payloadCount id)).getD 0

/-- What a flush holds after the event, unless it gives up. -/
def Ledger.holds (L : Ledger) (e : FlushEvent) (id : SeriesID) : ℕ :=
  if e.taken = none then L.held id - e.postedCount id else e.takenCount id

def Ledger.next (L : Ledger) (e : FlushEvent) : Ledger where
  taken id := L.taken id + e.takenCount id
  posted id := L.posted id + e.postedCount id
  held id := if e.givesUp r then 0 else L.holds e id
  lost id := L.lost id + if e.givesUp r then L.holds e id else 0
  failed := L.failed || e.givesUp r

def Ledger.after (L : Ledger) (e : FlusherEvent) : Ledger := (e.flush?.map (L.next r)).getD L

/-- The ledger of a trace. -/
def ledger (τ : List FlusherEvent) : Ledger := τ.foldl (Ledger.after r) .empty

/-! ## Totals -/

/-- The samples of a series that were recorded. -/
noncomputable def recordedIn (W : MetricWorld) (id : SeriesID) : ℕ :=
  W.total .recording fun t : RecordThread => recordedCount id t.past

/-- The samples of a series in payloads whose post succeeded. -/
noncomputable def postedIn (W : MetricWorld) (id : SeriesID) : ℕ :=
  W.total .flusher fun t : FlusherThread => (ledger r t.past).posted id

/-- The samples of a series that are pending: in the points, or held by a flush in progress. -/
noncomputable def pendingIn (W : MetricWorld) (id : SeriesID) : ℕ :=
  pointCount id W.shared.points.values +
    W.total .flusher fun t : FlusherThread => (ledger r t.past).held id

/-- No sample of the series is lost or counted twice. -/
def Conserved (W : MetricWorld) (id : SeriesID) : Prop :=
  recordedIn W id = postedIn r W id + pendingIn r W id

/-- A recording adds a sample of one of the series. -/
def RecordsIn (A : Set SeriesID) (_ : MetricWorld) (ℓ : MetricLabel) : Prop :=
  ∀ i (e : Event recordInterface), ℓ = .call .recording i e → Sample.id e.call ∈ A

/-- A call of a flush does not make it give up. -/
def NotGivenUp (ℓ : MetricLabel) : Prop :=
  ∀ i (e : FlusherEvent), ℓ = .call .flusher i e → ∀ e' ∈ e.flush?, e'.givesUp r = false

end PasswordHook
