import PasswordHook.Delivery.Agreement
import PasswordHook.Pipeline.Invariants
import PasswordHook.Pipeline.Progress

/-!
# The pipeline over a `MemoryStore`

With the status in memory no record is ever lost, so the rank held for an account only rises: it is
at least that of every event marked pending.  A synced record is therefore at least as new as every
event whose submission has returned, and by `SyncedProcessed` the processor returned nil for its
message.
-/

namespace PasswordHook

open Prog

section Memory

variable (U : Unicode)

/-- A `MemoryStore`; the clocks of its callers read anything. -/
def memoryBackend : Backend where
  State := MemoryStore
  init s := s = .new
  reads _ _ := True
  get s upn r := ∃ ctxErr, r = s.get U ctxErr upn
  mark s m upn t s' := ∃ now, s' = (s.mark U none m upn t now).1
  env s s' := s' = s
  delivers _ _ := True
  names := Set.univ

def memoryView : StatusView U (memoryBackend U) where
  view s upn := MemoryStore.records s (normalizeUPN U upn)
  Inv _ := True
  TimeOk _ := True
  inv_init := by
    rintro s rfl
    exact ⟨trivial, fun _ => rfl⟩
  reads_ok _ _ := trivial
  get_ok := by
    rintro s upn r - - ⟨ctxErr, h⟩
    cases ctxErr with
    | none => exact Except.ok.inj h
    | some err => exact absurd h (by simp [MemoryStore.get])
  mark_ok := by
    rintro s m upn t s' - - hutc - ⟨now, rfl⟩
    refine ⟨trivial, now.utc, fun upn' _ => ?_⟩
    have hrecords := MemoryStore.records_mark U s ⟨m, upn, t⟩ now (normalizeUPN U upn')
    simpa only [Write.record, hutc] using hrecords
  env_ok := by
    rintro s s' - rfl
    exact ⟨trivial, fun _ _ => .inl rfl⟩

variable {U} {q : Queue} {J : Json} {W W' : PipelineWorld (memoryBackend U)} {ℓ : PipelineLabel}

/-- The rank of the record of an account. -/
def heldRank (W : PipelineWorld (memoryBackend U)) (upn : String) : WithBot (ℤ ×ₗ ℕ) :=
  Register.held Record.rank ((memoryView U).view W.shared.store upn)

/-- No step lowers the rank of a record. -/
theorem heldRank_mono (hW : Sound q J (memoryView U) W)
    (h : Step (pipeline U q J (memoryBackend U)) W ℓ W') (upn : String) :
    heldRank W upn ≤ heldRank W' upn := by
  unfold heldRank
  cases hW.effect h with
  | same _ hs => rw [hs]
  | env _ hs =>
    rw [show W'.shared.store = W.shared.store from hs]
  | write m a ha _ hs _ =>
    obtain ⟨hname, hutc, htime⟩ := hW.accepted_ok ha
    obtain ⟨-, now, hview⟩ := (memoryView U).mark_ok hW.inv hname hutc htime hs
    rw [hview upn trivial]
    split_ifs
    · rw [Register.held_offer]
      exact le_max_left _ _
    · exact le_rfl

/-- The rank of a pending record. -/
def pendingRank (n : ℤ) : ℤ ×ₗ ℕ := toLex (n, statusPrecedence .pending)

/-- The record of an account is at least as new as every event marked pending. -/
def MarkedHeld (W : PipelineWorld (memoryBackend U)) : Prop :=
  ∀ upn n, Marked U W (normalizeUPN U upn) n → (pendingRank n : WithBot (ℤ ×ₗ ℕ)) ≤ heldRank W upn

theorem MarkedHeld.step (hW : Sound q J (memoryView U) W) (ih : MarkedHeld W)
    (h : Step (pipeline U q J (memoryBackend U)) W ℓ W') : MarkedHeld W' := by
  rintro upn n ⟨j, t, ht, e, he, upn', time, hmark, hkey, rfl⟩
  have hold : ∀ {t₀ : HookThread}, W.pool .hook j = some t₀ → e ∈ t₀.past →
      (pendingRank time.nano : WithBot (ℤ ×ₗ ℕ)) ≤ heldRank W' upn := by
    intro t₀ h₀ he₀
    have hbefore := ih upn time.nano ⟨j, t₀, h₀, e, he₀, upn', time, hmark, hkey, rfl⟩
    exact hbefore.trans (heldRank_mono hW h upn)
  rcases h.pool_cases ht with ⟨hp, -, -, -⟩ | ⟨t₀, c, f, r, h₀, -, hlabel, -, rfl⟩ | h₀
  · rw [hp] at he
    exact absurd he List.not_mem_nil
  · rcases List.mem_append.1 he with he | he
    · exact hold h₀ he
    · rw [List.mem_singleton.1 he] at hmark
      have hw : writeOf ℓ = some (.pending, upn', time) := by
        rw [hlabel]
        exact writeOf_hook hmark j r
      obtain ⟨now, hview⟩ := hW.view_write h hw (Set.mem_univ upn) hkey
      rw [heldRank, hview, Register.held_offer]
      exact le_max_right _ _
  · exact hold h₀ he

theorem markedHeld_of_reach (h : Reach (pipeline U q J (memoryBackend U)) anyStep W) :
    MarkedHeld W := by
  refine (h.invariant (P := fun W => Sound q J (memoryView U) W ∧ MarkedHeld W) ?_ ?_).2
  · intro s hinit
    exact ⟨sound_init hinit, fun upn n hmarked => by
      obtain ⟨j, t, ht, -⟩ := hmarked
      exact absurd ht (by simp)⟩
  · rintro W ℓ W' ⟨hW, ih⟩ - hs
    exact ⟨hW.step hs, ih.step hW hs⟩

/-- A `Get` that finds a synced record reads it from the map. -/
theorem view_of_get_synced {s : MemoryStore} {ctxErr : Option Err} {upn : String} {record : Record}
    (h : s.get U ctxErr upn = .ok record) (hsynced : record.status = .synced) :
    (memoryView U).view s upn = some record := by
  cases ctxErr with
  | some err => exact absurd h (by simp [MemoryStore.get])
  | none =>
    show s.records (normalizeUPN U upn) = some record
    have hr := Except.ok.inj h
    cases hs : s.records (normalizeUPN U upn) with
    | none =>
      rw [hs] at hr
      rw [← hr] at hsynced
      exact absurd hsynced (by simp [Record.zero])
    | some r =>
      rw [hs] at hr
      rw [← hr]
      rfl

/-- A synced record is of a message that the processor returned nil for, and no submission of the
account that has returned `Enqueued` is newer; only the `MarkSynced` of a worker creates one. -/
theorem synced_latest (h : Reach (pipeline U q J (memoryBackend U)) anyStep W) :
    (∀ ctxErr upn record, MemoryStore.get U W.shared.store ctxErr upn = .ok record →
      record.status = .synced →
      (∃ msg, ProcessedMessage J W msg ∧ normalizeUPN U msg.upn = normalizeUPN U upn ∧
        msg.enqueuedAt = record.sourceEnqueuedAt) ∧
      ∀ msg, ReturnedMessage W msg → normalizeUPN U msg.upn = normalizeUPN U upn →
        msg.enqueuedAt.nano ≤ record.sourceEnqueuedAt.nano) ∧
    ∀ ℓ W', Step (pipeline U q J (memoryBackend U)) W ℓ W' → ∀ upn record,
      MemoryStore.get U W'.shared.store none upn = .ok record → record.status = .synced →
      MemoryStore.get U W.shared.store none upn ≠ .ok record →
      ∃ i upn' t r, ℓ = .call .worker i ⟨.markSynced upn' t, r⟩ := by
  have hW := sound_of_reach (memoryView U) h
  constructor
  · intro ctxErr upn record hget hsynced
    have hview := view_of_get_synced hget hsynced
    refine ⟨syncedProcessed_of_reach (memoryView U) h upn (Set.mem_univ upn) record hview hsynced,
      ?_⟩
    intro msg hreturned hkey
    have hmarked := hW.marked_of_returned hreturned
    rw [hkey] at hmarked
    have hheld := markedHeld_of_reach h upn _ hmarked
    rw [heldRank, hview, Register.held_some, WithBot.coe_le_coe] at hheld
    exact Prod.Lex.monotone_fst _ _ hheld
  · intro ℓ W' hs upn record hget hsynced hnew
    have hview := view_of_get_synced hget hsynced
    refine hW.synced_by_worker hs (Set.mem_univ upn) hview hsynced ?_
    intro hold
    apply hnew
    show Except.ok (((memoryView U).view W.shared.store upn).getD .zero) = .ok record
    rw [hold]
    rfl

end Memory

/-! ## One password -/

/-- A changed password, from the request to the synced record. -/
theorem synced_latest_sample : ∃ W : PipelineWorld (memoryBackend .ascii),
    Reach (pipeline .ascii (newQueue 0) .flat (memoryBackend .ascii)) anyStep W ∧
    ReturnedMessage W (sampleStamped sampleReading) ∧
    ∃ record, MemoryStore.get .ascii W.shared.store none " B11001@example.edu" = .ok record ∧
      record.status = .synced ∧
      (∃ msg, ProcessedMessage .flat W msg ∧ msg.enqueuedAt = record.sourceEnqueuedAt) ∧
      ∀ msg, ReturnedMessage W msg → normalizeUPN .ascii msg.upn = "b11001@example.edu" →
        msg.enqueuedAt.nano ≤ record.sourceEnqueuedAt.nano := by
  have quiet : ∀ (W : PipelineWorld (memoryBackend .ascii)) ℓ, writeOf ℓ = none → anyStep W ℓ :=
    fun _ _ _ => trivial
  obtain ⟨bus, hbus, hdecoded⟩ := exists_delivered_sampleStamped (newQueue 0) .flat
    (t := sampleReading) (by decide +kernel) (by decide)
  have hinit : Reach (pipeline .ascii (newQueue 0) .flat (memoryBackend .ascii)) anyStep
      ⟨⟨MemoryStore.new, []⟩, fun _ _ => none⟩ := .init ⟨rfl, rfl⟩
  -- the hook sends the message and marks the account
  obtain ⟨W₁, h₁, hs₁, hhook₁, hframe₁⟩ := reach_taken quiet hinit (j := 0) rfl
    submitBody_sampleRequest ⟨rfl, rfl, rfl⟩ (fun _ _ => Set.mem_univ _)
    (show _ = sampleStamped sampleReading from rfl) trivial hbus
  obtain ⟨W₂, h₂, hs₂, hhook₂, hframe₂⟩ := reach_returned quiet h₁ hhook₁ ⟨sampleReading, rfl⟩
    trivial
  have hworker : W₂.pool .worker 0 = none := by
    rw [hframe₂ .worker 0 (by simp), hframe₁ .worker 0 (by simp)]
  -- a worker processes it and marks the account
  obtain ⟨W₃, f, h₃, hs₃, hworker₃, hframe₃⟩ := reach_processed quiet h₂ hworker
    (newWorker 1 0 0 []) 0 (a := ⟨sampleStamped sampleReading, bus, sampleReading⟩)
    (by rw [hs₂, hs₁]; exact List.mem_cons_self) trivial (hdecoded 0) [112, 119]
  obtain ⟨W₄, h₄, hs₄, -, hframe₄⟩ := reach_synced h₃ hworker₃ ⟨sampleReading, rfl⟩ trivial
  have hget : MemoryStore.get .ascii W₄.shared.store none " B11001@example.edu" =
      .ok ⟨.synced, sampleReading.utc, sampleReading.utc⟩ := by
    have hst₁ : W₁.shared.store = MemoryStore.new := congrArg Shared.store hs₁
    have hst₂ := congrArg Shared.store hs₂
    have hst₄ := congrArg Shared.store hs₄
    rw [hst₄, hs₃]
    dsimp only at hst₂ ⊢
    rw [hst₂, hst₁]
    decide +kernel
  have hkey : normalizeUPN .ascii " B11001@example.edu" = "b11001@example.edu" := by decide +kernel
  obtain ⟨⟨msg, hprocessed, -, hsource⟩, hlatest⟩ := (synced_latest h₄).1 none _ _ hget rfl
  rw [hkey] at hlatest
  have hhook₄ := (hframe₄ .hook 0 (by simp)).trans ((hframe₃ .hook 0 (by simp)).trans hhook₂)
  have hreturned : ReturnedMessage W₄ (sampleStamped sampleReading) :=
    ⟨0, _, hhook₄, ⟨_, _, rfl, rfl⟩, by simp [takenRun]⟩
  exact ⟨W₄, h₄, hreturned, _, hget, rfl, ⟨msg, hprocessed, hsource⟩, hlatest⟩

end PasswordHook
