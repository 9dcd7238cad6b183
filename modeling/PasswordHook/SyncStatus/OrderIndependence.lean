import PasswordHook.SyncStatus.Status
import PasswordHook.Lib.Register

/-!
# The order of status writes does not matter

At each normalized name a `MemoryStore` is a register that keeps the record of greatest rank, the
pair of source timestamp and status precedence in lexicographic order (`records_mark`).  So after
any writes the status and source timestamp of an account are those of the greatest write for it,
in whatever order the writes came, and a write that is not greater leaves the record alone.
-/

namespace PasswordHook

/-- The rank of a record: its source timestamp, then the precedence of its status. -/
def Record.rank (r : Record) : ℤ ×ₗ ℕ :=
  toLex (r.sourceEnqueuedAt.nano, statusPrecedence r.status)

/-- A call of one of the `Mark` methods. -/
structure Write where
  mark : Mark
  upn : String
  sourceEnqueuedAt : Time

def Write.rank (w : Write) : ℤ ×ₗ ℕ :=
  toLex (w.sourceEnqueuedAt.nano, statusPrecedence w.mark.status)

/-- The record the write leaves when it is applied at the clock reading `now`. -/
def Write.record (w : Write) (now : Time) : Record :=
  ⟨w.mark.status, now.utc, w.sourceEnqueuedAt.utc⟩

@[simp] theorem Write.rank_record (w : Write) (now : Time) : (w.record now).rank = w.rank := rfl

theorem Record.rank_le_iff {r u : Record} :
    r.rank ≤ u.rank ↔ r.sourceEnqueuedAt.nano < u.sourceEnqueuedAt.nano ∨
      (r.sourceEnqueuedAt.nano = u.sourceEnqueuedAt.nano ∧
        statusPrecedence r.status ≤ statusPrecedence u.status) :=
  Prod.Lex.toLex_le_toLex

/-- Records of one rank agree on status and source instant. -/
theorem Record.rank_inj {r u : Record} (h : r.rank = u.rank) :
    r.status = u.status ∧ r.sourceEnqueuedAt.nano = u.sourceEnqueuedAt.nano := by
  have h' := congrArg ofLex h
  simp only [Record.rank, ofLex_toLex, Prod.mk.injEq] at h'
  exact ⟨statusPrecedence_inj h'.2, h'.1⟩

namespace MemoryStore

variable (U : Unicode)

/-- A write offers its record to the register of its account and leaves the others alone. -/
theorem records_mark (s : MemoryStore) (w : Write) (now : Time) (key : String) :
    (s.mark U none w.mark w.upn w.sourceEnqueuedAt now).1.records key =
      if normalizeUPN U w.upn = key then Register.offer Record.rank (s.records key) (w.record now)
      else s.records key := by
  rw [mark_eq_set]
  by_cases hk : normalizeUPN U w.upn = key
  · subst hk
    rw [if_pos rfl]
    simp only [set]
    cases hr : s.records (normalizeUPN U w.upn) with
    | none => simp [Register.offer, Write.record]
    | some u =>
      simp only [Register.offer, Record.rank_le_iff]
      rcases lt_trichotomy w.sourceEnqueuedAt.nano u.sourceEnqueuedAt.nano with h | h | h
      · simp [Time.before, h, hr, Write.record]
      · by_cases hp : statusPrecedence w.mark.status ≤ statusPrecedence u.status
        · simp [Time.before, Time.equal, h, hp, hr, Write.record]
        · simp [Time.before, Time.equal, h, hp, Write.record]
      · simp [Time.before, Time.equal, h.ne', not_lt.2 h.le, Write.record]
  · rw [if_neg hk]
    simp only [set]
    split
    · simp [Ne.symm hk]
    · split_ifs
      · rfl
      · rfl
      · simp [Ne.symm hk]

/-- The store after the writes, each at its own clock reading. -/
def applyWrites (ws : List (Write × Time)) : MemoryStore :=
  ws.foldl (fun s w => (s.mark U none w.1.mark w.1.upn w.1.sourceEnqueuedAt w.2).1) new

/-- The writes for the account of `upn`. -/
def writesFor (upn : String) (ws : List (Write × Time)) : List (Write × Time) :=
  ws.filter fun w => normalizeUPN U w.1.upn = normalizeUPN U upn

/-- The greatest rank among the writes for the account of `upn`. -/
noncomputable def greatest (upn : String) (ws : List (Write × Time)) : WithBot (ℤ ×ₗ ℕ) :=
  ((writesFor U upn ws).map fun w => w.1.rank).maximum

/-- The record of an account is what the writes for it leave in its register. -/
theorem records_applyWrites (ws : List (Write × Time)) (upn : String) :
    (applyWrites U ws).records (normalizeUPN U upn) =
      ((writesFor U upn ws).map fun w => w.1.record w.2).foldl
        (Register.offer Record.rank) none := by
  have key : ∀ (ws : List (Write × Time)) (s : MemoryStore),
      (ws.foldl (fun s w => (s.mark U none w.1.mark w.1.upn w.1.sourceEnqueuedAt w.2).1)
        s).records (normalizeUPN U upn) =
      ((writesFor U upn ws).map fun w => w.1.record w.2).foldl (Register.offer Record.rank)
        (s.records (normalizeUPN U upn)) := by
    intro ws
    induction ws with
    | nil => intro s; rfl
    | cons w ws ih =>
      intro s
      rw [List.foldl_cons, ih, records_mark]
      by_cases hw : normalizeUPN U w.1.upn = normalizeUPN U upn
      · simp [writesFor, hw]
      · simp [writesFor, hw]
  exact key ws new

theorem held_applyWrites (ws : List (Write × Time)) (upn : String) :
    Register.held Record.rank ((applyWrites U ws).records (normalizeUPN U upn)) =
      greatest U upn ws := by
  rw [records_applyWrites, Register.held_foldl_offer, greatest]
  simp [Function.comp_def]

theorem applyWrites_append (ws : List (Write × Time)) (w : Write) (now : Time) :
    applyWrites U (ws ++ [(w, now)]) =
      ((applyWrites U ws).mark U none w.mark w.upn w.sourceEnqueuedAt now).1 := by
  simp [applyWrites]

/-- The greatest rank depends on the writes only, not on their order or clock readings. -/
theorem greatest_perm {ws ws' : List (Write × Time)}
    (h : (ws.map Prod.fst).Perm (ws'.map Prod.fst)) (upn : String) :
    greatest U upn ws = greatest U upn ws' := by
  have key : ∀ ws : List (Write × Time), (writesFor U upn ws).map (fun w => w.1.rank) =
      ((ws.map Prod.fst).filter fun w => normalizeUPN U w.upn = normalizeUPN U upn).map
        Write.rank := by
    intro ws
    simp [writesFor, List.filter_map, Function.comp_def]
  rw [greatest, greatest, key, key]
  exact ((h.filter _).map _).maximum_eq

theorem get_eq (s : MemoryStore) (upn : String) :
    s.get U none upn = .ok ((s.records (normalizeUPN U upn)).getD .zero) := rfl

/-- A write that does not raise the greatest rank of an account leaves its record as it is. -/
theorem records_append_of_greatest_eq {ws : List (Write × Time)} {w : Write} {now : Time}
    {upn : String} (h : greatest U upn (ws ++ [(w, now)]) = greatest U upn ws) :
    (applyWrites U (ws ++ [(w, now)])).records (normalizeUPN U upn) =
      (applyWrites U ws).records (normalizeUPN U upn) := by
  rw [applyWrites_append, records_mark]
  by_cases hw : normalizeUPN U w.upn = normalizeUPN U upn
  · rw [if_pos hw]
    apply Register.offer_of_le
    rw [held_applyWrites, ← h, Write.rank_record]
    apply List.le_maximum_of_mem'
    simp [writesFor, hw]
  · rw [if_neg hw]

/-- The record of an account for which there are writes is that of a greatest one. -/
theorem getD_applyWrites_of_ne_nil {ws : List (Write × Time)} {upn : String}
    (hne : writesFor U upn ws ≠ []) :
    ∃ w ∈ writesFor U upn ws, (∀ w' ∈ writesFor U upn ws, w'.1.rank ≤ w.1.rank) ∧
      (((applyWrites U ws).records (normalizeUPN U upn)).getD .zero).status = w.1.mark.status ∧
      (((applyWrites U ws).records (normalizeUPN U upn)).getD .zero).sourceEnqueuedAt =
        w.1.sourceEnqueuedAt.utc := by
  have hheld := held_applyWrites U ws upn
  cases hr : (applyWrites U ws).records (normalizeUPN U upn) with
  | none =>
    rw [hr, Register.held_none] at hheld
    have := List.maximum_eq_bot.1 hheld.symm
    exact absurd (List.map_eq_nil_iff.1 this) hne
  | some r =>
    rw [records_applyWrites] at hr
    rcases Register.mem_of_foldl_offer hr with h | h
    · exact absurd h (by simp)
    · obtain ⟨w, hw, rfl⟩ := List.mem_map.1 h
      refine ⟨w, hw, fun w' hw' => ?_, rfl, rfl⟩
      rw [records_applyWrites, hr, Register.held_some, Write.rank_record] at hheld
      exact WithBot.coe_le_coe.1 (hheld ▸ List.le_maximum_of_mem' (List.mem_map.2 ⟨w', hw', rfl⟩))

theorem offset_applyWrites {ws : List (Write × Time)} {upn : String} {r : Record}
    (h : (applyWrites U ws).records (normalizeUPN U upn) = some r) :
    r.sourceEnqueuedAt.offset = 0 := by
  rw [records_applyWrites] at h
  rcases Register.mem_of_foldl_offer h with h | h
  · exact absurd h (by simp)
  · obtain ⟨w, -, rfl⟩ := List.mem_map.1 h
    rfl

/-- Two stores that hold one rank for an account agree on its status and source timestamp. -/
theorem status_source_eq {ws ws' : List (Write × Time)} {upn : String} {m : WithBot (ℤ ×ₗ ℕ)}
    (h : Register.held Record.rank ((applyWrites U ws).records (normalizeUPN U upn)) = m)
    (h' : Register.held Record.rank ((applyWrites U ws').records (normalizeUPN U upn)) = m) :
    (((applyWrites U ws).records (normalizeUPN U upn)).getD .zero).status =
        (((applyWrites U ws').records (normalizeUPN U upn)).getD .zero).status ∧
      (((applyWrites U ws).records (normalizeUPN U upn)).getD .zero).sourceEnqueuedAt =
        (((applyWrites U ws').records (normalizeUPN U upn)).getD .zero).sourceEnqueuedAt := by
  cases hr : (applyWrites U ws).records (normalizeUPN U upn) with
  | none =>
    rw [hr, Register.held_none] at h
    rw [← h, Register.held_eq_bot_iff] at h'
    rw [h']
    exact ⟨rfl, rfl⟩
  | some r =>
    cases hr' : (applyWrites U ws').records (normalizeUPN U upn) with
    | none =>
      rw [hr, Register.held_some] at h
      rw [hr', Register.held_none, ← h] at h'
      exact absurd h' (by simp)
    | some r' =>
      rw [hr, Register.held_some] at h
      rw [hr', Register.held_some, ← h] at h'
      obtain ⟨hst, hsrc⟩ := Record.rank_inj (WithBot.coe_inj.1 h')
      refine ⟨hst.symm, Time.ext hsrc.symm ?_⟩
      exact (offset_applyWrites U hr).trans (offset_applyWrites U hr').symm

/-- The status and source timestamp of an account after any writes, in any order, are those of the
greatest write for it; a write that is not greater changes nothing of the record. -/
theorem get_applyWrites_perm {ws ws' : List (Write × Time)}
    (h : (ws.map Prod.fst).Perm (ws'.map Prod.fst)) (upn : String) :
    ∃ r r', (applyWrites U ws).get U none upn = .ok r ∧
      (applyWrites U ws').get U none upn = .ok r' ∧
      r.status = r'.status ∧ r.sourceEnqueuedAt = r'.sourceEnqueuedAt ∧
      (writesFor U upn ws = [] → r = .zero) ∧
      (writesFor U upn ws ≠ [] → ∃ w ∈ writesFor U upn ws,
        (∀ w' ∈ writesFor U upn ws, w'.1.rank ≤ w.1.rank) ∧
          r.status = w.1.mark.status ∧ r.sourceEnqueuedAt = w.1.sourceEnqueuedAt.utc) ∧
      ∀ w now, greatest U upn (ws ++ [(w, now)]) = greatest U upn ws →
        (applyWrites U (ws ++ [(w, now)])).get U none upn = .ok r := by
  obtain ⟨hst, hsrc⟩ := status_source_eq U (held_applyWrites U ws upn)
    ((held_applyWrites U ws' upn).trans (greatest_perm U h upn).symm)
  refine ⟨_, _, get_eq U _ upn, get_eq U _ upn, hst, hsrc, ?_, ?_, ?_⟩
  · intro hnil
    rw [records_applyWrites, hnil]
    rfl
  · intro hne
    exact getD_applyWrites_of_ne_nil U hne
  · intro w now hw
    rw [get_eq, records_append_of_greatest_eq U hw]

/-- Three writes to one account under two spellings, one of them late, in two orders. -/
theorem get_applyWrites_perm_three :
    let w₁ : Write := ⟨.pending, "a@b", ⟨5, 0⟩⟩
    let w₂ : Write := ⟨.synced, " A@B ", ⟨5, 3600⟩⟩
    let w₃ : Write := ⟨.failed, "a@b", ⟨3, 0⟩⟩
    ∃ r r', (applyWrites .ascii [(w₁, ⟨6, 0⟩), (w₂, ⟨7, 0⟩), (w₃, ⟨8, 0⟩)]).get .ascii none "a@B" =
        .ok r ∧
      (applyWrites .ascii [(w₃, ⟨6, 0⟩), (w₁, ⟨7, 0⟩), (w₂, ⟨9, 0⟩)]).get .ascii none "a@B" =
        .ok r' ∧
      r.status = r'.status ∧ r.sourceEnqueuedAt = r'.sourceEnqueuedAt ∧ r.status = .synced := by
  intro w₁ w₂ w₃
  obtain ⟨r, r', hr, hr', hst, hsrc, -⟩ := get_applyWrites_perm .ascii
    (show ([(w₁, ⟨6, 0⟩), (w₂, ⟨7, 0⟩), (w₃, ⟨8, 0⟩)].map Prod.fst).Perm
        ([(w₃, ⟨6, 0⟩), (w₁, ⟨7, 0⟩), (w₂, ⟨9, 0⟩)].map Prod.fst) from
      (List.perm_append_comm : ([w₁, w₂] ++ [w₃]).Perm ([w₃] ++ [w₁, w₂]))) "a@B"
  refine ⟨r, r', hr, hr', hst, hsrc, ?_⟩
  have : (applyWrites .ascii [(w₁, ⟨6, 0⟩), (w₂, ⟨7, 0⟩), (w₃, ⟨8, 0⟩)]).get .ascii none "a@B" =
      .ok ⟨.synced, ⟨7, 0⟩, ⟨5, 0⟩⟩ := by
    decide +kernel
  rw [this, Except.ok.injEq] at hr
  rw [← hr]

end MemoryStore

end PasswordHook
