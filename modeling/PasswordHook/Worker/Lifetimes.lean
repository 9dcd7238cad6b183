import PasswordHook.Lib.Buffers
import PasswordHook.Lib.Simulation
import PasswordHook.Worker.Shutdown

/-!
# Lifetimes of plaintexts

The memory of a worker while it processes a message: the body of the message, and a buffer for every
plaintext `Decrypt` has returned.  The events of a run change it; the processor may overwrite the
plaintext it was given.  At each call that waits, records or settles all plaintexts are zero
(`plaintext_lifetime`).
-/

namespace PasswordHook

open Prog

/-- A slice that `Decrypt` returned, with the bytes it held then. -/
structure Plaintext where
  slice : Slice
  bytes : Bytes

/-- The memory, with the plaintexts returned so far, the latest first. -/
structure WorkerMemory where
  heap : Heap
  body : Option Slice
  plaintexts : List Plaintext

namespace WorkerMemory

/-- The memory when the processing of a message starts. -/
def start : Option MessagePtr → WorkerMemory
  | none => ⟨⟨0, fun _ => []⟩, none, []⟩
  | some ptr => ⟨⟨1, fun _ => ptr.message.body⟩, some ⟨0, ptr.message.body.length⟩, []⟩

/-- The memory after an event; `scribble` is what the processor leaves in the plaintext. -/
def after (scribble : WorkerMemory → Bytes) (mem : WorkerMemory) (e : WorkerEvent) : WorkerMemory :=
  match e with
  | ⟨.decrypt _ _, answer⟩ =>
    match (answer : Except Err Bytes) with
    | .error _ => mem
    | .ok plaintext =>
      { mem with
        heap := mem.heap.alloc plaintext
        plaintexts := ⟨⟨mem.heap.next, plaintext.length⟩, plaintext⟩ :: mem.plaintexts }
  | ⟨.processPasswordSync _, _⟩ =>
    match mem.plaintexts with
    | [] => mem
    | p :: _ => { mem with heap := mem.heap.copy p.slice (scribble mem) }
  | ⟨.zeroPlaintext, _⟩ =>
    match mem.plaintexts with
    | [] => mem
    | p :: _ => { mem with heap := mem.heap.zero p.slice }
  | ⟨.zeroBody _, _⟩ =>
    match mem.body with
    | none => mem
    | some s => { mem with heap := mem.heap.zero s }
  | _ => mem

/-- A run on the memory. -/
def step (scribble : WorkerMemory → Bytes) (mem : WorkerMemory) (e : WorkerEvent) :
    WorkerMemory × Unit :=
  (mem.after scribble e, ())

def PlaintextsZero (mem : WorkerMemory) : Prop :=
  ∀ p ∈ mem.plaintexts, ∀ b ∈ mem.heap.contents p.slice, b = 0

def BodyZero (mem : WorkerMemory) : Prop :=
  ∀ s, mem.body = some s → ∀ b ∈ mem.heap.contents s, b = 0

end WorkerMemory

/-- The calls that record, mark or settle. -/
def WorkerCall.isSettling : WorkerCall → Bool
  | .recordPasswordSyncFailure _ => true
  | .markSynced _ _ => true
  | .markFailed _ _ => true
  | .completeMessage _ => true
  | .abandonMessage _ => true
  | _ => false

def WorkerCall.isSleep : WorkerCall → Bool
  | .sleep _ => true
  | _ => false

/-- What holds of the memory at a call. -/
structure WorkerMemory.AtCall (mem : WorkerMemory) (e : WorkerEvent) : Prop where
  plaintexts : e.call.isSleep = true ∨ e.call.isSettling = true → mem.PlaintextsZero
  body : e.call.isSettling = true → mem.BodyZero
  password : ∀ cmd, e.call = .processPasswordSync cmd → ∃ p earlier,
    mem.plaintexts = p :: earlier ∧ mem.heap.contents p.slice = p.bytes ∧ cmd.password = p.bytes

section

variable {scribble : WorkerMemory → Bytes} {mem : WorkerMemory}

/-- The plaintexts lie in the heap and are zero. -/
structure WorkerMemory.Clean (mem : WorkerMemory) : Prop where
  lt : ∀ p ∈ mem.plaintexts, p.slice.id < mem.heap.next
  zero : mem.PlaintextsZero

theorem clean_start (msg : Option MessagePtr) : (WorkerMemory.start msg).Clean := by
  cases msg with
  | none => exact ⟨fun p hp => absurd hp List.not_mem_nil, fun p hp => absurd hp List.not_mem_nil⟩
  | some ptr =>
    exact ⟨fun p hp => absurd hp List.not_mem_nil, fun p hp => absurd hp List.not_mem_nil⟩

/-! ## Attempts -/

/-- The memory after an attempt: one more plaintext, zeroed when the processor has returned. -/
theorem WorkerMemory.Clean.attempt (hclean : mem.Clean) (plaintext overwritten : Bytes) :
    WorkerMemory.Clean
      ⟨((mem.heap.alloc plaintext).copy ⟨mem.heap.next, plaintext.length⟩ overwritten).zero
          ⟨mem.heap.next, plaintext.length⟩,
        mem.body, ⟨⟨mem.heap.next, plaintext.length⟩, plaintext⟩ :: mem.plaintexts⟩ where
  lt := by
    intro p hp
    show p.slice.id < mem.heap.next + 1
    rcases List.mem_cons.1 hp with rfl | hp
    · exact Nat.lt_succ_self _
    · exact Nat.lt_succ_of_lt (hclean.lt p hp)
  zero := by
    intro p hp
    rcases List.mem_cons.1 hp with rfl | hp
    · exact Heap.contents_zero _ _
    · apply Heap.contents_zero_of_zero
      have hlt := hclean.lt p hp
      rw [Heap.copy, Heap.contents_put_of_ne (Nat.ne_of_lt hlt), Heap.contents_alloc_of_lt hlt]
      exact hclean.zero p hp

theorem atCall_of_detached {e : WorkerEvent} (hsleep : e.call.isSleep = false)
    (hsettling : e.call.isSettling = false)
    (hprocess : ∀ cmd, e.call ≠ .processPasswordSync cmd) : mem.AtCall e where
  plaintexts h := absurd h (by rw [hsleep, hsettling]; simp)
  body h := absurd h (by rw [hsettling]; simp)
  password cmd h := absurd h (hprocess cmd)

/-- An attempt, and what follows it. -/
theorem along_attempt (hclean : mem.Clean) (m : PasswordSyncMessage) (plaintext : Bytes)
    (answer : Option Err) {rest : List WorkerEvent}
    (hrest : ∀ mem' : WorkerMemory, mem'.Clean →
      Along (WorkerMemory.step scribble) WorkerMemory.AtCall mem' rest ∧
        (runFrom (WorkerMemory.step scribble) mem' rest).1.Clean) :
    Along (WorkerMemory.step scribble) WorkerMemory.AtCall mem
        (.decrypted (envelopeOf m) (passwordAAD m.cn m.upn m.enqueuedAt) (.ok plaintext) ::
          .processed (commandOf m plaintext) answer :: .zeroedPlaintext :: rest) ∧
      (runFrom (WorkerMemory.step scribble) mem
        (.decrypted (envelopeOf m) (passwordAAD m.cn m.upn m.enqueuedAt) (.ok plaintext) ::
          .processed (commandOf m plaintext) answer :: .zeroedPlaintext :: rest)).1.Clean := by
  obtain ⟨halong, hend⟩ := hrest _ (hclean.attempt plaintext (scribble
    ⟨mem.heap.alloc plaintext, mem.body,
      ⟨⟨mem.heap.next, plaintext.length⟩, plaintext⟩ :: mem.plaintexts⟩))
  refine ⟨?_, hend⟩
  rw [along_cons_iff, along_cons_iff, along_cons_iff]
  refine ⟨atCall_of_detached rfl rfl (fun _ h => by cases h), ⟨?_, (fun h => by cases h), ?_⟩,
    atCall_of_detached rfl rfl (fun _ h => by cases h), halong⟩
  · rintro (h | h)
    · cases h
    · cases h
  intro cmd hcmd
  obtain rfl : commandOf m plaintext = cmd := WorkerCall.processPasswordSync.inj hcmd
  refine ⟨⟨⟨mem.heap.next, plaintext.length⟩, plaintext⟩, mem.plaintexts, rfl, ?_, rfl⟩
  show ((mem.heap.alloc plaintext).buffer mem.heap.next).take plaintext.length = plaintext
  rw [Heap.buffer_alloc_next, List.take_length]

/-- The attempts at a message: by induction on the run of the loop. -/
theorem AttemptRun.along {m : PasswordSyncMessage} {backoffs : List ℤ} {n : ℕ}
    {τ : List WorkerEvent} {result : ProcessorResult} (h : AttemptRun m backoffs n τ result)
    (hclean : mem.Clean) :
    Along (WorkerMemory.step scribble) WorkerMemory.AtCall mem τ ∧
      (runFrom (WorkerMemory.step scribble) mem τ).1.Clean := by
  have hslept : ∀ {delay : ℤ} {answer : Option Err} {rest : List WorkerEvent} {mem : WorkerMemory},
      mem.Clean →
      (Along (WorkerMemory.step scribble) WorkerMemory.AtCall mem rest ∧
        (runFrom (WorkerMemory.step scribble) mem rest).1.Clean) →
      Along (WorkerMemory.step scribble) WorkerMemory.AtCall mem (.slept delay answer :: rest) ∧
        (runFrom (WorkerMemory.step scribble) mem (.slept delay answer :: rest)).1.Clean := by
    intro delay answer rest mem hclean hrest
    refine ⟨along_cons_iff.2 ⟨⟨fun _ => hclean.zero, (fun h => by cases h), ?_⟩, hrest.1⟩, hrest.2⟩
    intro cmd hcmd
    cases hcmd
  have hnil : ∀ {mem : WorkerMemory}, mem.Clean →
      Along (WorkerMemory.step scribble) WorkerMemory.AtCall mem [] ∧
        (runFrom (WorkerMemory.step scribble) mem []).1.Clean :=
    fun hclean => ⟨along_nil _ _ _, hclean⟩
  induction h generalizing mem with
  | undecryptable backoffs n err =>
    refine ⟨along_cons_iff.2 ⟨?_, along_nil _ _ _⟩, hclean⟩
    exact atCall_of_detached rfl rfl (fun _ h => by cases h)
  | synced backoffs n plaintext => exact along_attempt hclean _ plaintext _ fun _ h => hnil h
  | permanent backoffs n plaintext hp => exact along_attempt hclean _ plaintext _ fun _ h => hnil h
  | exhausted n plaintext hp => exact along_attempt hclean _ plaintext _ fun _ h => hnil h
  | canceled delay backoffs n plaintext hp sleepErr =>
    exact along_attempt hclean _ plaintext _ fun _ h => hslept h (hnil h)
  | retried delay plaintext hp rest ih =>
    exact along_attempt hclean _ plaintext _ fun _ h => hslept h (ih h)

/-! ## Settling -/

variable (scribble mem) in
/-- The calls outside the attempts leave zeros. -/
theorem after_of_detached {e : WorkerEvent} (he : e.call.isDetached = true) :
    (mem.PlaintextsZero → (mem.after scribble e).PlaintextsZero) ∧
      (mem.BodyZero → (mem.after scribble e).BodyZero) := by
  have hzero : ∀ s : Slice,
      (mem.PlaintextsZero → ({ mem with heap := mem.heap.zero s } : WorkerMemory).PlaintextsZero) ∧
        (mem.BodyZero → ({ mem with heap := mem.heap.zero s } : WorkerMemory).BodyZero) := fun s =>
    ⟨fun h p hp => Heap.contents_zero_of_zero (h p hp),
      fun h t ht => Heap.contents_zero_of_zero (h t ht)⟩
  obtain ⟨c, answer⟩ := e
  unfold WorkerMemory.after
  cases c with
  | decrypt env aad => cases he
  | processPasswordSync cmd => cases he
  | sleep delay => cases he
  | zeroPlaintext =>
    cases hplaintexts : mem.plaintexts with
    | nil => exact ⟨id, id⟩
    | cons p earlier => simpa only [hplaintexts] using hzero p.slice
  | zeroBody msg =>
    cases hbody : mem.body with
    | none => exact ⟨id, id⟩
    | some s => simpa only [hbody] using hzero s
  | _ => exact ⟨id, id⟩

theorem along_zero {τ : List WorkerEvent} (hτ : ∀ e ∈ τ, e.call.isDetached = true)
    (hplaintexts : mem.PlaintextsZero) (hbody : mem.BodyZero) :
    Along (WorkerMemory.step scribble) WorkerMemory.AtCall mem τ := by
  induction τ generalizing mem with
  | nil => exact along_nil _ _ _
  | cons e τ ih =>
    have he := hτ e List.mem_cons_self
    have hafter := after_of_detached scribble mem he
    refine along_cons_iff.2 ⟨⟨fun _ => hplaintexts, fun _ => hbody, fun cmd hcmd => ?_⟩, ?_⟩
    · rw [hcmd] at he
      cases he
    · apply ih (fun e' he' => hτ e' (List.mem_cons_of_mem e he'))
      · exact hafter.1 hplaintexts
      · exact hafter.2 hbody

/-- Once the body is zeroed, the message is settled. -/
theorem along_zeroedBody {msg : Option MessagePtr} {τ : List WorkerEvent}
    (hτ : ∀ e ∈ τ, e.call.isDetached = true) (hplaintexts : mem.PlaintextsZero) :
    Along (WorkerMemory.step scribble) WorkerMemory.AtCall mem (.zeroedBody msg :: τ) := by
  refine along_cons_iff.2 ⟨atCall_of_detached rfl rfl (fun _ h => by cases h), ?_⟩
  apply along_zero hτ ((after_of_detached scribble mem (e := .zeroedBody msg) rfl).1 hplaintexts)
  show (mem.after scribble ⟨.zeroBody msg, ()⟩).BodyZero
  unfold WorkerMemory.after
  cases hbody : mem.body with
  | none =>
    intro s hs
    rw [hbody] at hs
    cases hs
  | some s =>
    intro t ht
    obtain rfl : s = t := Option.some.inj ht
    exact Heap.contents_zero _ _

theorem along_settle {msg : Option MessagePtr} {m : PasswordSyncMessage} {result : ProcessorResult}
    {r : Option Err} {τ : List WorkerEvent} (h : Exec (settle msg m result) τ r)
    (hplaintexts : mem.PlaintextsZero) :
    Along (WorkerMemory.step scribble) WorkerMemory.AtCall mem τ := by
  have hdetached := detached_settle h
  have hfirst : ∃ rest, τ = .zeroedBody msg :: rest := by
    unfold settle at h
    split_ifs at h
    · obtain ⟨marked, answer, reports, rfl, -⟩ := exec_settleSynced h
      exact ⟨_, rfl⟩
    · obtain ⟨answer, reports, rfl, -⟩ := exec_settleCanceled h
      exact ⟨_, rfl⟩
    · obtain ⟨t, reports, -, ⟨err, answer, rfl⟩ | ⟨marked, answer, rfl⟩⟩ := exec_settleFailed h
      · exact ⟨_, rfl⟩
      · exact ⟨_, rfl⟩
  obtain ⟨rest, rfl⟩ := hfirst
  exact along_zeroedBody (fun e he => hdetached e (List.mem_cons_of_mem _ he)) hplaintexts

theorem along_settleInvalid {J : Json} {msg : Option MessagePtr} {r : Option Err}
    {τ : List WorkerEvent} (h : Exec (settleInvalid J msg) τ r) (hplaintexts : mem.PlaintextsZero) :
    Along (WorkerMemory.step scribble) WorkerMemory.AtCall mem τ := by
  have hdetached := detached_settleInvalid h
  have hfirst : ∃ t rest, τ = .read t :: .zeroedBody msg :: rest := by
    obtain ⟨t, reports, -, ⟨err, answer, rfl⟩ | ⟨answer, rfl⟩⟩ := exec_settleInvalid h
    · exact ⟨t, _, rfl⟩
    · exact ⟨t, _, rfl⟩
  obtain ⟨t, rest, rfl⟩ := hfirst
  refine along_cons_iff.2 ⟨atCall_of_detached rfl rfl (fun _ h => by cases h), ?_⟩
  apply along_zeroedBody (fun e he => hdetached e ?_) hplaintexts
  exact List.mem_cons_of_mem _ (List.mem_cons_of_mem _ he)

/-! ## Processing a message -/

/-- The lifetime of plaintexts, on every run of `processMessage`, also one that has not ended.  At
each call that sleeps, records, marks or settles every plaintext returned so far is zero, and but
for the sleeps the body is as well.  Each call of the processor gets the latest plaintext as
`Decrypt` returned it, and each `Decrypt` gets the envelope of the decoded message. -/
theorem plaintext_lifetime (J : Json) (w : Worker) (msg : Option MessagePtr)
    {q : WorkerProg (Option Err)} {τ : List WorkerEvent} (run : Steps (processMessage J w msg) τ q)
    (scribble : WorkerMemory → Bytes) :
    Along (WorkerMemory.step scribble) WorkerMemory.AtCall (.start msg) τ ∧
      ∀ e ∈ τ, ∀ env aad, e.call = .decrypt env aad → ∃ m,
        decodePasswordSyncMessage J msg = .ok m ∧ env = envelopeOf m ∧
          aad = passwordAAD m.cn m.upn m.enqueuedAt := by
  obtain ⟨τ', r, hexec⟩ := run.exists_exec worker_resp_nonempty
  refine ⟨(along_append_iff.1 (?_ : Along _ _ _ (τ ++ τ'))).1, fun e he env aad hcall => ?_⟩
  · have hclean := clean_start msg
    rcases exec_processMessage hexec with ⟨-, hinvalid⟩ |
      ⟨m, result, τ₁, τ₂, -, hsplit, hrun, hsettle⟩
    · exact along_settleInvalid hinvalid hclean.zero
    · obtain ⟨halong, hend⟩ := hrun.along hclean
      rw [hsplit]
      exact along_append_iff.2 ⟨halong, along_settle hsettle hend.zero⟩
  · obtain ⟨m, decoded, hattempt⟩ := attemptCall_processMessage hexec (List.mem_append_left τ' he)
      (by rw [hcall]; rfl)
    rw [hcall] at hattempt
    cases hattempt
    exact ⟨m, decoded, rfl, rfl⟩

end

/-- The sample message up to its first backoff. -/
def untilBackoff : List WorkerEvent :=
  [.decrypted (envelopeOf sampleMessage) sampleAAD (.ok [112]),
    .processed (commandOf sampleMessage [112]) (some (.new "timeout")), .zeroedPlaintext,
    .slept second none]

/-- The plaintext is zero at the sleep, also when the processor has overwritten it. -/
theorem plaintext_lifetime_backoff : ∃ ptr q,
    Steps (processMessage .flat (newWorker 1 0 0 []) (some ptr)) untilBackoff q ∧
    Along (WorkerMemory.step fun _ => [1]) WorkerMemory.AtCall (.start (some ptr))
      untilBackoff := by
  obtain ⟨ptr, hptr⟩ := decode_sampleMessage
  have hsteps :
      ∃ q, Steps (processMessage .flat (newWorker 1 0 0 []) (some ptr)) untilBackoff q := by
    rw [processMessage, hptr]
    exact ⟨_, .call _ _ _ <| .call _ _ _ <| .call _ _ _ <| .call _ _ _ <| .refl _⟩
  obtain ⟨q, hrun⟩ := hsteps
  exact ⟨ptr, q, hrun, (plaintext_lifetime .flat _ (some ptr) hrun fun _ => [1]).1⟩

end PasswordHook
