import PasswordHook.Migration.Service

/-!
# The order of a submission

A run of `Submit` reads the clock for the stamp before it hands the message to the queue, hands over
one message at most, and marks the account pending only after the queue took the message.  These are
properties of a trace that hold of its beginnings too, so they hold of a submission at any point.
-/

namespace PasswordHook

open Prog

/-- The message a call hands to the queue. -/
def HookCall.sentOf : HookCall → Option PasswordSyncMessage
  | .enqueuePasswordSync msg => some msg
  | _ => none

theorem IsLookup.sentOf {e : HookEvent} (h : IsLookup e) : e.call.sentOf = none := by
  rcases h with ⟨upn, r, rfl⟩ | ⟨t, rfl⟩ <;> rfl

/-- The event neither hands a message over nor marks an account. -/
def HookEvent.Silent (e : HookEvent) : Prop := e.call.sentOf = none ∧ e.call.markOf = none

theorem IsLookup.silent {e : HookEvent} (h : IsLookup e) : e.Silent := ⟨h.sentOf, h.markOf⟩

theorem silent_read (reading : ClockReading) (t : Time) : (HookEvent.read reading t).Silent :=
  ⟨rfl, rfl⟩

theorem silent_encrypted (plaintext aad : Bytes) (r : Except Err Envelope) :
    (HookEvent.encrypted plaintext aad r).Silent := ⟨rfl, rfl⟩

theorem silent_zeroed : HookEvent.zeroed.Silent := ⟨rfl, rfl⟩

/-- The reading of the clock a message is stamped with. -/
def StampOf (msg : PasswordSyncMessage) (e : HookEvent) : Prop :=
  ∃ t, e = .read (.enqueuedAt msg.upn) t ∧ msg.enqueuedAt = t.utc

/-- The queue took the message of an account with a stamp. -/
def TakenFor (upn : String) (t : Time) (e : HookEvent) : Prop :=
  ∃ msg, e = .sent msg none ∧ msg.upn = upn ∧ msg.enqueuedAt = t

/-- What holds of the calls of a submission. -/
structure Ordered (τ : List HookEvent) : Prop where
  stamped_first : ∀ msg, Precedes (StampOf msg) (fun e => e.call.sentOf = some msg) τ
  taken_first : ∀ upn t, Precedes (TakenFor upn t) (fun e => e.call.markOf = some (upn, t)) τ
  one_message : ∃ msg₀, ∀ e ∈ τ, ∀ msg, e.call.sentOf = some msg → msg = msg₀

/-- The beginning of an ordered trace is ordered. -/
theorem Ordered.of_append {τ₁ τ₂ : List HookEvent} (h : Ordered (τ₁ ++ τ₂)) : Ordered τ₁ where
  stamped_first msg := (h.stamped_first msg).of_append
  taken_first upn t := (h.taken_first upn t).of_append
  one_message := by
    obtain ⟨msg₀, hone⟩ := h.one_message
    exact ⟨msg₀, fun e he => hone e (List.mem_append_left _ he)⟩

/-- Whatever an ordered trace hands to the queue is one message. -/
theorem Ordered.message_eq {τ : List HookEvent} (h : Ordered τ) {e e' : HookEvent} (he : e ∈ τ)
    (he' : e' ∈ τ) {msg msg' : PasswordSyncMessage} (hsent : e.call.sentOf = some msg)
    (hsent' : e'.call.sentOf = some msg') : msg = msg' := by
  obtain ⟨msg₀, hone⟩ := h.one_message
  rw [hone e he msg hsent, hone e' he' msg' hsent']

/-- A trace that hands nothing over and marks nothing is ordered. -/
theorem ordered_of_silent {τ : List HookEvent}
    (h : ∀ e ∈ τ, e.Silent) : Ordered τ where
  stamped_first msg := precedes_of_forall_not fun e he hs => by simp [(h e he).1] at hs
  taken_first upn t := precedes_of_forall_not fun e he hm => by simp [(h e he).2] at hm
  one_message := by
    refine ⟨⟨"", "", ⟨""⟩, "", "", "", "", "", "", "", .zero⟩, fun e he msg hs => ?_⟩
    simp [(h e he).1] at hs

/-- A trace that stamps, hands over and then marks one message is ordered. -/
theorem ordered_of_stamped {msg : PasswordSyncMessage} {lead marks : List HookEvent}
    {answer : Option Err} (silent : ∀ e ∈ lead, e.Silent)
    (stamped : ∃ e ∈ lead, StampOf msg e)
    (hmarks : ∀ e ∈ marks, e.call.sentOf = none ∧ ∀ mark, e.call.markOf = some mark →
      answer = none ∧ mark = (msg.upn, msg.enqueuedAt)) :
    Ordered (lead ++ HookEvent.sent msg answer :: marks) := by
  have hsent : ∀ e ∈ lead ++ HookEvent.sent msg answer :: marks, ∀ msg',
      e.call.sentOf = some msg' → msg' = msg := by
    intro e he msg' hs
    rcases List.mem_append.1 he with he | he
    · simp [(silent e he).1] at hs
    · rcases List.mem_cons.1 he with rfl | he
      · exact (Option.some_inj.1 hs).symm
      · simp [(hmarks e he).1] at hs
  refine ⟨fun msg' => ?_, fun upn t => ?_, msg, hsent⟩
  · by_cases hmsg : msg' = msg
    · subst hmsg
      exact precedes_append (fun e he hs => by simp [(silent e he).1] at hs) stamped
    · exact precedes_of_forall_not fun e he hs => hmsg (hsent e he msg' hs)
  · have hsilent : ∀ e ∈ lead ++ [HookEvent.sent msg answer], e.call.markOf ≠ some (upn, t) := by
      intro e he hm
      rcases List.mem_append.1 he with he | he
      · simp [(silent e he).2] at hm
      · rw [List.mem_singleton.1 he] at hm
        exact absurd hm (by simp [HookEvent.sent, HookCall.markOf])
    by_cases htaken : answer = none ∧ (upn, t) = (msg.upn, msg.enqueuedAt)
    · obtain ⟨rfl, hmark⟩ := htaken
      obtain ⟨rfl, rfl⟩ := Prod.mk.inj hmark
      rw [List.append_cons]
      exact precedes_append hsilent ⟨.sent msg none, by simp, msg, rfl, rfl, rfl⟩
    · rw [List.append_cons]
      refine precedes_of_forall_not fun e he hm => ?_
      rcases List.mem_append.1 he with he | he
      · exact hsilent e he hm
      · exact htaken ((hmarks e he).2 _ hm)

/-- Every complete run of `Submit` is ordered. -/
theorem ordered_submit {U : Unicode} {svc : Service} {traceID : String} {req : Request}
    {τ : List HookEvent} {r : Decision × Option Err} (h : Exec (submit U svc traceID req) τ r) :
    Ordered τ := by
  obtain ⟨τ', rfl, h'⟩ := exec_submit h
  rcases exec_submitBody h' with ⟨-, hlead, -⟩ | ⟨upn, -, lead, t, tail, rfl, hlead, h''⟩
  · apply ordered_of_silent
    rw [List.forall_mem_append, List.forall_mem_singleton]
    exact ⟨fun e he => (hlead e he).silent, silent_zeroed⟩
  have hsilent : ∀ {r}, ∀ e ∈ lead ++ [HookEvent.read (.enqueuedAt upn) t, HookEvent.encrypted
      req.password (passwordAAD (trimSpace req.cn) upn t.utc) r], e.Silent := by
    intro r
    rw [List.forall_mem_append, List.forall_mem_cons, List.forall_mem_singleton]
    exact ⟨fun e he => (hlead e he).silent, silent_read _ _, silent_encrypted _ _ _⟩
  have hordered : ∀ env answer marks, (∀ e ∈ marks, e.call.sentOf = none ∧
      ∀ mark, e.call.markOf = some mark → answer = none ∧ mark = (upn, t.utc)) →
      Ordered (lead ++ [HookEvent.read (.enqueuedAt upn) t, HookEvent.encrypted
        req.password (passwordAAD (trimSpace req.cn) upn t.utc) (.ok env)] ++
        HookEvent.sent (stampedMessage traceID req upn t.utc env) answer :: marks) :=
    fun env answer marks hmarks => ordered_of_stamped hsilent
      ⟨HookEvent.read (.enqueuedAt upn) t, by simp, t, rfl, rfl⟩ hmarks
  have hzeroed : ∀ mark, HookEvent.zeroed.call.markOf ≠ some mark := by
    simp [HookEvent.zeroed, HookCall.markOf]
  rcases exec_submitStamped h'' with ⟨e, rfl, -⟩ | ⟨env, ⟨e, rfl, -⟩ | ⟨marks, rfl, hmarks, -⟩⟩
  · apply ordered_of_silent
    rw [List.forall_mem_append, List.forall_mem_singleton]
    exact ⟨hsilent, silent_zeroed⟩
  · have := hordered env (some e) [.zeroed] (by
      rw [List.forall_mem_singleton]
      exact ⟨rfl, fun mark hm => absurd hm (hzeroed mark)⟩)
    simpa using this
  · have := hordered env none (marks ++ [.zeroed]) (by
      rw [List.forall_mem_append, List.forall_mem_singleton]
      refine ⟨?_, rfl, fun mark hm => absurd hm (hzeroed mark)⟩
      rcases hmarks with ⟨-, e, rfl⟩ | ⟨-, rfl⟩
      · rw [List.forall_mem_singleton]
        exact ⟨rfl, fun mark hm => ⟨rfl, (Option.some_inj.1 hm).symm⟩⟩
      · exact fun e he => absurd he List.not_mem_nil)
    simpa using this

end PasswordHook
