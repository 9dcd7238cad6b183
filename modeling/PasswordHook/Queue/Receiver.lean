import PasswordHook.Lib.Buffers
import PasswordHook.Lib.Simulation
import PasswordHook.Queue.ServiceBus

/-!
# The receiver and its messages

`Receiver` of package `servicebusqueue`.  For every message it hands to the worker it remembers the
Service Bus message behind it, by the pointer to the former, until that one is settled.  Over any
run the map is what it should be (`receiver_bookkeeping`): a settlement acts on the message's own
delivery, once at most with success, and leaves zeros in both bodies.
-/

namespace PasswordHook

/-- A pointer to a `worker.Message`: one that the receiver made, by its number, or any other. -/
inductive MessageRef where
  | own (n : ℕ)
  | foreign (n : ℕ)
  deriving DecidableEq

/-- An `azservicebus.ReceivedMessage` in memory; `message` is what was delivered. -/
structure ReceivedMessage where
  delivery : ℕ
  body : Slice
  message : BusMessage

/-- A `worker.Message` in memory. -/
structure WorkerMessage where
  ref : MessageRef
  body : Slice
  kind : String

/-- The map of the receiver, with the memory: the worker messages made so far and the number of
deliveries. -/
structure ReceiverState where
  native : MessageRef → Option ReceivedMessage
  heap : Heap
  made : List WorkerMessage
  deliveries : ℕ

inductive Settlement where
  | complete
  | abandon
  deriving DecidableEq

namespace ReceiverState

/-- The worker message at a pointer. -/
def messageAt (s : ReceiverState) : MessageRef → Option WorkerMessage
  | .own n => s.made[n]?
  | .foreign _ => none

/-- Deliveries arrive in memory. -/
def deliver : ReceiverState → List BusMessage → ReceiverState × List ReceivedMessage
  | s, [] => (s, [])
  | s, msg :: msgs =>
    let native : ReceivedMessage := ⟨s.deliveries, ⟨s.heap.next, msg.body.length⟩, msg⟩
    let r := deliver { s with heap := s.heap.alloc msg.body, deliveries := s.deliveries + 1 } msgs
    (r.1, native :: r.2)

variable (grow : ℕ → ℕ → ℕ)

/-- The loop of `ReceiveMessages`; `grow` is the capacity of a copy. -/
def receiveEach : ReceiverState → List ReceivedMessage → ReceiverState × List WorkerMessage
  | s, [] => (s, [])
  | s, native :: natives =>
    let copied := Heap.ofBytes grow s.heap (s.heap.contents native.body)
    let msg : WorkerMessage := ⟨.own s.made.length, copied.2, messageKind native.message⟩
    let r := receiveEach
      { s with
        native := Function.update s.native msg.ref (some native)
        heap := copied.1
        made := s.made ++ [msg] } natives
    (r.1, msg :: r.2)

/-- `ensureNativeReceiver` -/
def ensureNativeReceiver (receiver : Bool) : Option Err :=
  if receiver then none else some (.new "service bus receiver is required")

/-- `nativeMessage` -/
def nativeMessage (s : ReceiverState) (msg : Option MessageRef) : Except Err ReceivedMessage :=
  match msg.bind s.native with
  | none => .error (.new "worker message was not received by this service bus receiver")
  | some native => .ok native

/-- `zeroReceivedBodies` -/
def zeroReceivedBodies (s : ReceiverState) (msg : Option MessageRef) (native : ReceivedMessage) :
    Heap :=
  match msg.bind s.messageAt with
  | none => s.heap.zero native.body
  | some msg => (s.heap.zero msg.body).zero native.body

/-- `delete(r.native, msg)` -/
def deleteNative (s : ReceiverState) : Option MessageRef → ReceiverState
  | none => s
  | some ref => { s with native := Function.update s.native ref none }

variable (receiver : Bool)

/-- `ReceiveMessages`, with the answer of the broker; also the broker messages of the batch. -/
def receiveMessages (s : ReceiverState) (answer : Except Err (List BusMessage)) :
    ReceiverState × List ReceivedMessage × Except Err (List WorkerMessage) :=
  match ensureNativeReceiver receiver with
  | some err => (s, [], .error err)
  | none =>
    match answer with
    | .error err => (s, [], .error err)
    | .ok msgs =>
      let batch := s.deliver msgs
      let r := batch.1.receiveEach grow batch.2
      (r.1, batch.2, .ok r.2)

/-- `CompleteMessage` and `AbandonMessage`, with the answer of the broker; the broker message that
was settled, if it was asked, and the error. -/
def settleMessage (how : Settlement) (s : ReceiverState) (msg : Option MessageRef)
    (answer : Option Err) : ReceiverState × Option (Settlement × ReceivedMessage) × Option Err :=
  match ensureNativeReceiver receiver with
  | some err => (s, none, some err)
  | none =>
    match s.nativeMessage msg with
    | .error err => (s, none, some err)
    | .ok native =>
      let zeroed := { s with heap := s.zeroReceivedBodies msg native }
      match answer with
      | some err => (zeroed, some (how, native), some err)
      | none => (zeroed.deleteNative msg, some (how, native), none)

def completeMessage := settleMessage receiver .complete

def abandonMessage := settleMessage receiver .abandon

end ReceiverState

/-! ## Runs -/

/-- A receiver with what has happened: the messages handed out, each with the broker message it was
made from, the settlements that succeeded, and the messages that the broker was asked to settle. -/
structure ReceiverSession where
  state : ReceiverState
  handed : List (WorkerMessage × ReceivedMessage)
  settled : List (MessageRef × ReceivedMessage)
  attempted : List MessageRef

inductive ReceiverCall where
  | receiveMessages (maxMessages : ℤ) (answer : Except Err (List BusMessage))
  | completeMessage (msg : Option MessageRef) (answer : Option Err)
  | abandonMessage (msg : Option MessageRef) (answer : Option Err)

inductive ReceiverReply where
  | received (r : Except Err (List WorkerMessage))
  | settled (contacted : Option (Settlement × ReceivedMessage)) (err : Option Err)

namespace ReceiverSession

def start (heap : Heap) : ReceiverSession := ⟨⟨fun _ => none, heap, [], 0⟩, [], [], []⟩

/-- A settlement is written down as the broker and the caller see it. -/
def afterSettlement (x : ReceiverSession) (msg : Option MessageRef)
    (r : ReceiverState × Option (Settlement × ReceivedMessage) × Option Err) : ReceiverSession :=
  match msg, r.2.1 with
  | some ref, some (_, native) =>
    { state := r.1
      handed := x.handed
      settled := if r.2.2 = none then x.settled ++ [(ref, native)] else x.settled
      attempted := x.attempted ++ [ref] }
  | _, _ => { x with state := r.1 }

variable (grow : ℕ → ℕ → ℕ) (receiver : Bool)

def step (x : ReceiverSession) : ReceiverCall → ReceiverSession × ReceiverReply
  | .receiveMessages _ answer =>
    match x.state.receiveMessages grow receiver answer with
    | (s, natives, .ok out) =>
      ({ x with state := s, handed := x.handed ++ out.zip natives }, .received (.ok out))
    | (s, _, .error err) => ({ x with state := s }, .received (.error err))
  | .completeMessage msg answer =>
    let r := x.state.completeMessage receiver msg answer
    (x.afterSettlement msg r, .settled r.2.1 r.2.2)
  | .abandonMessage msg answer =>
    let r := x.state.abandonMessage receiver msg answer
    (x.afterSettlement msg r, .settled r.2.1 r.2.2)

/-- The message was handed out, made from the broker message. -/
def HandedOut (x : ReceiverSession) (ref : MessageRef) (native : ReceivedMessage) : Prop :=
  ∃ msg, (msg, native) ∈ x.handed ∧ msg.ref = ref

/-- The message was settled with success. -/
def Settled (x : ReceiverSession) (ref : MessageRef) : Prop := ref ∈ x.settled.map Prod.fst

end ReceiverSession

/-- The slice holds zeros only. -/
def Heap.Zeros (h : Heap) (s : Slice) : Prop := ∀ b ∈ h.contents s, b = 0

namespace ReceiverSession

variable (receiver : Bool)

/-- The books are right: the map holds the messages handed out and not settled, each with the broker
message it was made from; settlements were of a message's own delivery, each delivery once; and what
was to be settled is zero in both bodies. -/
structure Exact (x : ReceiverSession) : Prop where
  native_iff : ∀ ref native, x.state.native ref = some native ↔
    x.HandedOut ref native ∧ ¬ x.Settled ref
  own : ∀ p ∈ x.settled, x.HandedOut p.1 p.2
  once : (x.settled.map fun p => p.2.delivery).Nodup
  zeroed : ∀ ref ∈ x.attempted, ∀ p ∈ x.handed, p.1.ref = ref →
    x.state.heap.Zeros p.1.body ∧ x.state.heap.Zeros p.2.body

/-- What a settlement does in this state.  Of a message that was handed out and not settled it asks
the broker to settle the delivery the message was made from, reports what the broker answers, leaves
zeros in both bodies, and keeps the message in the map if the broker failed; any other message it
refuses, without asking the broker. -/
structure SettlesOwn (x : ReceiverSession) (how : Settlement) (msg : Option MessageRef)
    (answer : Option Err) : Prop where
  known : ∀ p ∈ x.handed, msg = some p.1.ref → ¬ x.Settled p.1.ref →
    let r := x.state.settleMessage receiver how msg answer
    r.2 = (some (how, p.2), answer) ∧ r.1.heap.Zeros p.1.body ∧ r.1.heap.Zeros p.2.body ∧
      r.1.native p.1.ref = if answer = none then none else some p.2
  refused : (∀ p ∈ x.handed, msg = some p.1.ref → x.Settled p.1.ref) →
    let r := x.state.settleMessage receiver how msg answer
    r.1 = x.state ∧ r.2.1 = none ∧ r.2.2 ≠ none

/-- The call, if it is a settlement, is one of these. -/
def SettlesOwnAt (x : ReceiverSession) : ReceiverCall → Prop
  | .receiveMessages _ _ => True
  | .completeMessage msg answer => x.SettlesOwn receiver .complete msg answer
  | .abandonMessage msg answer => x.SettlesOwn receiver .abandon msg answer

/-! ## The invariant -/

/-- With the books, that messages and deliveries are told apart and in memory. -/
structure Kept (x : ReceiverSession) : Prop extends Exact x where
  unconfigured : receiver = false → x.handed = []
  refs : (x.handed.map fun p => p.1.ref).Nodup
  deliveries : (x.handed.map fun p => p.2.delivery).Nodup
  made : ∀ p ∈ x.handed, ∃ n < x.state.made.length, p.1.ref = .own n ∧ x.state.made[n]? = some p.1
  delivered : ∀ p ∈ x.handed, p.2.delivery < x.state.deliveries
  bodies : ∀ p ∈ x.handed, p.1.body.id < x.state.heap.next ∧ p.2.body.id < x.state.heap.next
  attempts : ∀ ref ∈ x.attempted, ∃ p ∈ x.handed, p.1.ref = ref

variable {receiver} {x : ReceiverSession}

/-- A list stays without repetitions under the function when a new value is added. -/
theorem nodup_map_concat {α β : Type} {f : α → β} {l : List α} {a : α} (h : (l.map f).Nodup)
    (hnew : ∀ b ∈ l, f b ≠ f a) : ((l ++ [a]).map f).Nodup := by
  rw [List.map_append, List.map_singleton, ← List.concat_eq_append]
  apply List.Nodup.concat _ h
  rw [List.mem_map]
  rintro ⟨b, hb, heq⟩
  exact hnew b hb heq

theorem kept_start (heap : Heap) : (start heap).Kept receiver where
  native_iff ref native := by simp [start, HandedOut]
  own := by simp [start]
  once := by simp [start]
  zeroed := by simp [start]
  unconfigured _ := rfl
  refs := by simp [start]
  deliveries := by simp [start]
  made := by simp [start]
  delivered := by simp [start]
  bodies := by simp [start]
  attempts := by simp [start]

theorem Kept.eq_of_ref (h : x.Kept receiver) {p q : WorkerMessage × ReceivedMessage}
    (hp : p ∈ x.handed) (hq : q ∈ x.handed) (href : p.1.ref = q.1.ref) : p = q :=
  List.inj_on_of_nodup_map h.refs hp hq href

/-- More memory and more deliveries change nothing. -/
theorem Kept.extend (h : x.Kept receiver) {s : ReceiverState} (hnative : s.native = x.state.native)
    (hmade : s.made = x.state.made) (hheap : x.state.heap.Extends s.heap)
    (hdeliveries : x.state.deliveries ≤ s.deliveries) :
    ({ x with state := s } : ReceiverSession).Kept receiver where
  native_iff ref native := by rw [hnative]; exact h.native_iff ref native
  own := h.own
  once := h.once
  zeroed ref href p hp heq := by
    obtain ⟨hmsg, hbroker⟩ := h.zeroed ref href p hp heq
    obtain ⟨hmsgId, hbrokerId⟩ := h.bodies p hp
    unfold Heap.Zeros
    rw [hheap.contents_eq hmsgId, hheap.contents_eq hbrokerId]
    exact ⟨hmsg, hbroker⟩
  unconfigured := h.unconfigured
  refs := h.refs
  deliveries := h.deliveries
  made := by rw [hmade]; exact h.made
  delivered p hp := lt_of_lt_of_le (h.delivered p hp) hdeliveries
  bodies p hp := ⟨lt_of_lt_of_le (h.bodies p hp).1 hheap.next_le,
    lt_of_lt_of_le (h.bodies p hp).2 hheap.next_le⟩
  attempts := h.attempts

/-! ## Receiving -/

/-- Broker messages that are in memory and behind none of the messages handed out. -/
structure Fresh (x : ReceiverSession) (natives : List ReceivedMessage) : Prop where
  deliveries : (natives.map ReceivedMessage.delivery).Nodup
  delivered : ∀ native ∈ natives, native.delivery < x.state.deliveries
  bodies : ∀ native ∈ natives, native.body.id < x.state.heap.next
  unused : ∀ native ∈ natives, ∀ p ∈ x.handed, p.2.delivery ≠ native.delivery

/-- What a delivery does to the memory. -/
theorem deliver_spec (s : ReceiverState) (msgs : List BusMessage) :
    (s.deliver msgs).1.native = s.native ∧ (s.deliver msgs).1.made = s.made ∧
      s.heap.Extends (s.deliver msgs).1.heap ∧ s.deliveries ≤ (s.deliver msgs).1.deliveries ∧
      ((s.deliver msgs).2.map ReceivedMessage.delivery).Nodup ∧
      ∀ native ∈ (s.deliver msgs).2, s.deliveries ≤ native.delivery ∧
        native.delivery < (s.deliver msgs).1.deliveries ∧
        native.body.id < (s.deliver msgs).1.heap.next := by
  induction msgs generalizing s with
  | nil => simp [ReceiverState.deliver, Heap.Extends.refl]
  | cons msg msgs ih =>
    obtain ⟨hnative, hmade, hheap, hle, hnodup, hall⟩ :=
      ih { s with heap := s.heap.alloc msg.body, deliveries := s.deliveries + 1 }
    have hnext : s.heap.next < (ReceiverState.deliver
        { s with heap := s.heap.alloc msg.body, deliveries := s.deliveries + 1 }
          msgs).1.heap.next :=
      lt_of_lt_of_le (Nat.lt_succ_self _) hheap.next_le
    simp only [ReceiverState.deliver]
    refine ⟨hnative, hmade, (Heap.extends_alloc s.heap msg.body).trans hheap,
      (Nat.le_succ _).trans hle, ?_, ?_⟩
    · rw [List.map_cons, List.nodup_cons]
      refine ⟨fun hmem => ?_, hnodup⟩
      obtain ⟨native, hmem, heq⟩ := List.mem_map.1 hmem
      have hlater := (hall native hmem).1
      dsimp only at heq hlater
      omega
    · intro native hmem
      rcases List.mem_cons.1 hmem with rfl | hmem
      · exact ⟨le_rfl, hle, hnext⟩
      · obtain ⟨h₁, h₂, h₃⟩ := hall native hmem
        exact ⟨(Nat.le_succ _).trans h₁, h₂, h₃⟩

theorem Kept.deliver (h : x.Kept receiver) (msgs : List BusMessage) :
    ({ x with state := (x.state.deliver msgs).1 } : ReceiverSession).Kept receiver ∧
      ({ x with state := (x.state.deliver msgs).1 } : ReceiverSession).Fresh
        (x.state.deliver msgs).2 := by
  obtain ⟨hnative, hmade, hheap, hle, hnodup, hall⟩ := deliver_spec x.state msgs
  refine ⟨h.extend hnative hmade hheap hle, hnodup, fun native hmem => (hall native hmem).2.1,
    fun native hmem => (hall native hmem).2.2, fun native hmem p hp => ?_⟩
  have hbefore := h.delivered p hp
  have hafter := (hall native hmem).1
  omega

/-- A delivery is in memory as the broker sent it. -/
theorem map_deliver (s : ReceiverState) (msgs : List BusMessage) :
    (s.deliver msgs).2.map (fun native =>
      ((s.deliver msgs).1.heap.contents native.body, messageKind native.message)) =
      msgs.map fun msg => (msg.body, messageKind msg) := by
  induction msgs generalizing s with
  | nil => rfl
  | cons msg msgs ih =>
    have hheap := (deliver_spec
      { s with heap := s.heap.alloc msg.body, deliveries := s.deliveries + 1 } msgs).2.2.1
    simp only [ReceiverState.deliver, List.map_cons, ih]
    congr 2
    rw [hheap.contents_eq (Nat.lt_succ_self _)]
    exact (congrArg (List.take _) (Heap.buffer_alloc_next msg.body)).trans List.take_length

/-- The loop of `ReceiveMessages` makes one message of each delivery, with its body and its kind. -/
theorem map_receiveEach (grow : ℕ → ℕ → ℕ) (s : ReceiverState) {natives : List ReceivedMessage}
    (hin : ∀ native ∈ natives, native.body.id < s.heap.next) :
    s.heap.Extends (s.receiveEach grow natives).1.heap ∧
      (s.receiveEach grow natives).2.map (fun msg =>
        ((s.receiveEach grow natives).1.heap.contents msg.body, msg.kind)) =
        natives.map fun native => (s.heap.contents native.body, messageKind native.message) := by
  induction natives generalizing s with
  | nil => exact ⟨Heap.Extends.refl _, rfl⟩
  | cons native natives ih =>
    obtain ⟨-, hcopy, -⟩ := s.heap.alloc_padded (s.heap.contents native.body)
      (grow 0 (s.heap.contents native.body).length - (s.heap.contents native.body).length)
    have hcopied := Heap.extends_alloc s.heap (s.heap.contents native.body ++ List.replicate
      (grow 0 (s.heap.contents native.body).length - (s.heap.contents native.body).length) 0)
    have hlater : ∀ later ∈ natives, later.body.id < s.heap.next := fun later hmem =>
      hin later (List.mem_cons_of_mem _ hmem)
    obtain ⟨hheap, hrest⟩ := ih
      { s with
        native := Function.update s.native (.own s.made.length) (some native)
        heap := (Heap.ofBytes grow s.heap (s.heap.contents native.body)).1
        made := s.made ++ [⟨.own s.made.length,
          (Heap.ofBytes grow s.heap (s.heap.contents native.body)).2, messageKind native.message⟩] }
      fun later hmem => (hlater later hmem).trans (Nat.lt_succ_self _)
    refine ⟨hcopied.trans hheap, ?_⟩
    simp only [ReceiverState.receiveEach, List.map_cons, hrest]
    congr 1
    · rw [hheap.contents_eq (Nat.lt_succ_self _)]
      exact congrArg (·, messageKind native.message) hcopy
    · apply List.map_congr_left
      intro later hmem
      exact congrArg (·, messageKind later.message) (hcopied.contents_eq (hlater later hmem))

/-- What `ReceiveMessages` returns: one message for each of the broker, with its body and its
kind. -/
theorem map_receiveMessages (grow : ℕ → ℕ → ℕ) (s : ReceiverState) (msgs : List BusMessage) :
    ∃ out, (s.receiveMessages grow true (.ok msgs)).2.2 = .ok out ∧
      out.map (fun msg =>
        ((s.receiveMessages grow true (.ok msgs)).1.heap.contents msg.body, msg.kind)) =
        msgs.map fun msg => (msg.body, messageKind msg) := by
  have hin : ∀ native ∈ (s.deliver msgs).2, native.body.id < (s.deliver msgs).1.heap.next :=
    fun native hmem => ((deliver_spec s msgs).2.2.2.2.2 native hmem).2.2
  exact ⟨_, rfl, (map_receiveEach grow _ hin).2.trans (map_deliver s msgs)⟩

/-- The session after one round of the loop. -/
def received (grow : ℕ → ℕ → ℕ) (x : ReceiverSession) (native : ReceivedMessage) :
    ReceiverSession :=
  let copied := Heap.ofBytes grow x.state.heap (x.state.heap.contents native.body)
  let msg : WorkerMessage := ⟨.own x.state.made.length, copied.2, messageKind native.message⟩
  { x with
    state :=
      { x.state with
        native := Function.update x.state.native msg.ref (some native)
        heap := copied.1
        made := x.state.made ++ [msg] }
    handed := x.handed ++ [(msg, native)] }

/-- The number of the next message is that of no message yet. -/
theorem Kept.ref_ne_next (h : x.Kept receiver) {p : WorkerMessage × ReceivedMessage}
    (hp : p ∈ x.handed) : p.1.ref ≠ .own x.state.made.length := by
  obtain ⟨n, hlt, href, -⟩ := h.made p hp
  rw [href]
  intro heq
  exact Nat.ne_of_lt hlt (MessageRef.own.inj heq)

theorem handedOut_received_iff (grow : ℕ → ℕ → ℕ) (native : ReceivedMessage) (ref : MessageRef)
    (found : ReceivedMessage) :
    (x.received grow native).HandedOut ref found ↔
      x.HandedOut ref found ∨ .own x.state.made.length = ref ∧ found = native := by
  unfold HandedOut received
  simp only [List.mem_append, List.mem_singleton, Prod.mk.injEq]
  constructor
  · rintro ⟨msg, hmem | ⟨rfl, rfl⟩, href⟩
    · exact .inl ⟨msg, hmem, href⟩
    · exact .inr ⟨href, rfl⟩
  · rintro (⟨msg, hmem, href⟩ | ⟨href, rfl⟩)
    · exact ⟨msg, .inl hmem, href⟩
    · exact ⟨_, .inr ⟨rfl, rfl⟩, href⟩

theorem Kept.native_received_iff (h : x.Kept receiver) (grow : ℕ → ℕ → ℕ) (native : ReceivedMessage)
    (ref : MessageRef) (found : ReceivedMessage) :
    (x.received grow native).state.native ref = some found ↔
      (x.received grow native).HandedOut ref found ∧ ¬ (x.received grow native).Settled ref := by
  rw [handedOut_received_iff]
  by_cases href : .own x.state.made.length = ref
  · subst href
    have hnew : ∀ found, ¬ x.HandedOut (.own x.state.made.length) found := by
      rintro found ⟨msg, hmem, heq⟩
      exact h.ref_ne_next hmem heq
    have hopen : ¬ x.Settled (.own x.state.made.length) := by
      intro hsettled
      obtain ⟨p, hp, heq⟩ := List.mem_map.1 hsettled
      have hhanded := h.own p hp
      rw [heq] at hhanded
      exact hnew _ hhanded
    have hnative : (x.received grow native).state.native (.own x.state.made.length) = some native :=
      Function.update_self _ _ _
    rw [hnative, Option.some.injEq]
    constructor
    · rintro rfl
      exact ⟨.inr ⟨rfl, rfl⟩, hopen⟩
    · rintro ⟨hold | ⟨-, rfl⟩, -⟩
      · exact absurd hold (hnew found)
      · rfl
  · have hnative : (x.received grow native).state.native ref = x.state.native ref :=
      Function.update_of_ne (Ne.symm href) _ _
    rw [hnative, h.native_iff, or_iff_left (fun hnew => href hnew.1)]
    rfl

theorem Kept.received (h : x.Kept receiver) (grow : ℕ → ℕ → ℕ) (configured : receiver = true)
    {native : ReceivedMessage} {natives : List ReceivedMessage}
    (fresh : x.Fresh (native :: natives)) :
    (x.received grow native).Kept receiver := by
  -- the copy is in memory before the message is known
  have hcopied :=
    h.extend (s := { x.state with heap := (x.received grow native).state.heap }) rfl rfl
    (x.state.heap.extends_alloc _) le_rfl
  have hunused := fresh.unused native (List.mem_cons_self ..)
  have hbody := fresh.bodies native (List.mem_cons_self ..)
  refine
    { native_iff := h.native_received_iff grow native
      own := fun p hp => (handedOut_received_iff grow native p.1 p.2).2 (.inl (h.own p hp))
      once := h.once
      zeroed := fun ref href p hp heq => ?_
      unconfigured := fun hreceiver => absurd (configured.symm.trans hreceiver) (by decide)
      refs := ?_
      deliveries := ?_
      made := fun p hp => ?_
      delivered := fun p hp => ?_
      bodies := fun p hp => ?_
      attempts := fun ref href => ?_ }
  · rcases List.mem_append.1 hp with hp | hp
    · exact hcopied.zeroed ref href p hp heq
    · obtain ⟨q, hq, hqref⟩ := h.attempts ref href
      rw [List.mem_singleton.1 hp] at heq
      exact absurd (hqref.trans heq.symm) (h.ref_ne_next hq)
  · apply nodup_map_concat h.refs
    intro p hp
    exact h.ref_ne_next hp
  · apply nodup_map_concat h.deliveries
    exact hunused
  · have hlength : (x.received grow native).state.made.length = x.state.made.length + 1 :=
      List.length_append
    rw [hlength]
    rcases List.mem_append.1 hp with hp | hp
    · obtain ⟨n, hlt, href, hmade⟩ := h.made p hp
      exact ⟨n, hlt.trans (Nat.lt_succ_self _), href, (List.getElem?_append_left hlt).trans hmade⟩
    · rw [List.mem_singleton.1 hp]
      exact ⟨x.state.made.length, Nat.lt_succ_self _, rfl, List.getElem?_concat_length⟩
  · rcases List.mem_append.1 hp with hp | hp
    · exact h.delivered p hp
    · rw [List.mem_singleton.1 hp]
      exact fresh.delivered native (List.mem_cons_self ..)
  · rcases List.mem_append.1 hp with hp | hp
    · exact hcopied.bodies p hp
    · rw [List.mem_singleton.1 hp]
      exact ⟨Nat.lt_succ_self _, lt_of_lt_of_le hbody (Nat.le_succ _)⟩
  · obtain ⟨p, hp, heq⟩ := h.attempts ref href
    exact ⟨p, List.mem_append_left _ hp, heq⟩

theorem Fresh.received (grow : ℕ → ℕ → ℕ) {native : ReceivedMessage}
    {natives : List ReceivedMessage} (fresh : x.Fresh (native :: natives)) :
    (x.received grow native).Fresh natives where
  deliveries := (List.nodup_cons.1 fresh.deliveries).2
  delivered later hmem := fresh.delivered later (List.mem_cons_of_mem _ hmem)
  bodies later hmem := (fresh.bodies later (List.mem_cons_of_mem _ hmem)).trans (Nat.lt_succ_self _)
  unused later hmem p hp := by
    rcases List.mem_append.1 hp with hp | hp
    · exact fresh.unused later (List.mem_cons_of_mem _ hmem) p hp
    · rw [List.mem_singleton.1 hp]
      intro heq
      apply (List.nodup_cons.1 fresh.deliveries).1
      rw [heq]
      exact List.mem_map_of_mem hmem

/-- The loop of `ReceiveMessages` keeps the books. -/
theorem Kept.receiveEach (h : x.Kept receiver) (grow : ℕ → ℕ → ℕ) (configured : receiver = true)
    {natives : List ReceivedMessage} (fresh : x.Fresh natives) :
    ({ x with
      state := (x.state.receiveEach grow natives).1
      handed := x.handed ++ (x.state.receiveEach grow natives).2.zip natives } :
        ReceiverSession).Kept receiver := by
  induction natives generalizing x with
  | nil =>
    rw [List.zip_nil_right, List.append_nil]
    exact h
  | cons native natives ih =>
    have hrest := ih (h.received grow configured fresh) (fresh.received grow)
    simp only [ReceiverSession.received, List.append_assoc, List.singleton_append] at hrest
    exact hrest

theorem Kept.receiveMessages (h : x.Kept receiver) (grow : ℕ → ℕ → ℕ) (n : ℤ)
    (answer : Except Err (List BusMessage)) :
    (x.step grow receiver (.receiveMessages n answer)).1.Kept receiver := by
  unfold step ReceiverState.receiveMessages ReceiverState.ensureNativeReceiver
  cases receiver with
  | false => exact h
  | true =>
    cases answer with
    | error err => exact h
    | ok msgs =>
      obtain ⟨hdelivered, fresh⟩ := h.deliver msgs
      exact hdelivered.receiveEach grow rfl fresh

/-! ## Settling -/

/-- Both bodies of a message are overwritten. -/
def zeroed (x : ReceiverSession) (p : WorkerMessage × ReceivedMessage) : ReceiverState :=
  { x.state with heap := (x.state.heap.zero p.1.body).zero p.2.body }

theorem zeros_zeroed (p : WorkerMessage × ReceivedMessage) :
    (x.zeroed p).heap.Zeros p.1.body ∧ (x.zeroed p).heap.Zeros p.2.body :=
  ⟨Heap.contents_zero_of_zero (Heap.contents_zero _ _), Heap.contents_zero _ _⟩

theorem zeros_zeroed_of_zeros (p : WorkerMessage × ReceivedMessage) {s : Slice}
    (hs : x.state.heap.Zeros s) : (x.zeroed p).heap.Zeros s :=
  Heap.contents_zero_of_zero (Heap.contents_zero_of_zero hs)

section

variable {p : WorkerMessage × ReceivedMessage}

/-- Settling a message that was handed out and not settled. -/
theorem Kept.settleMessage_of_open (h : x.Kept receiver) (hp : p ∈ x.handed)
    (hopen : ¬ x.Settled p.1.ref) (how : Settlement) (answer : Option Err) :
    x.state.settleMessage receiver how (some p.1.ref) answer =
      (if answer = none then (x.zeroed p).deleteNative (some p.1.ref) else x.zeroed p,
        some (how, p.2), answer) := by
  have hreceiver : receiver = true := by
    cases hr : receiver with
    | true => rfl
    | false =>
      rw [h.unconfigured hr] at hp
      cases hp
  have hnative : x.state.native p.1.ref = some p.2 := (h.native_iff _ _).2 ⟨⟨p.1, hp, rfl⟩, hopen⟩
  have hmessage : x.state.messageAt p.1.ref = some p.1 := by
    obtain ⟨n, -, href, hmade⟩ := h.made p hp
    rw [href]
    exact hmade
  have hfound : x.state.nativeMessage (some p.1.ref) = .ok p.2 := by
    rw [ReceiverState.nativeMessage, Option.bind_some, hnative]
  have hbodies : x.state.zeroReceivedBodies (some p.1.ref) p.2 = (x.zeroed p).heap := by
    rw [ReceiverState.zeroReceivedBodies, Option.bind_some, hmessage]
    rfl
  rw [ReceiverState.settleMessage, hreceiver]
  simp only [ReceiverState.ensureNativeReceiver, if_true, hfound, hbodies]
  cases answer <;> rfl

/-- Any other message is refused. -/
theorem Kept.settleMessage_refused (h : x.Kept receiver) {msg : Option MessageRef}
    (hrefused : ∀ p ∈ x.handed, msg = some p.1.ref → x.Settled p.1.ref) (how : Settlement)
    (answer : Option Err) :
    ∃ err, x.state.settleMessage receiver how msg answer = (x.state, none, some err) := by
  have hnative : msg.bind x.state.native = none := by
    rw [Option.bind_eq_none_iff]
    intro ref href
    by_contra hfound
    obtain ⟨native, hfound⟩ := Option.ne_none_iff_exists'.1 hfound
    obtain ⟨⟨known, hmem, hknown⟩, hopen⟩ := (h.native_iff ref native).1 hfound
    apply hopen
    rw [← hknown]
    apply hrefused _ hmem
    rw [href, hknown]
  cases receiver with
  | false => exact ⟨_, rfl⟩
  | true =>
    refine ⟨.new "worker message was not received by this service bus receiver", ?_⟩
    simp only [ReceiverState.settleMessage, ReceiverState.ensureNativeReceiver, if_true,
      ReceiverState.nativeMessage, hnative]

theorem Kept.settlesOwn (h : x.Kept receiver) (how : Settlement) (msg : Option MessageRef)
    (answer : Option Err) : x.SettlesOwn receiver how msg answer where
  known p hp hmsg hopen := by
    rw [hmsg, h.settleMessage_of_open hp hopen]
    obtain ⟨hmsgZero, hbrokerZero⟩ := x.zeros_zeroed p
    cases answer with
    | none => exact ⟨rfl, hmsgZero, hbrokerZero, Function.update_self _ _ _⟩
    | some err => exact ⟨rfl, hmsgZero, hbrokerZero, (h.native_iff _ _).2 ⟨⟨p.1, hp, rfl⟩, hopen⟩⟩
  refused hrefused := by
    obtain ⟨err, heq⟩ := h.settleMessage_refused hrefused how answer
    rw [heq]
    exact ⟨rfl, rfl, Option.some_ne_none err⟩

/-- The broker is asked to settle the message. -/
theorem Kept.attempt (h : x.Kept receiver) (hp : p ∈ x.handed) :
    ({ x with state := x.zeroed p, attempted := x.attempted ++ [p.1.ref] } :
      ReceiverSession).Kept receiver where
  native_iff := h.native_iff
  own := h.own
  once := h.once
  zeroed ref href q hq heq := by
    rcases List.mem_append.1 href with href | href
    · obtain ⟨hmsg, hbroker⟩ := h.zeroed ref href q hq heq
      exact ⟨x.zeros_zeroed_of_zeros p hmsg, x.zeros_zeroed_of_zeros p hbroker⟩
    · have hqp : q = p := h.eq_of_ref hq hp (heq.trans (List.mem_singleton.1 href))
      rw [hqp]
      exact x.zeros_zeroed p
  unconfigured := h.unconfigured
  refs := h.refs
  deliveries := h.deliveries
  made := h.made
  delivered := h.delivered
  bodies := h.bodies
  attempts ref href := by
    rcases List.mem_append.1 href with href | href
    · exact h.attempts ref href
    · exact ⟨p, hp, (List.mem_singleton.1 href).symm⟩

/-- The broker has settled the message. -/
theorem Kept.settle (h : x.Kept receiver) (hp : p ∈ x.handed) (hopen : ¬ x.Settled p.1.ref) :
    ({ x with
      state := x.state.deleteNative (some p.1.ref)
      settled := x.settled ++ [(p.1.ref, p.2)] } : ReceiverSession).Kept receiver where
  native_iff ref native := by
    show Function.update x.state.native p.1.ref none ref = some native ↔
      x.HandedOut ref native ∧ ref ∉ (x.settled ++ [(p.1.ref, p.2)]).map Prod.fst
    rw [List.map_append, List.map_singleton, List.mem_append, List.mem_singleton, not_or]
    by_cases href : ref = p.1.ref
    · rw [href, Function.update_self]
      constructor
      · intro hnone
        cases hnone
      · rintro ⟨-, -, hne⟩
        exact absurd rfl hne
    · rw [Function.update_of_ne href, h.native_iff, and_iff_left href]
      rfl
  own q hq := by
    rcases List.mem_append.1 hq with hq | hq
    · exact h.own q hq
    · rw [List.mem_singleton.1 hq]
      exact ⟨p.1, hp, rfl⟩
  once := by
    apply nodup_map_concat h.once
    intro q hq heq
    -- a settlement of the same delivery was one of the same message
    obtain ⟨msg, hmem, href⟩ := h.own q hq
    have hsame : (msg, q.2) = p := List.inj_on_of_nodup_map h.deliveries hmem hp heq
    apply hopen
    rw [← hsame, href]
    exact List.mem_map_of_mem hq
  zeroed := h.zeroed
  unconfigured := h.unconfigured
  refs := h.refs
  deliveries := h.deliveries
  made := h.made
  delivered := h.delivered
  bodies := h.bodies
  attempts := h.attempts

theorem Kept.afterSettlement (h : x.Kept receiver) (how : Settlement) (msg : Option MessageRef)
    (answer : Option Err) :
    (x.afterSettlement msg (x.state.settleMessage receiver how msg answer)).Kept receiver := by
  by_cases hknown : ∃ p ∈ x.handed, msg = some p.1.ref ∧ ¬ x.Settled p.1.ref
  · obtain ⟨p, hp, hmsg, hopen⟩ := hknown
    have hattempt := h.attempt hp
    rw [hmsg, h.settleMessage_of_open hp hopen]
    cases answer with
    | none => exact hattempt.settle hp hopen
    | some err => exact hattempt
  · push Not at hknown
    obtain ⟨err, heq⟩ := h.settleMessage_refused hknown how answer
    rw [heq]
    cases msg <;> exact h

end

/-! ## Whole runs -/

theorem Kept.step (h : x.Kept receiver) (grow : ℕ → ℕ → ℕ) (call : ReceiverCall) :
    (x.step grow receiver call).1.Kept receiver := by
  cases call with
  | receiveMessages n answer => exact h.receiveMessages grow n answer
  | completeMessage msg answer => exact h.afterSettlement .complete msg answer
  | abandonMessage msg answer => exact h.afterSettlement .abandon msg answer

theorem Kept.settlesOwnAt (h : x.Kept receiver) (call : ReceiverCall) :
    x.SettlesOwnAt receiver call := by
  cases call with
  | receiveMessages n answer => trivial
  | completeMessage msg answer => exact h.settlesOwn .complete msg answer
  | abandonMessage msg answer => exact h.settlesOwn .abandon msg answer

/-- Over any run, from any memory and with any answers of the broker, the map of the receiver holds
the messages handed out and not settled, no delivery is settled twice, and every settlement on the
way is of the message's own delivery or refused. -/
theorem receiver_bookkeeping (grow : ℕ → ℕ → ℕ) (receiver : Bool) (heap : Heap)
    (calls : List ReceiverCall) :
    Along (step grow receiver) (SettlesOwnAt receiver) (start heap) calls ∧
      (runFrom (step grow receiver) (start heap) calls).1.Exact := by
  have hkept : ∀ calls, (runFrom (step grow receiver) (start heap) calls).1.Kept receiver :=
    runFrom_invariant (fun x call h => h.step grow call) (kept_start heap)
  constructor
  · intro pre call post _
    exact (hkept pre).settlesOwnAt call
  · exact (hkept calls).toExact

/-- A settlement that fails is tried again with success, and refused after that. -/
example :
    let x := (runFrom (step (fun _ n => n) true) (start ⟨0, fun _ => []⟩)
      [.receiveMessages 1 (.ok [⟨[], [112, 119], none, none, none, none⟩]),
        .completeMessage (some (.own 0)) (some (.new "lock lost")),
        .abandonMessage (some (.own 0)) none, .completeMessage (some (.own 0)) none]).1
    x.attempted = [.own 0, .own 0] ∧ x.settled.map Prod.fst = [.own 0] ∧
      x.handed.map (fun p => x.state.heap.contents p.1.body) = [[0, 0]] := by
  decide +kernel

end ReceiverSession

end PasswordHook
