import PasswordHook.Go.Json
import PasswordHook.Migration.Identity

/-!
# The password sync message

The message that carries a sealed password from the hook to the worker, its JSON form, and the data
the sealing binds it to.
-/

namespace PasswordHook

/-- `PasswordSyncMessage`, without the `Password` field, which is not part of the JSON form. -/
structure PasswordSyncMessage where
  cn : String
  upn : String
  eventType : EventType
  traceID : String
  passwordCiphertext : String
  passwordNonce : String
  passwordKeyID : String
  passwordAlg : String
  displayName : String
  mail : String
  enqueuedAt : Time
  deriving DecidableEq

/-- `passwordAAD`: the associated data of the sealed password. -/
def passwordAAD (cn upn : String) (enqueuedAt : Time) : Bytes :=
  bytesOf ("\n".intercalate ["password-sync", trimSpace cn, trimSpace upn,
    enqueuedAt.utc.formatRFC3339Nano])

namespace PasswordSyncMessage

/-- The members of the JSON object, in the order of the struct fields; `time` is the text of
`EnqueuedAt`. -/
def members (msg : PasswordSyncMessage) (time : String) : List (String × String) :=
  [("cn", msg.cn), ("upn", msg.upn), ("eventType", msg.eventType.text)] ++
    (if msg.traceID = "" then [] else [("traceId", msg.traceID)]) ++
    [("passwordCiphertext", msg.passwordCiphertext), ("passwordNonce", msg.passwordNonce),
      ("passwordKeyId", msg.passwordKeyID), ("passwordAlg", msg.passwordAlg),
      ("displayName", msg.displayName), ("mail", msg.mail), ("enqueuedAt", time)]

/-- `json.Marshal(msg)` -/
def marshal (J : Json) (msg : PasswordSyncMessage) : Except Err Bytes :=
  match marshalTime msg.enqueuedAt with
  | .error err => .error (.wrap "json: error calling MarshalJSON for type time.Time" err)
  | .ok time => .ok (J.marshal (msg.members time))

/-- `json.Unmarshal(body, &out)` for a `PasswordSyncMessage`. -/
def unmarshal (J : Json) (body : Bytes) : Except Err PasswordSyncMessage := do
  let ms ← membersOf J body
  let cn ← stringField ms "cn"
  let upn ← stringField ms "upn"
  let eventType ← stringField ms "eventType"
  let traceID ← stringField ms "traceId"
  let passwordCiphertext ← stringField ms "passwordCiphertext"
  let passwordNonce ← stringField ms "passwordNonce"
  let passwordKeyID ← stringField ms "passwordKeyId"
  let passwordAlg ← stringField ms "passwordAlg"
  let displayName ← stringField ms "displayName"
  let mail ← stringField ms "mail"
  let enqueuedAt ← timeField ms "enqueuedAt"
  return ⟨cn, upn, ⟨eventType⟩, traceID, passwordCiphertext, passwordNonce, passwordKeyID,
    passwordAlg, displayName, mail, enqueuedAt⟩

def tags : List String :=
  ["cn", "upn", "eventType", "traceId", "passwordCiphertext", "passwordNonce", "passwordKeyId",
    "passwordAlg", "displayName", "mail", "enqueuedAt"]

/-- No two field names differ in case only. -/
theorem sameField_tags : ∀ a ∈ tags, ∀ b ∈ tags, sameField a b = decide (a = b) := by
  decide +kernel

theorem map_fst_members (msg : PasswordSyncMessage) (time : String) :
    (msg.members time).map Prod.fst = if msg.traceID = "" then tags.erase "traceId" else tags := by
  unfold members
  split_ifs <;> simp only [List.cons_append, List.nil_append, List.append_nil, List.map_cons,
    List.map_nil] <;> decide

theorem fst_mem_of_mem_members {msg : PasswordSyncMessage} {time : String} {m : String × String}
    (h : m ∈ msg.members time) : m.1 ∈ tags ∧ (msg.traceID = "" → m.1 ≠ "traceId") := by
  have hm := List.mem_map_of_mem (f := Prod.fst) h
  rw [map_fst_members] at hm
  split_ifs at hm with htr
  · have checked : ∀ t ∈ tags.erase "traceId", t ∈ tags ∧ t ≠ "traceId" := by decide
    exact ⟨(checked _ hm).1, fun _ => (checked _ hm).2⟩
  · exact ⟨hm, fun h' => absurd h' htr⟩

/-- A member of the object is found under its name, and no other is. -/
theorem filter_members {msg : PasswordSyncMessage} {time tag value : String} (htag : tag ∈ tags)
    (mem : (tag, value) ∈ msg.members time) :
    ((msg.members time).filter fun m => sameField m.1 tag) = [(tag, value)] := by
  have hnodup : ((msg.members time).map Prod.fst).Nodup := by
    rw [map_fst_members]
    split_ifs <;> decide
  rw [List.filter_congr fun m hm => sameField_tags m.1 (fst_mem_of_mem_members hm).1 tag htag]
  exact filter_fst_eq_singleton hnodup mem

/-- A marshalled message is read back as it was. -/
theorem unmarshal_marshal {J : Json} {msg : PasswordSyncMessage} {body : Bytes}
    (utc : msg.enqueuedAt.utc = msg.enqueuedAt) (h : msg.marshal J = .ok body) :
    unmarshal J body = .ok msg ∧ msg.enqueuedAt.InRange := by
  unfold marshal at h
  split at h
  · exact absurd h (by simp)
  · rename_i time htime
    rw [← utc] at htime
    obtain ⟨range, rfl⟩ := marshalTime_eq_ok htime
    rw [← Except.ok.inj h]
    refine ⟨?_, range⟩
    have hfield : ∀ tag value, tag ∈ tags →
        (tag, value) ∈ msg.members msg.enqueuedAt.utc.formatRFC3339Nano →
        stringField (written (msg.members msg.enqueuedAt.utc.formatRFC3339Nano)) tag =
          .ok value := fun tag value htag mem => stringField_written (filter_members htag mem)
    have htrace : stringField (written (msg.members msg.enqueuedAt.utc.formatRFC3339Nano))
        "traceId" = .ok msg.traceID := by
      by_cases htr : msg.traceID = ""
      · rw [htr]
        apply stringField_written_absent
        rw [List.filter_eq_nil_iff]
        intro m hm
        obtain ⟨hmem, hne⟩ := fst_mem_of_mem_members hm
        rw [sameField_tags m.1 hmem "traceId" (by decide), decide_eq_true_eq]
        exact hne htr
      · exact hfield "traceId" msg.traceID (by decide) (by simp [members, htr])
    have halone : ((msg.members msg.enqueuedAt.utc.formatRFC3339Nano).filter fun m =>
        sameField m.1 "enqueuedAt") = [("enqueuedAt", msg.enqueuedAt.utc.formatRFC3339Nano)] :=
      filter_members (by decide) (by simp [members])
    have htimeField : timeField (written (msg.members msg.enqueuedAt.utc.formatRFC3339Nano))
        "enqueuedAt" = .ok msg.enqueuedAt := by
      rw [timeField_written range halone, utc]
    rw [unmarshal, membersOf_marshal]
    simp only [bind, Except.bind, htrace,
      hfield "cn" msg.cn (by decide) (by simp [members]),
      hfield "upn" msg.upn (by decide) (by simp [members]),
      hfield "eventType" msg.eventType.text (by decide) (by simp [members]),
      hfield "passwordCiphertext" msg.passwordCiphertext (by decide) (by simp [members]),
      hfield "passwordNonce" msg.passwordNonce (by decide) (by simp [members]),
      hfield "passwordKeyId" msg.passwordKeyID (by decide) (by simp [members]),
      hfield "passwordAlg" msg.passwordAlg (by decide) (by simp [members]),
      hfield "displayName" msg.displayName (by decide) (by simp [members]),
      hfield "mail" msg.mail (by decide) (by simp [members]),
      htimeField]
    rfl

/-- Every message with a time in the years 0 to 9999 can be marshalled. -/
theorem exists_marshal (J : Json) {msg : PasswordSyncMessage}
    (utc : msg.enqueuedAt.utc = msg.enqueuedAt) (range : msg.enqueuedAt.InRange) :
    ∃ body, msg.marshal J = .ok body := by
  have htime := marshalTime_of_inRange range
  rw [utc] at htime
  exact ⟨_, by rw [marshal, htime]⟩

end PasswordSyncMessage

end PasswordHook
