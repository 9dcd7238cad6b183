import PasswordHook.Go.Errors
import PasswordHook.Go.Text
import PasswordHook.Go.TimeFormat
import PasswordHook.Lib.JsonText

/-!
# Package `encoding/json`, for structs of strings and times

The text level of the package is the parameter `Json`: the bytes of an object with string members,
and the document that some bytes are.  What `Unmarshal` then does with the members of a document is
spelled out: a member goes to the field of its name, in any case; `null` leaves a field as it is; a
later member overwrites an earlier one; a value of another type is an error.
-/

namespace PasswordHook

/-- A value, as far as string and time fields tell values apart. -/
inductive JsonValue where
  | null
  | string (s : String)
  | other
  deriving DecidableEq

inductive JsonDoc where
  | null
  | object (members : List (String × JsonValue))
  | other
  deriving DecidableEq

/-- Writing and reading JSON text; reading inverts writing. -/
structure Json where
  marshal : List (String × String) → Bytes
  parse : Bytes → Option JsonDoc
  parse_marshal : ∀ members, parse (marshal members) =
    some (.object (members.map fun m => (m.1, .string m.2)))

/-! ## Struct fields -/

/-- The folding under which member names are compared with field names. -/
def foldRune (c : Char) : Char :=
  if c = 'ſ' then 'S' else if c = 'K' then 'K' else c.toUpper

def sameField (name tag : String) : Bool := name.toList.map foldRune = tag.toList.map foldRune

/-- The values of the members that go to the field `tag`, in order. -/
def valuesOf (members : List (String × JsonValue)) (tag : String) : List JsonValue :=
  (members.filter fun m => sameField m.1 tag).map Prod.snd

/-- A string field after `Unmarshal`. -/
def stringField (members : List (String × JsonValue)) (tag : String) : Except Err String :=
  (valuesOf members tag).foldlM
    (fun old v =>
      match v with
      | .null => .ok old
      | .string s => .ok s
      | .other =>
        .error (.new ("json: cannot unmarshal value into field " ++ tag ++ " of type string")))
    ""

/-- A time field after `Unmarshal`. -/
def timeField (members : List (String × JsonValue)) (tag : String) : Except Err Time :=
  (valuesOf members tag).foldlM
    (fun old v =>
      match v with
      | .null => .ok old
      | .string s =>
        match parseRFC3339 s with
        | some t => .ok t
        | none => .error (.new ("parsing time \"" ++ s ++ "\""))
      | .other => .error (.new "Time.UnmarshalJSON: input is not a JSON string"))
    .zero

/-- The members `Unmarshal` finds in a document for a struct. -/
def membersOf (J : Json) (body : Bytes) : Except Err (List (String × JsonValue)) :=
  match J.parse body with
  | none => .error (.new "invalid JSON")
  | some .null => .ok []
  | some (.object members) => .ok members
  | some .other => .error (.new "json: cannot unmarshal value into struct")

/-- `Time.MarshalJSON` without the quotes: years of four digits and zones of less than a day. -/
def marshalTime (t : Time) : Except Err String :=
  if t.civil.year < 0 ∨ 9999 < t.civil.year then
    .error (.new "Time.MarshalJSON: year outside of range [0,9999]")
  else if 24 * 3600 ≤ t.offset.natAbs then
    .error (.new "Time.MarshalJSON: timezone hour outside of range [0,23]")
  else .ok t.formatRFC3339Nano

theorem marshalTime_eq_ok {t : Time} {s : String} (h : marshalTime t.utc = .ok s) :
    t.InRange ∧ s = t.utc.formatRFC3339Nano := by
  unfold marshalTime at h
  split_ifs at h with h₁ h₂
  obtain ⟨h₀, h₃⟩ := not_or.1 h₁
  exact ⟨⟨not_lt.1 h₀, not_lt.1 h₃⟩, (Except.ok.inj h).symm⟩

theorem marshalTime_of_inRange {t : Time} (h : t.InRange) :
    marshalTime t.utc = .ok t.utc.formatRFC3339Nano := by
  rw [marshalTime, if_neg, if_neg]
  · rw [Time.utc_offset]
    decide
  · rintro (h' | h')
    · exact absurd h.1 (not_le.2 h')
    · exact absurd h.2 (not_le.2 h')

/-! ## Members written by `Marshal` -/

/-- The member values of a written object. -/
def written (members : List (String × String)) : List (String × JsonValue) :=
  members.map fun m => (m.1, .string m.2)

theorem membersOf_marshal (J : Json) (members : List (String × String)) :
    membersOf J (J.marshal members) = .ok (written members) := by
  rw [membersOf, J.parse_marshal]
  rfl

theorem valuesOf_written (members : List (String × String)) (tag : String) :
    valuesOf (written members) tag =
      ((members.filter fun m => sameField m.1 tag).map fun m => JsonValue.string m.2) := by
  simp [valuesOf, written, List.filter_map, Function.comp_def]

theorem filter_fst_eq_singleton {members : List (String × String)} {tag value : String}
    (distinct : (members.map Prod.fst).Nodup) (mem : (tag, value) ∈ members) :
    (members.filter fun m => m.1 = tag) = [(tag, value)] := by
  induction members with
  | nil => exact absurd mem List.not_mem_nil
  | cons m members ih =>
    obtain ⟨hm, hrest⟩ := List.nodup_cons.1 distinct
    rcases List.mem_cons.1 mem with rfl | mem
    · rw [List.filter_cons_of_pos (by simp), List.filter_eq_nil_iff.2]
      intro m' hm' he
      exact hm (List.mem_map.2 ⟨m', hm', by simpa using he⟩)
    · rw [List.filter_cons_of_neg, ih hrest mem]
      intro he
      exact hm (List.mem_map.2 ⟨(tag, value), mem, by simpa using (of_decide_eq_true he).symm⟩)

/-- A member that alone bears the name of a field is that field's value. -/
theorem stringField_written {members : List (String × String)} {tag value : String}
    (alone : (members.filter fun m => sameField m.1 tag) = [(tag, value)]) :
    stringField (written members) tag = .ok value := by
  rw [stringField, valuesOf_written, alone]
  rfl

theorem stringField_written_absent {members : List (String × String)} {tag : String}
    (absent : (members.filter fun m => sameField m.1 tag) = []) :
    stringField (written members) tag = .ok "" := by
  rw [stringField, valuesOf_written, absent]
  rfl

theorem timeField_written {members : List (String × String)} {tag : String} {t : Time}
    (range : t.InRange)
    (alone : (members.filter fun m => sameField m.1 tag) = [(tag, t.utc.formatRFC3339Nano)]) :
    timeField (written members) tag = .ok t.utc := by
  rw [timeField, valuesOf_written, alone]
  simp only [List.map_cons, List.map_nil, List.foldlM_cons, List.foldlM_nil,
    parseRFC3339_formatRFC3339Nano range]
  rfl

/-! ## Texts of flat objects -/

/-- The writer and reader of flat objects. -/
def Json.flat : Json where
  marshal members := bytesOf (String.ofList (JsonText.writeObject members))
  parse body :=
    match (ByteArray.mk body.toArray).utf8Decode? with
    | none => none
    | some cs => (JsonText.readObject cs.toList).map fun members => .object (written members)
  parse_marshal members := by
    have hbytes : ByteArray.mk
        (bytesOf (String.ofList (JsonText.writeObject members))).toArray =
          (JsonText.writeObject members).utf8Encode := by
      rw [bytesOf, String.toByteArray_ofList]
    rw [hbytes, List.utf8Decode?_utf8Encode]
    simp only [JsonText.readObject_writeObject, Option.map_some]
    rfl

end PasswordHook
