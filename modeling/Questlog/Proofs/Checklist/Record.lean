import Questlog.Checklist.Reading
import Questlog.Checklist.Writing

namespace Questlog.Record

variable {members : List (String × Json)} {name : String} {fields : List (String × Option Json)}

/-- The members of a record with the given fields; one without a value is left out. No value that is
read back is `null`. -/
def write (fields : List (String × Option Json)) : List (String × Json) :=
  fields.flatMap fun field => optional field.1 field.2

/-- The value of a list of texts, unless that is empty. -/
def textsValue (texts : List String) : Option Json :=
  if texts.isEmpty then none else some (.array (texts.map .string))

/-- A list of texts is one more optional field, which is left out when it is empty. -/
theorem optionalTexts_eq (name : String) (texts : List String) :
    optionalTexts name texts = optional name (textsValue texts) := by
  unfold optionalTexts textsValue
  split <;> rfl

/-- A field that is left out is read as missing. -/
theorem lookup_optional (name other : String) (value : Option Json) :
    (optional name value).lookup other = if other = name then value else none := by
  cases value with
  | none => exact (ite_self none).symm
  | some json =>
    rw [optional, List.lookup_cons]
    split
    · next heq => rw [if_pos (eq_of_beq heq)]
    · next hne => rw [if_neg (ne_of_beq_false hne), List.lookup_nil]

theorem write_cons (field : String × Option Json) :
    write (field :: fields) = optional field.1 field.2 ++ write fields :=
  List.flatMap_cons

/-- A name that no field has is not found. -/
theorem lookup_write_of_notMem (h : name ∉ fields.map (·.1)) : (write fields).lookup name = none := by
  induction fields with
  | nil => rfl
  | cons first rest ih =>
    have hne : name ≠ first.1 := List.ne_of_not_mem_cons h
    rw [write_cons, List.lookup_append, lookup_optional, if_neg hne,
      ih (List.not_mem_of_not_mem_cons h), Option.or_none]

/-- In a record of fields with distinct names each field is found with its value. -/
theorem lookup_write {value : Option Json} (h : (fields.map (·.1)).Nodup)
    (hfield : (name, value) ∈ fields) : (write fields).lookup name = value := by
  induction fields with
  | nil => exact absurd hfield List.not_mem_nil
  | cons first rest ih =>
    obtain ⟨hnew, hrest⟩ := List.nodup_cons.mp h
    rw [write_cons, List.lookup_append, lookup_optional]
    rcases List.mem_cons.mp hfield with rfl | hfield
    · rw [if_pos rfl, lookup_write_of_notMem hnew, Option.or_none]
    · have hmem : name ∈ rest.map (·.1) := List.mem_map_of_mem hfield
      have hne : name ≠ first.1 := ne_of_mem_of_not_mem hmem hnew
      rw [if_neg hne, ih hrest hfield, Option.none_or]

/-- What passes over the members in front of a name takes what is found under it. -/
theorem eq_getD_lookup {β : Type} {read : List (String × Json) → β} {take : Json → β} {missing : β}
    (hnil : read [] = missing)
    (hcons : ∀ member rest, read (member :: rest) =
      if member.1 = name then take member.2 else read rest) (members : List (String × Json)) :
    read members = ((members.lookup name).map take).getD missing := by
  induction members with
  | nil => exact hnil
  | cons member rest ih =>
    rw [hcons, List.lookup_cons, ih]
    split
    · next heq =>
      rw [beq_iff_eq.mpr heq.symm]
      rfl
    · next hne => rw [beq_eq_false_iff_ne.mpr (Ne.symm hne)]

theorem text?_of_lookup {text : Option String} (h : members.lookup name = text.map .string) :
    text? members name = some text := by
  rw [text?, h]
  cases text <;> rfl

theorem strings?_map_string (texts : List String) :
    (Json.array (texts.map .string)).strings? = some texts := by
  rw [Json.strings?]
  induction texts with
  | nil => rfl
  | cons text rest ih =>
    rw [List.map_cons, List.mapM_cons, ih]
    rfl

theorem texts?_of_lookup {texts : List String} (h : members.lookup name = textsValue texts) :
    texts? members name = some texts := by
  rw [texts?, h]
  cases texts with
  | nil => rfl
  | cons text rest => exact strings?_map_string (text :: rest)

/-- Reading back any value but `null`. -/
theorem value?_of_lookup {value : Option Json} (h : members.lookup name = value)
    (hvalue : value ≠ some .null) : value? members name = value := by
  unfold value?
  split
  · next hnull => exact absurd (h.symm.trans hnull) hvalue
  · exact h

/-- A `null` is read as a missing value. -/
theorem value?_ne_null (members : List (String × Json)) (name : String) :
    value? members name ≠ some .null := by
  unfold value?
  split
  · exact (Option.some_ne_none _).symm
  · next hother => exact hother

end Questlog.Record
