import Questlog.Json.Token

namespace Questlog.Json

/-- What reads a value off the front of a list of tokens. -/
abbrev ValueReader :=
  (input : List Token) → Option (Reading Json input)

/-- Reads the items of an array, of which there is at least one, and its closing bracket. -/
def readItems (value : ValueReader) (input : List Token) : Option (Reading (List Json) input) :=
  match value input with
  | none => none
  | some ⟨item, .closeArray :: rest, h⟩ =>
    some ⟨[item], rest, by simp only [List.length_cons] at h; omega⟩
  | some ⟨item, .comma :: rest, h⟩ =>
    match readItems value rest with
    | none => none
    | some items =>
      some ⟨item :: items.value, items.rest, by
        have := items.shorter
        simp only [List.length_cons] at h
        omega⟩
  | some _ => none
termination_by input.length
decreasing_by simp only [List.length_cons] at h; omega

/-- Reads the members of an object, of which there is at least one, and its closing brace. -/
def readMembers (value : ValueReader) (input : List Token) :
    Option (Reading (List (String × Json)) input) :=
  match input with
  | .string name :: .colon :: more =>
    match value more with
    | none => none
    | some ⟨item, .closeObject :: rest, h⟩ =>
      some ⟨[(name, item)], rest, by simp only [List.length_cons] at h ⊢; omega⟩
    | some ⟨item, .comma :: rest, h⟩ =>
      match readMembers value rest with
      | none => none
      | some members =>
        some ⟨(name, item) :: members.value, members.rest, by
          have := members.shorter
          simp only [List.length_cons] at h ⊢
          omega⟩
    | some _ => none
  | _ => none
termination_by input.length
decreasing_by simp only [List.length_cons] at h ⊢; omega

/-- Reads a value whose items and members are read by `inner`; without one there are none. -/
def readValueWith (inner : Option ValueReader) (input : List Token) :
    Option (Reading Json input) :=
  match input, inner with
  | .null :: rest, _ => some (.ofHead .null _ rest)
  | .bool b :: rest, _ => some (.ofHead (.bool b) _ rest)
  | .number n :: rest, _ => some (.ofHead (.number n) _ rest)
  | .string s :: rest, _ => some (.ofHead (.string s) _ rest)
  | .openArray :: .closeArray :: rest, some _ =>
    some ⟨.array [], rest, by simp only [List.length_cons]; omega⟩
  | .openArray :: rest, some value =>
    (readItems value rest).map fun r => ⟨.array r.value, r.rest, Nat.lt_succ_of_lt r.shorter⟩
  | .openObject :: .closeObject :: rest, some _ =>
    some ⟨.object [], rest, by simp only [List.length_cons]; omega⟩
  | .openObject :: rest, some value =>
    (readMembers value rest).map fun r =>
      ⟨.ofMembers r.value, r.rest, Nat.lt_succ_of_lt r.shorter⟩
  | _, _ => none

/-- Reads a value that nests at most `room` arrays and objects. -/
def readValue : (room : Nat) → ValueReader
  | 0 => readValueWith none
  | room + 1 => readValueWith (some (readValue room))

/-- How deep a text may nest arrays and objects. -/
def maxNesting : Nat := 127

/-- The value that a text denotes, if it is the JSON text of one value and nests at most `room`
deep. -/
def parse? (text : String) (room : Nat := maxNesting) : Option Json :=
  match tokens text.toList with
  | (input, true) =>
    match readValue room input with
    | some ⟨value, [], _⟩ => some value
    | _ => none
  | _ => none

end Questlog.Json
