import Questlog.Json.Parser

namespace Questlog

namespace Body

/-- Why a body is refused. A body is read from the front, and the first thing amiss decides which of
the two it is. -/
inductive Fault where
  | malformed
  | wrongShape

/-- How deep a value in a record may nest. -/
def maxNesting : Nat := Json.maxNesting - 1

/-- A field of a record in the making: its name, and what its value changes. -/
structure Field (α : Type) where
  name : String
  read : Reader Fault Json.Token (α → α)

/-- The field whose value `set` puts into the record. -/
def Field.of {α β : Type} (name : String) (read : Reader Fault Json.Token β)
    (set : β → α → α) : Field α :=
  ⟨name, fun input => (read input).map fun r => ⟨set r.value, r.rest, r.shorter⟩⟩

/-- The fault where something else than a value that starts as the tokens do is asked for. -/
def mismatch : List Json.Token → Fault
  | .null :: _ => .wrongShape
  | .bool _ :: _ => .wrongShape
  | .number _ :: _ => .wrongShape
  | .string _ :: _ => .wrongShape
  | .openArray :: _ => .wrongShape
  | .openObject :: _ => .wrongShape
  | _ => .malformed

/-- Reads a text. -/
def readText : Reader Fault Json.Token String
  | .string s :: rest => .ok (.ofHead s _ rest)
  | input => .error (mismatch input)

/-- Reads a truth value. -/
def readFlag : Reader Fault Json.Token Bool
  | .bool b :: rest => .ok (.ofHead b _ rest)
  | input => .error (mismatch input)

/-- Reads a signed integer of 64 bits, or null. -/
def readInt64 : Reader Fault Json.Token (Option Int64)
  | .null :: rest => .ok (.ofHead none _ rest)
  | .number n :: rest =>
    match n.int64? with
    | some n => .ok (.ofHead (some (Int64.ofInt n)) _ rest)
    | none => .error .wrongShape
  | input => .error (mismatch input)

/-- Reads any value, where null counts as none. -/
def readAny (input : List Json.Token) : Except Fault (Reading (Option Json) input) :=
  match Json.readValue maxNesting input with
  | some ⟨.null, rest, h⟩ => .ok ⟨none, rest, h⟩
  | some ⟨value, rest, h⟩ => .ok ⟨some value, rest, h⟩
  | none => .error .malformed

/-- The token in a place where numbers and strings need not denote anything. -/
def leniently : Json.Token → Json.Token
  | .vastNumber => .null
  | .brokenString => .string ""
  | token => token

/-- Passes over a value, which may nest as deep as it likes and hold any number and string. -/
def skipValue (input : List Json.Token) : Except Fault (Reading Unit input) :=
  match Json.readValue input.length (input.map leniently) with
  | some ⟨_, rest, h⟩ =>
    .ok ⟨(), input.drop (input.length - rest.length), by
      simp only [List.length_map] at h
      simp only [List.length_drop]
      omega⟩
  | none => .error .malformed

variable {α : Type}

/-- Whether a name is one of the fields. -/
def isField (fields : List (Field α)) (name : String) : Bool :=
  fields.any (·.name = name)

/-- Reads the value of a member of that name. One that is no field is passed over. -/
def readMember (fields : List (Field α)) (name : String) : Reader Fault Json.Token (α → α) :=
  match fields.find? (·.name = name) with
  | some field => field.read
  | none => fun input => (skipValue input).map fun r => ⟨id, r.rest, r.shorter⟩

/-- The tokens after a comma. -/
def afterComma? : List Json.Token → Option (List Json.Token)
  | .comma :: rest => some rest
  | _ => none

/-- Reads the elements of an array that stand for the given fields, and its closing bracket. The
last fields may be missing. -/
def readElements (fields : List (Field α)) (first : Bool) (input : List Json.Token) (record : α) :
    Except Fault (α × List Json.Token) :=
  match input, fields with
  | .closeArray :: rest, _ => .ok (record, rest)
  | _, [] => .error .malformed
  | input, field :: later =>
    match if first then some input else afterComma? input with
    | none => .error .malformed
    | some element =>
      match field.read element with
      | .error fault => .error fault
      | .ok ⟨change, rest, _⟩ => readElements later false rest (change record)

/-- Reads the members of an object, of which there is at least one, and its closing brace. A field
may stand only once; `taken` are the names of those that came before. -/
def readMembers (fields : List (Field α)) (taken : List String) (input : List Json.Token)
    (record : α) : Except Fault (α × List Json.Token) :=
  match input with
  | .string name :: more =>
    if isField fields name ∧ name ∈ taken then
      .error .wrongShape
    else
      match more with
      | .colon :: value =>
        match readMember fields name value with
        | .error fault => .error fault
        | .ok ⟨change, .closeObject :: rest, _⟩ => .ok (change record, rest)
        | .ok ⟨change, .comma :: rest, h⟩ =>
          have : rest.length < value.length + 2 := by simp only [List.length_cons] at h; omega
          readMembers fields (name :: taken) rest (change record)
        | .ok _ => .error .malformed
      | _ => .error .malformed
  | _ => .error .malformed
termination_by input.length

/-- Reads the fields of a record into one that holds none yet. A record is an object with named
fields, or an array of the fields in order. -/
def readFields (fields : List (Field α)) (empty : α) (input : List Json.Token) :
    Except Fault (α × List Json.Token) :=
  match input with
  | .openArray :: rest => readElements fields true rest empty
  | .openObject :: .closeObject :: rest => .ok (empty, rest)
  | .openObject :: rest => readMembers fields [] rest empty
  | input => .error (mismatch input)

/-- The record that a text denotes. `complete` makes one of the fields that were read, or finds that
one is missing. -/
def parse {β : Type} (fields : List (Field α)) (empty : α) (complete : α → Option β)
    (text : String) : Except Fault β :=
  let (input, whole) := Json.tokens text.toList
  match readFields fields empty input with
  | .error fault => .error fault
  | .ok (record, rest) =>
    match complete record with
    | none => .error .wrongShape
    | some record => if whole ∧ rest.isEmpty then .ok record else .error .malformed

end Body

end Questlog
