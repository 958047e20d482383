import Questlog.Yaml.Token

namespace Questlog

/-- A node of a document. `plain` tells whether a scalar stands without quotes. -/
inductive Yaml where
  | scalar (plain : Bool) (text : String)
  | sequence (items : List Yaml)
  | mapping (entries : List (Yaml × Yaml))

namespace Yaml

/-- The scalar of a place where nothing is written. -/
def nothing : Yaml :=
  scalar true ""

/-- Reads a node, or nothing if one of the given tokens comes next. -/
def readUnless (ends : List Token) (read : List Token → Option (Yaml × List Token))
    (tokens : List Token) : Option (Yaml × List Token) :=
  if tokens.head?.any (ends.contains ·) then some (nothing, tokens) else read tokens

/-- Reads the value of a key, if a colon comes next. -/
def readValue (ends : List Token) (read : List Token → Option (Yaml × List Token)) :
    List Token → Option (Yaml × List Token)
  | .value :: rest => readUnless ends read rest
  | tokens => some (nothing, tokens)

/-- Reads a key and its value, behind the token that marks the key. -/
def readEntry (ends : List Token) (read : List Token → Option (Yaml × List Token))
    (tokens : List Token) : Option ((Yaml × Yaml) × List Token) :=
  match readUnless (.value :: ends) read tokens with
  | none => none
  | some (key, rest) =>
    (readValue ends read rest).map fun (value, rest) => ((key, value), rest)

/-- Reads the single entry that stands as an item of a flow sequence. A missing key takes the token
behind it along. -/
def readSingleEntry (read : List Token → Option (Yaml × List Token)) (tokens : List Token) :
    Option (Yaml × List Token) :=
  let ends := [.flowEntry, .flowSequenceEnd]
  let key := if tokens.head?.any ((.value :: ends).contains ·) then some (nothing, tokens.drop 1)
    else read tokens
  match key with
  | none => none
  | some (key, rest) =>
    (readValue ends read rest).map fun (value, rest) => (mapping [(key, value)], rest)

/-- The tokens behind the comma that parts a member of a flow collection from the one before it. -/
def behindComma? (first : Bool) : List Token → Option (List Token)
  | .flowEntry :: rest => if first then some (.flowEntry :: rest) else some rest
  | tokens => if first then some tokens else none

mutual

/-- Reads a node. `block` tells whether it may be a block, and `dash` whether it may be a sequence
that is not indented. -/
def readNode : (fuel : Nat) → (block dash : Bool) → List Token → Option (Yaml × List Token)
  | 0, _, _, _ => none
  | fuel + 1, block, dash, tokens =>
    match tokens with
    | .scalar plain text :: rest => some (scalar plain text, rest)
    | .flowSequenceStart :: rest => readFlowItems fuel true [] rest
    | .flowMappingStart :: rest => readFlowEntries fuel true [] rest
    | .blockSequenceStart :: rest => if block then readItems fuel [] rest else none
    | .blockMappingStart :: rest => if block then readEntries fuel [] rest else none
    | .blockEntry :: rest => if dash then readLooseItems fuel [] (.blockEntry :: rest) else none
    | _ => none

/-- Reads the items of a block sequence and its end. -/
def readItems : (fuel : Nat) → List Yaml → List Token → Option (Yaml × List Token)
  | 0, _, _ => none
  | fuel + 1, items, tokens =>
    match tokens with
    | .blockEnd :: rest => some (sequence items.reverse, rest)
    | .blockEntry :: rest =>
      match readUnless [.blockEntry, .blockEnd] (readNode fuel true false) rest with
      | some (item, rest) => readItems fuel (item :: items) rest
      | none => none
    | _ => none

/-- Reads the items of a block sequence that is not indented, which ends where no dash follows. -/
def readLooseItems : (fuel : Nat) → List Yaml → List Token → Option (Yaml × List Token)
  | 0, _, _ => none
  | fuel + 1, items, tokens =>
    match tokens with
    | .blockEntry :: rest =>
      match readUnless [.blockEntry, .key, .value, .blockEnd] (readNode fuel true false) rest with
      | some (item, rest) => readLooseItems fuel (item :: items) rest
      | none => none
    | tokens => some (sequence items.reverse, tokens)

/-- Reads the entries of a block mapping and its end. -/
def readEntries : (fuel : Nat) → List (Yaml × Yaml) → List Token → Option (Yaml × List Token)
  | 0, _, _ => none
  | fuel + 1, entries, tokens =>
    match tokens with
    | .blockEnd :: rest => some (mapping entries.reverse, rest)
    | .key :: rest =>
      match readEntry [.key, .blockEnd] (readNode fuel true true) rest with
      | some (entry, rest) => readEntries fuel (entry :: entries) rest
      | none => none
    | _ => none

/-- Reads the items of a flow sequence and its end. An item may be a single entry. -/
def readFlowItems :
    (fuel : Nat) → (first : Bool) → List Yaml → List Token → Option (Yaml × List Token)
  | 0, _, _, _ => none
  | _ + 1, _, items, .flowSequenceEnd :: rest => some (sequence items.reverse, rest)
  | fuel + 1, first, items, tokens =>
    match behindComma? first tokens with
    | none => none
    | some (.flowSequenceEnd :: rest) => some (sequence items.reverse, rest)
    | some (.key :: rest) =>
      match readSingleEntry (readNode fuel false false) rest with
      | some (item, rest) => readFlowItems fuel false (item :: items) rest
      | none => none
    | some tokens =>
      match readNode fuel false false tokens with
      | some (item, rest) => readFlowItems fuel false (item :: items) rest
      | none => none

/-- Reads the entries of a flow mapping and its end. A node that is not marked as a key is one that
has no value. -/
def readFlowEntries :
    (fuel : Nat) → (first : Bool) → List (Yaml × Yaml) → List Token → Option (Yaml × List Token)
  | 0, _, _, _ => none
  | _ + 1, _, entries, .flowMappingEnd :: rest => some (mapping entries.reverse, rest)
  | fuel + 1, first, entries, tokens =>
    match behindComma? first tokens with
    | none => none
    | some (.flowMappingEnd :: rest) => some (mapping entries.reverse, rest)
    | some (.key :: rest) =>
      match readEntry [.flowEntry, .flowMappingEnd] (readNode fuel false false) rest with
      | some (entry, rest) => readFlowEntries fuel false (entry :: entries) rest
      | none => none
    | some tokens =>
      match readNode fuel false false tokens with
      | some (key, rest) => readFlowEntries fuel false ((key, nothing) :: entries) rest
      | none => none

end

/-- Reads the node of the first document; a text without any is as one with nothing in it. -/
def readDocument (tokens : List Token) : Option (Yaml × List Token) :=
  let read := readNode (2 * tokens.length + 2) true false
  match tokens with
  | [] => some (nothing, [])
  | [.documentStart] => some (nothing, [])
  | .documentStart :: rest => readUnless [.documentStart, .documentEnd] read rest
  | tokens => read tokens

/-- The document of a text that holds at most one. -/
def parse? (text : String) : Option Yaml :=
  match (tokens? text).bind readDocument with
  | some (node, rest) => if rest.all (· = .documentEnd) then some node else none
  | none => none

end Yaml

end Questlog
