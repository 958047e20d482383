import Questlog.Yaml.Scalar

namespace Questlog.Yaml

/-- A token of a document. -/
inductive Token where
  | documentStart
  | documentEnd
  | blockSequenceStart
  | blockMappingStart
  | blockEnd
  | flowSequenceStart
  | flowSequenceEnd
  | flowMappingStart
  | flowMappingEnd
  | blockEntry
  | flowEntry
  | key
  | value
  | scalar (plain : Bool) (text : String)
deriving DecidableEq

/-- What may turn out to be a key: `number` tokens stand before it. Where it is required, it stands
at the column of a block mapping and can be nothing else. -/
structure Candidate where
  required : Bool
  number : Nat
  start : Position

/-- Whether a candidate starts too far before a position to be a key that ends there: on another
line, or more than 1024 bytes away. -/
def Candidate.isStale (candidate : Candidate) (position : Position) : Bool :=
  candidate.start.line < position.line || candidate.start.offset + 1024 < position.offset

/-- What is known when a text has been cut into tokens up to a place. -/
structure Scanner where
  place : Place
  /-- the tokens so far, the last one first, and how many they are -/
  tokens : List Token := []
  count : Nat := 0
  /-- the column of the innermost block, and those of the blocks around it -/
  indent : Int := -1
  outerIndents : List Int := []
  /-- the candidate at the current depth of flow collections, and those further out -/
  candidate : Option Candidate := none
  outerCandidates : List (Option Candidate) := []
  /-- whether a candidate may stand at the place -/
  keyAllowed : Bool := true

namespace Scanner

/-- Whether the place lies in a flow collection, where indentation does not count. -/
def inFlow (s : Scanner) : Bool :=
  !s.outerCandidates.isEmpty

/-- Adds a token behind the others. -/
def push (s : Scanner) (token : Token) : Scanner :=
  { s with tokens := token :: s.tokens, count := s.count + 1 }

/-- Adds a token that is as many characters long as told. -/
def take (s : Scanner) (token : Token) (length : Nat) : Scanner :=
  { s.push token with place := s.place.skip length }

/-- Puts a token behind the first `number` ones. -/
def insert (s : Scanner) (number : Nat) (token : Token) : Scanner :=
  let behind := s.count - number
  { s with
    tokens := s.tokens.take behind ++ token :: s.tokens.drop behind
    count := s.count + 1 }

/-- Opens a block at a column that lies further right than the innermost one. The token that starts
it is put behind the first `number` ones. -/
def openBlock (s : Scanner) (column : Nat) (start : Token) (number : Nat) : Scanner :=
  if s.inFlow ∨ column ≤ s.indent then s
  else
    { s.insert number start with indent := column, outerIndents := s.indent :: s.outerIndents }

/-- Closes the blocks that lie further right than a column. -/
def closeBlocks (s : Scanner) (column : Int) : Scanner :=
  let columns := s.indent :: s.outerIndents
  let closed := (columns.takeWhile (column < ·)).length
  match s.inFlow, columns.drop closed with
  | false, indent :: outerIndents =>
    { s with
      indent
      outerIndents
      tokens := List.replicate closed .blockEnd ++ s.tokens
      count := s.count + closed }
  | _, _ => s

/-- Gives up the candidate, unless it has to be a key. -/
def dropCandidate (s : Scanner) : Option Scanner :=
  if s.candidate.any (·.required) then none else some { s with candidate := none }

/-- Gives up the candidates that are stale, unless one of them has to be a key. -/
def dropStale (s : Scanner) : Option Scanner :=
  let isStale (candidate : Candidate) : Bool := candidate.isStale s.place.toPosition
  if (s.candidate :: s.outerCandidates).any fun c => c.any fun c => c.required && isStale c then
    none
  else
    some { s with
      candidate := s.candidate.filter (!isStale ·)
      outerCandidates := s.outerCandidates.map fun c => c.filter (!isStale ·) }

/-- Makes what starts at the place the candidate, if one may stand there. -/
def setCandidate (s : Scanner) : Option Scanner :=
  if s.keyAllowed then
    s.dropCandidate.map fun s =>
      { s with candidate := some {
          required := !s.inFlow && decide (s.indent = s.place.column)
          number := s.count
          start := s.place.toPosition } }
  else
    some s

end Scanner

/-- Passes over blanks, comments and line ends. Behind the end of a line in a block a key may stand,
and where one may stand, a tab is no blank. A byte order mark may start a line. `comment` tells
whether a comment is being passed over. -/
def skipGap (flow comment keyAllowed : Bool) (position : Position) : List Char → Bool × Place
  | [] => (keyAllowed, ⟨position, []⟩)
  | c :: rest =>
    if isBreak c then
      skipGap flow false (keyAllowed || !flow) (position.behind c) rest
    else if comment ∨ c = ' ' ∨ (c = '\t' ∧ (flow ∨ !keyAllowed)) ∨
        (c = '\uFEFF' ∧ position.column = 0) then
      skipGap flow comment keyAllowed (position.behind c) rest
    else if c = '#' then
      skipGap flow true keyAllowed (position.behind c) rest
    else
      (keyAllowed, ⟨position, c :: rest⟩)

namespace Scanner

/-- Goes to the start of the next token and closes the blocks that end before it. -/
def toNextToken (s : Scanner) : Option Scanner :=
  let (keyAllowed, place) :=
    skipGap s.inFlow false s.keyAllowed s.place.toPosition s.place.rest
  let arrived : Scanner := { s with keyAllowed, place }
  arrived.dropStale.map fun s => s.closeBlocks s.place.column

/-- Ends the last document. -/
def finish (s : Scanner) : Option (List Token) :=
  (s.closeBlocks (-1)).dropCandidate.map (·.tokens.reverse)

/-- Takes a mark that starts or ends a document. -/
def takeDocumentMark (s : Scanner) (token : Token) : Option Scanner :=
  (s.closeBlocks (-1)).dropCandidate.map fun s => { s.take token 3 with keyAllowed := false }

/-- Takes the bracket that opens a flow collection. -/
def openFlow (s : Scanner) (token : Token) : Option Scanner :=
  s.setCandidate.map fun s =>
    { s.take token 1 with
      candidate := none
      outerCandidates := s.candidate :: s.outerCandidates
      keyAllowed := true }

/-- Takes the bracket that closes a flow collection. -/
def closeFlow (s : Scanner) (token : Token) : Option Scanner :=
  s.dropCandidate.map fun s =>
    { s.take token 1 with
      candidate := s.outerCandidates.head?.join
      outerCandidates := s.outerCandidates.tail
      keyAllowed := false }

/-- Takes the comma between the members of a flow collection. -/
def takeComma (s : Scanner) : Option Scanner :=
  s.dropCandidate.map fun s => { s.take .flowEntry 1 with keyAllowed := true }

/-- Opens a block for the mark at the place, where a key might stand as well. -/
def openBlockHere (s : Scanner) (start : Token) : Option Scanner :=
  if s.inFlow then some s
  else if s.keyAllowed then some (s.openBlock s.place.column start s.count)
  else none

/-- Takes the dash in front of an item. -/
def takeDash (s : Scanner) : Option Scanner :=
  match s.openBlockHere .blockSequenceStart with
  | none => none
  | some s => s.dropCandidate.map fun s => { s.take .blockEntry 1 with keyAllowed := true }

/-- Takes the question mark in front of a key. -/
def takeQuestionMark (s : Scanner) : Option Scanner :=
  match s.openBlockHere .blockMappingStart with
  | none => none
  | some s => s.dropCandidate.map fun s => { s.take .key 1 with keyAllowed := !s.inFlow }

/-- Takes the colon behind a key. -/
def takeColon (s : Scanner) : Option Scanner :=
  match s.candidate with
  | some c =>
    let opened := (s.insert c.number .key).openBlock c.start.column .blockMappingStart c.number
    some { opened.take .value 1 with candidate := none, keyAllowed := false }
  | none =>
    (s.openBlockHere .blockMappingStart).map fun s =>
      { s.take .value 1 with keyAllowed := !s.inFlow }

/-- Takes a quoted scalar. -/
def takeQuoted (s : Scanner) (read : Position → List Char → Option (String × Place)) :
    Option Scanner :=
  match s.setCandidate, read (s.place.toPosition.skip 1) (s.place.rest.drop 1) with
  | some s, some (text, place) =>
    some { s.push (.scalar false text) with place, keyAllowed := false }
  | _, _ => none

/-- Takes a plain scalar. -/
def takePlain (s : Scanner) : Option Scanner :=
  match s.setCandidate, readPlain s.inFlow (s.indent + 1) [] (.blanks []) s.place.toPosition
      s.place.rest with
  | some s, some (plain, place) =>
    some { s.push (.scalar true plain.text) with place, keyAllowed := plain.endsLine }
  | _, _ => none

/-- Takes the token that starts with `c`, behind which `rest` follows. -/
def takeToken (s : Scanner) (c : Char) (rest : List Char) : Option Scanner :=
  if s.place.column = 0 ∧ atDocumentMark (c :: rest) then
    s.takeDocumentMark (if c = '-' then .documentStart else .documentEnd)
  else if c = '[' then s.openFlow .flowSequenceStart
  else if c = '\x7b' then s.openFlow .flowMappingStart
  else if c = ']' then s.closeFlow .flowSequenceEnd
  else if c = '\x7d' then s.closeFlow .flowMappingEnd
  else if c = ',' then s.takeComma
  else if c = '-' ∧ atGap rest then s.takeDash
  else if c = '?' ∧ (s.inFlow ∨ atGap rest) then s.takeQuestionMark
  else if c = ':' ∧ (s.inFlow ∨ atGap rest) then s.takeColon
  else if c = '\x27' then s.takeQuoted (readSingle [] (.blanks []))
  else if c = '"' then s.takeQuoted (readDouble [] (.blanks []))
  else if isBlank c ∨ isReserved c then none
  else s.takePlain

/-- Takes all tokens that are left. -/
def takeAll : (fuel : Nat) → Scanner → Option (List Token)
  | 0, _ => none
  | fuel + 1, s =>
    match s.toNextToken with
    | none => none
    | some s =>
      match s.place.rest with
      | [] => s.finish
      | c :: rest =>
        match s.takeToken c rest with
        | none => none
        | some s => takeAll fuel s

end Scanner

/-- The tokens of a text. -/
def tokens? (text : String) : Option (List Token) :=
  if text.toList.all isAllowed then
    let cs := unifyBreaks text.toList
    Scanner.takeAll (cs.length + 1) { place := ⟨{}, cs⟩ }
  else
    none

end Questlog.Yaml
