import Questlog.Text.Hexadecimal
import Questlog.Yaml.Character

namespace Questlog.Yaml

/-- A position in a text: how many line ends stand before it, and how many characters of its line,
which take `offset` bytes. -/
structure Position where
  line : Nat := 0
  column : Nat := 0
  offset : Nat := 0

/-- The position behind some ASCII characters of the same line. -/
def Position.skip (position : Position) (count : Nat) : Position :=
  { position with column := position.column + count, offset := position.offset + count }

/-- The position behind a character. -/
def Position.behind (position : Position) (c : Char) : Position :=
  if isBreak c then { line := position.line + 1 }
  else { position with column := position.column + 1, offset := position.offset + c.utf8Size }

/-- A position in a text and what follows. -/
structure Place extends Position where
  rest : List Char

/-- The place behind some ASCII characters of the same line. -/
def Place.skip (place : Place) (count : Nat) : Place :=
  ⟨place.toPosition.skip count, place.rest.drop count⟩

/-- What stands between two pieces of a scalar: blanks on one line, or line ends, the first of which
may have been escaped and so does not count. Both lists have their last character first. -/
inductive Gap where
  | blanks (reversed : List Char)
  | breaks (first : Option Char) (further : List Char)

/-- What becomes of a gap, last character first. -/
def Gap.fold : Gap → List Char
  | blanks bs => bs
  | breaks none further => further
  | breaks (some '\n') [] => [' ']
  | breaks (some '\n') further => further
  | breaks (some first) further => further ++ [first]

/-- A gap with one more blank or line end; blanks around line ends are lost. -/
def Gap.extend (gap : Gap) (c : Char) : Gap :=
  match gap, isBreak c with
  | blanks bs, false => blanks (c :: bs)
  | breaks first further, false => breaks first further
  | blanks _, true => breaks (some c) []
  | breaks first further, true => breaks first (c :: further)

/-- Whether a gap goes over the end of a line. -/
def Gap.isBroken : Gap → Bool
  | blanks _ => false
  | breaks .. => true

/-- Whether nothing stands between two parts of a scalar. -/
def Gap.isEmpty : Gap → Bool
  | blanks [] => true
  | _ => false

/-- The text of a quoted scalar with the gap before its closing quote; `text` has its last character
first. -/
def closeQuoted (text : List Char) (gap : Gap) : String :=
  String.ofList (gap.fold ++ text).reverse

/-- Reads a single-quoted scalar behind its opening quote; two quotes stand for one. -/
def readSingle (text : List Char) (gap : Gap) (position : Position) :
    List Char → Option (String × Place)
  | [] => none
  | '\x27' :: '\x27' :: rest =>
    readSingle ('\x27' :: gap.fold ++ text) (.blanks []) (position.skip 2) rest
  | '\x27' :: rest => some (closeQuoted text gap, ⟨position.skip 1, rest⟩)
  | c :: rest =>
    if isBlank c ∨ isBreak c then readSingle text (gap.extend c) (position.behind c) rest
    else if position.column = 0 ∧ atDocumentMark (c :: rest) then none
    else readSingle (c :: gap.fold ++ text) (.blanks []) (position.behind c) rest

/-- The character of a one-letter escape. -/
def simpleEscape? : Char → Option Char
  | '0' => some '\x00'
  | 'a' => some '\x07'
  | 'b' => some '\x08'
  | 't' => some '\t'
  | '\t' => some '\t'
  | 'n' => some '\n'
  | 'v' => some '\x0B'
  | 'f' => some '\x0C'
  | 'r' => some '\r'
  | 'e' => some '\x1B'
  | ' ' => some ' '
  | '"' => some '"'
  | '/' => some '/'
  | '\\' => some '\\'
  | 'N' => some '\u0085'
  | '_' => some '\u00A0'
  | 'L' => some '\u2028'
  | 'P' => some '\u2029'
  | _ => none

/-- How many hexadecimal digits follow an escape letter. -/
def hexLength? : Char → Option Nat
  | 'x' => some 2
  | 'u' => some 4
  | 'U' => some 8
  | _ => none

/-- Reads a number of a fixed count of hexadecimal digits. -/
def readHex (count value : Nat) (cs : List Char) :
    Option (Nat × { rest : List Char // rest.length ≤ cs.length }) :=
  match count, cs with
  | 0, cs => some (value, ⟨cs, Nat.le_refl _⟩)
  | _ + 1, [] => none
  | count + 1, c :: rest =>
    match Text.hexDigit? c with
    | none => none
    | some digit =>
      (readHex count (16 * value + digit) rest).map fun (n, ⟨more, hmore⟩) =>
        (n, ⟨more, Nat.le_succ_of_le hmore⟩)

/-- The character of a code point, if there is one. -/
def charOf? (code : Nat) : Option Char :=
  if h : code.isValidChar then some (Char.ofNatAux code h) else none

/-- Reads a double-quoted scalar behind its opening quote. -/
def readDouble (text : List Char) (gap : Gap) (position : Position) (cs : List Char) :
    Option (String × Place) :=
  match cs with
  | [] => none
  | '"' :: rest => some (closeQuoted text gap, ⟨position.skip 1, rest⟩)
  | '\\' :: e :: rest =>
    if isBreak e then
      readDouble (gap.fold ++ text) (.breaks none []) (position.behind e) rest
    else
      match simpleEscape? e, hexLength? e with
      | some c, _ => readDouble (c :: gap.fold ++ text) (.blanks []) (position.skip 2) rest
      | none, some count =>
        match readHex count 0 rest with
        | none => none
        | some (code, ⟨more, _⟩) =>
          match charOf? code with
          | some c =>
            readDouble (c :: gap.fold ++ text) (.blanks []) (position.skip (2 + count)) more
          | none => none
      | none, none => none
  | c :: rest =>
    if isBlank c ∨ isBreak c then readDouble text (gap.extend c) (position.behind c) rest
    else if position.column = 0 ∧ atDocumentMark (c :: rest) then none
    else readDouble (c :: gap.fold ++ text) (.blanks []) (position.behind c) rest
termination_by cs.length

/-- A plain scalar, and whether it was followed by the end of its line. -/
structure PlainScalar where
  text : String
  endsLine : Bool

/-- Whether a plain scalar ends before this text, which is not empty and does not start with a blank
or a line end. In a block, its further lines have to be indented by `indent`. -/
def endsPlain (flow : Bool) (indent : Int) (gap : Gap) (column : Nat) : List Char → Bool
  | [] => true
  | c :: rest =>
    (!gap.isEmpty && (c = '#' || (!flow && decide (column < indent)))) ||
      (column = 0 && atDocumentMark (c :: rest)) || (c = ':' && atGap rest) ||
      (flow && isFlowMark c)

/-- Whether a colon stands here that a flow collection does not allow within a plain scalar. -/
def atStrayColon (cs : List Char) : Bool :=
  match cs with
  | ':' :: c :: _ => isFlowMark c || c = '?'
  | _ => false

/-- Reads a plain scalar; `text` holds what came before, last character first. -/
def readPlain (flow : Bool) (indent : Int) (text : List Char) (gap : Gap) (position : Position) :
    List Char → Option (PlainScalar × Place)
  | [] => some (⟨String.ofList text.reverse, gap.isBroken⟩, ⟨position, []⟩)
  | c :: rest =>
    if isBlank c ∨ isBreak c then
      if c = '\t' ∧ gap.isBroken ∧ position.column < indent then none
      else readPlain flow indent text (gap.extend c) (position.behind c) rest
    else if endsPlain flow indent gap position.column (c :: rest) then
      some (⟨String.ofList text.reverse, gap.isBroken⟩, ⟨position, c :: rest⟩)
    else if flow ∧ atStrayColon (c :: rest) then
      none
    else
      readPlain flow indent (c :: gap.fold ++ text) (.blanks []) (position.behind c) rest

end Questlog.Yaml
