import Questlog.Reading
import Questlog.Text.Blank

namespace Questlog

/-- A quoted literal: its quote character, the offset of the opening quote in bytes, and the
characters between the quotes. -/
structure Literal where
  quote : Char
  start : Nat
  content : List Char
deriving DecidableEq

namespace Literal

/-- The offset of the closing quote. -/
def stop (literal : Literal) : Nat :=
  literal.start + literal.quote.utf8Size + Text.byteLength literal.content

/-- The offset behind the closing quote. -/
def after (literal : Literal) : Nat :=
  literal.stop + literal.quote.utf8Size

/-- Double quote, single quote and backtick. -/
def isQuote (c : Char) : Bool :=
  c = '"' || c = '\x27' || c = '\x60'

/-- Reads up to the next mark of a quote character and over it. `escaped` tells whether a backslash
stands before `cs`; `acc` holds the characters already passed, last one first. -/
def readContent (quote : Char) (outer acc : List Char) (escaped : Bool) (cs : List Char)
    (hcs : cs.length ≤ outer.length) : Option (Reading (List Char) outer) :=
  match cs with
  | [] => none
  | c :: rest =>
    if c = quote ∧ escaped = false then
      some ⟨acc.reverse, rest, hcs⟩
    else
      readContent quote outer (c :: acc) (c = '\\') rest (Nat.le_of_succ_le hcs)

/-- The literals of a text that starts at `offset`, where `escaped` tells whether a backslash
stands before it. -/
def scanFrom (offset : Nat) (escaped : Bool) (cs : List Char) : List Literal :=
  match cs with
  | [] => []
  | c :: rest =>
    if isQuote c && !escaped then
      match readContent c rest [] false rest (length_le_self rest) with
      | none => scanFrom (offset + c.utf8Size) false rest
      | some ⟨content, more, _⟩ =>
        let literal : Literal := ⟨c, offset, content⟩
        literal :: scanFrom literal.after false more
    else
      scanFrom (offset + c.utf8Size) (c = '\\') rest
termination_by cs.length

/-- The literals of a text, from left to right. -/
def scan (text : String) : List Literal :=
  scanFrom 0 false text.toList

/-- The character that stands for an escaped one. -/
def unescapeChar : Char → Char
  | 'n' => '\n'
  | 't' => '\t'
  | 'r' => '\r'
  | '0' => '\x00'
  | c => c

/-- Replaces each backslash and the character behind it. A backslash at the end stays. -/
def unescape : List Char → List Char
  | '\\' :: c :: rest => unescapeChar c :: unescape rest
  | c :: rest => c :: unescape rest
  | [] => []

end Literal

end Questlog
