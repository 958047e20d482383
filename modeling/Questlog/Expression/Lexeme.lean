import Questlog.Decimal.Numeral
import Questlog.Expression.Error
import Questlog.Expression.Literal

namespace Questlog

/-- A token and the byte offset of its first character. Spaces, tabs and line ends separate lexemes
and are otherwise skipped. -/
structure Lexeme where
  token : Token
  position : Nat
deriving DecidableEq

namespace Lexeme

/-- The characters that may stand between lexemes. -/
def isSpace (c : Char) : Bool :=
  c = ' ' || c = '\t' || c = '\n' || c = '\r'

/-- The characters that a name starts with. -/
def isNameStart (c : Char) : Bool :=
  ('a' ≤ c && c ≤ 'z') || ('A' ≤ c && c ≤ 'Z') || c = '_' || c = '$'

/-- The characters of a name. -/
def isNamePart (c : Char) : Bool :=
  isNameStart c || Decimal.isDigit c

/-- The token that a word of name characters is. -/
def ofWord (word : List Char) : Token :=
  if word = ['i', 'n'] then .symbol .isIn else .name (String.ofList word)

/-- The signs, each ahead of those that begin it. -/
def signs : List Symbol :=
  [.strictEqual, .strictNotEqual, .equal, .notEqual, .lessEqual, .greaterEqual, .and, .or, .less,
    .greater, .bang, .tilde, .plus, .minus, .star, .slash, .percent, .openParen, .closeParen,
    .openBracket, .closeBracket, .comma]

/-- The sign that a text starts with; of several the longest. -/
def sign? (cs : List Char) : Option Symbol :=
  signs.find? fun s => s.spelling.toList.isPrefixOf cs

/-- The characters of the number that a text starts with: digits with an optional point and
optional further digits. -/
def numberChars (cs : List Char) : List Char :=
  let whole := cs.takeWhile Decimal.isDigit
  match cs.dropWhile Decimal.isDigit with
  | '.' :: rest => whole ++ '.' :: rest.takeWhile Decimal.isDigit
  | _ => whole

/-- Whether a text starts with a number. -/
def startsNumber : List Char → Bool
  | c :: rest => Decimal.isDigit c || (c = '.' && (rest.head?.map Decimal.isDigit).getD false)
  | [] => false

/-- A token cut off the front of a text, and the number of bytes it takes there. -/
structure Cut where
  token : Token
  width : Nat

/-- Cuts the first token off a text that stands at `position` and starts with no space. At a quote
that is the one of the literals, found ahead of the cutting, that starts there. -/
def cut (literals : List Literal) (position : Nat) (cs : List Char) :
    Except CompileError (Reading Cut cs) :=
  match cs with
  | [] => .error .emptyInput
  | c :: rest =>
    if Literal.isQuote c then
      match literals.find? (fun literal => literal.start = position) with
      | none => .error (.unterminatedString position)
      | some literal =>
        .ok ⟨⟨.text (String.ofList (Literal.unescape literal.content)), literal.after - position⟩,
          rest.drop (literal.content.length + 1),
          by simp only [List.length_drop, List.length_cons]; omega⟩
    else if startsNumber (c :: rest) then
      let written := numberChars (c :: rest)
      match Decimal.ofChars? written with
      | none => .error (.invalidNumber (String.ofList written) position)
      | some value =>
        .ok ⟨⟨.number (value.toBinary64 false), written.length⟩, rest.drop (written.length - 1),
          by simp only [List.length_drop, List.length_cons]; omega⟩
    else if isNameStart c then
      let word := (c :: rest).takeWhile isNamePart
      .ok ⟨⟨ofWord word, word.length⟩, rest.drop (word.length - 1),
        by simp only [List.length_drop, List.length_cons]; omega⟩
    else
      match sign? (c :: rest) with
      | none => .error (.unexpectedChar c position)
      | some symbol =>
        let width := symbol.spelling.length
        .ok ⟨⟨.symbol symbol, width⟩, rest.drop (width - 1),
          by simp only [List.length_drop, List.length_cons]; omega⟩

/-- The lexemes of a text that stands at `position`, given the literals. -/
def cutAll (literals : List Literal) (position : Nat) (cs : List Char) :
    Except CompileError (List Lexeme) :=
  match cs with
  | [] => .ok []
  | c :: rest =>
    if isSpace c then
      cutAll literals (position + 1) rest
    else
      match cut literals position (c :: rest) with
      | .error e => .error e
      | .ok ⟨⟨token, width⟩, more, _⟩ =>
        match cutAll literals (position + width) more with
        | .error e => .error e
        | .ok later => .ok (⟨token, position⟩ :: later)
termination_by cs.length
decreasing_by
  · exact Nat.lt_succ_self _
  · assumption

/-- The lexemes of a text, of which there is at least one. -/
def tokenize (text : String) : Except CompileError (List Lexeme) :=
  match cutAll (Literal.scan text) 0 text.toList with
  | .error e => .error e
  | .ok [] => .error .emptyInput
  | .ok lexemes => .ok lexemes

end Lexeme

end Questlog
