import Questlog.Decimal.Layout

namespace Questlog

/-- A fixed word or sign of the expression language. -/
inductive Symbol where
  | or | and
  | equal | notEqual | strictEqual | strictNotEqual
  | less | lessEqual | greater | greaterEqual | isIn
  | plus | minus | star | slash | percent
  | bang | tilde
  | openParen | closeParen | openBracket | closeBracket | comma
deriving DecidableEq

/-- How a symbol is written. -/
def Symbol.spelling : Symbol → String
  | or => "||"
  | and => "&&"
  | equal => "=="
  | notEqual => "!="
  | strictEqual => "==="
  | strictNotEqual => "!=="
  | less => "<"
  | lessEqual => "<="
  | greater => ">"
  | greaterEqual => ">="
  | isIn => "in"
  | plus => "+"
  | minus => "-"
  | star => "*"
  | slash => "/"
  | percent => "%"
  | bang => "!"
  | tilde => "~"
  | openParen => "("
  | closeParen => ")"
  | openBracket => "["
  | closeBracket => "]"
  | comma => ","

/-- A word of an expression. -/
inductive Token where
  | name (name : String)
  | number (value : Binary64)
  | text (value : String)
  | symbol (symbol : Symbol)
deriving DecidableEq

/-- Numbers are quoted with all their places and never with an exponent. -/
def Token.numberLayout : Decimal.Layout :=
  { tie := .away, positional := fun _ => true, wholeFraction := false }

/-- The text of a written number, which is never negative. -/
def Token.numberText (value : Binary64) : String :=
  if value.isFinite then String.ofList (numberLayout.write value.magnitude) else "inf"

/-- A token as error messages name it. -/
def Token.describe : Token → String
  | name n => s!"identifier '{n}'"
  | number x => s!"number {numberText x}"
  | text s => s!"string '{s}'"
  | symbol s => s!"'{s.spelling}'"

/-- What an error message calls the next token, or the end where there is none. -/
def Token.describeNext : Option Token → String
  | some token => token.describe
  | none => "end of input"

end Questlog
