import Questlog.Expression.Token

namespace Questlog

/-- What the grammar asks for at a place where something else stands. -/
inductive Expected where
  | expression
  | closeParen
  | commaOrCloseBracket
deriving DecidableEq

/-- What was expected, as messages name it. -/
def Expected.describe : Expected → String
  | expression => "expression"
  | closeParen => "')'"
  | commaOrCloseBracket => "',' or ']'"

/-- The causes for which a text does not compile. Positions are byte offsets. -/
inductive CompileError where
  | emptyInput
  | inputTooLarge (limit actual : Nat)
  | unexpectedChar (found : Char) (position : Nat)
  | unterminatedString (position : Nat)
  | invalidNumber (raw : String) (position : Nat)
  | unexpectedToken (expected : Expected) (found : Option Token) (position : Nat)
  | nestingTooDeep (limit depth position : Nat)
  | trailingInput (position : Nat)
deriving DecidableEq

/-- The message of an error, with the place that it names. -/
def CompileError.message : CompileError → String
  | emptyInput => "expression is empty"
  | inputTooLarge limit actual =>
    s!"expression exceeds size limit: {actual} bytes (max {limit})"
  | unexpectedChar found position => s!"unexpected character `{found}` at {position}"
  | unterminatedString position => s!"unterminated string literal at {position}"
  | invalidNumber raw position => s!"invalid number `{raw}` at {position}"
  | unexpectedToken expected found position =>
    s!"unexpected {Token.describeNext found} at {position}, expected {expected.describe}"
  | nestingTooDeep limit depth position =>
    s!"expression nesting exceeds limit: depth {depth} (max {limit}) at {position}"
  | trailingInput position => s!"unexpected trailing input at {position}"

end Questlog
