import Questlog.Decimal.Numeral

namespace Questlog.Binary64

/-- A text with its ASCII letters in lower case. -/
def lowerAscii (cs : List Char) : List Char :=
  cs.map Char.toLower

/-- The double that a whole text denotes. -/
def ofChars? (cs : List Char) : Option Binary64 :=
  let (negative, body) := Decimal.readSign cs
  match Decimal.ofChars? body with
  | some value => some (value.toBinary64 negative)
  | none =>
    let word := String.ofList (lowerAscii body)
    if word = "inf" ∨ word = "infinity" then some (infinite negative)
    else if word = "nan" then some nan
    else none

end Questlog.Binary64
