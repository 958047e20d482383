import Questlog.Text.CaseTable

namespace Questlog.Text

/-- Whether the first character that case rules do not look through is a cased one. -/
def meetsCased (cs : List Char) : Bool :=
  match cs.dropWhile fun c => inRanges caseIgnorableRanges c.toNat with
  | [] => false
  | c :: _ => inRanges casedRanges c.toNat

/-- The lowercase of one character, with its neighbours left out of account. -/
def lowercaseChar (c : Char) : List Char :=
  if c.toNat < 0x80 then
    [c.toLower]
  else if c = '\u0130' then
    ['i', '\u0307']
  else
    match caseRuns.findSome? (·.lowercase? c.toNat) with
    | some code => [Char.ofNat code]
    | none => [c]

/-- The lowercase of a capital sigma that stands after `before` (nearest character first) and
ahead of `after`. -/
def lowercaseSigma (before after : List Char) : Char :=
  if meetsCased before && !meetsCased after then '\u03C2' else '\u03C3'

/-- The lowercase of `cs`, where `before` holds what precedes it, nearest character first. -/
def lowercaseFrom (before : List Char) : List Char → List Char
  | [] => []
  | c :: rest =>
    let lowered := if c = '\u03A3' then [lowercaseSigma before rest] else lowercaseChar c
    lowered ++ lowercaseFrom (c :: before) rest

/-- The lowercase of a text. -/
def lowercase (cs : List Char) : List Char :=
  lowercaseFrom [] cs

end Questlog.Text
