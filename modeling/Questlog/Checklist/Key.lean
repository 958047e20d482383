import Questlog.Text.Blank
import Questlog.Text.Lowercase

namespace Questlog.Key

/-- A black star, which a key holds as an asterisk. -/
def star : Char := '\u2605'

/-- The right single quote, which serves as an apostrophe. -/
def apostrophe : Char := '\u2019'

/-- The characters that stay as they are: small ASCII letters, digits, and the code points from the
underscore to the black star. -/
def isKept (c : Char) : Bool :=
  ('a' ≤ c && c ≤ 'z') || ('0' ≤ c && c ≤ '9') || ('_' ≤ c && c ≤ star)

/-- Leaves out each apostrophe with an `s` behind it. -/
def dropPossessive : List Char → List Char
  | c :: d :: rest =>
    if c = apostrophe ∧ d = 's' then dropPossessive rest else c :: dropPossessive (d :: rest)
  | cs => cs

/-- A lowered title without possessives, and with a dash in place of each other apostrophe. -/
def withoutApostrophes (lowered : List Char) : List Char :=
  (dropPossessive lowered).map fun c => if c = apostrophe then '-' else c

/-- What a character becomes in a key. -/
def escapeChar (c : Char) : Char :=
  if c = star then '*'
  else if Text.isBlank c || !isKept c then '-'
  else c

/-- Writes a character behind what has been written, the last character of which comes first. A dash is
not written behind a dash. -/
def writeChar (written : List Char) (c : Char) : List Char :=
  if c = '-' ∧ written.head? = some '-' then written else c :: written

/-- Leaves out the dashes at both ends. -/
def trimDashes (cs : List Char) : List Char :=
  ((cs.dropWhile (· = '-')).reverse.dropWhile (· = '-')).reverse

/-- The key segment of a lowered title. -/
def escapeLowered (lowered : List Char) : List Char :=
  let written := (withoutApostrophes lowered).foldl (fun written c => writeChar written (escapeChar c)) []
  trimDashes written.reverse

/-- The key segment of a title. Its case is lowered and dashes take the place of what a key cannot
hold. -/
def escape (title : String) : String :=
  String.ofList (escapeLowered (Text.lowercase title.toList))

/-- A path of segments; empty ones are left out. Under such a path progress is kept. -/
def join (segments : List String) : String :=
  "/".intercalate (segments.filter fun s => !s.isEmpty)

/-- The pieces of a text between the slashes; an empty text is one empty piece. -/
def splitChars : List Char → List (List Char)
  | [] => [[]]
  | c :: rest =>
    if c = '/' then
      [] :: splitChars rest
    else
      match splitChars rest with
      | [] => [[c]]
      | piece :: pieces => (c :: piece) :: pieces

/-- The segments of a path, empty ones included. -/
def split (path : String) : List String :=
  (splitChars path.toList).map String.ofList

end Questlog.Key
