namespace Questlog.MediaType

/-- The marks that a token may hold beside letters and digits. -/
def tokenMarks : List Char :=
  ['!', '#', '$', '%', '&', '\x27', '*', '+', '-', '.', '^', '_', '\x60', '|', '~']

/-- The characters of types and of the names and plain values of parameters. -/
def isTokenChar (c : Char) : Bool :=
  c.isAlphanum || tokenMarks.contains c

/-- The characters inside the quotes of a value. -/
def isQuotable (c : Char) : Bool :=
  ' ' ≤ c && c ≤ '~'

/-- A place in a list of parameters. -/
inductive Place where
  /-- in front of a parameter -/
  | start
  | name
  /-- behind the equals sign -/
  | equals
  | value
  /-- behind the opening quote of a value -/
  | quote
  | quoted
  /-- behind the closing quote -/
  | closed

namespace Place

/-- The place behind a character, if it may stand there. Directly behind the opening quote a second
quote is part of the value. -/
def next? (place : Place) (c : Char) : Option Place :=
  match place with
  | start => if c = ' ' then some start else if isTokenChar c then some name else none
  | name => if c = '=' then some equals else if isTokenChar c then some name else none
  | equals => if c = '"' then some quote else if isTokenChar c then some value else none
  | value => if c = ';' then some start else if isTokenChar c then some value else none
  | quote => if isQuotable c then some quoted else none
  | quoted => if c = '"' then some closed else if isQuotable c then some quoted else none
  | closed => if c = ';' then some start else if c = ' ' then some closed else none

/-- Whether a list of parameters may end in a place. -/
def mayEnd : Place → Bool
  | start | equals | value | closed => true
  | name | quote | quoted => false

end Place

/-- Whether a text is a list of parameters. -/
def areParameters (cs : List Char) : Bool :=
  match cs.foldlM Place.next? .start with
  | some place => place.mayEnd
  | none => false

/-- The last plus sign that is not the first character parts a subtype from its suffix. -/
def splitSuffix (subtype : List Char) : List Char × Option (List Char) :=
  match subtype.reverse.span (· ≠ '+') with
  | (suffix, _ :: c :: rest) => ((c :: rest).reverse, some suffix.reverse)
  | _ => (subtype, none)

/-- Whether a subtype announces JSON, by itself or by its suffix. -/
def subtypeIsJson (subtype : List Char) : Bool :=
  let (name, suffix) := splitSuffix (subtype.map Char.toLower)
  name = "json".toList || suffix = some "json".toList

/-- Whether a content type announces JSON. -/
def isJson (contentType : String) : Bool :=
  match contentType.toList.span isTokenChar with
  | (type, '/' :: rest) =>
    let (subtype, parameters) := rest.span isTokenChar
    type.map Char.toLower = "application".toList && subtypeIsJson subtype &&
      match parameters with
      | [] => true
      | ';' :: parameters => areParameters parameters
      | _ => false
  | _ => false

end Questlog.MediaType
