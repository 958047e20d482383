import Questlog.Settings.Environment
import Questlog.Text.Alphanumeric

namespace Questlog

namespace VariableFile

/-- A place in a value. -/
inductive Place where
  | free
  | singleQuoted
  | doubleQuoted
  /-- behind a backslash -/
  | escape (quoted : Bool)
  /-- in a name behind a dollar sign; `name` holds its characters, the last one first -/
  | reference (quoted : Bool) (name : List Char)
  /-- in a name in braces -/
  | braced (quoted : Bool) (name : List Char)
  /-- behind the value, where only a comment may stand -/
  | behind

/-- The place outside or inside of double quotes. -/
def Place.around (quoted : Bool) : Place :=
  if quoted then doubleQuoted else free

/-- The character that an escape stands for. -/
def escaped? (c : Char) : Option Char :=
  if c = 'n' then some '\n'
  else if ['\\', '"', '\x27', '$', ' '].contains c then some c
  else none

/-- The value of a variable, the last character first; nothing if it is not set. Both the name and
`text` have their last character first, too. -/
def refer (env : Environment) (name text : List Char) : List Char :=
  ((env (String.ofList name.reverse)).getD "").toList.reverse ++ text

/-- Reads a value; `text` is what came before, the last character first. The character that ends a
reference is taken as it is, even if it is a quote. -/
def readValue (env : Environment) (text : List Char) (place : Place) :
    List Char → Option (List Char)
  | [] =>
    match place with
    | .free | .escape false | .behind => some text.reverse
    | .reference false name => some (refer env name text).reverse
    | _ => none
  | c :: rest =>
    match place with
    | .behind =>
      if c = ' ' ∨ c = '\t' then readValue env text .behind rest
      else if c = '#' then some text.reverse
      else none
    | .escape quoted =>
      match escaped? c with
      | some d => readValue env (d :: text) (.around quoted) rest
      | none => none
    | .singleQuoted =>
      if c = '\x27' then readValue env text .free rest
      else readValue env (c :: text) .singleQuoted rest
    | .reference quoted name =>
      if Text.isAlphanumeric c then readValue env text (.reference quoted (c :: name)) rest
      else if c = '\x7b' ∧ name = [] then readValue env text (.braced quoted []) rest
      else if c = '$' then readValue env (refer env name text) (.reference quoted []) rest
      else readValue env (c :: refer env name text) (.around quoted) rest
    | .braced quoted name =>
      if c = '\x7d' then readValue env (refer env name text) (.around quoted) rest
      else readValue env text (.braced quoted (c :: name)) rest
    | .doubleQuoted =>
      if c = '$' then readValue env text (.reference true []) rest
      else if c = '"' then readValue env text .free rest
      else if c = '\\' then readValue env text (.escape true) rest
      else readValue env (c :: text) .doubleQuoted rest
    | .free =>
      if c = '$' then readValue env text (.reference false []) rest
      else if c = '\x27' then readValue env text .singleQuoted rest
      else if c = '"' then readValue env text .doubleQuoted rest
      else if c = '\\' then readValue env text (.escape false) rest
      else if c = ' ' ∨ c = '\t' then readValue env text .behind rest
      else readValue env (c :: text) .free rest

/-- A name at the front of a line, and the rest behind blanks. -/
def readName (cs : List Char) : Option (List Char × List Char) :=
  match cs with
  | c :: _ =>
    if c.isAlpha ∨ c = '_' then
      let (name, rest) := cs.span fun c => c.isAlphanum || c = '_' || c = '.'
      some (name, rest.dropWhile Text.isBlank)
    else
      none
  | [] => none

/-- The name that a line sets, and what follows the equals sign. -/
def readAssignment (cs : List Char) : Option (List Char × List Char) :=
  match readName cs with
  | some (name, '=' :: rest) => some (name, rest.dropWhile Text.isBlank)
  | some (word, rest) =>
    if word = "export".toList then
      match readName rest with
      | some (name, '=' :: rest) => some (name, rest.dropWhile Text.isBlank)
      | _ => none
    else
      none
  | none => none

/-- Whether nothing or a comment is left. -/
def isDone (cs : List Char) : Bool :=
  cs.isEmpty || cs.head? = some '#'

/-- The variable that a line sets, with its value. -/
def readVariable (env : Environment) (cs : List Char) : Option (String × String) :=
  match readAssignment cs with
  | none => none
  | some (name, rest) =>
    if isDone rest then
      some (String.ofList name, "")
    else
      (readValue env [] .free rest).map fun value => (String.ofList name, String.ofList value)

end VariableFile

namespace Environment

/-- Gives a variable a value unless it is set. -/
def setDefault (env : Environment) (name value : String) : Environment := fun asked =>
  if asked = name then some ((env name).getD value) else env asked

/-- Takes the lines of a file of variables into account. No variable holds a NUL character, and a
line that gives one to a variable makes it impossible to go on at all. -/
def withLines? (env : Environment) : List String → Option Environment
  | [] => some env
  | line :: rest =>
    let text := Text.trimChars line.toList
    if VariableFile.isDone text then
      withLines? env rest
    else
      match VariableFile.readVariable env text with
      | some (name, value) =>
        if (env name).isNone ∧ value.toList.contains '\x00' then none
        else withLines? (env.setDefault name value) rest
      | none => some env

/-- Takes a file of variables into account, if that is possible. -/
def withFile? (env : Environment) (text : String) : Option Environment :=
  env.withLines? (text.splitOn "\n")

end Environment

end Questlog
