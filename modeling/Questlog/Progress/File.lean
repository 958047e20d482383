import Questlog.Binary64.Arithmetic
import Questlog.Binary64.Text
import Questlog.Disk
import Questlog.Json.Parser
import Questlog.Json.Printer
import Questlog.Progress.Basic
import Questlog.Text.Blank

namespace Questlog

/-- Why a progress file cannot be used. -/
inductive ProgressFileError where
  | unreadable
  | notJson
  | notAnObject (path : String)

namespace Progress

/-- The name of an entry of a scope. -/
def entryName (scope name : String) : String :=
  scope ++ "-" ++ name

/-- The completed keys that an entry lists. What is no text is left out, and so is a key that was
there before. -/
def completedOf : Json → List String
  | .array items => (items.filterMap Json.string?).eraseDups
  | _ => []

/-- A double cut to a whole number of 64 bits; what lies outside goes to the nearer end. -/
def saturate : Binary64 → Int64
  | .nan => 0
  | .infinite negative => if negative then Int64.minValue else Int64.maxValue
  | x => Int64.ofInt (max Int64.minValue.toInt (min Int64.maxValue.toInt x.truncate))

/-- The number that an entry holds, which may be written as text; zero for anything else. -/
def numberOf : Json → Int64
  | .number n =>
    match n.int64? with
    | some n => Int64.ofInt n
    | none => saturate n.toBinary64
  | .string s =>
    match Binary64.ofChars? (Text.trimChars s.toList) with
    | some x => saturate x
    | none => 0
  | _ => 0

/-- Takes one entry of a file into account. -/
def readEntry (progress : Progress) (name : String) (value : Json) : Progress :=
  if name = entryName progress.scope "completed" then
    { progress with completed := completedOf value }
  else if name = entryName progress.scope "gameMode" then
    { progress with gameMode := numberOf value }
  else if name = entryName progress.scope "lastRegion" then
    { progress with lastRegion := numberOf value }
  else
    { progress with foreign := Entries.put progress.foreign name value }

/-- The progress of a scope in a file with the given entries. -/
def ofEntries (scope : String) (entries : List (String × Json)) : Progress :=
  entries.foldl (fun progress entry => progress.readEntry entry.1 entry.2) { scope }

/-- The entries of the file that keeps this progress. -/
def toEntries (progress : Progress) : List (String × Json) :=
  Entries.put
    (Entries.put
      (Entries.put progress.foreign (entryName progress.scope "completed")
        (.array (progress.completed.map .string)))
      (entryName progress.scope "gameMode") (.ofInt progress.gameMode.toInt))
    (entryName progress.scope "lastRegion") (.ofInt progress.lastRegion.toInt)

/-- The text of the file that keeps this progress. -/
def toFile (progress : Progress) : String :=
  (Json.object progress.toEntries).pretty

/-- The progress of a scope in the text of a file. A blank file holds none. -/
def ofFile (scope path text : String) : Except ProgressFileError Progress :=
  if Text.trimChars text.toList = [] then
    .ok { scope }
  else
    match Json.parse? text with
    | none => .error .notJson
    | some (.object entries) => .ok (ofEntries scope entries)
    | some _ => .error (.notAnObject path)

/-- Opens the progress of a scope. A missing file holds none. -/
def openFile (disk : Disk) (scope path : String) : Except ProgressFileError Progress :=
  if disk.has path then
    match disk.read? path with
    | some text => ofFile scope path text
    | none => .error .unreadable
  else
    .ok { scope }

/-- Saves progress, and tells whether that was possible. -/
def save (progress : Progress) (path : String) : StateM Disk Bool :=
  Disk.writeDeep path progress.toFile

end Progress

end Questlog
