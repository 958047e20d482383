import Questlog.Entries

namespace Questlog

/-- A place in a directory tree: the names on the way to it, the innermost one first. The way starts
at the working directory, leads out of it by the name `..`, or starts at the root, whose name is
empty. -/
abbrev Location := List String

namespace Location

/-- The path of a place. -/
def path (place : Location) : String :=
  "/".intercalate place.reverse

/-- Whether a place is a directory of any tree: the working directory, one around it, or the
root. -/
def isGiven (place : Location) : Bool :=
  place = [""] || place.all (· = "..")

/-- The place of the directory around a place. The root lies in itself. -/
def parent (place : Location) : Location :=
  if place = [""] then place
  else if place.all (· = "..") then ".." :: place
  else place.tail

/-- The place where a segment of a path leads. -/
def step (place : Location) (segment : String) : Location :=
  if segment = "" ∨ segment = "." then place
  else if segment = ".." then place.parent
  else segment :: place

end Location

/-- The files by the paths of their places, in ascending order, and the directories by theirs, the
last one made first. What the tree is to hold outside the working directory is put into it like
everything else. -/
structure Disk where
  files : List (String × String) := []
  folders : List String := []

namespace Disk

/-- Whether a directory is at a place. -/
def isFolder (disk : Disk) (place : Location) : Bool :=
  place.isGiven || disk.folders.contains place.path

/-- Whether a file is at a place. -/
def isFile (disk : Disk) (place : Location) : Bool :=
  (disk.files.lookup place.path).isSome

/-- Whether a text is short enough for a path, and has no character that ends one. -/
def isPath (text : String) : Bool :=
  text.utf8ByteSize < 4096 && text.toList.all (· ≠ '\x00')

/-- Whether a segment of a path is short enough. -/
def isSegment (segment : String) : Bool :=
  segment.utf8ByteSize < 256

/-- The segments of a path. -/
def segments (path : String) : List String :=
  (path.toList.splitOn '/').map String.ofList

/-- The place where a path starts. -/
def origin (path : String) : Location :=
  if path.startsWith "/" then [""] else []

/-- Goes along the segments of a path. Each step has to start in a directory. -/
def follow? (disk : Disk) (place : Location) : List String → Option Location
  | [] => some place
  | segment :: rest =>
    if disk.isFolder place ∧ isSegment segment then follow? disk (place.step segment) rest
    else none

/-- The place of a path, where a directory or a file may be, or one may be made. -/
def locate? (disk : Disk) (path : String) : Option Location :=
  if path ≠ "" ∧ isPath path then disk.follow? (origin path) (segments path) else none

/-- The text of the file at a path. -/
def read? (disk : Disk) (path : String) : Option String :=
  (disk.locate? path).bind fun place => disk.files.lookup place.path

/-- Whether a file or a directory is at a path. -/
def has (disk : Disk) (path : String) : Bool :=
  (disk.locate? path).any fun place => disk.isFolder place || disk.isFile place

/-- Writes a file in a directory that exists. -/
def write? (disk : Disk) (path text : String) : Option Disk :=
  match disk.locate? path with
  | some place =>
    if disk.isFolder place then none
    else some { disk with files := Entries.putSorted disk.files place.path text }
  | none => none

/-- Goes along the segments of a path from a directory, and makes the directories that are missing.
Tells whether it came to the end; what it made stays. -/
def makeAlong (place : Location) : List String → StateM Disk Bool
  | [], disk => (true, disk)
  | segment :: rest, disk =>
    let next := place.step segment
    if disk.isFolder next then makeAlong next rest disk
    else if disk.isFile next ∨ !isSegment segment then (false, disk)
    else makeAlong next rest { disk with folders := next.path :: disk.folders }

/-- Makes the directory at a path and those around it, and tells whether that was possible. -/
def makeFolder (path : String) : StateM Disk Bool := fun disk =>
  if isPath path then makeAlong (origin path) (segments path) disk else (false, disk)

/-- The path of the directory in which the last name of a path lies. Empty segments and dots behind
a name do not count. -/
def around (path : String) : String :=
  let named := (segments path).reverse.dropWhile fun s => s = "" ∨ s = "."
  "/".intercalate (named.tail.dropWhile fun s => s = "" ∨ s = ".").reverse

/-- Writes a file after making the directories around it, and tells whether that was possible. -/
def writeDeep (path text : String) : StateM Disk Bool := fun disk =>
  match makeFolder (around path) disk with
  | (false, disk) => (false, disk)
  | (true, disk) =>
    match disk.write? path text with
    | some disk => (true, disk)
    | none => (false, disk)

/-- The tree with the given files and the directories in which they lie. -/
def ofList (files : List (String × String)) : Disk :=
  files.foldl (fun disk (path, text) => (writeDeep path text disk).2) {}

end Disk

end Questlog
