import Questlog.Values

namespace Questlog

/-- Progress in one scope. `foreign` holds the entries of its file that belong to other scopes. The
completed keys stand in the order in which they were marked. -/
structure Progress where
  scope : String
  completed : List String := []
  gameMode : Int64 := 0
  lastRegion : Int64 := 0
  foreign : List (String × Json) := []

namespace Progress

/-- Whether a key is among the completed ones. -/
def isCompleted (progress : Progress) (key : String) : Bool :=
  progress.completed.contains key

/-- Marks a key as completed, at the end of the list. -/
def mark (progress : Progress) (key : String) : Progress :=
  if progress.isCompleted key then progress
  else { progress with completed := progress.completed ++ [key] }

/-- Takes the mark off a key. -/
def unmark (progress : Progress) (key : String) : Progress :=
  { progress with completed := progress.completed.erase key }

/-- Marks a key or takes its mark off, and tells whether that changed anything. -/
def setCompleted (progress : Progress) (key : String) (completed : Bool) : Bool × Progress :=
  (progress.isCompleted key != completed,
    if completed then progress.mark key else progress.unmark key)

/-- Marks keys one after the other. -/
def markAll (progress : Progress) (keys : List String) : Progress :=
  keys.foldl mark progress

/-- Completes exactly the given keys. -/
def replaceCompleted (progress : Progress) (keys : List String) : Progress :=
  markAll { progress with completed := [] } keys

/-- Sets the numbers of the progression that are given. -/
def setProgression (progress : Progress) (gameMode region : Option Int64) : Progress :=
  { progress with
    gameMode := gameMode.getD progress.gameMode
    lastRegion := region.getD progress.lastRegion }

/-- The number of completed keys that start with a text. -/
def completedUnder (progress : Progress) (start : String) : Nat :=
  progress.completed.countP fun key => start.toList.isPrefixOf key.toList

/-- The fields that conditions read. -/
def values (progress : Progress) : Values :=
  .ofMembers [("gameMode", .ofInt progress.gameMode.toInt),
    ("region", .ofInt progress.lastRegion.toInt)]

end Progress

end Questlog
