import Questlog.Checklist.Section
import Questlog.Condition.Gate
import Questlog.Progress.Basic

namespace Questlog

/-- An entry to be checked off, with its key and the condition nearest to it. -/
structure Leaf where
  key : String
  title : String
  code : Bool
  condition : Option Json

/-- The state of an entry. -/
structure Status where
  key : String
  title : String
  completed : Bool
  locked : Bool
  code : Bool

/-- The state of a section in the outline. -/
structure SectionStatus where
  key : String
  title : String
  locked : Bool

namespace Item

/-- The entries of an item under the key `outer`: the item itself, or its variants. -/
def leaves (outer : String) (inherited : Option Json) (item : Item) : List Leaf :=
  let condition := item.condition? <|> inherited
  let key := item.keyUnder outer
  match item.variants? with
  | some variants => variants.map fun variant =>
      { key := variant.keyUnder key
        title := variant.title
        code := variant.isCode
        condition := variant.condition? <|> condition }
  | none => [{ key, title := item.displayTitle, code := item.isCode, condition }]

end Item

namespace Section

mutual

/-- The entries of a section whose key is `key`. -/
def leaves (key : String) (inherited : Option Json) : Section → List Leaf
  | bare _ => []
  | items heading list => list.flatMap (Item.leaves key (heading.condition <|> inherited))
  | groups heading list => groupLeaves key (heading.condition <|> inherited) list

/-- The entries of groups, each under the key of its group. -/
def groupLeaves (key : String) (inherited : Option Json) : List (String × Section) → List Leaf
  | [] => []
  | (name, group) :: rest =>
    leaves (Key.join [key, name]) inherited group ++ groupLeaves key inherited rest

end

/-- The condition that decides about the group to which a path of names leads. A name that leads
nowhere ends the path. -/
def conditionAlong (inherited : Option Json) (sect : Section) : List String → Option Json
  | [] => sect.heading.condition <|> inherited
  | name :: rest =>
    let condition := sect.heading.condition <|> inherited
    match sect.groups?.bind (·.lookup name) with
    | some group => conditionAlong condition group rest
    | none => condition

end Section

namespace Checklist

/-- The entries of a checklist, in order. The condition nearest to an entry decides: that of the
variant, of the item, then of the sections around it, from the innermost to the outermost. -/
def leaves (checklist : Checklist) : List Leaf :=
  checklist.sections.flatMap fun (key, sect) => sect.leaves key none

/-- Whether a gate locks what a condition guards. -/
def isLocked (condition : Option Json) (progress : Progress) : StateM Gate Bool :=
  return !(← Gate.isUnlocked condition progress.values)

/-- The state of an entry. -/
def status (progress : Progress) (leaf : Leaf) : StateM Gate Status :=
  return {
    key := leaf.key
    title := leaf.title
    completed := progress.isCompleted leaf.key
    locked := ← isLocked leaf.condition progress
    code := leaf.code }

/-- The states of all entries, in order. -/
def statuses (checklist : Checklist) (progress : Progress) : StateM Gate (List Status) :=
  checklist.leaves.mapM (status progress)

/-- The condition that decides about the section at a path, if its first segment names one. -/
def conditionAt? (checklist : Checklist) (path : String) : Option (Option Json) :=
  match Key.split path with
  | [] => none
  | key :: rest => (checklist.sections.lookup key).map fun sect => sect.conditionAlong none rest

/-- Whether the section at a path is locked. A path that leads to none is not. -/
def isSectionLocked (checklist : Checklist) (path : String) (progress : Progress) :
    StateM Gate Bool :=
  match checklist.conditionAt? path with
  | some condition => isLocked condition progress
  | none => return false

/-- The state of a section at a path. -/
def sectionStatus (checklist : Checklist) (progress : Progress) (path title : String) :
    StateM Gate SectionStatus :=
  return { key := path, title, locked := ← checklist.isSectionLocked path progress }

/-- The paths and titles of the sections, each followed by its groups. -/
def outlinePaths (checklist : Checklist) : List (String × String) :=
  checklist.sections.flatMap fun (key, sect) =>
    (key, sect.heading.title) :: (sect.groups?.getD []).map fun (name, group) =>
      (Key.join [key, name], group.heading.title)

/-- The states of the sections, each followed by those of its groups. -/
def outline (checklist : Checklist) (progress : Progress) : StateM Gate (List SectionStatus) :=
  checklist.outlinePaths.mapM fun (path, title) => checklist.sectionStatus progress path title

end Checklist

end Questlog
