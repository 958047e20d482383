import Questlog.Checklist.Section
import Questlog.Progress.Basic

namespace Questlog

namespace Checklist

/-- The line that ends a section. -/
def sectionRule : String :=
  "--------------------------------------\n"

/-- The box of an entry, ticked where its key is completed. -/
def box (progress : Progress) (key : String) : String :=
  if progress.isCompleted key then "[x]" else "[ ]"

/-- The lines of an item that stands at `place` under the key `outer`. -/
def itemLines (progress : Progress) (outer : String) (place : Nat) (item : Item) : List String :=
  let key := item.keyUnder outer
  match item.variants? with
  | some variants =>
    s!" {place}. {item.title}" ::
      variants.map (fun variant =>
        s!"   - {box progress (variant.keyUnder key)} {variant.title}") ++ [""]
  | none => [s!" {place}. {box progress key} {item.title}"]

/-- The lines of items under the key `outer`, the first of which stands at `place`. -/
def itemsLines (progress : Progress) (outer : String) (place : Nat) : List Item → List String
  | [] => [""]
  | item :: rest =>
    itemLines progress outer place item ++ itemsLines progress outer (place + 1) rest

/-- A heading of a level. -/
def headingLine (level : Nat) (title : String) : String :=
  String.ofList (List.replicate level '#') ++ " " ++ title ++ "\n"

mutual

/-- The lines of what a section under `key` holds; its groups have headings of `level`. -/
def bodyLines (progress : Progress) (level : Nat) (key : String) : Section → List String
  | .bare _ => []
  | .items _ list => itemsLines progress key 1 list
  | .groups _ list => groupsLines progress level key list

/-- The lines of groups, each with a heading in front of what it holds. -/
def groupsLines (progress : Progress) (level : Nat) (key : String) :
    List (String × Section) → List String
  | [] => []
  | (name, group) :: rest =>
    headingLine level group.heading.title ::
      bodyLines progress (level + 1) (Key.join [key, name]) group ++
      groupsLines progress level key rest

end

/-- The lines of a page. Each section and group has a heading, each item a numbered line, and each
entry a box to tick. -/
def pageLines (checklist : Checklist) (progress : Progress) (title : String) : List String :=
  headingLine 1 title :: checklist.sections.flatMap fun (key, sect) =>
    headingLine 2 sect.heading.title :: bodyLines progress 3 key sect ++ [sectionRule]

/-- The page of a checklist, unless that has no sections. -/
def markdown? (checklist : Checklist) (progress : Progress) (title : String) : Option String :=
  if checklist.sections.isEmpty then none
  else some ("\n".intercalate (checklist.pageLines progress title))

end Checklist

end Questlog
