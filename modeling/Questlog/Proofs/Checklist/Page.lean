import Mathlib
import Questlog.Checklist.Markdown
import Questlog.Proofs.Checklist.Statuses

namespace Questlog

/-- A line of a page, by what it is written for. Besides headings, blank lines and rules there are
the lines of the items, which come in document order. -/
inductive Line where
  | heading (level : Nat) (title : String)
  | blank
  | rule
  /-- an item with variants, which follow it -/
  | group (number : Nat) (title : String)
  /-- an item without variants, with its box -/
  | item (number : Nat) (key title : String)
  /-- a variant, with its box -/
  | variant (key title : String)

namespace Line

/-- The text of a line. -/
def text (progress : Progress) : Line → String
  | heading level title => Checklist.headingLine level title
  | blank => ""
  | rule => Checklist.sectionRule
  | group number title => s!" {number}. {title}"
  | item number key title => s!" {number}. {Checklist.box progress key} {title}"
  | variant key title => s!"   - {Checklist.box progress key} {title}"

/-- Whether a line is one of an item. -/
def isOfItem : Line → Bool
  | heading .. | blank | rule => false
  | group .. | item .. | variant .. => true

/-- The key for which the box of a line is ticked, and the title behind the box. -/
def box? : Line → Option (String × String)
  | item _ key title => some (key, title)
  | variant key title => some (key, title)
  | heading .. | blank | rule | group .. => none

theorem box?_eq_none {line : Line} (h : line.isOfItem = false) : line.box? = none := by
  cases line with
  | heading | blank | rule => rfl
  | group | item | variant => cases h

end Line

namespace Place

/-- The segments on the way to an item, from the outermost section to the item. -/
def segments (place : Place) : List String :=
  place.around.map (·.1) ++ [place.item.segment]

/-- The number of an item in its list, counted from one. -/
def number (place : Place) : Nat :=
  place.address.getLast?.getD 0 + 1

/-- The lines of an item below what has the segments `outer`: one line with a box, or one without a
box and then one with a box for each variant. -/
def linesUnder (outer : List String) (place : Place) : List Line :=
  match place.item.variants? with
  | none => [.item place.number (Key.join (outer ++ place.segments)) place.item.title]
  | some variants => .group place.number place.item.title :: variants.map fun variant =>
      .variant (Key.join (outer ++ place.segments ++ [variant.segment])) variant.title

/-- The lines of an item of a checklist. -/
def lines (place : Place) : List Line :=
  place.linesUnder []

/-- The lines of a place do not depend on how much of its path is counted as outer. -/
theorem linesUnder_within {place : Place} (h : place.address ≠ []) (outer : List String) (i : Nat)
    (named : String × Section) :
    (place.within i named).linesUnder outer = place.linesUnder (outer ++ [named.1]) := by
  have hsegments : (place.within i named).segments = named.1 :: place.segments := rfl
  have hnumber : (place.within i named).number = place.number := by
    obtain ⟨j, rest, hrest⟩ := List.exists_cons_of_ne_nil h
    rw [number, number, within, hrest, List.getLast?_cons_cons]
  have hitem : (place.within i named).item = place.item := rfl
  simp only [linesUnder, hsegments, hnumber, hitem, List.append_assoc, List.cons_append,
    List.nil_append]

/-- Only the path of the outer segments matters. -/
theorem linesUnder_join (outer : List String) (place : Place) :
    place.linesUnder [Key.join outer] = place.linesUnder outer := by
  simp only [linesUnder, List.append_assoc, List.cons_append, List.nil_append, Key.join_cons_join]

/-- The boxes of an item are those of its entries. -/
theorem boxes_lines (place : Place) :
    place.lines.filterMap Line.box? =
      place.spots.map fun spot => (Key.join spot.segments, spot.entry.title) := by
  unfold lines linesUnder spots
  cases place.item.variants? with
  | none => rfl
  | some variants =>
    have hbox : ∀ variants : List Item, (variants.map fun variant =>
        Line.variant (Key.join ([] ++ place.segments ++ [variant.segment])) variant.title).filterMap
          Line.box? = variants.map fun variant =>
            (Key.join (place.segments ++ [variant.segment]), variant.title) := by
      intro variants
      rw [List.filterMap_map]
      exact congrFun List.filterMap_eq_map variants
    have hsegments : ∀ (variant : Item) (j : Nat), Spot.segments
        ⟨{ place with address := place.address ++ [j] }, some variant⟩ =
          place.segments ++ [variant.segment] := by
      intro variant j
      simp [Spot.segments, segments]
    simp only [List.filterMap_cons, Line.box?, List.map_map]
    rw [hbox]
    conv_lhs => rw [← List.zipIdx_map_fst 0 variants, List.map_map]
    apply List.map_congr_left
    intro numbered _
    rw [Function.comp_apply, Function.comp_apply, hsegments]
    rfl

end Place

/-- `Lays progress texts lines`: these are the texts of the lines of a page, and the lines of items
among them are the given ones. -/
def Lays (progress : Progress) (texts : List String) (lines : List Line) : Prop :=
  ∃ all : List Line, texts = all.map (Line.text progress) ∧ all.filter Line.isOfItem = lines

namespace Lays

variable {progress : Progress} {texts texts' : List String} {lines lines' : List Line}

theorem nil : Lays progress [] [] :=
  ⟨[], rfl, rfl⟩

/-- A line that is none of an item. -/
theorem other {line : Line} (h : line.isOfItem = false) :
    Lays progress [line.text progress] [] := by
  refine ⟨[line], rfl, ?_⟩
  rw [List.filter_cons_of_neg (by simp [h])]
  rfl

/-- All boxes are in the lines of items. -/
theorem boxes {all : List Line} (h : all.filter Line.isOfItem = lines) :
    all.filterMap Line.box? = lines.filterMap Line.box? := by
  rw [← h, List.filterMap_filter]
  apply List.filterMap_congr
  intro line _
  cases hline : line.isOfItem with
  | true => rfl
  | false => exact Line.box?_eq_none hline

/-- What is laid out part by part is laid out as a whole. -/
theorem append (h : Lays progress texts lines) (h' : Lays progress texts' lines') :
    Lays progress (texts ++ texts') (lines ++ lines') := by
  obtain ⟨all, rfl, rfl⟩ := h
  obtain ⟨all', rfl, rfl⟩ := h'
  exact ⟨all ++ all', List.map_append.symm, List.filter_append all all'⟩

end Lays

namespace Checklist

variable (progress : Progress)

/-- The lines of an item that stands directly in a section. -/
theorem lays_itemLines (outer : String) (i : Nat) (item : Item) :
    Lays progress (itemLines progress outer (i + 1) item)
      (Place.linesUnder [outer] ⟨[i], [], item⟩) := by
  have hkey : ∀ variant : Item, variant.keyUnder (item.keyUnder outer) =
      Key.join ([outer] ++ [item.segment] ++ [variant.segment]) :=
    fun variant => Key.join_cons_join [outer, item.segment] [variant.segment]
  unfold itemLines Place.linesUnder
  cases item.variants? with
  | none => exact ⟨[.item (i + 1) (item.keyUnder outer) item.title], rfl, rfl⟩
  | some variants =>
    refine ⟨.group (i + 1) item.title :: (variants.map fun variant =>
      .variant (variant.keyUnder (item.keyUnder outer)) variant.title) ++ [.blank], ?_, ?_⟩
    · rw [List.map_append, List.map_cons, List.map_map]
      rfl
    · have hall : ∀ line ∈ variants.map (fun variant =>
          Line.variant (variant.keyUnder (item.keyUnder outer)) variant.title),
          line.isOfItem = true := by
        intro line hline
        obtain ⟨variant, _, rfl⟩ := List.mem_map.mp hline
        rfl
      rw [List.filter_append, List.filter_cons_of_pos rfl, List.filter_eq_self.mpr hall]
      simp only [hkey]
      exact List.append_nil _

/-- The items of a section come one after the other, numbered from one. -/
theorem lays_itemsLines (outer : String) (first : Nat) (list : List Item) :
    Lays progress (itemsLines progress outer (first + 1) list)
      (((list.zipIdx first).map fun numbered => (⟨[numbered.2], [], numbered.1⟩ : Place)).flatMap
        (Place.linesUnder [outer])) := by
  induction list generalizing first with
  | nil => exact .other (show Line.blank.isOfItem = false from rfl)
  | cons item list ih =>
    rw [itemsLines, List.zipIdx_cons, List.map_cons, List.flatMap_cons]
    exact (lays_itemLines progress outer first item).append (ih (first + 1))

/-- From outside of a group the lines of its items are the same, under the path that its name
continues. -/
theorem flatMap_linesUnder (key name : String) (i : Nat) (group : Section) :
    (group.places.map (Place.within i (name, group))).flatMap (Place.linesUnder [key]) =
      group.places.flatMap (Place.linesUnder [Key.join [key, name]]) := by
  rw [List.flatMap_map]
  apply List.flatMap_congr
  intro place hplace
  have haddress := ((Section.mem_places group).mp hplace).address_ne_nil
  rw [Place.linesUnder_within haddress, Place.linesUnder_join]
  rfl

mutual

/-- The body of a section lays out its places; together with the next lemma, by the recursion over
sections. -/
theorem lays_bodyLines (level : Nat) (key : String) : ∀ sect : Section,
    Lays progress (bodyLines progress level key sect)
      (sect.places.flatMap (Place.linesUnder [key]))
  | .bare _ => .nil
  | .items _ list => by
    rw [bodyLines, Section.places]
    exact lays_itemsLines progress key 0 list
  | .groups _ list => by
    rw [bodyLines, Section.places]
    exact lays_groupsLines level key 0 list

theorem lays_groupsLines (level : Nat) (key : String) (first : Nat) :
    ∀ list : List (String × Section), Lays progress (groupsLines progress level key list)
      ((Section.groupPlaces first list).flatMap (Place.linesUnder [key]))
  | [] => .nil
  | (name, group) :: rest => by
    have hheading : Lays progress [headingLine level group.heading.title] [] :=
      .other (show (Line.heading level group.heading.title).isOfItem = false from rfl)
    have hgroup := lays_bodyLines (level + 1) (Key.join [key, name]) group
    have hrest := lays_groupsLines level key (first + 1) rest
    rw [groupsLines, Section.groupPlaces, List.flatMap_append, flatMap_linesUnder]
    exact (hheading.append hgroup).append hrest

end

/-- The lines of a page are those of its items, in document order, with headings, blank lines and
rules around them. -/
theorem lays_pageLines (checklist : Checklist) (title : String) :
    Lays progress (checklist.pageLines progress title) (checklist.places.flatMap Place.lines) := by
  have hsections : ∀ (first : Nat) (list : List (String × Section)),
      Lays progress (list.flatMap fun named => headingLine 2 named.2.heading.title ::
          bodyLines progress 3 named.1 named.2 ++ [sectionRule])
        ((Section.groupPlaces first list).flatMap Place.lines) := by
    intro first list
    induction list generalizing first with
    | nil => exact .nil
    | cons named list ih =>
      have hheading : Lays progress [headingLine 2 named.2.heading.title] [] :=
        .other (show (Line.heading 2 named.2.heading.title).isOfItem = false from rfl)
      have hbody := lays_bodyLines progress 3 named.1 named.2
      have hrule : Lays progress [sectionRule] [] := .other (show Line.rule.isOfItem = false from rfl)
      have houter : (named.2.places.map (Place.within first named)).flatMap Place.lines =
          named.2.places.flatMap (Place.linesUnder [named.1]) := by
        rw [List.flatMap_map]
        apply List.flatMap_congr
        intro place hplace
        have haddress := ((Section.mem_places named.2).mp hplace).address_ne_nil
        exact Place.linesUnder_within haddress [] first named
      rw [List.flatMap_cons, Section.groupPlaces, List.flatMap_append, houter]
      have hsection := (hheading.append hbody).append hrule
      rw [List.append_nil, List.nil_append] at hsection
      exact hsection.append (ih (first + 1))
  have htitle : Lays progress [headingLine 1 title] [] :=
    .other (show (Line.heading 1 title).isOfItem = false from rfl)
  exact htitle.append (hsections 0 checklist.sections)

end Checklist

namespace Session

variable {ι : Type} [DecidableEq ι]

/-- The page of a checklist that is not empty, line by line: the lines of its items come in document
order, an item with variants has a line without a box, and there are as many boxes as states. The `k`-th box
is for the key of the `k`-th state, ticked if that is completed, and stands in front of the title of
the `k`-th entry. -/
theorem Run.boxes_match_statuses {settings : GateSettings} {session : Session ι}
    {history : List (GateCall × GateReply)} (h : Run settings session history)
    {checklist : Checklist} (hne : checklist.sections ≠ []) (progress : Progress)
    (title : String) :
    let statuses := (checklist.statuses progress session.gate).1
    ∃ lines : List Line,
      checklist.pageLines progress title = lines.map (Line.text progress) ∧
      checklist.markdown? progress title =
        some ("\n".intercalate (lines.map (Line.text progress))) ∧
      lines.filter Line.isOfItem = checklist.places.flatMap Place.lines ∧
      (lines.filterMap Line.box?).length = statuses.length ∧
      ∀ (k : Nat) (spot : Spot) (status : Status), checklist.spots[k]? = some spot →
        statuses[k]? = some status →
        (lines.filterMap Line.box?)[k]? = some (status.key, spot.entry.title) ∧
          Checklist.box progress status.key = if status.completed then "[x]" else "[ ]" := by
  intro statuses
  obtain ⟨lines, htexts, hitems⟩ := Checklist.lays_pageLines progress checklist title
  have hshow := Checklist.statuses_show h.gate_sound checklist progress
  have hboxes : lines.filterMap Line.box? =
      checklist.spots.map fun spot => (Key.join spot.segments, spot.entry.title) := by
    rw [Lays.boxes hitems, List.filterMap_flatMap, Checklist.spots, List.map_flatMap]
    simp only [Place.boxes_lines]
  refine ⟨lines, htexts, ?_, hitems, ?_, ?_⟩
  · rw [Checklist.markdown?, if_neg (by simpa using hne), htexts]
  · rw [hboxes, List.length_map]
    exact hshow.length_eq
  · intro k spot status hspot hstatus
    have hshown := Checklist.shows_of_getElem? h.gate_sound hspot hstatus
    constructor
    · rw [hboxes, List.getElem?_map, hspot, hshown.key]
      rfl
    · have hcompleted : progress.isCompleted status.key = status.completed := by
        rw [Bool.eq_iff_iff, hshown.completed, ← hshown.key]
        exact List.contains_iff_mem
      rw [Checklist.box, hcompleted]

/-- In a group: an item with a serial number, which its box does not show, and a completed variant of
an item without a box. -/
theorem Run.boxes_match_statuses_in_group :
    let checklist : Checklist := { sections := [("cans", .groups {} [("red", .items {}
      [.entry { name := some "Blue", serial := some (.string "7") } none,
        .entry { name := some "Set" } (some [.label "Small"])])])] }
    let progress : Progress := { scope := "ns", completed := ["cans/red/set/small"] }
    let statuses := (checklist.statuses progress (Gate.new {})).1
    checklist.sections ≠ [] ∧ statuses.map (·.title) = ["Blue (No. 7)", "Small"] ∧
      ∃ lines : List Line,
        checklist.markdown? progress "Cans" =
          some ("\n".intercalate (lines.map (Line.text progress))) ∧
        (lines.filterMap Line.box?).length = 2 ∧
        (lines.filterMap Line.box?)[0]? = some ("cans/red/blue", "Blue") ∧
        Checklist.box progress "cans/red/blue" = "[ ]" ∧
        (lines.filterMap Line.box?)[1]? = some ("cans/red/set/small", "Small") ∧
        Checklist.box progress "cans/red/set/small" = "[x]" := by
  intro checklist progress statuses
  have hne : checklist.sections ≠ [] := List.cons_ne_nil _ _
  have hstatuses : statuses =
      [⟨"cans/red/blue", "Blue (No. 7)", false, false, false⟩,
        ⟨"cans/red/set/small", "Small", true, false, false⟩] := by cbv
  have unused : Run {} (⟨Gate.new {}, fun _ => none⟩ : Session Unit) [] := .start
  obtain ⟨lines, -, htext, -, hlength, hboxes⟩ := unused.boxes_match_statuses hne progress "Cans"
  have hitem := hboxes 0 _ _ rfl (congrArg (·[0]?) hstatuses)
  have hvariant := hboxes 1 _ _ rfl (congrArg (·[1]?) hstatuses)
  have htitles := congrArg (List.map (·.title)) hstatuses
  exact ⟨hne, htitles, lines, htext, hlength.trans (congrArg List.length hstatuses), hitem.1, hitem.2,
    hvariant.1, hvariant.2⟩

end Session

end Questlog
