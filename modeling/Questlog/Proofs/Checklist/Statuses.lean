import Mathlib
import Questlog.Checklist.Status
import Questlog.Proofs.Checklist.Key
import Questlog.Proofs.Checklist.Place
import Questlog.Proofs.Condition.Session
import Questlog.Proofs.Condition.Verdict

namespace Questlog

namespace Spot

/-- What is checked off: the variant, or the item where it has none. -/
def entry (spot : Spot) : Item :=
  spot.variant.getD spot.item

/-- The title of an entry in the list of states. The serial number of an item is part of it. -/
def shownTitle (spot : Spot) : String :=
  match spot.variant with
  | some variant => variant.title
  | none => spot.item.displayTitle

/-- The segments on the way to an entry, from the outermost section to the entry itself. -/
def segments (spot : Spot) : List String :=
  spot.around.map (·.1) ++ spot.item.segment :: (spot.variant.map Item.segment).toList

/-- What guards an entry, the nearest first: the variant, the item, then the sections from the
innermost to the outermost. -/
def guards (spot : Spot) : List (Option Json) :=
  spot.variant.bind Item.condition? :: spot.item.condition? ::
    spot.around.reverse.map (·.2.heading.condition)

/-- The nearest condition over an entry. -/
def condition? (spot : Spot) : Option Json :=
  spot.guards.findSome? id

/-- The entry as the walk finds it below a section with the key `outer`, where the condition
`inherited` is the nearest one so far. -/
def leafUnder (outer : String) (inherited : Option Json) (spot : Spot) : Leaf :=
  { key := Key.join (outer :: spot.segments)
    title := spot.shownTitle
    code := spot.entry.isCode
    condition := spot.condition?.or inherited }

/-- The same entry seen from outside of the `i`-th section. -/
def within (i : Nat) (named : String × Section) (spot : Spot) : Spot :=
  { spot with toPlace := spot.toPlace.within i named }

/-- The condition of a section counts for the entries below that have none nearer. -/
theorem condition?_within (i : Nat) (named : String × Section) (spot : Spot) :
    (spot.within i named).condition? = spot.condition?.or named.2.heading.condition := by
  have hguards : (spot.within i named).guards = spot.guards ++ [named.2.heading.condition] := by
    simp [guards, within, Place.within]
  rw [condition?, hguards, List.findSome?_append, List.findSome?_singleton]
  rfl

/-- From outside of a group its name joins the segments, and its condition stands behind all
others. -/
theorem leafUnder_within (outer : String) (inherited : Option Json) (i : Nat)
    (named : String × Section) (spot : Spot) :
    (spot.within i named).leafUnder outer inherited =
      spot.leafUnder (Key.join [outer, named.1]) (named.2.heading.condition.or inherited) := by
  have hsegments : (spot.within i named).segments = named.1 :: spot.segments := rfl
  have hkey := Key.join_cons_join [outer, named.1] spot.segments
  rw [leafUnder, leafUnder, hsegments, condition?_within, Option.or_assoc, hkey]
  rfl

end Spot

/-- The entries of an item are handed up with their item. -/
theorem Place.spots_within (i : Nat) (named : String × Section) (place : Place) :
    (place.within i named).spots = place.spots.map (Spot.within i named) := by
  unfold spots
  simp only [Place.within]
  cases place.item.variants? with
  | none => rfl
  | some variants =>
    simp only [List.map_map]
    rfl

namespace Section

theorem spots_within (i : Nat) (named : String × Section) (places : List Place) :
    (places.map (Place.within i named)).flatMap Place.spots =
      (places.flatMap Place.spots).map (Spot.within i named) := by
  rw [List.flatMap_map, List.map_flatMap]
  simp only [Place.spots_within]

end Section

/-- Below an item the walk finds its entries. -/
theorem Item.leaves_eq (outer : String) (inherited : Option Json) (address : List Nat)
    (item : Item) :
    item.leaves outer inherited =
      (Place.spots ⟨address, [], item⟩).map (Spot.leafUnder outer inherited) := by
  unfold Item.leaves Place.spots
  simp only [Option.orElse_eq_orElse, Option.orElse_eq_or]
  cases item.variants? with
  | none =>
    have hcondition : Spot.condition? ⟨⟨address, [], item⟩, none⟩ = item.condition? := by
      simp [Spot.condition?, Spot.guards, List.findSome?_cons]
      cases item.condition? <;> rfl
    simp only [List.map_cons, List.map_nil, Spot.leafUnder, hcondition]
    rfl
  | some variants =>
    have hentry : ∀ (variant : Item) (j : Nat),
        (⟨variant.keyUnder (item.keyUnder outer), variant.title, variant.isCode,
          variant.condition?.or (item.condition?.or inherited)⟩ : Leaf) =
        Spot.leafUnder outer inherited ⟨⟨address ++ [j], [], item⟩, some variant⟩ := by
      intro variant j
      have hkey : variant.keyUnder (item.keyUnder outer) =
          Key.join (outer :: item.segment :: [variant.segment]) :=
        Key.join_cons_join [outer, item.segment] [variant.segment]
      have hcondition : Spot.condition? ⟨⟨address ++ [j], [], item⟩, some variant⟩ =
          variant.condition?.or item.condition? := by
        cases hvariant : variant.condition? <;> cases hitem : item.condition? <;>
          simp [Spot.condition?, Spot.guards, hvariant, hitem]
      rw [Spot.leafUnder, hkey, hcondition, Option.or_assoc]
      rfl
    simp only [List.map_map]
    conv_lhs => rw [← List.zipIdx_map_fst 0 variants, List.map_map]
    apply List.map_congr_left
    intro numbered _
    exact hentry numbered.1 numbered.2

namespace Section

/-- The entries of a list of items, item by item. -/
theorem flatMap_leaves (outer : String) (inherited : Option Json) (first : Nat)
    (list : List Item) :
    list.flatMap (Item.leaves outer inherited) =
      (((list.zipIdx first).map fun numbered => (⟨[numbered.2], [], numbered.1⟩ : Place)).flatMap
        Place.spots).map (Spot.leafUnder outer inherited) := by
  induction list generalizing first with
  | nil => rfl
  | cons item list ih =>
    rw [List.flatMap_cons, ih (first + 1), Item.leaves_eq outer inherited [first] item,
      List.zipIdx_cons, List.map_cons, List.flatMap_cons, List.map_append]

mutual

/-- Below a section the walk finds its entries, at any depth. -/
theorem leaves_eq (key : String) (inherited : Option Json) : ∀ sect : Section,
    sect.leaves key inherited = (sect.places.flatMap Place.spots).map
      (Spot.leafUnder key (sect.heading.condition.or inherited))
  | bare _ => rfl
  | items heading list => by
    rw [leaves, places, Option.orElse_eq_orElse, Option.orElse_eq_or]
    exact flatMap_leaves key _ 0 list
  | groups heading list => by
    rw [leaves, places, Option.orElse_eq_orElse, Option.orElse_eq_or]
    exact groupLeaves_eq key _ 0 list

/-- The entries of groups, with the key and the condition handed on from each section to the
next. -/
theorem groupLeaves_eq (key : String) (inherited : Option Json) (first : Nat) :
    ∀ list : List (String × Section), groupLeaves key inherited list =
      ((groupPlaces first list).flatMap Place.spots).map (Spot.leafUnder key inherited)
  | [] => rfl
  | (name, group) :: rest => by
    have hunder : Spot.leafUnder key inherited ∘ Spot.within first (name, group) =
        Spot.leafUnder (Key.join [key, name]) (group.heading.condition.or inherited) :=
      funext fun spot => Spot.leafUnder_within key inherited first (name, group) spot
    rw [groupLeaves, groupPlaces, leaves_eq (Key.join [key, name]) inherited group,
      groupLeaves_eq key inherited (first + 1) rest, List.flatMap_append, List.map_append,
      spots_within, List.map_map, hunder]

end

end Section

namespace Spot

/-- The entry as the walk finds it in the whole checklist. -/
def leaf (spot : Spot) : Leaf :=
  { key := Key.join spot.segments
    title := spot.shownTitle
    code := spot.entry.isCode
    condition := spot.condition? }

/-- `spot.Shows anyWildcard progress status`: what is reported of an entry. Its key is the path of
its segments, of which the empty ones are left out; it is locked if the nearest condition over it
is not met. -/
structure Shows (anyWildcard : Bool) (progress : Progress) (spot : Spot) (status : Status) :
    Prop where
  key : status.key = Key.join spot.segments
  title : status.title = spot.shownTitle
  completed : status.completed = true ↔ Key.join spot.segments ∈ progress.completed
  locked : status.locked = true ↔ ∃ condition, spot.condition? = some condition ∧
    condition.isMet anyWildcard progress.values = false
  code : status.code = spot.entry.isCode

end Spot

/-- The state that a sound gate reports of an entry. -/
def Leaf.status (anyWildcard : Bool) (progress : Progress) (leaf : Leaf) : Status :=
  { key := leaf.key
    title := leaf.title
    completed := progress.isCompleted leaf.key
    locked := !leaf.condition.all (·.isMet anyWildcard progress.values)
    code := leaf.code }

/-- The state of an entry shows its key, its tick and its lock. -/
theorem Spot.shows_status (anyWildcard : Bool) (progress : Progress) (spot : Spot) :
    spot.Shows anyWildcard progress (spot.leaf.status anyWildcard progress) := by
  refine ⟨rfl, rfl, ?_, ?_, rfl⟩
  · exact List.contains_iff_mem
  · simp only [Leaf.status, Spot.leaf]
    cases spot.condition? <;> simp

namespace Checklist

variable {gate : Gate} {anyWildcard : Bool}

/-- The walk over a checklist finds its entries. -/
theorem leaves_eq (checklist : Checklist) :
    checklist.leaves = checklist.spots.map Spot.leaf := by
  have hwalk : ∀ (first : Nat) (list : List (String × Section)),
      (list.flatMap fun named => named.2.leaves named.1 none) =
        ((Section.groupPlaces first list).flatMap Place.spots).map Spot.leaf := by
    intro first list
    induction list generalizing first with
    | nil => rfl
    | cons named list ih =>
      have hleaf : Spot.leaf ∘ Spot.within first named =
          Spot.leafUnder named.1 (named.2.heading.condition.or none) := by
        funext spot
        rw [Function.comp_apply, Spot.leaf, Spot.condition?_within, Spot.leafUnder, Option.or_none]
        rfl
      rw [List.flatMap_cons, ih (first + 1), Section.leaves_eq, Section.groupPlaces,
        List.flatMap_append, List.map_append, Section.spots_within, List.map_map, hleaf]
  exact hwalk 0 checklist.sections

/-- A lock is decided by the condition and the values alone, whatever the gate has seen before. -/
theorem isLocked_eq (h : gate.Sound anyWildcard) (condition : Option Json) (progress : Progress) :
    (isLocked condition progress gate).1 =
        !condition.all (·.isMet anyWildcard progress.values) ∧
      (isLocked condition progress gate).2.Sound anyWildcard := by
  obtain ⟨hanswer, hnext⟩ := h.isUnlocked condition progress.values
  exact ⟨congrArg (!·) hanswer, hnext⟩

/-- A sound gate reports the states of the entries, and stays sound. -/
theorem statuses_eq (h : gate.Sound anyWildcard) (checklist : Checklist) (progress : Progress) :
    (checklist.statuses progress gate).1 =
        checklist.spots.map (fun spot => spot.leaf.status anyWildcard progress) ∧
      (checklist.statuses progress gate).2.Sound anyWildcard := by
  have hstatus : ∀ leaf gate, gate.Sound anyWildcard →
      (status progress leaf gate).1 = Leaf.status anyWildcard progress leaf ∧
        (status progress leaf gate).2.Sound anyWildcard := by
    intro leaf gate hgate
    obtain ⟨hlocked, hnext⟩ := isLocked_eq hgate leaf.condition progress
    refine ⟨?_, hnext⟩
    rw [Leaf.status, ← hlocked]
    rfl
  obtain ⟨hanswers, hlast⟩ := h.mapM hstatus checklist.leaves
  refine ⟨?_, hlast⟩
  rw [statuses, hanswers, leaves_eq, List.map_map]
  rfl

/-- Whether a section is locked, by the condition that its path leads to. -/
def sectionVerdict (checklist : Checklist) (anyWildcard : Bool) (progress : Progress)
    (path : String) : Bool :=
  (checklist.conditionAt? path).any fun condition =>
    !condition.all (·.isMet anyWildcard progress.values)

/-- The lock of a section, too, is decided by its condition and the values alone. -/
theorem isSectionLocked_eq (h : gate.Sound anyWildcard) (checklist : Checklist) (path : String)
    (progress : Progress) :
    (checklist.isSectionLocked path progress gate).1 =
        checklist.sectionVerdict anyWildcard progress path ∧
      (checklist.isSectionLocked path progress gate).2.Sound anyWildcard := by
  unfold isSectionLocked sectionVerdict
  cases checklist.conditionAt? path with
  | none => exact ⟨rfl, h⟩
  | some condition => exact isLocked_eq h condition progress

/-- A sound gate reports the states of the sections, and stays sound. -/
theorem outline_eq (h : gate.Sound anyWildcard) (checklist : Checklist) (progress : Progress) :
    (checklist.outline progress gate).1 = checklist.outlinePaths.map (fun named =>
        ⟨named.1, named.2, checklist.sectionVerdict anyWildcard progress named.1⟩) ∧
      (checklist.outline progress gate).2.Sound anyWildcard := by
  apply h.mapM
  intro named gate hgate
  obtain ⟨hlocked, hnext⟩ := isSectionLocked_eq hgate checklist named.1 progress
  exact ⟨congrArg (SectionStatus.mk named.1 named.2) hlocked, hnext⟩

/-- The states that a sound gate reports show the entries, one after the other. -/
theorem statuses_show (h : gate.Sound anyWildcard) (checklist : Checklist) (progress : Progress) :
    List.Forall₂ (Spot.Shows anyWildcard progress) checklist.spots
      (checklist.statuses progress gate).1 := by
  rw [(statuses_eq h checklist progress).1]
  apply List.forall₂_map_right_iff.mpr
  exact List.forall₂_same.mpr fun spot _ => spot.shows_status anyWildcard progress

/-- The states and the entries correspond one to one, in their order. -/
theorem shows_of_getElem? (h : gate.Sound anyWildcard) {checklist : Checklist}
    {progress : Progress} {k : Nat} {spot : Spot} {status : Status}
    (hspot : checklist.spots[k]? = some spot)
    (hstatus : (checklist.statuses progress gate).1[k]? = some status) :
    spot.Shows anyWildcard progress status := by
  obtain ⟨hlt, rfl⟩ := List.getElem?_eq_some_iff.mp hspot
  obtain ⟨hlt', rfl⟩ := List.getElem?_eq_some_iff.mp hstatus
  exact (List.forall₂_iff_get.mp (statuses_show h checklist progress)).2 k hlt hlt'

end Checklist

namespace Session

variable {ι : Type} [DecidableEq ι]

/-- Whatever a gate has been asked before, the states of a checklist are those of its entries in
document order: no entry is left out, none comes twice, and each state shows the path of the
segments on the way to the entry, whether that is among the completed keys, and whether the nearest
condition over the entry is not met. -/
theorem Run.statuses_list_spots {settings : GateSettings} {session : Session ι}
    {history : List (GateCall × GateReply)} (h : Run settings session history)
    (checklist : Checklist) (progress : Progress) :
    List.Forall₂ (Spot.Shows settings.anyWildcard progress) checklist.spots
        (checklist.statuses progress session.gate).1 ∧
      checklist.spots.Pairwise (fun s t => Before s.address t.address) ∧
      checklist.spots.Nodup ∧ ∀ spot, spot ∈ checklist.spots ↔ checklist.HasSpot spot := by
  have hsorted := checklist.sorted_spots
  have hshow := Checklist.statuses_show h.gate_sound checklist progress
  refine ⟨hshow, hsorted, ?_, fun spot => Checklist.mem_spots⟩
  apply hsorted.imp
  rintro s t hbefore rfl
  exact Before.irrefl s.address hbefore

/-- Below a section that is locked by a text condition, a group without a name: its label is locked,
and the variants of its item are open, since the condition of the item is nearer. -/
theorem Run.statuses_list_nested_spots :
    ∃ (session : Session Unit) (history : List (GateCall × GateReply)) (checklist : Checklist)
      (progress : Progress), Run {} session history ∧
      List.Forall₂ (Spot.Shows true progress) checklist.spots
        (checklist.statuses progress session.gate).1 ∧
      (checklist.statuses progress session.gate).1.map (fun s => (s.key, s.completed, s.locked)) =
        [("bank/memo", false, true), ("bank/lily/a", false, false), ("bank/lily/b", true, false)] := by
  let checklist : Checklist := { sections := [("bank",
    .groups { condition := some (.string "gameMode") } [("", .items {} [.label "Memo",
      .entry { key := some "lily", condition := some (.object []) }
        (some [.label "A", .label "B"])])])] }
  let progress : Progress := { scope := "ns", completed := ["bank/lily/b"] }
  have unused : Run {} (⟨Gate.new {}, fun _ => none⟩ : Session Unit) [] := .start
  obtain ⟨hshows, _⟩ := unused.statuses_list_spots checklist progress
  refine ⟨_, _, checklist, progress, unused, hshows, ?_⟩
  cbv

end Session

end Questlog
