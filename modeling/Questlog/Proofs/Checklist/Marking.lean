import Mathlib
import Questlog.Proofs.Checklist.Statuses
import Questlog.Proofs.Progress.Completed

namespace Questlog

namespace Key

/-- A text that stays one segment in every path: it is not empty and has no slash. -/
structure IsSegment (s : String) : Prop where
  filled : s ≠ ""
  unbroken : '/' ∉ s.toList

/-- Segments that tell apart what stands beside each other. -/
structure AreSiblings (segments : List String) : Prop where
  nodup : segments.Nodup
  segment : ∀ s ∈ segments, IsSegment s

instance (s : String) : Decidable (IsSegment s) :=
  decidable_of_iff (s ≠ "" ∧ '/' ∉ s.toList)
    ⟨fun h => ⟨h.1, h.2⟩, fun h => ⟨h.filled, h.unbroken⟩⟩

instance (segments : List String) : Decidable (AreSiblings segments) :=
  decidable_of_iff (segments.Nodup ∧ ∀ s ∈ segments, IsSegment s)
    ⟨fun h => ⟨h.1, h.2⟩, fun h => ⟨h.nodup, h.segment⟩⟩

/-- Paths that are distinct and made of segments. -/
structure AreDistinct (paths : List (List String)) : Prop where
  nodup : paths.Nodup
  segment : ∀ path ∈ paths, ∀ s ∈ path, IsSegment s

/-- Joining segments leaves none of them out, as none is empty. -/
theorem join_of_segments {path : List String} (h : ∀ s ∈ path, IsSegment s) :
    join path = "/".intercalate path := by
  have hfilled : path.filter (fun s => !s.isEmpty) = path := by
    rw [List.filter_eq_self]
    intro s hs
    simpa using (h s hs).filled
  rw [join, hfilled]

/-- A path of segments is found again in its key. -/
theorem split_join {path : List String} (hne : path ≠ []) (h : ∀ s ∈ path, IsSegment s) :
    split (join path) = path := by
  rw [join_of_segments h]
  exact split_intercalate hne fun s hs => (h s hs).unbroken

theorem join_ne_empty {path : List String} (hne : path ≠ []) (h : ∀ s ∈ path, IsSegment s) :
    join path ≠ "" := by
  rw [join_of_segments h]
  exact intercalate_ne_empty hne fun s hs => (h s hs).filled

/-- Paths whose segments have no slash are told apart by their keys. -/
theorem join_inj {path other : List String} (h : ∀ s ∈ path, IsSegment s)
    (h' : ∀ s ∈ other, IsSegment s) (heq : join path = join other) : path = other := by
  by_cases hpath : path = []
  · subst hpath
    by_contra hother
    exact join_ne_empty (Ne.symm hother) h' heq.symm
  by_cases hother : other = []
  · subst hother
    exact absurd heq (join_ne_empty hpath h)
  rw [← split_join hpath h, heq, split_join hother h']

/-- Distinct paths have distinct keys. -/
theorem AreDistinct.nodup_join {paths : List (List String)} (h : AreDistinct paths) :
    (paths.map join).Nodup := by
  apply List.Nodup.map_on _ h.nodup
  intro path hpath other hother heq
  exact join_inj (h.segment path hpath) (h.segment other hother) heq

/-- Behind siblings distinct paths stay distinct. -/
theorem AreSiblings.branch {α : Type} {list : List α} {name : α → String}
    {tails : α → List (List String)} (h : AreSiblings (list.map name))
    (htails : ∀ a ∈ list, AreDistinct (tails a)) :
    AreDistinct (list.flatMap fun a => (tails a).map (name a :: ·)) := by
  constructor
  · apply List.nodup_flatMap.mpr
    constructor
    · intro a ha
      exact (htails a ha).nodup.map fun _ _ heq => List.tail_eq_of_cons_eq heq
    · -- Paths behind different siblings differ in their first segment.
      refine (List.pairwise_map.mp h.nodup).imp fun hne => ?_
      intro path hpath hother
      obtain ⟨_, _, rfl⟩ := List.mem_map.mp hpath
      obtain ⟨_, _, heq⟩ := List.mem_map.mp hother
      exact hne (List.head_eq_of_cons_eq heq).symm
  · intro path hpath
    obtain ⟨a, ha, htail⟩ := List.mem_flatMap.mp hpath
    obtain ⟨tail, hmem, rfl⟩ := List.mem_map.mp htail
    exact List.forall_mem_cons.mpr
      ⟨h.segment _ (List.mem_map_of_mem ha), (htails a ha).segment tail hmem⟩

end Key

/-- The segments behind that of an item on the paths to its entries. -/
def Item.tails (item : Item) : List (List String) :=
  match item.variants? with
  | none => [[]]
  | some variants => variants.map fun variant => [variant.segment]

/-- The segments of the variants of an item are siblings. -/
def Item.WellKeyed (item : Item) : Prop :=
  ∀ variants, item.variants? = some variants → Key.AreSiblings (variants.map Item.segment)

/-- In a section and all groups below it, the segments of what stands in one list are siblings. -/
inductive Section.WellKeyed : Section → Prop
  | bare (heading : Heading) : WellKeyed (.bare heading)
  | items (heading : Heading) {list : List Item} : Key.AreSiblings (list.map Item.segment) →
    (∀ item ∈ list, item.WellKeyed) → WellKeyed (.items heading list)
  | groups (heading : Heading) {list : List (String × Section)} :
    Key.AreSiblings (list.map (·.1)) → (∀ named ∈ list, WellKeyed named.2) →
    WellKeyed (.groups heading list)

/-- The keys of the sections are siblings, and so are the segments in every list below them. -/
structure Checklist.WellKeyed (checklist : Checklist) : Prop where
  siblings : Key.AreSiblings (checklist.sections.map (·.1))
  sections : ∀ named ∈ checklist.sections, named.2.WellKeyed

/-- The paths to the entries of an item. -/
theorem Place.segments_spots (place : Place) :
    place.spots.map Spot.segments =
      place.item.tails.map (place.around.map (·.1) ++ place.item.segment :: ·) := by
  unfold spots Item.tails
  cases place.item.variants? with
  | none => rfl
  | some variants =>
    simp only [List.map_map]
    conv_rhs => rw [← List.zipIdx_map_fst 0 variants, List.map_map]
    rfl

namespace Section

/-- The paths to the entries of a section. -/
def paths (sect : Section) : List (List String) :=
  (sect.places.flatMap Place.spots).map Spot.segments

theorem paths_items (heading : Heading) (list : List Item) :
    (items heading list).paths = list.flatMap fun item => item.tails.map (item.segment :: ·) := by
  rw [paths, places, List.flatMap_map, List.map_flatMap]
  conv_rhs => rw [← List.zipIdx_map_fst 0 list, List.flatMap_map]
  exact List.flatMap_congr fun numbered _ => Place.segments_spots _

/-- A group puts its name in front of the paths below it. -/
theorem segments_groupPlaces (first : Nat) (list : List (String × Section)) :
    ((groupPlaces first list).flatMap Place.spots).map Spot.segments =
      list.flatMap fun named => named.2.paths.map (named.1 :: ·) := by
  induction list generalizing first with
  | nil => rfl
  | cons named list ih =>
    rw [groupPlaces, List.flatMap_append, List.map_append, spots_within, List.map_map, ih,
      List.flatMap_cons, paths, List.map_map]
    rfl

theorem paths_groups (heading : Heading) (list : List (String × Section)) :
    (groups heading list).paths = list.flatMap fun named => named.2.paths.map (named.1 :: ·) := by
  rw [paths, places, segments_groupPlaces]

end Section

/-- The entry of an item and those of its variants have different paths. -/
theorem Item.WellKeyed.areDistinct {item : Item} (h : item.WellKeyed) :
    Key.AreDistinct item.tails := by
  unfold Item.tails
  split
  · exact ⟨List.nodup_singleton _, by simp⟩
  · next variants hvariants =>
    obtain ⟨hnodup, hsegment⟩ := h variants hvariants
    constructor
    · have hsingle : (variants.map fun variant => [variant.segment]) =
          (variants.map segment).map ([·]) := by rw [List.map_map]; rfl
      rw [hsingle]
      exact hnodup.map List.singleton_injective
    · simpa using hsegment

/-- Entries below a section are told apart by their paths. -/
theorem Section.WellKeyed.areDistinct {sect : Section} (h : sect.WellKeyed) :
    Key.AreDistinct sect.paths := by
  induction h with
  | bare heading => exact ⟨List.nodup_nil, List.forall_mem_nil _⟩
  | items heading hsiblings hitems =>
    rw [paths_items]
    exact hsiblings.branch fun item hitem => (hitems item hitem).areDistinct
  | groups heading hsiblings _ ih =>
    rw [paths_groups]
    exact hsiblings.branch ih

/-- The entries of a checklist are told apart by their keys. -/
theorem Checklist.WellKeyed.nodup_keys {checklist : Checklist} (h : checklist.WellKeyed) :
    (checklist.spots.map fun spot => spot.leaf.key).Nodup := by
  have hpaths : checklist.spots.map Spot.segments =
      checklist.sections.flatMap fun named => named.2.paths.map (named.1 :: ·) :=
    Section.segments_groupPlaces 0 checklist.sections
  have hdistinct : Key.AreDistinct (checklist.spots.map Spot.segments) := by
    rw [hpaths]
    exact h.siblings.branch fun named hnamed => (h.sections named hnamed).areDistinct
  have hkeys := hdistinct.nodup_join
  rw [List.map_map] at hkeys
  exact hkeys

section Marks

variable {progress : Progress} {key other : String}

/-- A mark on a key is none on any other one. -/
theorem Progress.isCompleted_setCompleted_of_ne (h : other ≠ key) (completed : Bool) :
    (progress.setCompleted key completed).2.isCompleted other = progress.isCompleted other := by
  rw [Bool.eq_iff_iff, isCompleted_iff, isCompleted_iff]
  cases completed with
  | true =>
    refine mem_mark.trans ?_
    rw [or_iff_left h]
  | false => exact List.mem_erase_of_ne h

/-- Conditions read nothing that a mark changes. -/
theorem Progress.values_setCompleted (progress : Progress) (key : String) (completed : Bool) :
    (progress.setCompleted key completed).2.values = progress.values := by
  rw [setCompleted_eq]
  rfl

/-- What a mark changes in the state of an entry. -/
theorem Leaf.status_setCompleted (anyWildcard : Bool) (progress : Progress) (key : String)
    (completed : Bool) (leaf : Leaf) :
    leaf.status anyWildcard (progress.setCompleted key completed).2 =
      { leaf.status anyWildcard progress with
        completed := if leaf.key = key then (progress.setCompleted key completed).2.isCompleted key
          else progress.isCompleted leaf.key } := by
  rw [status, status, Progress.values_setCompleted]
  split
  · next heq => rw [heq]
  · next hne => rw [Progress.isCompleted_setCompleted_of_ne hne]

end Marks

namespace Session

variable {ι : Type} [DecidableEq ι]

/-- Marking an entry touches that entry alone: no two entries have the same key, so a mark on one is
no mark on another. No two entries of a checklist whose segments are siblings share a key. To mark
one or to take its mark off changes the completed flag of that one alone, and no entry is locked or
unlocked by it, whatever the gate is asked before and after. -/
theorem Run.mark_changes_one_entry {settings : GateSettings} {session session' : Session ι}
    {history history' : List (GateCall × GateReply)} (h : Run settings session history)
    (h' : Run settings session' history') {checklist : Checklist} (hkeys : checklist.WellKeyed)
    (progress : Progress) (key : String) (completed : Bool) :
    let before := (checklist.statuses progress session.gate).1
    let marked := (progress.setCompleted key completed).2
    (before.map (·.key)).Nodup ∧
      (checklist.statuses marked session'.gate).1 = before.map (fun status =>
        { status with
          completed := if status.key = key then marked.isCompleted key else status.completed }) ∧
      (progress.completed.Nodup → marked.isCompleted key = completed) := by
  intro before marked
  have hbefore : before =
      checklist.spots.map fun spot => spot.leaf.status settings.anyWildcard progress :=
    (Checklist.statuses_eq h.gate_sound checklist progress).1
  refine ⟨?_, ?_, fun hnodup => ?_⟩
  · rw [hbefore, List.map_map]
    exact hkeys.nodup_keys
  · rw [(Checklist.statuses_eq h'.gate_sound checklist marked).1, hbefore, List.map_map]
    exact List.map_congr_left fun spot _ =>
      spot.leaf.status_setCompleted settings.anyWildcard progress key completed
  · rw [Progress.isCompleted_setCompleted hnodup, if_pos rfl]

/-- A group and an item of the same name, in different sections, and below both of them an entry of
the same name again: the mark is taken off the one and stays on the other, which stays locked. -/
theorem Run.mark_changes_one_variant :
    ∃ (session : Session Unit) (checklist : Checklist) (progress : Progress),
      Run {} session [] ∧ checklist.WellKeyed ∧
      ((checklist.statuses progress session.gate).1.map (·.key)).Nodup ∧
      (checklist.statuses progress session.gate).1.map (fun s => (s.key, s.completed, s.locked)) =
        [("bank/a/b", true, false), ("bank/a/c", true, false), ("cans/a/b", true, true)] ∧
      (checklist.statuses (progress.setCompleted "bank/a/b" false).2 session.gate).1.map
          (fun s => (s.key, s.completed, s.locked)) =
        [("bank/a/b", false, false), ("bank/a/c", true, false), ("cans/a/b", true, true)] := by
  let cans : Item := .entry { key := some "a" } (some [.label "B"])
  let checklist : Checklist := { sections :=
    [("bank", .groups {} [("a", .items {} [.label "B", .label "C"])]),
      ("cans", .items { condition := some (.array []) } [cans])] }
  let progress : Progress := { scope := "ns", completed := ["bank/a/b", "bank/a/c", "cans/a/b"] }
  have unused : Run {} (⟨Gate.new {}, fun _ => none⟩ : Session Unit) [] := .start
  have hlabels : [Item.label "B", Item.label "C"].map Item.segment = ["b", "c"] := by cbv
  have hvariants : [Item.label "B"].map Item.segment = ["b"] := by cbv
  have hgroup : (Section.items {} [.label "B", .label "C"]).WellKeyed := by
    refine .items {} (by rw [hlabels]; decide) fun item hitem variants hsome => ?_
    simp only [List.mem_cons, List.not_mem_nil, or_false] at hitem
    rcases hitem with rfl | rfl <;> cases hsome
  have hcans : cans.WellKeyed := by
    intro variants hsome
    obtain rfl := Option.some.inj hsome
    rw [hvariants]
    decide
  have hkeys : checklist.WellKeyed := by
    refine ⟨by decide, ?_⟩
    simp only [checklist, List.forall_mem_cons, List.not_mem_nil, false_implies, implies_true,
      and_true]
    refine ⟨.groups {} (by decide) ?_, .items _ (by decide) ?_⟩
    · exact List.forall_mem_singleton.mpr hgroup
    · exact List.forall_mem_singleton.mpr hcans
  obtain ⟨hnodup, hmarked, -⟩ :=
    unused.mark_changes_one_entry unused hkeys progress "bank/a/b" false
  have hbefore : (checklist.statuses progress (Gate.new {})).1.map
      (fun s => (s.key, s.completed, s.locked)) =
      [("bank/a/b", true, false), ("bank/a/c", true, false), ("cans/a/b", true, true)] := by
    cbv
  refine ⟨_, checklist, progress, unused, hkeys, hnodup, hbefore, ?_⟩
  rw [hmarked]
  cbv

end Session

end Questlog
