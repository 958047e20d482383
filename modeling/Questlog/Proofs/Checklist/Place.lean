import Questlog.Checklist.Section

namespace Questlog

/-- Addresses in document order: the first number in which they differ decides, and neither is the
start of the other. -/
inductive Before : List Nat → List Nat → Prop
  | here {i j : Nat} {a b : List Nat} : i < j → Before (i :: a) (j :: b)
  | inside {i : Nat} {a b : List Nat} : Before a b → Before (i :: a) (i :: b)

namespace Before

variable {a b : List Nat}

/-- What follows two addresses that differ does not matter. -/
theorem append (h : Before a b) (c d : List Nat) : Before (a ++ c) (b ++ d) := by
  induction h with
  | here hlt => exact here hlt
  | inside _ ih => exact inside ih

theorem of_last (common : List Nat) {i j : Nat} (h : i < j) :
    Before (common ++ [i]) (common ++ [j]) := by
  induction common with
  | nil => exact here h
  | cons _ _ ih => exact inside ih

theorem irrefl (a : List Nat) : ¬Before a a := by
  intro h
  induction a with
  | nil => cases h
  | cons i a ih =>
    cases h with
    | here hlt => exact Nat.lt_irrefl i hlt
    | inside h => exact ih h

end Before

/-- An item in a checklist: its address, the sections around it with their keys, the outermost one
first, and the item itself. An item has an address: the number of its section, of each group on the
way to it, and its own; a variant has one number more. -/
structure Place where
  address : List Nat
  around : List (String × Section)
  item : Item

/-- An entry to be checked off: an item without variants, or one of its variants. -/
structure Spot extends Place where
  variant : Option Item

namespace Place

/-- The same item seen from outside of the `i`-th section. -/
def within (i : Nat) (named : String × Section) (place : Place) : Place :=
  { place with address := i :: place.address, around := named :: place.around }

/-- The entries of an item. -/
def spots (place : Place) : List Spot :=
  match place.item.variants? with
  | none => [{ place with variant := none }]
  | some variants => variants.zipIdx.map fun numbered =>
      { place with address := place.address ++ [numbered.2], variant := some numbered.1 }

/-- `place.HasSpot spot`: the spot is the item, which has no variants, or one of its variants. -/
inductive HasSpot (place : Place) : Spot → Prop
  | alone : place.item.variants? = none → HasSpot place { place with variant := none }
  | variant {variants : List Item} {j : Nat} {variant : Item} :
    place.item.variants? = some variants → variants[j]? = some variant →
    HasSpot place { place with address := place.address ++ [j], variant := some variant }

variable {place : Place} {spot : Spot}

/-- The entries of a place, listed and characterised. -/
theorem mem_spots : spot ∈ place.spots ↔ place.HasSpot spot := by
  constructor
  · intro hmem
    unfold spots at hmem
    split at hmem
    · next hnone =>
      obtain rfl := List.mem_singleton.mp hmem
      exact .alone hnone
    · next variants hsome =>
      obtain ⟨⟨variant, j⟩, hnumbered, rfl⟩ := List.mem_map.mp hmem
      exact .variant hsome (List.mem_zipIdx_iff_getElem?.mp hnumbered)
  · intro hspot
    unfold spots
    cases hspot with
    | alone hnone => simp only [hnone, List.mem_singleton]
    | @variant variants j variant hsome hvariant =>
      simp only [hsome]
      apply List.mem_map.mpr
      exact ⟨(variant, j), List.mem_zipIdx_iff_getElem?.mpr hvariant, rfl⟩

/-- An entry has the address of its item, or that with one number more. -/
theorem HasSpot.address (h : place.HasSpot spot) : ∃ rest, spot.address = place.address ++ rest := by
  cases h with
  | alone => exact ⟨[], (List.append_nil _).symm⟩
  | variant => exact ⟨_, rfl⟩

theorem sorted_zipIdx {α : Type} (xs : List α) (first : Nat) :
    (xs.zipIdx first).Pairwise fun x y => x.2 < y.2 := by
  rw [← List.pairwise_map, List.zipIdx_map_snd]
  exact List.pairwise_lt_range'

/-- An item comes before its variants, and these in their order. -/
theorem sorted_spots (place : Place) :
    place.spots.Pairwise fun s t => Before s.address t.address := by
  unfold spots
  split
  · exact List.pairwise_singleton _ _
  · apply List.pairwise_map.mpr
    exact (sorted_zipIdx _ 0).imp fun hlt => Before.of_last place.address hlt

end Place

namespace Section

mutual

/-- The items of a section, at any depth. -/
def places : Section → List Place
  | bare _ => []
  | items _ list => list.zipIdx.map fun numbered => ⟨[numbered.2], [], numbered.1⟩
  | groups _ list => groupPlaces 0 list

/-- The items of groups, the first of which is the `i`-th one. -/
def groupPlaces (i : Nat) : List (String × Section) → List Place
  | [] => []
  | (name, group) :: rest =>
    (places group).map (Place.within i (name, group)) ++ groupPlaces (i + 1) rest

end

/-- `sect.HasPlace place`: the item stands at that address below the section. -/
inductive HasPlace : Section → Place → Prop
  | item {heading : Heading} {list : List Item} {i : Nat} {item : Item} :
    list[i]? = some item → HasPlace (.items heading list) ⟨[i], [], item⟩
  | group {heading : Heading} {list : List (String × Section)} {i : Nat} {name : String}
    {group : Section} {place : Place} : list[i]? = some (name, group) → HasPlace group place →
    HasPlace (.groups heading list) (place.within i (name, group))

theorem HasPlace.address_ne_nil {sect : Section} {place : Place} (h : sect.HasPlace place) :
    place.address ≠ [] := by
  cases h with
  | item | group => exact List.cons_ne_nil _ _

end Section

namespace Section

/-- The places of groups are numbered by group first. -/
theorem first_of_mem_groupPlaces {place : Place} {list : List (String × Section)} {i : Nat}
    (h : place ∈ groupPlaces i list) : ∃ j rest, i ≤ j ∧ place.address = j :: rest := by
  induction list generalizing i with
  | nil => exact absurd h List.not_mem_nil
  | cons named list ih =>
    obtain hfirst | hrest := List.mem_append.mp h
    · obtain ⟨inner, _, rfl⟩ := List.mem_map.mp hfirst
      exact ⟨i, inner.address, Nat.le_refl i, rfl⟩
    · obtain ⟨j, rest, hle, haddress⟩ := ih hrest
      exact ⟨j, rest, Nat.le_of_succ_le hle, haddress⟩

mutual

/-- The items of a section come in the order of their addresses; with the next lemma, by the
recursion over sections. -/
theorem sorted_places : ∀ sect : Section,
    sect.places.Pairwise fun p q => Before p.address q.address
  | bare _ => List.Pairwise.nil
  | items _ list => by
    rw [places]
    apply List.pairwise_map.mpr
    exact (Place.sorted_zipIdx list 0).imp fun hlt => Before.here hlt
  | groups _ list => by
    rw [places]
    exact sorted_groupPlaces 0 list

theorem sorted_groupPlaces (i : Nat) : ∀ list : List (String × Section),
    (groupPlaces i list).Pairwise fun p q => Before p.address q.address
  | [] => List.Pairwise.nil
  | (name, group) :: rest => by
    rw [groupPlaces]
    apply List.pairwise_append.mpr
    refine ⟨?_, sorted_groupPlaces (i + 1) rest, ?_⟩
    · apply List.pairwise_map.mpr
      exact (sorted_places group).imp fun hbefore => Before.inside hbefore
    · intro p hp q hq
      obtain ⟨inner, _, rfl⟩ := List.mem_map.mp hp
      obtain ⟨j, address, hle, haddress⟩ := first_of_mem_groupPlaces hq
      rw [haddress]
      exact Before.here hle

end

mutual

/-- The items of a section, listed and characterised; again with the next lemma. -/
theorem mem_places {place : Place} : ∀ sect : Section, place ∈ sect.places ↔ sect.HasPlace place
  | bare _ => by
    constructor
    · intro hmem
      exact absurd hmem List.not_mem_nil
    · intro hplace
      cases hplace
  | items heading list => by
    rw [places]
    constructor
    · intro hmem
      obtain ⟨⟨item, i⟩, hnumbered, rfl⟩ := List.mem_map.mp hmem
      exact .item (List.mem_zipIdx_iff_getElem?.mp hnumbered)
    · intro hplace
      cases hplace with
      | @item _ _ i item hitem =>
        apply List.mem_map.mpr
        exact ⟨(item, i), List.mem_zipIdx_iff_getElem?.mpr hitem, rfl⟩
  | groups heading list => by
    rw [places, mem_groupPlaces 0 list]
    constructor
    · rintro ⟨i, name, group, inner, hgroup, hinner, rfl⟩
      rw [Nat.zero_add]
      exact .group hgroup hinner
    · intro hplace
      cases hplace with
      | @group _ _ i name group inner hgroup hinner =>
        exact ⟨i, name, group, inner, hgroup, hinner, by rw [Nat.zero_add]⟩

theorem mem_groupPlaces {place : Place} (first : Nat) : ∀ list : List (String × Section),
    place ∈ groupPlaces first list ↔ ∃ i name group inner, list[i]? = some (name, group) ∧
      HasPlace group inner ∧ place = inner.within (first + i) (name, group)
  | [] => by simp [groupPlaces]
  | (name, group) :: rest => by
    rw [groupPlaces, List.mem_append, List.mem_map, mem_groupPlaces (first + 1) rest]
    constructor
    · rintro (⟨inner, hinner, rfl⟩ | ⟨i, name', group', inner, hgroup, hinner, rfl⟩)
      · exact ⟨0, name, group, inner, rfl, (mem_places group).mp hinner, rfl⟩
      · refine ⟨i + 1, name', group', inner, hgroup, hinner, ?_⟩
        rw [Nat.add_right_comm, Nat.add_assoc]
    · rintro ⟨i, name', group', inner, hgroup, hinner, rfl⟩
      cases i with
      | zero =>
        obtain ⟨rfl, rfl⟩ := Prod.mk.inj (Option.some.inj hgroup)
        exact .inl ⟨inner, (mem_places group).mpr hinner, rfl⟩
      | succ i =>
        refine .inr ⟨i, name', group', inner, hgroup, hinner, ?_⟩
        rw [Nat.add_right_comm, Nat.add_assoc]

end

end Section

namespace Checklist

/-- The items of a checklist, in document order. -/
def places (checklist : Checklist) : List Place :=
  Section.groupPlaces 0 checklist.sections

/-- The entries of a checklist, in document order. -/
def spots (checklist : Checklist) : List Spot :=
  checklist.places.flatMap Place.spots

/-- `checklist.HasSpot spot`: the address of the spot leads to an item of one of the sections, and
the spot is one of its entries. -/
def HasSpot (checklist : Checklist) (spot : Spot) : Prop :=
  ∃ i key sect place, checklist.sections[i]? = some (key, sect) ∧ Section.HasPlace sect place ∧
    (place.within i (key, sect)).HasSpot spot

/-- The entries of a checklist, listed and characterised. -/
theorem mem_spots {checklist : Checklist} {spot : Spot} :
    spot ∈ checklist.spots ↔ checklist.HasSpot spot := by
  rw [spots, List.mem_flatMap]
  constructor
  · rintro ⟨place, hplace, hspot⟩
    obtain ⟨i, key, sect, inner, hsection, hinner, rfl⟩ :=
      (Section.mem_groupPlaces 0 checklist.sections).mp hplace
    rw [Nat.zero_add] at hspot
    exact ⟨i, key, sect, inner, hsection, hinner, Place.mem_spots.mp hspot⟩
  · rintro ⟨i, key, sect, inner, hsection, hinner, hspot⟩
    refine ⟨inner.within i (key, sect), ?_, Place.mem_spots.mpr hspot⟩
    apply (Section.mem_groupPlaces 0 checklist.sections).mpr
    exact ⟨i, key, sect, inner, hsection, hinner, by rw [Nat.zero_add]⟩

/-- The entries of a checklist come in the order of their addresses, each of them once. -/
theorem sorted_spots (checklist : Checklist) :
    checklist.spots.Pairwise fun s t => Before s.address t.address := by
  rw [spots]
  apply List.pairwise_flatMap.mpr
  refine ⟨fun place _ => place.sorted_spots, ?_⟩
  refine (Section.sorted_groupPlaces 0 checklist.sections).imp ?_
  intro p q hbefore s hs t ht
  obtain ⟨rest, hrest⟩ := (Place.mem_spots.mp hs).address
  obtain ⟨rest', hrest'⟩ := (Place.mem_spots.mp ht).address
  rw [hrest, hrest']
  exact hbefore.append rest rest'

end Checklist

end Questlog
