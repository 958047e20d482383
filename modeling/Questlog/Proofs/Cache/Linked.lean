import Questlog.Proofs.Cache.Links

namespace Questlog.Cache

variable {α : Type}

/-- The place used next more recently than a place; before all slots stands the oldest one. -/
def newerOf (cache : Cache α) : Option Nat → Option Nat
  | none => cache.oldest
  | some i => cache.slots[i]?.bind (·.newer)

/-- The place used next less recently than a place; behind the end stands the newest slot. -/
def olderOf (cache : Cache α) : Option Nat → Option Nat
  | none => cache.newest
  | some i => cache.slots[i]?.bind (·.older)

/-- The key and the value in a slot. -/
def entryAt (cache : Cache α) (i : Nat) : Option (String × α) :=
  cache.slots[i]?.map fun slot => (slot.key, slot.value)

/-- Two caches hold the same entries in the same slots and find them in the same way. -/
structure SameEntries (cache cache' : Cache α) : Prop where
  size : cache'.size = cache.size
  entryAt : cache'.entryAt = cache.entryAt
  index : cache'.index = cache.index
  capacity : cache'.capacity = cache.capacity

theorem SameEntries.refl (cache : Cache α) : SameEntries cache cache :=
  ⟨rfl, rfl, rfl, rfl⟩

theorem SameEntries.trans {a b c : Cache α} (hab : SameEntries a b) (hbc : SameEntries b c) :
    SameEntries a c :=
  ⟨hbc.size.trans hab.size, hbc.entryAt.trans hab.entryAt, hbc.index.trans hab.index,
    hbc.capacity.trans hab.capacity⟩

/-- A place is the common end or one of the slots. -/
def HasPlace (cache : Cache α) (place : Option Nat) : Prop :=
  ∀ i, place = some i → i < cache.size

/-- A place that is there stays there, as long as only links change. -/
theorem SameEntries.hasPlace {a b : Cache α} (h : SameEntries a b) {place : Option Nat}
    (hplace : a.HasPlace place) : b.HasPlace place := by
  intro i hi
  rw [h.size]
  exact hplace i hi

/-- The end of a walk through slots of the cache is a place of the cache. -/
theorem hasPlace_lastPlace {cache : Cache α} {part : List Nat}
    (hpart : ∀ j ∈ part, j < cache.size) : cache.HasPlace (lastPlace none part) := by
  intro j hj
  obtain hnone | ⟨k, hk, hlast⟩ := Leads.lastPlace_mem none part
  · rw [hnone] at hj
    cases hj
  · rw [hlast] at hj
    cases hj
    exact hpart j hk

/-- Setting a link changes no entry. -/
theorem setNewer_sameEntries (cache : Cache α) (place newer : Option Nat) :
    SameEntries cache (cache.setNewer place newer) := by
  cases place with
  | none => exact ⟨rfl, rfl, rfl, rfl⟩
  | some i =>
    refine ⟨by simp [setNewer, size], ?_, rfl, rfl⟩
    funext j
    simp only [entryAt, setNewer, Array.getElem?_modify]
    split <;> simp [Option.map_map, Function.comp_def]

theorem setOlder_sameEntries (cache : Cache α) (place older : Option Nat) :
    SameEntries cache (cache.setOlder place older) := by
  cases place with
  | none => exact ⟨rfl, rfl, rfl, rfl⟩
  | some i =>
    refine ⟨by simp [setOlder, size], ?_, rfl, rfl⟩
    funext j
    simp only [entryAt, setOlder, Array.getElem?_modify]
    split <;> simp [Option.map_map, Function.comp_def]

/-- The two kinds of links are independent of each other. -/
theorem olderOf_setNewer (cache : Cache α) (place newer : Option Nat) :
    (cache.setNewer place newer).olderOf = cache.olderOf := by
  funext at_
  cases place with
  | none => cases at_ <;> rfl
  | some i =>
    cases at_ with
    | none => rfl
    | some j =>
      simp only [olderOf, setNewer, Array.getElem?_modify]
      split <;> cases cache.slots[j]? <;> rfl

theorem newerOf_setOlder (cache : Cache α) (place older : Option Nat) :
    (cache.setOlder place older).newerOf = cache.newerOf := by
  funext at_
  cases place with
  | none => cases at_ <;> rfl
  | some i =>
    cases at_ with
    | none => rfl
    | some j =>
      simp only [newerOf, setOlder, Array.getElem?_modify]
      split <;> cases cache.slots[j]? <;> rfl

/-- Setting a link changes that link alone. -/
theorem newerOf_setNewer {cache : Cache α} {place : Option Nat} (newer : Option Nat)
    (hplace : cache.HasPlace place) :
    (cache.setNewer place newer).newerOf = Function.update cache.newerOf place newer := by
  funext at_
  cases place with
  | none => cases at_ <;> simp [newerOf, setNewer]
  | some i =>
    have hi : i < cache.slots.size := hplace i rfl
    cases at_ with
    | none => simp [newerOf, setNewer]
    | some j =>
      by_cases hij : i = j
      · subst hij
        simp [newerOf, setNewer, Array.getElem_modify, hi]
      · have hji : j ≠ i := fun h => hij h.symm
        simp [newerOf, setNewer, Array.getElem?_modify, hij, hji]

theorem olderOf_setOlder {cache : Cache α} {place : Option Nat} (older : Option Nat)
    (hplace : cache.HasPlace place) :
    (cache.setOlder place older).olderOf = Function.update cache.olderOf place older := by
  funext at_
  cases place with
  | none => cases at_ <;> simp [olderOf, setOlder]
  | some i =>
    have hi : i < cache.slots.size := hplace i rfl
    cases at_ with
    | none => simp [olderOf, setOlder]
    | some j =>
      by_cases hij : i = j
      · subst hij
        simp [olderOf, setOlder, Array.getElem_modify, hi]
      · have hji : j ≠ i := fun h => hij h.symm
        simp [olderOf, setOlder, Array.getElem?_modify, hij, hji]

/-- The slots of `order`, and no slot twice, stand between the newest and the oldest one, whichever
way the links are followed. -/
structure Linked (cache : Cache α) (order : List Nat) : Prop where
  older : Leads cache.olderOf none order none
  newer : Leads cache.newerOf none order.reverse none
  nodup : order.Nodup
  inside : ∀ i ∈ order, i < cache.size

namespace Linked

variable {cache : Cache α} {order front back : List Nat} {i : Nat}

/-- The slots of the order are places of the cache. -/
theorem hasPlace (h : cache.Linked order) {part : List Nat} (hpart : ∀ j ∈ part, j ∈ order) :
    cache.HasPlace (lastPlace none part) :=
  hasPlace_lastPlace fun j hj => h.inside j (hpart j hj)

/-- The walk back to the newer slots, parted at one of the slots. -/
theorem newerWalk (h : cache.Linked (front ++ i :: back)) :
    Leads cache.newerOf none (back.reverse ++ i :: front.reverse) none := by
  simpa using h.newer

/-- The two links of a slot lead to its neighbours in the order. -/
theorem neighbours (h : cache.Linked (front ++ i :: back)) :
    cache.newerOf (some i) = lastPlace none front ∧
      cache.olderOf (some i) = lastPlace none back.reverse := by
  obtain ⟨_, _, hnewer⟩ := Leads.append_iff.mp h.newerWalk
  obtain ⟨_, _, holder⟩ := Leads.append_iff.mp h.older
  exact ⟨by simpa using hnewer.next_eq_lastPlace, holder.next_eq_lastPlace⟩

end Linked

/-- Taking a slot out of the order changes no entry. -/
theorem unlink_sameEntries (cache : Cache α) (i : Nat) : SameEntries cache (cache.unlink i) := by
  unfold unlink
  split
  · exact (setOlder_sameEntries _ _ _).trans (setNewer_sameEntries _ _ _)
  · exact SameEntries.refl cache

/-- Taking a slot out of the order, written as two settings of a link at its neighbours. -/
theorem unlink_eq {cache : Cache α} {i : Nat} (hi : i < cache.size) :
    cache.unlink i = (cache.setOlder (cache.newerOf (some i)) (cache.olderOf (some i))).setNewer
      (cache.olderOf (some i)) (cache.newerOf (some i)) := by
  have hslot : cache.slots[i]? = some cache.slots[i] := Array.getElem?_eq_getElem hi
  simp [unlink, newerOf, olderOf, hslot]

/-- A slot that is taken out of the links leaves the order, and the others keep their places. -/
theorem Linked.unlink {cache : Cache α} {front back : List Nat} {i : Nat}
    (h : cache.Linked (front ++ i :: back)) : (cache.unlink i).Linked (front ++ back) := by
  have hi : i < cache.size := h.inside i (by simp)
  obtain ⟨hnewer, holder⟩ := h.neighbours
  have hfront : cache.HasPlace (lastPlace none front) := h.hasPlace (by simp +contextual)
  have hback : cache.HasPlace (lastPlace none back.reverse) := h.hasPlace (by simp +contextual)
  have hsame := unlink_sameEntries cache i
  have hsub : (front ++ back).Sublist (front ++ i :: back) :=
    (List.sublist_cons_self i back).append_left front
  have hreverse : (back.reverse ++ i :: front.reverse).Nodup := by
    simpa using List.nodup_reverse.mpr h.nodup
  refine ⟨?_, ?_, h.nodup.sublist hsub, ?_⟩
  · rw [unlink_eq hi, olderOf_setNewer, hnewer, olderOf_setOlder _ hfront]
    exact h.older.remove h.nodup
  · have hplace : (cache.setOlder (lastPlace none front) (cache.olderOf (some i))).HasPlace
        (lastPlace none back.reverse) := (setOlder_sameEntries _ _ _).hasPlace hback
    rw [unlink_eq hi, hnewer, holder, newerOf_setNewer _ (holder ▸ hplace), newerOf_setOlder,
      List.reverse_append, ← hnewer]
    exact h.newerWalk.remove hreverse
  · intro j hj
    rw [hsame.size]
    exact h.inside j (hsub.subset hj)

/-- Joining the order at the front changes no entry. -/
theorem linkFirst_sameEntries (cache : Cache α) (i : Nat) :
    SameEntries cache (cache.linkFirst i) := by
  unfold linkFirst
  exact (((setNewer_sameEntries _ _ _).trans (setOlder_sameEntries _ _ _)).trans
    (setNewer_sameEntries _ _ _)).trans (setOlder_sameEntries _ _ _)

/-- A slot outside the order that is linked in front becomes the first one. -/
theorem Linked.linkFirst {cache : Cache α} {order : List Nat} {i : Nat} (h : cache.Linked order)
    (hi : i < cache.size) (hnew : i ∉ order) : (cache.linkFirst i).Linked (i :: order) := by
  have hplace : cache.HasPlace (some i) := by
    rintro j ⟨⟩
    exact hi
  have hfirst : cache.newest = lastPlace none order.reverse := h.older.next_eq_lastPlace
  have hnewest : cache.HasPlace cache.newest := hfirst ▸ h.hasPlace (by simp)
  have hnodup : (i :: order).Nodup := List.nodup_cons.mpr ⟨hnew, h.nodup⟩
  refine ⟨?_, ?_, hnodup, ?_⟩
  · have holder : (cache.linkFirst i).olderOf =
        Function.update (Function.update cache.olderOf (some i) cache.newest) none (some i) := by
      have hi' : (cache.setNewer (some i) none).HasPlace (some i) :=
        (setNewer_sameEntries _ _ _).hasPlace hplace
      rw [Cache.linkFirst, olderOf_setOlder _ (by simp [HasPlace]), olderOf_setNewer,
        olderOf_setOlder _ hi', olderOf_setNewer]
    rw [holder]
    have hwalk : Leads cache.olderOf none ([] ++ order) none := h.older
    exact hwalk.insert hnodup
  · have hnewer : (cache.linkFirst i).newerOf =
        Function.update (Function.update cache.newerOf (some i) none) cache.newest (some i) := by
      have hnewest' : ((cache.setNewer (some i) none).setOlder (some i) cache.newest).HasPlace
          cache.newest :=
        ((setNewer_sameEntries _ _ _).trans (setOlder_sameEntries _ _ _)).hasPlace hnewest
      rw [Cache.linkFirst, newerOf_setOlder, newerOf_setNewer _ hnewest', newerOf_setOlder,
        newerOf_setNewer _ hplace]
    have hlast : cache.newerOf (lastPlace none order.reverse) = none := h.newer.next_lastPlace
    have hwalk : Leads cache.newerOf none (order.reverse ++ []) none := by simpa using h.newer
    have hgrown : (order.reverse ++ [i]).Nodup := by simpa using List.nodup_reverse.mpr hnodup
    have hmoved := hwalk.insert hgrown
    rw [hlast, ← hfirst] at hmoved
    rw [hnewer, List.reverse_cons]
    exact hmoved
  · intro j hj
    rw [(linkFirst_sameEntries cache i).size]
    obtain rfl | hj := List.mem_cons.mp hj
    · exact hi
    · exact h.inside j hj

/-- Moving a slot to the front changes no entry. -/
theorem promote_sameEntries (cache : Cache α) (i : Nat) : SameEntries cache (cache.promote i) := by
  unfold promote
  split
  · exact SameEntries.refl cache
  · exact (unlink_sameEntries cache i).trans (linkFirst_sameEntries _ i)

/-- A slot that is promoted becomes the first one, and the others keep their order. -/
theorem Linked.promote {cache : Cache α} {front back : List Nat} {i : Nat}
    (h : cache.Linked (front ++ i :: back)) :
    (cache.promote i).Linked (i :: (front ++ back)) := by
  unfold Cache.promote
  split
  next hnewest =>
    cases front with
    | nil => exact h
    | cons j front =>
      have hj : cache.newest = some j := h.older.1
      rw [hnewest] at hj
      cases hj
      exact absurd h.nodup (by simp)
  next =>
    have hi : i ∉ front ++ back := (List.nodup_middle.mp h.nodup).notMem
    refine h.unlink.linkFirst ?_ hi
    rw [(unlink_sameEntries cache i).size]
    exact h.inside i (by simp)

end Questlog.Cache
