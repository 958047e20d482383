import Questlog.Proofs.Cache.Linked
import Questlog.Proofs.Cache.Renumbering

namespace Questlog.Cache

variable {α : Type}

/-- The slots after a copy of the last one has filled the gap at `i`, with all links as they
were. -/
def fillGap (cache : Cache α) (i : Nat) (last : Slot α) : Cache α :=
  { cache with slots := (cache.slots.setIfInBounds i last).pop }

section FillGap

variable {cache : Cache α} {i n : Nat} {last : Slot α}

theorem size_fillGap (hn : cache.size = n + 1) : (cache.fillGap i last).size = n := by
  have hsize : cache.slots.size = n + 1 := hn
  simp [fillGap, size, hsize]

/-- Which slot stands where: the last one in the gap, the others where they were. -/
theorem slots_fillGap (hn : cache.size = n + 1) (hlast : cache.slots[n]? = some last) (hi : i ≤ n)
    (j : Nat) : (cache.fillGap i last).slots[j]? =
      if j = n then none else if j = i then cache.slots[n]? else cache.slots[j]? := by
  have hsize : cache.slots.size = n + 1 := hn
  simp only [fillGap, Array.getElem?_pop, Array.size_setIfInBounds, hsize, Nat.add_sub_cancel,
    Array.getElem?_setIfInBounds]
  grind

/-- The slot in the gap leads to where the last slot led. -/
theorem olderOf_fillGap (hn : cache.size = n + 1) (hlast : cache.slots[n]? = some last)
    (hi : i ≤ n) : (cache.fillGap i last).olderOf = Function.update
      (Function.update cache.olderOf (some i) (cache.olderOf (some n))) (some n) none := by
  funext place
  cases place with
  | none => simp [olderOf, fillGap]
  | some j =>
    simp only [olderOf, slots_fillGap hn hlast hi, Function.update_apply, Option.some.injEq]
    split
    · rfl
    · split <;> rfl

/-- The slot in the gap leads back to where the last slot led back. -/
theorem newerOf_fillGap (hn : cache.size = n + 1) (hlast : cache.slots[n]? = some last)
    (hi : i ≤ n) : (cache.fillGap i last).newerOf = Function.update
      (Function.update cache.newerOf (some i) (cache.newerOf (some n))) (some n) none := by
  funext place
  cases place with
  | none => simp [newerOf, fillGap]
  | some j =>
    simp only [newerOf, slots_fillGap hn hlast hi, Function.update_apply, Option.some.injEq]
    split
    · rfl
    · split <;> rfl

theorem entryAt_fillGap (hn : cache.size = n + 1) (hlast : cache.slots[n]? = some last)
    (hi : i ≤ n) : (cache.fillGap i last).entryAt =
      Function.update (Function.update cache.entryAt i (cache.entryAt n)) n none := by
  funext j
  simp only [entryAt, slots_fillGap hn hlast hi, Function.update_apply]
  split
  · rfl
  · split <;> rfl

end FillGap

section MoveLast

variable {cache : Cache α} {i n : Nat} {last : Slot α}

/-- Moving the last slot, written as filling the gap and then leading its neighbours to the new
place. -/
theorem moveLast_of_lt (hn : cache.size = n + 1) (hlast : cache.slots[n]? = some last)
    (hi : i < n) : cache.moveLast i =
      { ((cache.fillGap i last).setOlder (cache.newerOf (some n)) (some i)).setNewer
          (cache.olderOf (some n)) (some i) with index := cache.index.insert last.key i } := by
  have hsize : cache.slots.size = n + 1 := hn
  have hback : cache.slots.back? = some last := by
    rw [Array.back?_eq_getElem?, hsize]
    exact hlast
  have hroom : i < ((cache.slots.setIfInBounds i last).pop).size := by simpa [hsize] using hi
  have hnewer : cache.newerOf (some n) = last.newer := by simp [newerOf, hlast]
  have holder : cache.olderOf (some n) = last.older := by simp [olderOf, hlast]
  let moved := ((cache.fillGap i last).setOlder last.newer (some i)).setNewer last.older (some i)
  have hindex : moved.index = cache.index :=
    (setNewer_sameEntries _ _ _).index.trans (setOlder_sameEntries _ _ _).index
  rw [hnewer, holder, moveLast, hback]
  simp only [hroom, if_true]
  change { moved with index := moved.index.insert last.key i } = _
  rw [hindex]

/-- If the gap is the last slot itself, there is nothing to move. -/
theorem moveLast_self (hn : cache.size = n + 1) (hlast : cache.slots[n]? = some last) :
    cache.moveLast n = cache.fillGap n last := by
  have hsize : cache.slots.size = n + 1 := hn
  have hback : cache.slots.back? = some last := by
    rw [Array.back?_eq_getElem?, hsize]
    exact hlast
  simp [moveLast, hback, fillGap, hsize]

/-- The last slot takes the place of one that is out of the links. -/
theorem Linked.moveLast {order : List Nat} (h : cache.Linked order) (hn : cache.size = n + 1)
    (hi : i ≤ n) (hout : i ∉ order) (hall : ∀ j ≤ n, j ≠ i → j ∈ order) :
    (cache.moveLast i).Linked (order.map (Function.update id n i)) := by
  have hsize : cache.slots.size = n + 1 := hn
  obtain ⟨last, hlast⟩ : ∃ last, cache.slots[n]? = some last :=
    ⟨_, Array.getElem?_eq_getElem (by omega)⟩
  have hinside : ∀ j ∈ order, j ≠ n → j < n := by
    intro j hj hne
    have hlt := h.inside j hj
    omega
  obtain hin | rfl := Nat.lt_or_eq_of_le hi
  · have hne : i ≠ n := Nat.ne_of_lt hin
    obtain ⟨front, back, rfl⟩ := List.append_of_mem (hall n (Nat.le_refl n) hne.symm)
    obtain ⟨hnewer, holder⟩ := h.neighbours
    have hnodup := nodup_rename h.nodup hout
    have hrest : ∀ j ∈ front ++ back, j < n := by
      intro j hj
      refine hinside j ?_ (fun heq => (List.nodup_middle.mp h.nodup).notMem (heq ▸ hj))
      simp only [List.mem_append, List.mem_cons] at hj ⊢
      tauto
    have hplace : ∀ part : List Nat, (∀ j ∈ part, j ∈ front ++ back) →
        (cache.fillGap i last).HasPlace (lastPlace none part) := by
      intro part hpart
      refine hasPlace_lastPlace fun j hj => ?_
      rw [size_fillGap hn]
      exact hrest j (hpart j hj)
    have hfront := hplace front (fun j hj => List.mem_append_left back hj)
    have hback := hplace back.reverse
      (fun j hj => List.mem_append_right front (List.mem_reverse.mp hj))
    rw [map_rename h.nodup, moveLast_of_lt hn hlast hin, hnewer, holder]
    refine ⟨?_, ?_, hnodup, ?_⟩
    · change Leads (((cache.fillGap i last).setOlder (lastPlace none front) (some i)).setNewer
        (lastPlace none back.reverse) (some i)).olderOf none _ none
      rw [olderOf_setNewer, olderOf_setOlder _ hfront, olderOf_fillGap hn hlast hi]
      exact h.older.rename hne h.nodup hnodup
    · change Leads (((cache.fillGap i last).setOlder (lastPlace none front) (some i)).setNewer
        (lastPlace none back.reverse) (some i)).newerOf none _ none
      rw [newerOf_setNewer _ ((setOlder_sameEntries _ _ _).hasPlace hback), newerOf_setOlder,
        newerOf_fillGap hn hlast hi, List.reverse_append, List.reverse_cons, List.append_assoc]
      refine h.newerWalk.rename hne ?_ ?_
      · simpa using List.nodup_reverse.mpr h.nodup
      · simpa using List.nodup_reverse.mpr hnodup
    · intro j hj
      have hsame := (setOlder_sameEntries (cache.fillGap i last) (lastPlace none front)
        (some i)).trans (setNewer_sameEntries _ (lastPlace none back.reverse) (some i))
      change j < (((cache.fillGap i last).setOlder _ _).setNewer _ _).size
      rw [hsame.size, size_fillGap hn]
      obtain rfl | hj := List.mem_cons.mp (List.perm_middle.subset hj)
      · exact hin
      · exact hrest j hj
  · have hkeep : ∀ j ∈ order, some j ≠ some i := by
      intro j hj heq
      exact hout (Option.some.inj heq ▸ hj)
    rw [map_rename_of_notMem hout, moveLast_self hn hlast]
    refine ⟨?_, ?_, h.nodup, ?_⟩
    · rw [olderOf_fillGap hn hlast hi, Function.update_eq_self]
      refine h.older.congr_from (Function.update_of_ne (by simp) _ _) ?_
      exact fun j hj => Function.update_of_ne (hkeep j hj) _ _
    · rw [newerOf_fillGap hn hlast hi, Function.update_eq_self]
      refine h.newer.congr_from (Function.update_of_ne (by simp) _ _) ?_
      exact fun j hj => Function.update_of_ne (hkeep j (List.mem_reverse.mp hj)) _ _
    · intro j hj
      rw [size_fillGap hn]
      exact hinside j hj (fun heq => hout (heq ▸ hj))

theorem size_moveLast (hn : cache.size = n + 1) (hi : i ≤ n) : (cache.moveLast i).size = n := by
  have hsize : cache.slots.size = n + 1 := hn
  obtain ⟨last, hlast⟩ : ∃ last, cache.slots[n]? = some last :=
    ⟨_, Array.getElem?_eq_getElem (by omega)⟩
  obtain hin | rfl := Nat.lt_or_eq_of_le hi
  · rw [moveLast_of_lt hn hlast hin]
    change (((cache.fillGap i last).setOlder _ _).setNewer _ _).size = n
    rw [(setNewer_sameEntries _ _ _).size, (setOlder_sameEntries _ _ _).size, size_fillGap hn]
  · rw [moveLast_self hn hlast, size_fillGap hn]

theorem entryAt_moveLast (hn : cache.size = n + 1) (hi : i ≤ n) : (cache.moveLast i).entryAt =
    Function.update (Function.update cache.entryAt i (cache.entryAt n)) n none := by
  have hsize : cache.slots.size = n + 1 := hn
  obtain ⟨last, hlast⟩ : ∃ last, cache.slots[n]? = some last :=
    ⟨_, Array.getElem?_eq_getElem (by omega)⟩
  obtain hin | rfl := Nat.lt_or_eq_of_le hi
  · rw [moveLast_of_lt hn hlast hin]
    change (((cache.fillGap i last).setOlder _ _).setNewer _ _).entryAt = _
    rw [(setNewer_sameEntries _ _ _).entryAt, (setOlder_sameEntries _ _ _).entryAt,
      entryAt_fillGap hn hlast hi]
  · rw [moveLast_self hn hlast, entryAt_fillGap hn hlast hi]

/-- The key of the slot that moves is found at its new place, all others where they were. -/
theorem index_moveLast (hn : cache.size = n + 1) (hi : i ≤ n) (key : String) :
    (cache.moveLast i).index[key]? =
      if i < n ∧ (cache.entryAt n).map (·.1) = some key then some i else cache.index[key]? := by
  have hsize : cache.slots.size = n + 1 := hn
  obtain ⟨last, hlast⟩ : ∃ last, cache.slots[n]? = some last :=
    ⟨_, Array.getElem?_eq_getElem (by omega)⟩
  obtain hin | rfl := Nat.lt_or_eq_of_le hi
  · rw [moveLast_of_lt hn hlast hin, Std.HashMap.getElem?_insert]
    simp [entryAt, hlast, hin]
  · rw [moveLast_self hn hlast]
    simp [fillGap]

theorem capacity_moveLast (cache : Cache α) (i : Nat) :
    (cache.moveLast i).capacity = cache.capacity := by
  unfold moveLast
  split
  · rfl
  · dsimp only
    split
    · exact (setNewer_sameEntries _ _ _).capacity.trans (setOlder_sameEntries _ _ _).capacity
    · rfl

end MoveLast

theorem lt_size_of_entryAt {cache : Cache α} {i : Nat} {entry : String × α}
    (h : cache.entryAt i = some entry) : i < cache.size := by
  unfold entryAt at h
  obtain ⟨slot, hslot, _⟩ := Option.map_eq_some_iff.mp h
  exact (Array.getElem?_eq_some_iff.mp hslot).1

/-- The cache without the links of slot `i`, and without `key` in its index. -/
def cutOldest (cache : Cache α) (i : Nat) (key : String) : Cache α :=
  { cache.unlink i with index := (cache.unlink i).index.erase key }

/-- What is cut out is the end of the order. -/
theorem cutOldest_linked {cache : Cache α} {front : List Nat} {i : Nat}
    (h : cache.Linked (front ++ [i])) (key : String) : (cache.cutOldest i key).Linked front := by
  have hunlinked := h.unlink
  rw [List.append_nil] at hunlinked
  exact ⟨hunlinked.older, hunlinked.newer, hunlinked.nodup, hunlinked.inside⟩

/-- Forgetting the oldest entry: its slot is taken out of the links, and the last slot moves into
the gap that it leaves, whatever place in the order the last slot has. -/
theorem evictOldest_eq {cache : Cache α} {front : List Nat} {i : Nat} {entry : String × α}
    (h : cache.Linked (front ++ [i])) (hentry : cache.entryAt i = some entry) :
    cache.evictOldest = (cache.cutOldest i entry.1).moveLast i := by
  obtain ⟨slot, hslot, rfl⟩ := Option.map_eq_some_iff.mp hentry
  have holdest : cache.oldest = some i := h.newerWalk.1
  simp [evictOldest, holdest, hslot, cutOldest]

/-- The index forgets the key of the slot that is cut out, and no other. -/
theorem index_cutOldest (cache : Cache α) (i : Nat) (old key : String) :
    (cache.cutOldest i old).index[key]? = if old = key then none else cache.index[key]? := by
  simp [cutOldest, Std.HashMap.getElem?_erase, (unlink_sameEntries cache i).index]

end Questlog.Cache
