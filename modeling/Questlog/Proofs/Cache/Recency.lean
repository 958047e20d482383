import Questlog.Proofs.Cache.Eviction
import Questlog.Proofs.Cache.Recent

namespace Questlog.Cache

variable {α : Type}

/-- The slots of `order` hold `entries`, every slot is among them, and the index finds each of them
by its key and nothing else. The order of the slots along the links is the order of the list, and
the index finds exactly the keys of the list. -/
structure Represents (cache : Cache α) (order : List Nat) (entries : List (String × α)) : Prop where
  linked : cache.Linked order
  complete : ∀ i < cache.size, i ∈ order
  contents : order.map cache.entryAt = entries.map some
  indexed : ∀ key i, cache.index[key]? = some i ↔ (cache.entryAt i).map (·.1) = some key

/-- A new slot without links, which the index finds already. -/
def addSlot (cache : Cache α) (key : String) (value : α) : Cache α :=
  { cache with
    slots := cache.slots.push { key, value, newer := none, older := none }
    index := cache.index.insert key cache.size }

/-- An entry is pushed by giving it a slot and linking the slot at the front. -/
theorem push_eq (cache : Cache α) (key : String) (value : α) :
    cache.push key value = (cache.addSlot key value).linkFirst cache.size := rfl

theorem size_addSlot (cache : Cache α) (key : String) (value : α) :
    (cache.addSlot key value).size = cache.size + 1 :=
  Array.size_push _

theorem entryAt_addSlot (cache : Cache α) (key : String) (value : α) :
    (cache.addSlot key value).entryAt =
      Function.update cache.entryAt cache.size (some (key, value)) := by
  funext i
  simp only [entryAt, addSlot, Array.getElem?_push, Function.update_apply, size]
  split <;> rfl

/-- A new slot is in no order yet. -/
theorem addSlot_linked {cache : Cache α} {order : List Nat} (h : cache.Linked order) (key : String)
    (value : α) : (cache.addSlot key value).Linked order := by
  have holder : (cache.addSlot key value).olderOf = cache.olderOf := by
    funext place
    cases place with
    | none => rfl
    | some i =>
      simp only [olderOf, addSlot, Array.getElem?_push]
      split <;> simp_all
  have hnewer : (cache.addSlot key value).newerOf = cache.newerOf := by
    funext place
    cases place with
    | none => rfl
    | some i =>
      simp only [newerOf, addSlot, Array.getElem?_push]
      split <;> simp_all
  refine ⟨holder ▸ h.older, hnewer ▸ h.newer, h.nodup, ?_⟩
  intro i hi
  rw [size_addSlot]
  exact Nat.lt_succ_of_lt (h.inside i hi)

namespace Represents

variable {cache : Cache α} {order : List Nat} {entries : List (String × α)}

/-- An empty cache stands for the empty list. -/
theorem empty (capacity : Option Nat) : (Cache.empty capacity : Cache α).Represents [] [] := by
  refine ⟨⟨rfl, rfl, List.nodup_nil, by simp⟩, ?_, rfl, ?_⟩
  · intro i hi
    exact absurd hi (by simp [Cache.empty, size])
  · intro key i
    simp [Cache.empty, entryAt]

/-- A cache that is cleared stands for the empty list. -/
theorem clear (cache : Cache α) : cache.clear.Represents [] [] := by
  refine ⟨⟨rfl, rfl, List.nodup_nil, by simp⟩, ?_, rfl, ?_⟩
  · intro i hi
    exact absurd hi (by simp [Cache.clear, size])
  · intro key i
    simp [Cache.clear, entryAt]

/-- The order goes through every slot once. -/
theorem order_perm (h : cache.Represents order entries) : order.Perm (List.range cache.size) := by
  refine (List.perm_ext_iff_of_nodup h.linked.nodup List.nodup_range).mpr ?_
  intro i
  rw [List.mem_range]
  exact ⟨h.linked.inside i, h.complete i⟩

/-- There are as many slots as entries. -/
theorem size_eq (h : cache.Represents order entries) : cache.size = entries.length := by
  have horder : order.length = cache.size := by simpa using h.order_perm.length_eq
  have hcontents : order.length = entries.length := by simpa using congrArg List.length h.contents
  omega

/-- What is in the list is in a slot, where the index finds it. -/
theorem exists_slot (h : cache.Represents order entries) {entry : String × α}
    (hentry : entry ∈ entries) :
    ∃ i ∈ order, cache.entryAt i = some entry ∧ cache.index[entry.1]? = some i := by
  have hmem : some entry ∈ order.map cache.entryAt := by
    rw [h.contents]
    exact List.mem_map_of_mem hentry
  obtain ⟨i, hi, hslot⟩ := List.mem_map.mp hmem
  refine ⟨i, hi, hslot, (h.indexed entry.1 i).mpr ?_⟩
  rw [hslot]
  rfl

/-- The entry that the index finds for a key splits the order and the list at the same point. -/
theorem split (h : cache.Represents order entries) {key : String} {i : Nat}
    (hindex : cache.index[key]? = some i) :
    ∃ front back efront eback value, order = front ++ i :: back ∧
      entries = efront ++ (key, value) :: eback ∧ cache.entryAt i = some (key, value) ∧
      front.map cache.entryAt = efront.map some ∧ back.map cache.entryAt = eback.map some := by
  obtain ⟨⟨key', value⟩, hentry, hkey⟩ := Option.map_eq_some_iff.mp ((h.indexed key i).mp hindex)
  cases hkey
  obtain ⟨front, back, rfl⟩ := List.append_of_mem (h.complete i (lt_size_of_entryAt hentry))
  have hcontents := h.contents
  rw [List.map_append, List.map_cons, hentry] at hcontents
  obtain ⟨efront, erest, rfl, hfront, hrest⟩ := List.map_eq_append_iff.mp hcontents.symm
  obtain ⟨entry, eback, rfl, hfirst, hback⟩ := List.map_eq_cons_iff.mp hrest
  cases hfirst
  exact ⟨front, back, efront, eback, value, rfl, rfl, hentry, hfront.symm, hback.symm⟩

/-- A cache with the same entries that is linked in another order represents the list in that
order. -/
theorem relink (h : cache.Represents order entries) {cache' : Cache α} {order' : List Nat}
    {entries' : List (String × α)} (hsame : SameEntries cache cache')
    (hlinked : cache'.Linked order') (hperm : order'.Perm order)
    (hcontents : order'.map cache.entryAt = entries'.map some) :
    cache'.Represents order' entries' := by
  refine ⟨hlinked, ?_, ?_, ?_⟩
  · intro i hi
    rw [hsame.size] at hi
    exact hperm.mem_iff.mpr (h.complete i hi)
  · rw [hsame.entryAt]
    exact hcontents
  · rw [hsame.index, hsame.entryAt]
    exact h.indexed

/-- Looking a key up gives what the list gives and leaves the cache with the list that is left
there. -/
theorem lookup (h : cache.Represents order entries) (key : String) :
    (cache.lookup key).1 = (Recent.lookup entries key).1 ∧
      ∃ order', (cache.lookup key).2.Represents order' (Recent.lookup entries key).2 := by
  cases hindex : cache.index[key]? with
  | none =>
    have hmissing : ∀ entry ∈ entries, entry.1 ≠ key := by
      rintro entry hentry rfl
      obtain ⟨i, _, _, hi⟩ := h.exists_slot hentry
      rw [hindex] at hi
      cases hi
    rw [Recent.lookup_of_notMem hmissing]
    simp only [Cache.lookup, hindex, true_and]
    exact ⟨order, h⟩
  | some i =>
    obtain ⟨front, back, efront, eback, value, rfl, rfl, hentry, hfront, hback⟩ := h.split hindex
    have hfirst : ∀ entry ∈ efront, entry.1 ≠ key := by
      rintro entry hmem rfl
      have hslot : some entry ∈ front.map cache.entryAt := hfront ▸ List.mem_map_of_mem hmem
      obtain ⟨j, hj, hjentry⟩ := List.mem_map.mp hslot
      have hjindex : cache.index[entry.1]? = some j := (h.indexed _ j).mpr (by rw [hjentry]; rfl)
      rw [hindex] at hjindex
      cases hjindex
      exact (List.nodup_middle.mp h.linked.nodup).notMem (List.mem_append_left back hj)
    have hvalue : cache.slots[i]?.map (·.value) = some value := by
      have hsnd := congrArg (Option.map Prod.snd) hentry
      simpa [entryAt, Option.map_map, Function.comp_def] using hsnd
    rw [Recent.lookup_of_mem value hfirst]
    simp only [Cache.lookup, hindex, hvalue, true_and]
    refine ⟨i :: (front ++ back), h.relink (promote_sameEntries cache i) h.linked.promote
      List.perm_middle.symm ?_⟩
    simp [hentry, hfront, hback]

/-- Forgetting the oldest entry drops the last one of the list. -/
theorem evictOldest (h : cache.Represents order entries) :
    ∃ order', cache.evictOldest.Represents order' entries.dropLast := by
  obtain rfl | ⟨front, i, rfl⟩ := order.eq_nil_or_concat'
  · have hentries : entries = [] := by simpa using h.contents.symm
    have holdest : cache.oldest = none := h.linked.newer
    subst hentries
    exact ⟨[], by simpa [Cache.evictOldest, holdest] using h⟩
  · have hcontents := h.contents
    rw [List.map_append] at hcontents
    obtain ⟨efront, elast, rfl, hfront, hlast⟩ := List.map_eq_append_iff.mp hcontents.symm
    obtain ⟨entry, erest, rfl, hentry, hrest⟩ := List.map_eq_cons_iff.mp hlast
    obtain rfl : erest = [] := List.map_eq_nil_iff.mp hrest
    have hi : i < cache.size := h.linked.inside i (by simp)
    obtain ⟨n, hn⟩ : ∃ n, cache.size = n + 1 := ⟨cache.size - 1, by omega⟩
    have hout : i ∉ front := by simpa using (List.nodup_middle.mp h.linked.nodup).notMem
    have hall : ∀ j ≤ n, j ≠ i → j ∈ front := by
      intro j hj hne
      simpa [hne] using h.complete j (by omega)
    have hcut := cutOldest_linked h.linked entry.1
    have hsize : (cache.cutOldest i entry.1).size = n + 1 :=
      (unlink_sameEntries cache i).size.trans hn
    have hslots : (cache.cutOldest i entry.1).entryAt = cache.entryAt :=
      (unlink_sameEntries cache i).entryAt
    rw [evictOldest_eq h.linked hentry.symm, List.dropLast_concat]
    have hmoved := hcut.moveLast hsize (by omega) hout hall
    refine ⟨front.map (Function.update id n i), hmoved, ?_, ?_, ?_⟩
    · intro j hj
      rw [size_moveLast hsize (by omega)] at hj
      exact mem_rename hall hj
    · rw [hfront, List.map_map, entryAt_moveLast hsize (by omega), hslots]
      refine List.map_congr_left fun j hj => ?_
      have hji : j ≠ i := fun heq => hout (heq ▸ hj)
      exact moved_rename hji
    · intro key j
      rw [index_moveLast hsize (by omega), entryAt_moveLast hsize (by omega), hslots,
        index_cutOldest]
      refine indexed_moved h.indexed (by omega) ?_
      rw [← hentry]
      rfl

/-- Forgetting the oldest entry over and over leaves the front of the list. -/
theorem evictions (h : cache.Represents order entries) (k : Nat) :
    ∃ order', (Nat.repeat Cache.evictOldest k cache).Represents order'
      (entries.take (entries.length - k)) := by
  induction k with
  | zero => exact ⟨order, by simpa [Nat.repeat] using h⟩
  | succ k ih =>
    obtain ⟨order', hk⟩ := ih
    have hshorter : (entries.take (entries.length - k)).dropLast =
        entries.take (entries.length - (k + 1)) := by
      rw [List.dropLast_eq_take, List.take_take, List.length_take]
      congr 1
      omega
    exact hshorter ▸ hk.evictOldest

/-- Making room drops as much of the list as has to go. -/
theorem makeRoom (h : cache.Represents order entries) :
    ∃ order', cache.makeRoom.Represents order' (Recent.makeRoom cache.capacity entries) := by
  cases hcapacity : cache.capacity with
  | none => exact ⟨order, by simpa [Cache.makeRoom, Recent.makeRoom, hcapacity] using h⟩
  | some n =>
    have hn : n ≠ 0 := fun hzero => cache.capacity_ne_zero (hzero ▸ hcapacity)
    have htake : entries.take (entries.length - (cache.size + 1 - n)) = entries.take (n - 1) := by
      rw [List.take_eq_take_iff, h.size_eq]
      omega
    have hevicted := h.evictions (cache.size + 1 - n)
    rw [htake] at hevicted
    simpa [Cache.makeRoom, Recent.makeRoom, hcapacity] using hevicted

/-- An entry for a new key is added in front of the list. -/
theorem push (h : cache.Represents order entries) {key : String} (value : α)
    (hkey : ∀ entry ∈ entries, entry.1 ≠ key) :
    (cache.push key value).Represents (cache.size :: order) ((key, value) :: entries) := by
  have hsize : (cache.addSlot key value).size = cache.size + 1 := size_addSlot cache key value
  have hout : cache.size ∉ order := fun hmem => Nat.lt_irrefl _ (h.linked.inside _ hmem)
  have hsame := linkFirst_sameEntries (cache.addSlot key value) cache.size
  have hlinked := (addSlot_linked h.linked key value).linkFirst (by omega) hout
  rw [push_eq]
  refine ⟨hlinked, ?_, ?_, ?_⟩
  · intro i hi
    rw [hsame.size, hsize] at hi
    by_cases heq : i = cache.size
    · exact heq ▸ List.mem_cons_self
    · exact List.mem_cons_of_mem _ (h.complete i (by omega))
  · have hkeep : ∀ i ∈ order, (cache.addSlot key value).entryAt i = cache.entryAt i := by
      intro i hi
      rw [entryAt_addSlot, Function.update_of_ne (Nat.ne_of_lt (h.linked.inside i hi))]
    rw [hsame.entryAt, List.map_cons, List.map_cons, List.map_congr_left hkeep, h.contents,
      entryAt_addSlot, Function.update_self]
  · intro key' i
    have hfree : cache.entryAt cache.size = none := by simp [entryAt, size]
    have hmissing : cache.index[key]? = none := by
      rw [Option.eq_none_iff_forall_not_mem]
      intro j hj
      obtain ⟨_, _, efront, eback, value', _, rfl, _⟩ := h.split hj
      exact hkey (key, value') (by simp) rfl
    rw [hsame.index, hsame.entryAt, entryAt_addSlot]
    have hindex : (cache.addSlot key value).index[key']? =
        if key = key' then some cache.size else cache.index[key']? := by
      simp [addSlot, Std.HashMap.getElem?_insert]
    have hfound := h.indexed key' i
    have hnone := h.indexed key i
    rw [hindex, Function.update_apply]
    grind

end Represents

end Questlog.Cache
