import Mathlib.Data.List.Nodup

namespace Questlog.Cache

variable {α : Type} {i n : Nat}

/-- The slots of an order that do not stand at the last place keep their numbers. -/
theorem map_rename_of_notMem {part : List Nat} (hpart : n ∉ part) :
    part.map (Function.update id n i) = part := by
  have hkeep : ∀ j ∈ part, Function.update id n i j = id j := by
    intro j hj
    have hne : j ≠ n := fun heq => hpart (heq ▸ hj)
    exact Function.update_of_ne hne i id
  rw [List.map_congr_left hkeep, List.map_id]

/-- Slot `i` takes over from the last slot `n`, and stands in the order where that one stood. -/
theorem map_rename {front back : List Nat} (hnodup : (front ++ n :: back).Nodup) :
    (front ++ n :: back).map (Function.update id n i) = front ++ i :: back := by
  have hgone : n ∉ front ++ back := (List.nodup_middle.mp hnodup).notMem
  simp only [List.mem_append, not_or] at hgone
  rw [List.map_append, List.map_cons, map_rename_of_notMem hgone.1, map_rename_of_notMem hgone.2,
    Function.update_self]

/-- No slot comes twice in the order after that. -/
theorem nodup_rename {front back : List Nat} (hnodup : (front ++ n :: back).Nodup)
    (hout : i ∉ front ++ n :: back) : (front ++ i :: back).Nodup := by
  refine List.nodup_middle.mpr (List.nodup_cons.mpr ⟨?_, (List.nodup_middle.mp hnodup).of_cons⟩)
  simp only [List.mem_append, List.mem_cons, not_or] at hout ⊢
  exact ⟨hout.1, hout.2.2⟩

/-- After the last slot has moved, all numbers below it are in use. -/
theorem mem_rename {front : List Nat} (hall : ∀ j ≤ n, j ≠ i → j ∈ front) {j : Nat} (hj : j < n) :
    j ∈ front.map (Function.update id n i) := by
  rw [List.mem_map]
  by_cases hji : j = i
  · subst hji
    exact ⟨n, hall n (Nat.le_refl n) (Nat.ne_of_gt hj), Function.update_self _ _ _⟩
  · exact ⟨j, hall j (Nat.le_of_lt hj) hji, Function.update_of_ne (Nat.ne_of_lt hj) _ _⟩

/-- What was in a slot is in the slot with its new number. -/
theorem moved_rename {β : Type} {content : Nat → Option β} {j : Nat} (hji : j ≠ i) :
    Function.update (Function.update content i (content n)) n none (Function.update id n i j) =
      content j := by
  by_cases hjn : j = n
  · subst hjn
    rw [Function.update_self, Function.update_of_ne hji.symm, Function.update_self]
  · rw [Function.update_of_ne hjn, id_eq, Function.update_of_ne hjn, Function.update_of_ne hji]

/-- An index that is exact stays so when the entry in slot `i` is dropped and the one in slot `n`
moves there. -/
theorem indexed_moved {content : Nat → Option (String × α)} {index : String → Option Nat}
    (hindex : ∀ key j, index key = some j ↔ (content j).map (·.1) = some key) (hi : i ≤ n)
    {old : String} (hold : (content i).map (·.1) = some old) {key : String} {j : Nat} :
    (if i < n ∧ (content n).map (·.1) = some key then some i
      else if old = key then none else index key) = some j ↔
    (Function.update (Function.update content i (content n)) n none j).map (·.1) = some key := by
  have hunique : ∀ j k, (content j).map (·.1) = some key → (content k).map (·.1) = some key →
      j = k := by
    intro j k hj hk
    exact Option.some.inj (((hindex key j).mpr hj).symm.trans ((hindex key k).mpr hk))
  simp only [Function.update_apply]
  by_cases hlast : i < n ∧ (content n).map (·.1) = some key
  · have hin : n ≠ i := by omega
    grind
  · have hfound := hindex key j
    grind

end Questlog.Cache
