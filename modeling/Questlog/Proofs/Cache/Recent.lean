namespace Questlog.Recent

variable {α : Type} {entries : List (String × α)} {key : String}

/-- Looks a key up. A hit moves the entry to the front; a miss changes nothing. This is the cache as
a plain list of its entries, the most recently used one first. -/
def lookup (entries : List (String × α)) (key : String) : Option α × List (String × α) :=
  match entries.find? (·.1 = key) with
  | some entry => (some entry.2, entry :: entries.eraseP (·.1 = key))
  | none => (none, entries)

/-- Drops entries from the back as long as there are as many as the capacity or more. -/
def makeRoom (capacity : Option Nat) (entries : List (String × α)) : List (String × α) :=
  match capacity with
  | some n => entries.take (n - 1)
  | none => entries

/-- Adds an entry in front, unless its key has one already; gives the value that is now held. -/
def insert (capacity : Option Nat) (entries : List (String × α)) (key : String) (value : α) :
    α × List (String × α) :=
  match lookup entries key with
  | (some existing, entries) => (existing, entries)
  | (none, entries) => (value, (key, value) :: makeRoom capacity entries)

/-- An entry that is found moves to the front. -/
theorem lookup_of_mem {front back : List (String × α)} (value : α)
    (hfront : ∀ entry ∈ front, entry.1 ≠ key) :
    lookup (front ++ (key, value) :: back) key =
      (some value, (key, value) :: (front ++ back)) := by
  have hfind : front.find? (·.1 = key) = none := by simpa using hfront
  have herase : (front ++ (key, value) :: back).eraseP (·.1 = key) = front ++ back := by
    rw [List.eraseP_append_right _ (by simpa using hfront)]
    simp
  simp [lookup, List.find?_append, hfind, herase]

/-- A key that no entry has is not found, and nothing moves. -/
theorem lookup_of_notMem (hentries : ∀ entry ∈ entries, entry.1 ≠ key) :
    lookup entries key = (none, entries) := by
  have hfind : entries.find? (·.1 = key) = none := by simpa using hentries
  simp [lookup, hfind]

/-- Nothing is found only if no entry has the key. -/
theorem notMem_of_lookup {rest : List (String × α)} (h : lookup entries key = (none, rest)) :
    rest = entries ∧ ∀ entry ∈ entries, entry.1 ≠ key := by
  unfold lookup at h
  split at h
  · cases h
  · next hfind =>
    cases h
    exact ⟨rfl, by simpa using hfind⟩

/-- Making room drops entries and changes no order. -/
theorem makeRoom_sublist (capacity : Option Nat) (entries : List (String × α)) :
    (makeRoom capacity entries).Sublist entries := by
  unfold makeRoom
  split
  · exact List.take_sublist _ _
  · exact List.Sublist.refl _

/-- What is found is an entry of the list. -/
theorem mem_of_lookup {value : α} (h : (lookup entries key).1 = some value) :
    (key, value) ∈ entries := by
  unfold lookup at h
  split at h
  · next entry hfind =>
    cases h
    have hkey : entry.1 = key := by simpa using List.find?_some hfind
    exact hkey ▸ List.mem_of_find?_eq_some hfind
  · cases h

theorem lookup_subset : (lookup entries key).2 ⊆ entries := by
  unfold lookup
  split
  · next entry hfind =>
    intro other hother
    obtain rfl | hrest := List.mem_cons.mp hother
    · exact List.mem_of_find?_eq_some hfind
    · exact List.mem_of_mem_eraseP hrest
  · exact List.Subset.refl entries

/-- The value held after adding one is that one or was there under its key. -/
theorem insert_value (capacity : Option Nat) (value : α) :
    (insert capacity entries key value).1 = value ∨
      (key, (insert capacity entries key value).1) ∈ entries := by
  unfold insert
  split
  · next existing rest heq =>
    exact Or.inr (mem_of_lookup (by rw [heq]))
  · exact Or.inl rfl

/-- After an insertion there is the new entry besides those that were there. -/
theorem mem_insert {capacity : Option Nat} {value : α} {entry : String × α}
    (h : entry ∈ (insert capacity entries key value).2) :
    entry = (key, value) ∨ entry ∈ entries := by
  have hsubset : (lookup entries key).2 ⊆ entries := lookup_subset
  unfold insert at h
  split at h
  · next existing rest heq =>
    rw [heq] at hsubset
    exact Or.inr (hsubset h)
  · next rest heq =>
    rw [heq] at hsubset
    obtain rfl | hrest := List.mem_cons.mp h
    · exact Or.inl rfl
    · exact Or.inr (hsubset ((makeRoom_sublist capacity rest).subset hrest))

end Questlog.Recent
