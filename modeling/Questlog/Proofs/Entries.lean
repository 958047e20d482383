import Questlog.Entries

namespace Questlog.Entries

variable {α : Type} {entries more : List (String × α)} {name : String} {a : α}

/-- A name that is not there is appended. -/
theorem put_of_notMem (h : name ∉ names entries) : put entries name a = entries ++ [(name, a)] := by
  induction entries with
  | nil => rfl
  | cons first rest ih =>
    have hne : first.1 ≠ name := Ne.symm (List.ne_of_not_mem_cons h)
    rw [put, if_neg hne, ih (List.not_mem_of_not_mem_cons h), List.cons_append]

/-- A name that is there keeps its place. -/
theorem names_put_of_mem (h : name ∈ names entries) : names (put entries name a) = names entries := by
  induction entries with
  | nil => cases h
  | cons first rest ih =>
    rw [put]
    split
    · next heq => rw [← heq]; rfl
    · next hne =>
      have hrest : name ∈ names rest := (List.mem_cons.mp h).resolve_left (Ne.symm hne)
      exact congrArg (first.1 :: ·) (ih hrest)

/-- Names stay distinct. -/
theorem nodup_names_put (h : (names entries).Nodup) : (names (put entries name a)).Nodup := by
  by_cases hmem : name ∈ names entries
  · rw [names_put_of_mem hmem]
    exact h
  · rw [put_of_notMem hmem, names, List.map_append, List.nodup_append]
    refine ⟨h, List.pairwise_singleton _ name, ?_⟩
    rintro other hother last hlast rfl
    rw [List.mem_singleton.mp hlast] at hother
    exact hmem hother

theorem mem_put {entry : String × α} (h : entry ∈ put entries name a) :
    entry = (name, a) ∨ entry ∈ entries := by
  induction entries with
  | nil => exact .inl (List.mem_singleton.mp h)
  | cons first rest ih =>
    rw [put] at h
    split at h
    · exact (List.mem_cons.mp h).imp_right (List.mem_cons_of_mem first)
    · rcases List.mem_cons.mp h with rfl | hrest
      · exact .inr List.mem_cons_self
      · exact (ih hrest).imp_right (List.mem_cons_of_mem first)

theorem notMem_names_of_nodup {entry : String × α} (h : (names (entries ++ entry :: more)).Nodup) :
    entry.1 ∉ names entries := by
  intro hmem
  rw [names, List.map_append] at h
  exact (List.nodup_append.mp h).2.2 entry.1 hmem entry.1 List.mem_cons_self rfl

/-- Where names are distinct, each entry is the one that is found under its name. -/
theorem lookup_of_nodup {entry : String × α} (h : (names entries).Nodup) (hentry : entry ∈ entries) :
    entries.lookup entry.1 = some entry.2 := by
  obtain ⟨front, back, rfl⟩ := List.append_of_mem hentry
  refine List.lookup_eq_some_iff.mpr ⟨front, back, rfl, fun other hother => ?_⟩
  have hnew := notMem_names_of_nodup h
  rw [bne_iff_ne]
  intro heq
  exact hnew (heq ▸ List.mem_map_of_mem hother)

theorem mem_of_lookup (h : entries.lookup name = some a) : (name, a) ∈ entries := by
  obtain ⟨front, back, rfl, -⟩ := List.lookup_eq_some_iff.mp h
  exact List.mem_append_right front List.mem_cons_self

/-- A name that no entry has is not found. -/
theorem lookup_eq_none_of_notMem (h : name ∉ names entries) : entries.lookup name = none := by
  cases hlookup : entries.lookup name with
  | none => rfl
  | some a => exact absurd (List.mem_map_of_mem (mem_of_lookup hlookup)) h

/-- Where names are distinct, their order does not matter. -/
theorem lookup_reverse (h : (names entries).Nodup) (name : String) :
    entries.reverse.lookup name = entries.lookup name := by
  have hreverse : (names entries.reverse).Nodup := by
    rw [names, List.map_reverse]
    exact (List.reverse_perm _).nodup_iff.mpr h
  cases hlookup : entries.lookup name with
  | some a => exact lookup_of_nodup hreverse (List.mem_reverse.mpr (mem_of_lookup hlookup))
  | none =>
    refine lookup_eq_none_of_notMem fun hmem => ?_
    rw [names, List.map_reverse, List.mem_reverse] at hmem
    obtain ⟨entry, hentry, rfl⟩ := List.mem_map.mp hmem
    rw [lookup_of_nodup h hentry] at hlookup
    cases hlookup

/-- Putting entries with names of their own, one after the other, appends them. -/
theorem foldl_put_of_nodup (h : (names (entries ++ more)).Nodup) :
    more.foldl (fun acc e => put acc e.1 e.2) entries = entries ++ more := by
  induction more generalizing entries with
  | nil => rw [List.foldl_nil, List.append_nil]
  | cons first more ih =>
    have hassoc : entries ++ first :: more = entries ++ [first] ++ more := by simp
    rw [List.foldl_cons, put_of_notMem (notMem_names_of_nodup h), ih (hassoc ▸ h), hassoc]

/-- A list whose names are distinct is taken as it is. -/
theorem ofList_of_nodup (h : (names entries).Nodup) : ofList entries = entries :=
  foldl_put_of_nodup h

/-- The names of a list that is made of entries are distinct. -/
theorem nodup_names_ofList (entries : List (String × α)) : (names (ofList entries)).Nodup := by
  have hfold : ∀ (more acc : List (String × α)), (names acc).Nodup →
      (names (more.foldl (fun acc e => put acc e.1 e.2) acc)).Nodup := by
    intro more
    induction more with
    | nil => exact fun acc h => h
    | cons first more ih => exact fun acc h => ih _ (nodup_names_put h)
  exact hfold entries [] List.nodup_nil

/-- Entries may get lost on the way, but none is made up. -/
theorem ofList_subset (entries : List (String × α)) : ofList entries ⊆ entries := by
  have hfold : ∀ (more acc : List (String × α)),
      more.foldl (fun acc e => put acc e.1 e.2) acc ⊆ acc ++ more := by
    intro more
    induction more with
    | nil => simp
    | cons first more ih =>
      intro acc entry hentry
      rcases List.mem_append.mp (ih _ hentry) with hacc | hmore
      · rcases mem_put hacc with rfl | hacc
        · exact List.mem_append_right _ List.mem_cons_self
        · exact List.mem_append_left _ hacc
      · exact List.mem_append_right _ (List.mem_cons_of_mem _ hmore)
  exact hfold entries []

theorem lookup_cons_eq_ite (first : String × α) (rest : List (String × α)) (other : String) :
    (first :: rest).lookup other = if other = first.1 then some first.2 else rest.lookup other := by
  by_cases h : other = first.1
  · rw [if_pos h, h]
    exact List.lookup_cons_self
  · rw [if_neg h, List.lookup_cons, beq_false_of_ne h]

/-- What is put under a name is found there, and what other names have stays. -/
theorem lookup_put (entries : List (String × α)) (name : String) (a : α) (other : String) :
    (put entries name a).lookup other = if other = name then some a else entries.lookup other := by
  induction entries with
  | nil => exact lookup_cons_eq_ite (name, a) [] other
  | cons first rest ih =>
    rw [put]
    split
    · next heq =>
      rw [lookup_cons_eq_ite, lookup_cons_eq_ite, heq]
      split <;> rfl
    · next hne =>
      rw [lookup_cons_eq_ite, lookup_cons_eq_ite, ih]
      by_cases hfirst : other = first.1
      · rw [if_pos hfirst, if_neg (hfirst ▸ hne), if_pos hfirst]
      · rw [if_neg hfirst, if_neg hfirst]

/-- What is put is found. -/
theorem lookup_putSorted (entries : List (String × α)) (name : String) (a : α) :
    (putSorted entries name a).lookup name = some a := by
  induction entries with
  | nil => simp [putSorted]
  | cons first rest ih =>
    unfold putSorted
    split
    · simp
    · split
      · simp
      · next hne =>
        have hother : (name == first.1) = false := beq_eq_false_iff_ne.mpr (Ne.symm hne)
        rw [List.lookup_cons, hother]
        exact ih

/-- Putting the same entry once more changes nothing. -/
theorem putSorted_twice (entries : List (String × α)) (name : String) (a : α) :
    putSorted (putSorted entries name a) name a = putSorted entries name a := by
  have hself : ∀ rest, putSorted ((name, a) :: rest) name a = (name, a) :: rest := by
    intro rest
    rw [putSorted, if_neg (String.lt_irrefl name), if_pos rfl]
  induction entries with
  | nil => exact hself []
  | cons first rest ih =>
    rw [putSorted]
    split
    · exact hself _
    · next hnotBefore =>
      split
      · exact hself _
      · next hne => rw [putSorted, if_neg hnotBefore, if_neg hne, ih]

section Sorted

theorem mem_putSorted {entry : String × α} (h : entry ∈ putSorted entries name a) :
    entry = (name, a) ∨ entry ∈ entries := by
  induction entries with
  | nil => exact .inl (List.mem_singleton.mp h)
  | cons first rest ih =>
    unfold putSorted at h
    split at h
    · exact List.mem_cons.mp h
    · split at h
      · rcases List.mem_cons.mp h with heq | hrest
        · exact .inl heq
        · exact .inr (List.mem_cons_of_mem _ hrest)
      · rcases List.mem_cons.mp h with rfl | hrest
        · exact .inr List.mem_cons_self
        · exact (ih hrest).imp_right (List.mem_cons_of_mem _)

/-- Sorting entries adds none. -/
theorem sorted_subset (entries : List (String × α)) : sorted entries ⊆ entries := by
  have hfold : ∀ (more acc : List (String × α)),
      more.foldl (fun acc e => putSorted acc e.1 e.2) acc ⊆ acc ++ more := by
    intro more
    induction more with
    | nil => simp
    | cons first rest ih =>
      intro acc entry hentry
      have hmem := ih (putSorted acc first.1 first.2) hentry
      rcases List.mem_append.mp hmem with hacc | hrest
      · rcases mem_putSorted hacc with rfl | hacc
        · simp
        · exact List.mem_append_left _ hacc
      · exact List.mem_append_right _ (List.mem_cons_of_mem _ hrest)
  exact hfold entries []

/-- Each name precedes those behind it. -/
def Ascending (entries : List (String × α)) : Prop :=
  entries.Pairwise fun e later => e.1 < later.1

theorem ascending_putSorted (h : Ascending entries) : Ascending (putSorted entries name a) := by
  induction entries with
  | nil => exact List.pairwise_singleton _ _
  | cons first rest ih =>
    obtain ⟨hfirst, hrest⟩ := List.pairwise_cons.mp h
    unfold putSorted
    split
    · next hlt =>
      refine List.pairwise_cons.mpr ⟨fun entry hentry => ?_, h⟩
      rcases List.mem_cons.mp hentry with rfl | hentry
      · exact hlt
      · exact String.lt_trans hlt (hfirst entry hentry)
    · next hnotBefore =>
      split
      · next heq => exact List.pairwise_cons.mpr ⟨fun entry hentry => heq ▸ hfirst entry hentry, hrest⟩
      · next hne =>
        have hlt : first.1 < name := by
          apply Classical.byContradiction
          intro hge
          exact hne (String.le_antisymm (String.not_lt.mp hnotBefore) (String.not_lt.mp hge))
        refine List.pairwise_cons.mpr ⟨fun entry hentry => ?_, ih hrest⟩
        rcases mem_putSorted hentry with rfl | hentry
        · exact hlt
        · exact hfirst entry hentry

/-- What is sorted ascends. -/
theorem ascending_sorted (entries : List (String × α)) : Ascending (sorted entries) := by
  have hfold : ∀ (more acc : List (String × α)), Ascending acc →
      Ascending (more.foldl (fun acc e => putSorted acc e.1 e.2) acc) := by
    intro more
    induction more with
    | nil => exact fun acc h => h
    | cons first more ih => exact fun acc h => ih _ (ascending_putSorted h)
  exact hfold entries [] List.Pairwise.nil

/-- A name behind all others is put at the end. -/
theorem putSorted_of_lt (h : ∀ entry ∈ entries, entry.1 < name) :
    putSorted entries name a = entries ++ [(name, a)] := by
  induction entries with
  | nil => rfl
  | cons first rest ih =>
    have hlt : first.1 < name := h first List.mem_cons_self
    have hne : first.1 ≠ name := fun heq => String.lt_irrefl name (heq ▸ hlt)
    rw [putSorted, if_neg (String.lt_asymm hlt), if_neg hne,
      ih fun entry hentry => h entry (List.mem_cons_of_mem _ hentry), List.cons_append]

/-- Entries that ascend are left as they are. -/
theorem sorted_of_ascending (h : Ascending entries) : sorted entries = entries := by
  have hfold : ∀ (more acc : List (String × α)), Ascending (acc ++ more) →
      more.foldl (fun acc e => putSorted acc e.1 e.2) acc = acc ++ more := by
    intro more
    induction more with
    | nil => exact fun acc _ => (List.append_nil acc).symm
    | cons first more ih =>
      intro acc hacc
      have hassoc : acc ++ first :: more = acc ++ [first] ++ more := by simp
      have hlt : ∀ entry ∈ acc, entry.1 < first.1 := fun entry hentry =>
        (List.pairwise_append.mp hacc).2.2 entry hentry first List.mem_cons_self
      rw [List.foldl_cons, putSorted_of_lt hlt, ih _ (hassoc ▸ hacc), hassoc]
  exact hfold entries [] h

/-- Putting a new name adds its entry and takes none away. -/
theorem putSorted_perm (h : name ∉ names entries) :
    (putSorted entries name a).Perm ((name, a) :: entries) := by
  induction entries with
  | nil => exact List.Perm.refl _
  | cons first rest ih =>
    unfold putSorted
    split
    · exact List.Perm.refl _
    · rw [if_neg (Ne.symm (List.ne_of_not_mem_cons h))]
      exact ((ih (List.not_mem_of_not_mem_cons h)).cons first).trans (List.Perm.swap _ _ _)

/-- Sorting rearranges entries whose names are distinct. -/
theorem sorted_perm (h : (names entries).Nodup) : (sorted entries).Perm entries := by
  have hfold : ∀ (more acc : List (String × α)), (names (acc ++ more)).Nodup →
      (more.foldl (fun acc e => putSorted acc e.1 e.2) acc).Perm (acc ++ more) := by
    intro more
    induction more with
    | nil => exact fun acc _ => (List.append_nil acc).symm ▸ List.Perm.refl acc
    | cons first more ih =>
      intro acc hacc
      have hnew := notMem_names_of_nodup hacc
      have hput : (putSorted acc first.1 first.2 ++ more).Perm (acc ++ first :: more) :=
        ((putSorted_perm hnew).append_right more).trans List.perm_middle.symm
      have hnames : (names (putSorted acc first.1 first.2 ++ more)).Nodup :=
        ((hput.map Prod.fst).nodup_iff).mpr hacc
      exact (ih _ hnames).trans hput
  exact hfold entries [] h

end Sorted

end Questlog.Entries
