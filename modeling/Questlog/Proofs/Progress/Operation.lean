import Questlog.Progress.Export
import Questlog.Progress.File
import Questlog.Proofs.Json.Fits

namespace Questlog.Progress

/-- What can be done with progress that has been opened. -/
inductive Operation where
  | setCompleted (key : String) (completed : Bool)
  | markAll (keys : List String)
  | replaceCompleted (keys : List String)
  | setGameMode (gameMode : Int64)
  | setLastRegion (region : Int64)
  | importText (text checklist : String)

/-- The progress after an operation. An import that is refused changes nothing. -/
def perform (progress : Progress) : Operation → Progress
  | .setCompleted key completed => (progress.setCompleted key completed).2
  | .markAll keys => progress.markAll keys
  | .replaceCompleted keys => progress.replaceCompleted keys
  | .setGameMode gameMode => progress.setProgression (some gameMode) none
  | .setLastRegion region => progress.setProgression none (some region)
  | .importText text checklist =>
    match progress.importText text checklist with
    | .ok (_, imported) => imported
    | .error _ => progress

/-- The progress after operations, one after the other. -/
def performAll (progress : Progress) (operations : List Operation) : Progress :=
  operations.foldl perform progress

/-- The names of the entries that a scope has in its file, without the scope. -/
def ownNames : List String :=
  ["completed", "gameMode", "lastRegion"]

/-- No key is completed twice, and the other entries of the file are those of one that was read: with
names that are distinct and not the scope's own, and with values that fit inside an object, which
takes one of the 127 levels that can be read. -/
structure Consistent (progress : Progress) : Prop where
  completed_nodup : progress.completed.Nodup
  foreign_nodup : (Entries.names progress.foreign).Nodup
  foreign_names : ∀ name ∈ ownNames,
    entryName progress.scope name ∉ Entries.names progress.foreign
  foreign_fits : ∀ entry ∈ progress.foreign, entry.2.Fits 126

variable {progress next : Progress}

section Frame

-- Marking touches the completed keys and nothing else.

/-- Marking a key changes the completed keys alone. -/
theorem mark_eq (progress : Progress) (key : String) :
    progress.mark key = { progress with completed := (progress.mark key).completed } := by
  unfold mark
  split <;> rfl

theorem markAll_eq (progress : Progress) (keys : List String) :
    progress.markAll keys = { progress with completed := (progress.markAll keys).completed } := by
  induction keys generalizing progress with
  | nil => rfl
  | cons key rest ih =>
    have hrest : progress.markAll (key :: rest) = (progress.mark key).markAll rest := rfl
    rw [hrest, ih, mark_eq progress key]

theorem setCompleted_eq (progress : Progress) (key : String) (completed : Bool) :
    (progress.setCompleted key completed).2 =
      { progress with completed := (progress.setCompleted key completed).2.completed } := by
  cases completed with
  | true => exact mark_eq progress key
  | false => rfl

theorem replaceCompleted_eq (progress : Progress) (keys : List String) :
    progress.replaceCompleted keys =
      { progress with completed := (progress.replaceCompleted keys).completed } :=
  markAll_eq _ keys

end Frame

section Operations

/-- The scope and the entries of other scopes are the same. -/
structure SameOwner (progress next : Progress) : Prop where
  scope : next.scope = progress.scope
  foreign : next.foreign = progress.foreign

theorem SameOwner.refl (progress : Progress) : SameOwner progress progress :=
  ⟨rfl, rfl⟩

theorem SameOwner.trans {last : Progress} (h : SameOwner progress next)
    (h' : SameOwner next last) : SameOwner progress last :=
  ⟨h'.scope.trans h.scope, h'.foreign.trans h.foreign⟩

/-- Progress stays consistent as long as the owner is the same and no key is there twice. -/
theorem Consistent.of_sameOwner (h : progress.Consistent) (hsame : SameOwner progress next)
    (hcompleted : next.completed.Nodup) : next.Consistent := by
  obtain ⟨hscope, hforeign⟩ := hsame
  refine ⟨hcompleted, ?_, ?_, ?_⟩
  · rw [hforeign]
    exact h.foreign_nodup
  · rw [hscope, hforeign]
    exact h.foreign_names
  · rw [hforeign]
    exact h.foreign_fits

/-- Marking puts no key there twice. -/
theorem nodup_mark (h : progress.completed.Nodup) (key : String) :
    (progress.mark key).completed.Nodup := by
  unfold mark
  split
  · exact h
  · next hnew =>
    refine List.nodup_append.mpr ⟨h, List.pairwise_singleton _ key, ?_⟩
    rintro other hother last hlast rfl
    rw [List.mem_singleton.mp hlast] at hother
    exact hnew (List.contains_iff_mem.mpr hother)

theorem markAll_sameOwner (progress : Progress) (keys : List String) :
    SameOwner progress (progress.markAll keys) := by
  rw [markAll_eq progress keys]
  exact ⟨rfl, rfl⟩

theorem nodup_markAll (h : progress.completed.Nodup) (keys : List String) :
    (progress.markAll keys).completed.Nodup := by
  induction keys generalizing progress with
  | nil => exact h
  | cons key rest ih => exact ih (nodup_mark h key)

theorem replaceCompleted_sameOwner (progress : Progress) (keys : List String) :
    SameOwner progress (progress.replaceCompleted keys) := by
  rw [replaceCompleted_eq progress keys]
  exact ⟨rfl, rfl⟩

theorem nodup_replaceCompleted (progress : Progress) (keys : List String) :
    (progress.replaceCompleted keys).completed.Nodup :=
  nodup_markAll List.nodup_nil keys

theorem setCompleted_sameOwner (progress : Progress) (key : String) (completed : Bool) :
    SameOwner progress (progress.setCompleted key completed).2 := by
  rw [setCompleted_eq progress key completed]
  exact ⟨rfl, rfl⟩

theorem nodup_setCompleted (h : progress.completed.Nodup) (key : String) (completed : Bool) :
    (progress.setCompleted key completed).2.completed.Nodup := by
  cases completed with
  | true => exact nodup_mark h key
  | false => exact h.sublist List.erase_sublist

/-- An import that is accepted replaces the completed keys. -/
theorem importText_eq_ok {text checklist : String} {count : Nat}
    (h : progress.importText text checklist = .ok (count, next)) :
    ∃ keys, next = progress.replaceCompleted keys := by
  unfold importText at h
  split at h
  · cases h
  · next keys _ =>
    obtain ⟨-, rfl⟩ := Prod.mk.inj (Except.ok.inj h)
    exact ⟨keys, rfl⟩

/-- No operation changes whose progress it is. -/
theorem perform_sameOwner (progress : Progress) (operation : Operation) :
    SameOwner progress (progress.perform operation) := by
  cases operation with
  | setCompleted key completed => exact setCompleted_sameOwner progress key completed
  | markAll keys => exact markAll_sameOwner progress keys
  | replaceCompleted keys => exact replaceCompleted_sameOwner progress keys
  | setGameMode gameMode => exact ⟨rfl, rfl⟩
  | setLastRegion region => exact ⟨rfl, rfl⟩
  | importText text checklist =>
    simp only [perform]
    split
    · next himport =>
      obtain ⟨keys, rfl⟩ := importText_eq_ok himport
      exact replaceCompleted_sameOwner progress keys
    · exact .refl progress

/-- No operation puts a key there twice. -/
theorem nodup_perform (h : progress.completed.Nodup) (operation : Operation) :
    (progress.perform operation).completed.Nodup := by
  cases operation with
  | setCompleted key completed => exact nodup_setCompleted h key completed
  | markAll keys => exact nodup_markAll h keys
  | replaceCompleted keys => exact nodup_replaceCompleted progress keys
  | setGameMode gameMode => exact h
  | setLastRegion region => exact h
  | importText text checklist =>
    simp only [perform]
    split
    · next himport =>
      obtain ⟨keys, rfl⟩ := importText_eq_ok himport
      exact nodup_replaceCompleted progress keys
    · exact h

/-- Whatever is done with progress, it keeps its scope and the entries of other scopes. -/
theorem performAll_sameOwner (progress : Progress) (operations : List Operation) :
    SameOwner progress (progress.performAll operations) := by
  induction operations generalizing progress with
  | nil => exact .refl progress
  | cons operation rest ih =>
    exact (perform_sameOwner progress operation).trans (ih (progress.perform operation))

/-- Every operation keeps progress consistent. -/
theorem Consistent.perform (h : progress.Consistent) (operation : Operation) :
    (progress.perform operation).Consistent :=
  h.of_sameOwner (perform_sameOwner progress operation) (nodup_perform h.completed_nodup operation)

/-- Any sequence of operations keeps progress consistent. -/
theorem Consistent.performAll (h : progress.Consistent) (operations : List Operation) :
    (progress.performAll operations).Consistent := by
  induction operations generalizing progress with
  | nil => exact h
  | cons operation rest ih => exact ih (h.perform operation)

end Operations

section Opening

variable {entries : List (String × Json)} {name : String} {value : Json}

theorem nodup_eraseDups (keys : List String) : keys.eraseDups.Nodup := by
  induction hlength : keys.length using Nat.strongRecOn generalizing keys with
  | ind n ih =>
    cases keys with
    | nil => exact List.nodup_nil
    | cons key rest =>
      have hlt : (rest.filter fun other => !other == key).length < n := by
        have hle := List.length_filter_le (fun other => !other == key) rest
        rw [List.length_cons] at hlength
        omega
      rw [List.eraseDups_cons, List.nodup_cons]
      refine ⟨fun hmem => ?_, ih _ hlt _ rfl⟩
      have hkept := (List.mem_filter.mp (List.mem_eraseDups.mp hmem)).2
      simp at hkept

/-- Completed keys that are read from a file are distinct. -/
theorem nodup_completedOf (value : Json) : (completedOf value).Nodup := by
  unfold completedOf
  split
  · exact nodup_eraseDups _
  · exact List.nodup_nil

theorem consistent_empty (scope : String) : ({ scope } : Progress).Consistent :=
  ⟨List.nodup_nil, List.nodup_nil, fun _ _ => List.not_mem_nil, List.forall_mem_nil _⟩

theorem scope_readEntry (progress : Progress) (name : String) (value : Json) :
    (progress.readEntry name value).scope = progress.scope := by
  unfold readEntry
  split
  · rfl
  split
  · rfl
  split <;> rfl

/-- Reading one more entry of a file keeps progress consistent. -/
theorem Consistent.readEntry (h : progress.Consistent) (hvalue : value.Fits 126) (name : String) :
    (progress.readEntry name value).Consistent := by
  unfold Progress.readEntry
  split
  · exact h.of_sameOwner ⟨rfl, rfl⟩ (nodup_completedOf value)
  split
  · exact h.of_sameOwner ⟨rfl, rfl⟩ h.completed_nodup
  split
  · exact h.of_sameOwner ⟨rfl, rfl⟩ h.completed_nodup
  next hcompleted hgameMode hlastRegion =>
  refine ⟨h.completed_nodup, Entries.nodup_names_put h.foreign_nodup, ?_, ?_⟩
  · intro own hown hmem
    obtain ⟨entry, hentry, hname⟩ := List.mem_map.mp hmem
    rcases Entries.mem_put hentry with rfl | hforeign
    · simp only [ownNames, List.mem_cons, List.not_mem_nil, or_false] at hown
      rcases hown with rfl | rfl | rfl
      · exact hcompleted hname
      · exact hgameMode hname
      · exact hlastRegion hname
    · exact h.foreign_names own hown (List.mem_map.mpr ⟨entry, hforeign, hname⟩)
  · intro entry hentry
    rcases Entries.mem_put hentry with rfl | hforeign
    · exact hvalue
    · exact h.foreign_fits entry hforeign

/-- Entries that fit inside an object make consistent progress of their scope. -/
theorem consistent_ofEntries (scope : String) (hfits : ∀ entry ∈ entries, entry.2.Fits 126) :
    (ofEntries scope entries).Consistent ∧ (ofEntries scope entries).scope = scope := by
  have hfold : ∀ (entries : List (String × Json)) (progress : Progress),
      (∀ entry ∈ entries, entry.2.Fits 126) → progress.Consistent →
      (entries.foldl (fun progress entry => progress.readEntry entry.1 entry.2) progress).Consistent ∧
        (entries.foldl (fun progress entry => progress.readEntry entry.1 entry.2) progress).scope =
          progress.scope := by
    intro entries
    induction entries with
    | nil => exact fun progress _ h => ⟨h, rfl⟩
    | cons entry rest ih =>
      intro progress hfits h
      obtain ⟨hentry, hrest⟩ := List.forall_mem_cons.mp hfits
      obtain ⟨hconsistent, hscope⟩ := ih _ hrest (h.readEntry hentry entry.1)
      exact ⟨hconsistent, hscope.trans (scope_readEntry progress entry.1 entry.2)⟩
  exact hfold entries { scope } hfits (consistent_empty scope)

/-- Whatever file is opened, the progress in it is consistent and belongs to the scope. -/
theorem consistent_ofFile {scope path text : String} (h : ofFile scope path text = .ok progress) :
    progress.Consistent ∧ progress.scope = scope := by
  unfold ofFile at h
  split at h
  · obtain rfl := Except.ok.inj h
    exact ⟨consistent_empty scope, rfl⟩
  · split at h
    · cases h
    · next entries hparse =>
      obtain rfl := Except.ok.inj h
      have hfits : Json.Fits 127 (.object entries) := Json.fits_of_parse? hparse
      exact consistent_ofEntries scope hfits.2
    · cases h

/-- Opening a file gives consistent progress. -/
theorem consistent_openFile {disk : Disk} {scope path : String}
    (h : openFile disk scope path = .ok progress) :
    progress.Consistent ∧ progress.scope = scope := by
  unfold openFile at h
  split at h
  · split at h
    · exact consistent_ofFile h
    · cases h
  · obtain rfl := Except.ok.inj h
    exact ⟨consistent_empty scope, rfl⟩

/-- Progress that can come about: it begins in memory or is opened, and operations follow. -/
inductive Reachable : Progress → Prop
  | inMemory (scope : String) : Reachable { scope }
  | opened {disk : Disk} {scope path : String} {progress : Progress} :
    openFile disk scope path = .ok progress → Reachable progress
  | performed {progress : Progress} (operation : Operation) :
    Reachable progress → Reachable (progress.perform operation)

/-- Progress is consistent whatever file was opened and whatever was done since. -/
theorem Reachable.consistent (h : progress.Reachable) : progress.Consistent := by
  induction h with
  | inMemory scope => exact consistent_empty scope
  | opened hopen => exact (consistent_openFile hopen).1
  | performed operation _ ih => exact ih.perform operation

theorem Reachable.performAll (h : progress.Reachable) (operations : List Operation) :
    (progress.performAll operations).Reachable := by
  induction operations generalizing progress with
  | nil => exact h
  | cons operation rest ih => exact ih (h.performed operation)

end Opening

end Questlog.Progress
