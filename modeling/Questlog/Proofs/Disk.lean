import Questlog.Disk
import Questlog.Proofs.Entries

namespace Questlog.Disk

variable {disk disk' made : Disk} {path text : String}

/-- A directory stays one as long as none is taken away. -/
theorem isFolder_mono (h : disk.folders ⊆ disk'.folders) {place : Location}
    (hplace : disk.isFolder place = true) : disk'.isFolder place = true := by
  simp only [isFolder, Bool.or_eq_true, List.contains_iff_mem] at hplace ⊢
  exact hplace.imp_right fun hmem => h hmem

theorem isFolder_congr (h : disk.folders = disk'.folders) (place : Location) :
    disk.isFolder place = disk'.isFolder place := by
  rw [isFolder, isFolder, h]

/-- Where a path leads depends on the directories alone. -/
theorem locate?_congr (h : disk.folders = disk'.folders) (path : String) :
    disk.locate? path = disk'.locate? path := by
  have hfollow : ∀ place segments, disk.follow? place segments = disk'.follow? place segments := by
    intro place segments
    induction segments generalizing place with
    | nil => rfl
    | cons segment rest ih => rw [follow?, follow?, isFolder_congr h, ih]
  rw [locate?, locate?, hfollow]

section Folders

variable {place : Location} {segment : String} {segments rest : List String}

theorem isFolder_made (disk : Disk) (place : Location) :
    ({ disk with folders := place.path :: disk.folders } : Disk).isFolder place = true := by
  simp [isFolder]

theorem makeAlong_of_isFolder (h : disk.isFolder (place.step segment) = true) :
    makeAlong place (segment :: rest) disk = makeAlong (place.step segment) rest disk := by
  simp only [makeAlong]
  rw [if_pos h]

/-- A step that succeeds leaves a directory where it leads, and takes none away. -/
theorem makeAlong_cons (h : makeAlong place (segment :: rest) disk = (true, made)) :
    ∃ between : Disk, disk.folders ⊆ between.folders ∧
      between.isFolder (place.step segment) = true ∧
      makeAlong (place.step segment) rest between = (true, made) := by
  simp only [makeAlong] at h
  split at h
  · next hfolder => exact ⟨disk, List.Subset.refl _, hfolder, h⟩
  · split at h
    · cases congrArg Prod.fst h
    · exact ⟨_, List.subset_cons_self _ _, isFolder_made disk _, h⟩

/-- Making directories takes none away. -/
theorem folders_makeAlong (h : makeAlong place segments disk = (true, made)) :
    disk.folders ⊆ made.folders := by
  induction segments generalizing place disk with
  | nil =>
    obtain rfl : disk = made := congrArg Prod.snd h
    exact List.Subset.refl _
  | cons segment rest ih =>
    obtain ⟨between, hbetween, -, hrest⟩ := makeAlong_cons h
    exact List.Subset.trans hbetween (ih hrest)

/-- Where all directories have been made, there is nothing to be done. -/
theorem makeAlong_again (h : makeAlong place segments disk = (true, made))
    (hlater : made.folders ⊆ disk'.folders) : makeAlong place segments disk' = (true, disk') := by
  induction segments generalizing place disk with
  | nil => rfl
  | cons segment rest ih =>
    obtain ⟨between, -, hfolder, hrest⟩ := makeAlong_cons h
    have hbetween := List.Subset.trans (folders_makeAlong hrest) hlater
    rw [makeAlong_of_isFolder (isFolder_mono hbetween hfolder), ih hrest]

/-- Making the directories once more finds them there. -/
theorem makeFolder_again (h : makeFolder path disk = (true, made))
    (hlater : made.folders ⊆ disk'.folders) : makeFolder path disk' = (true, disk') := by
  simp only [makeFolder] at h ⊢
  split at h
  · next hpath => rw [if_pos hpath, makeAlong_again h hlater]
  · cases congrArg Prod.fst h

end Folders

section Files

/-- When a file is written, and what it is like then. -/
theorem write?_eq_some (h : disk.write? path text = some disk') :
    ∃ place, disk.locate? path = some place ∧ disk.isFolder place = false ∧
      disk'.folders = disk.folders ∧
      disk'.files = Entries.putSorted disk.files place.path text := by
  unfold write? at h
  split at h
  · next place hplace =>
    split at h
    · cases h
    · next hfolder =>
      obtain rfl := Option.some.inj h
      exact ⟨place, hplace, Bool.eq_false_iff.mpr hfolder, rfl, rfl⟩
  · cases h

/-- Writing with the directories on the way is making them and then writing. -/
theorem writeDeep_eq_true (h : writeDeep path text disk = (true, disk')) :
    ∃ made, makeFolder (around path) disk = (true, made) ∧ made.write? path text = some disk' := by
  simp only [writeDeep] at h
  rcases hmade : makeFolder (around path) disk with ⟨_ | _, made⟩
  · simp only [hmade] at h
    cases congrArg Prod.fst h
  · simp only [hmade] at h
    cases hwrite : made.write? path text with
    | none =>
      simp only [hwrite] at h
      cases congrArg Prod.fst h
    | some written =>
      simp only [hwrite] at h
      obtain rfl : written = disk' := congrArg Prod.snd h
      exact ⟨made, rfl, hwrite⟩

/-- What was written can be read. -/
theorem read?_writeDeep (h : writeDeep path text disk = (true, disk')) :
    disk'.has path = true ∧ disk'.read? path = some text := by
  obtain ⟨made, -, hwrite⟩ := writeDeep_eq_true h
  obtain ⟨place, hplace, -, hfolders, hfiles⟩ := write?_eq_some hwrite
  rw [← locate?_congr hfolders] at hplace
  have hlookup := Entries.lookup_putSorted made.files place.path text
  rw [← hfiles] at hlookup
  constructor
  · rw [has, hplace, Option.any_some, isFile, hlookup, Option.isSome_some, Bool.or_true]
  · rw [read?, hplace, Option.bind_some, hlookup]

/-- Writing the same once more succeeds and changes nothing. -/
theorem writeDeep_again (h : writeDeep path text disk = (true, disk')) :
    writeDeep path text disk' = (true, disk') := by
  obtain ⟨made, hmade, hwrite⟩ := writeDeep_eq_true h
  obtain ⟨place, hplace, hfolder, hfolders, hfiles⟩ := write?_eq_some hwrite
  have hkept : made.folders ⊆ disk'.folders := by
    rw [hfolders]
    exact List.Subset.refl _
  have hagain := makeFolder_again hmade hkept
  have hsame : Entries.putSorted disk'.files place.path text = disk'.files := by
    rw [hfiles, Entries.putSorted_twice]
  rw [← locate?_congr hfolders] at hplace
  rw [← isFolder_congr hfolders] at hfolder
  have hrewrite : disk'.write? path text = some disk' := by
    rw [write?, hplace]
    simp only [hfolder, hsame]
    rfl
  simp only [writeDeep, hagain, hrewrite]

end Files

end Questlog.Disk
