import Mathlib
import Questlog.Proofs.Progress.Saved

namespace Questlog.Progress

variable {entries saved : List (String × Json)} {progress : Progress} {scope other name : String}

section Names

/-- Two names are the same only if both their scopes and what stands behind the dash are, where that
has no dash itself. -/
theorem entryName_inj_scope {name' : String} (hname : '-' ∉ name.toList)
    (hname' : '-' ∉ name'.toList) (h : entryName scope name = entryName other name') :
    scope = other := by
  have hchars := congrArg (fun text => text.toList.reverse) h
  simp only [entryName, String.toList_append, List.reverse_append, List.append_assoc] at hchars
  have htail : ∀ part : String, '-' ∉ part.toList →
      ∀ rest : List Char, (part.toList.reverse ++ '-' :: rest).dropWhile (· ≠ '-') = '-' :: rest := by
    intro part hpart rest
    apply dropWhile_run
    · intro c hc
      have hne : c ≠ '-' := by
        rintro rfl
        exact hpart (List.mem_reverse.mp hc)
      simpa using hne
    · simp
  have hscopes := congrArg (List.dropWhile (· ≠ '-')) hchars
  rw [show "-".toList.reverse = ['-'] from rfl, List.singleton_append, List.singleton_append,
    htail name hname, htail name' hname'] at hscopes
  exact String.toList_inj.mp (List.reverse_injective (List.tail_eq_of_cons_eq hscopes))

/-- The names of the entries that belong to a scope. -/
def namesOf (scope : String) : List String :=
  ownNames.map (entryName scope)

/-- No entry belongs to two scopes, whatever the scopes look like. -/
theorem notMem_namesOf_of_ne (hne : other ≠ scope) (h : name ∈ namesOf other) :
    name ∉ namesOf scope := by
  have hdash : ∀ own ∈ ownNames, '-' ∉ own.toList := by decide
  intro h'
  obtain ⟨own, hown, rfl⟩ := List.mem_map.mp h
  obtain ⟨own', hown', heq⟩ := List.mem_map.mp h'
  exact hne (entryName_inj_scope (hdash own' hown') (hdash own hown) heq).symm

end Names

section Entries

/-- The entries of a file that belong to a scope. -/
def own (scope : String) (entries : List (String × Json)) : List (String × Json) :=
  entries.filter (·.1 ∈ namesOf scope)

/-- The entries of a file that do not belong to a scope. -/
def others (scope : String) (entries : List (String × Json)) : List (String × Json) :=
  entries.filter (·.1 ∉ namesOf scope)

section Cons

variable {entry : String × Json} {rest : List (String × Json)}

theorem own_cons_of_mem (h : entry.1 ∈ namesOf scope) :
    own scope (entry :: rest) = entry :: own scope rest :=
  List.filter_cons_of_pos (by simpa using h)

theorem own_cons_of_notMem (h : entry.1 ∉ namesOf scope) :
    own scope (entry :: rest) = own scope rest :=
  List.filter_cons_of_neg (by simpa using h)

theorem others_cons_of_mem (h : entry.1 ∈ namesOf scope) :
    others scope (entry :: rest) = others scope rest :=
  List.filter_cons_of_neg (by simpa using h)

theorem others_cons_of_notMem (h : entry.1 ∉ namesOf scope) :
    others scope (entry :: rest) = entry :: others scope rest :=
  List.filter_cons_of_pos (by simpa using h)

end Cons

/-- The entries of a scope are among those that do not belong to another one. -/
theorem own_others (hne : other ≠ scope) (entries : List (String × Json)) :
    own other (others scope entries) = own other entries := by
  rw [own, others, List.filter_filter]
  apply List.filter_congr
  intro entry _
  by_cases h : entry.1 ∈ namesOf other
  · simp [h, notMem_namesOf_of_ne hne h]
  · simp [h]

/-- An entry of another scope is kept. -/
theorem readEntry_of_notMem (h : name ∉ namesOf progress.scope) (value : Json) :
    progress.readEntry name value =
      { progress with foreign := Entries.put progress.foreign name value } := by
  apply readEntry_foreign
  rintro part hpart rfl
  exact h (List.mem_map_of_mem hpart)

/-- An own entry is not kept among the others. -/
theorem foreign_readEntry_of_mem (h : name ∈ namesOf progress.scope) (value : Json) :
    (progress.readEntry name value).foreign = progress.foreign := by
  have hnames : name = entryName progress.scope "completed" ∨
      name = entryName progress.scope "gameMode" ∨ name = entryName progress.scope "lastRegion" := by
    simpa [namesOf, ownNames] using h
  unfold readEntry
  split
  · rfl
  split
  · rfl
  split
  · rfl
  next hcompleted hgameMode hlastRegion =>
  exact absurd hnames (by simp [hcompleted, hgameMode, hlastRegion])

/-- The scope and what it has of its own are the same. -/
structure SameOwn (progress next : Progress) : Prop where
  scope : next.scope = progress.scope
  completed : next.completed = progress.completed
  gameMode : next.gameMode = progress.gameMode
  lastRegion : next.lastRegion = progress.lastRegion

theorem SameOwn.refl (progress : Progress) : SameOwn progress progress :=
  ⟨rfl, rfl, rfl, rfl⟩

/-- Reading the same entry keeps what is the same. -/
theorem SameOwn.readEntry {next : Progress} (h : SameOwn progress next) (name : String)
    (value : Json) : SameOwn (progress.readEntry name value) (next.readEntry name value) := by
  obtain ⟨hscope, hcompleted, hgameMode, hlastRegion⟩ := h
  unfold Progress.readEntry
  simp only [hscope]
  split
  · exact ⟨rfl, rfl, hgameMode, hlastRegion⟩
  split
  · exact ⟨rfl, hcompleted, rfl, hlastRegion⟩
  split
  · exact ⟨rfl, hcompleted, hgameMode, rfl⟩
  · exact ⟨rfl, hcompleted, hgameMode, hlastRegion⟩

/-- What a scope reads from a file, it reads from its own entries alone. -/
theorem SameOwn.foldl_readEntry {next : Progress} (h : SameOwn progress next)
    (entries : List (String × Json)) :
    SameOwn ((own progress.scope entries).foldl (fun acc e => acc.readEntry e.1 e.2) progress)
      (entries.foldl (fun acc e => acc.readEntry e.1 e.2) next) := by
  induction entries generalizing progress next with
  | nil => exact h
  | cons entry rest ih =>
    by_cases hown : entry.1 ∈ namesOf progress.scope
    · have hstep := ih (h.readEntry entry.1 entry.2)
      rw [scope_readEntry] at hstep
      rw [own_cons_of_mem hown]
      exact hstep
    · rw [own_cons_of_notMem hown, List.foldl_cons]
      apply ih
      rw [readEntry_of_notMem (h.scope ▸ hown)]
      exact ⟨h.scope, h.completed, h.gameMode, h.lastRegion⟩

/-- What a scope opens depends on its own entries alone. -/
theorem sameOwn_ofEntries (hown : own scope saved = own scope entries) :
    SameOwn (ofEntries scope entries) (ofEntries scope saved) := by
  have hentries := (SameOwn.refl { scope }).foldl_readEntry entries
  have hsaved := (SameOwn.refl { scope }).foldl_readEntry saved
  rw [hown] at hsaved
  exact ⟨hsaved.scope.trans hentries.scope.symm, hsaved.completed.trans hentries.completed.symm,
    hsaved.gameMode.trans hentries.gameMode.symm, hsaved.lastRegion.trans hentries.lastRegion.symm⟩

/-- The entries of other scopes are kept in their order. -/
theorem foreign_foldl_readEntry (progress : Progress) (entries : List (String × Json)) :
    (entries.foldl (fun acc e => acc.readEntry e.1 e.2) progress).foreign =
      (others progress.scope entries).foldl (fun acc e => Entries.put acc e.1 e.2)
        progress.foreign := by
  induction entries generalizing progress with
  | nil => rfl
  | cons entry rest ih =>
    rw [List.foldl_cons, ih, scope_readEntry]
    by_cases hown : entry.1 ∈ namesOf progress.scope
    · rw [others_cons_of_mem hown, foreign_readEntry_of_mem hown]
    · rw [others_cons_of_notMem hown, readEntry_of_notMem hown, List.foldl_cons]

/-- The entries of other scopes are kept in their order. -/
theorem foreign_ofEntries (h : (Entries.names entries).Nodup) (scope : String) :
    (ofEntries scope entries).foreign = others scope entries := by
  have hothers : (Entries.names (others scope entries)).Nodup :=
    h.sublist (List.filter_sublist.map _)
  rw [ofEntries, foreign_foldl_readEntry]
  exact Entries.ofList_of_nodup hothers

end Entries

section Files

variable {disk before after : Disk} {path : String}

/-- The entries of a progress file that can be opened. A missing or blank file has none. -/
def entriesAt? (disk : Disk) (path : String) : Option (List (String × Json)) :=
  if disk.has path then
    (disk.read? path).bind fun text =>
      if Text.trimChars text.toList = [] then some []
      else (Json.parse? text).bind Json.object?
  else
    some []

/-- Opening a file is finding its entries and reading them. -/
theorem openFile_eq_ok_iff :
    openFile disk scope path = .ok progress ↔
      ∃ entries, entriesAt? disk path = some entries ∧ ofEntries scope entries = progress := by
  unfold openFile entriesAt?
  split
  · cases disk.read? path with
    | none => simp
    | some text =>
      simp only [ofFile, Option.bind_some]
      split
      · simp [ofEntries]
      · cases Json.parse? text with
        | none => simp
        | some json => cases json <;> simp [Json.object?]
  · simp [ofEntries]

/-- The entries of a file have distinct names. -/
theorem nodup_entriesAt? (h : entriesAt? disk path = some entries) :
    (Entries.names entries).Nodup := by
  unfold entriesAt? at h
  split at h
  · obtain ⟨text, -, hentries⟩ := Option.bind_eq_some_iff.mp h
    split at hentries
    · obtain rfl := Option.some.inj hentries
      exact List.nodup_nil
    · obtain ⟨json, hparse, hobject⟩ := Option.bind_eq_some_iff.mp hentries
      cases json with
      | object members =>
        obtain rfl := Option.some.inj hobject
        exact (Json.fits_of_parse? hparse).1
      | _ => cases hobject
  · obtain rfl := Option.some.inj h
    exact List.nodup_nil

/-- A save puts the own entries behind all others. -/
theorem Consistent.entriesAt?_save (h : progress.Consistent)
    (hsave : progress.save path before = (true, after)) :
    entriesAt? after path = some (progress.foreign ++ progress.ownEntries) := by
  obtain ⟨hhas, hread⟩ := Disk.read?_writeDeep hsave
  rw [entriesAt?, if_pos hhas, hread, Option.bind_some, if_neg progress.toFile_not_blank,
    h.parse?_toFile, h.toEntries_eq]
  rfl

/-- The file after a save: the entries of others in their order, then the own ones. -/
theorem entriesAt?_performAll_save {opened : Progress} (operations : List Operation)
    (hentries : entriesAt? disk path = some entries) (hopened : ofEntries scope entries = opened)
    (hsave : (opened.performAll operations).save path before = (true, after)) :
    entriesAt? after path =
      some (others scope entries ++ (opened.performAll operations).ownEntries) := by
  have hopen : openFile disk scope path = .ok opened :=
    openFile_eq_ok_iff.mpr ⟨entries, hentries, hopened⟩
  have hconsistent := (consistent_openFile hopen).1.performAll operations
  rw [hconsistent.entriesAt?_save hsave, (performAll_sameOwner opened operations).foreign,
    ← hopened, foreign_ofEntries (nodup_entriesAt? hentries)]

theorem others_append (scope : String) (entries more : List (String × Json)) :
    others scope (entries ++ more) = others scope entries ++ others scope more :=
  List.filter_append entries more

theorem others_others (scope : String) (entries : List (String × Json)) :
    others scope (others scope entries) = others scope entries := by
  simp [others, List.filter_filter]

/-- None of the own entries is of another scope. -/
theorem others_ownEntries (progress : Progress) :
    others progress.scope progress.ownEntries = [] := by
  rw [others, List.filter_eq_nil_iff]
  intro entry hentry
  have hmem : entry.1 ∈ namesOf progress.scope := List.mem_map_of_mem hentry
  simpa using hmem

/-- What stands behind the last dash of an own name tells where its scope ends, so no entry belongs
to two scopes. A scope that saves leaves all others as they are. Its file is opened, or is missing;
the progress in it is changed in whatever way and saved. Then the entries that do not belong to the
scope are those that were there, with the same values and in the same order, and every other scope
that opens the file finds the same completed keys and the same two numbers as before. -/
theorem save_leaves_others {opened : Progress} (operations : List Operation)
    (hopen : openFile disk scope path = .ok opened)
    (hsave : (opened.performAll operations).save path before = (true, after)) :
    ∃ entries saved, entriesAt? disk path = some entries ∧ entriesAt? after path = some saved ∧
      others scope saved = others scope entries ∧
      ∀ other, other ≠ scope → ∃ found found', openFile disk other path = .ok found ∧
        openFile after other path = .ok found' ∧ found'.completed = found.completed ∧
        found'.gameMode = found.gameMode ∧ found'.lastRegion = found.lastRegion := by
  obtain ⟨entries, hentries, hopened⟩ := openFile_eq_ok_iff.mp hopen
  have hsaved := entriesAt?_performAll_save operations hentries hopened hsave
  have hscope : (opened.performAll operations).scope = scope :=
    (performAll_sameOwner opened operations).scope.trans (consistent_openFile hopen).2
  have hothers : others scope (others scope entries ++
      (opened.performAll operations).ownEntries) = others scope entries := by
    have hown := others_ownEntries (opened.performAll operations)
    rw [hscope] at hown
    rw [others_append, others_others, hown, List.append_nil]
  refine ⟨entries, _, hentries, hsaved, hothers, fun other hne => ?_⟩
  have hown : own other _ = own other entries :=
    (own_others hne _).symm.trans ((congrArg (own other) hothers).trans (own_others hne entries))
  obtain ⟨-, hcompleted, hgameMode, hlastRegion⟩ := sameOwn_ofEntries hown
  exact ⟨_, _, openFile_eq_ok_iff.mpr ⟨entries, hentries, rfl⟩,
    openFile_eq_ok_iff.mpr ⟨_, hsaved, rfl⟩, hcompleted, hgameMode, hlastRegion⟩

/-- A file for the scopes `a` and `a-b`. -/
def nestedFile : String :=
  "\x7b\"a-b-completed\": [\"x\"], \"a-completed\": [\"y\"]\x7d"

/-- The entries of that file. -/
def nestedEntries : List (String × Json) :=
  [("a-b-completed", .array [.string "x"]), ("a-completed", .array [.string "y"])]

theorem openFile_nestedFile (scope : String) :
    openFile (onlyFile nestedFile) scope "progress.json" = .ok (ofEntries scope nestedEntries) := by
  refine openFile_eq_ok_iff.mpr ⟨nestedEntries, ?_, rfl⟩
  rw [entriesAt?, if_pos (has_onlyFile _), read?_onlyFile, Option.bind_some, if_neg (by decide)]
  cbv

/-- The scope `a` forgets its keys. The scope `a-b`, whose names start with `a-` as well, keeps its
own. -/
theorem save_leaves_longer_scope :
    ∃ opened after found, openFile (onlyFile nestedFile) "a" "progress.json" = .ok opened ∧
      (opened.performAll [.replaceCompleted [], .setGameMode 3]).save "progress.json"
        (onlyFile nestedFile) = (true, after) ∧
      openFile after "a-b" "progress.json" = .ok found ∧ found.completed = ["x"] := by
  have hopen := openFile_nestedFile "a"
  have hsave := save_onlyFile nestedFile
    ((ofEntries "a" nestedEntries).performAll [.replaceCompleted [], .setGameMode 3])
  obtain ⟨-, -, -, -, -, hother⟩ := save_leaves_others _ hopen hsave
  obtain ⟨before, found, hbefore, hfound, hcompleted, -⟩ := hother "a-b" (by decide)
  obtain rfl := Except.ok.inj (hbefore.symm.trans (openFile_nestedFile "a-b"))
  refine ⟨_, _, found, hopen, hsave, hfound, hcompleted.trans ?_⟩
  cbv

end Files

end Questlog.Progress
