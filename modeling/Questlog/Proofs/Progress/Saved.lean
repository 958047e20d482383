import Mathlib
import Questlog.Proofs.Disk
import Questlog.Proofs.Json.Pretty
import Questlog.Proofs.Progress.Operation

namespace Questlog.Progress

variable {progress : Progress}

section Names

/-- The names in one scope are as distinct as what stands behind the dash. -/
theorem entryName_inj {scope name other : String} (h : entryName scope name = entryName scope other) :
    name = other := by
  have hchars := congrArg String.toList h
  simp only [entryName, String.toList_append] at hchars
  exact String.toList_inj.mp (List.append_cancel_left hchars)

theorem entryName_ne {scope name other : String} (h : name ≠ other) :
    entryName scope name ≠ entryName scope other :=
  fun heq => h (entryName_inj heq)

end Names

section Values

/-- Keys that are distinct are taken as they are. -/
theorem eraseDups_of_nodup {keys : List String} (h : keys.Nodup) : keys.eraseDups = keys := by
  induction keys with
  | nil => rfl
  | cons key rest ih =>
    obtain ⟨hnew, hrest⟩ := List.nodup_cons.mp h
    have hkept : rest.filter (fun other => !other == key) = rest := by
      rw [List.filter_eq_self]
      rintro other hother
      have hne : other ≠ key := by
        rintro rfl
        exact hnew hother
      simp [hne]
    rw [List.eraseDups_cons, hkept, ih hrest]

/-- Distinct keys are read back. -/
theorem completedOf_map_string {keys : List String} (h : keys.Nodup) :
    completedOf (.array (keys.map .string)) = keys := by
  have hstrings : (keys.map Json.string).filterMap Json.string? = keys := by
    rw [List.filterMap_map]
    exact List.filterMap_some
  rw [completedOf, hstrings, eraseDups_of_nodup h]

/-- Every number of 64 bits is read back from its entry. -/
theorem numberOf_ofInt (n : Int64) : numberOf (.ofInt n.toInt) = n := by
  have hlower := n.le_toInt
  have hupper := n.toInt_lt
  have hword : Json.InWord n.toInt := by
    constructor <;> omega
  rw [Json.ofInt, dif_pos hword]
  simp only [numberOf, Json.Number.int64?]
  rw [if_pos (by omega)]
  exact Int64.ofInt_toInt n

theorem fits_ofInt {room : Nat} (n : Int) : Json.Fits room (.ofInt n) := by
  unfold Json.ofInt
  split <;> simp [Json.Fits]

end Values

section Entries

/-- The entries that the scope has of its own. -/
def ownEntries (progress : Progress) : List (String × Json) :=
  [(entryName progress.scope "completed", .array (progress.completed.map .string)),
    (entryName progress.scope "gameMode", .ofInt progress.gameMode.toInt),
    (entryName progress.scope "lastRegion", .ofInt progress.lastRegion.toInt)]

theorem nodup_ownNames (scope : String) : (ownNames.map (entryName scope)).Nodup := by
  have hnames : ownNames.Nodup := by decide
  exact List.Pairwise.map _ (fun _ _ hne heq => hne (entryName_inj heq)) hnames

/-- The names of all entries are distinct: the own ones are none of the others. -/
theorem Consistent.nodup_entries (h : progress.Consistent) :
    (Entries.names (progress.foreign ++ progress.ownEntries)).Nodup := by
  rw [Entries.names, List.map_append, List.nodup_append]
  refine ⟨h.foreign_nodup, nodup_ownNames progress.scope, ?_⟩
  rintro name hforeign own hown rfl
  have hown : name ∈ ownNames.map (entryName progress.scope) := hown
  obtain ⟨part, hpart, rfl⟩ := List.mem_map.mp hown
  exact h.foreign_names part hpart hforeign

/-- The own entries stand behind the others, since none of them is there before. -/
theorem Consistent.toEntries_eq (h : progress.Consistent) :
    progress.toEntries = progress.foreign ++ progress.ownEntries :=
  Entries.foldl_put_of_nodup h.nodup_entries

/-- The file can be read again. -/
theorem Consistent.toEntries_fits (h : progress.Consistent) :
    Json.Fits Json.maxNesting (.object progress.toEntries) := by
  rw [h.toEntries_eq]
  refine ⟨h.nodup_entries, fun entry hentry => ?_⟩
  rcases List.mem_append.mp hentry with hforeign | hown
  · exact h.foreign_fits entry hforeign
  · simp only [ownEntries, List.mem_cons, List.not_mem_nil, or_false] at hown
    rcases hown with rfl | rfl | rfl
    · intro item hitem
      obtain ⟨key, -, rfl⟩ := List.mem_map.mp hitem
      trivial
    · exact fits_ofInt _
    · exact fits_ofInt _

/-- Entries with other names than the own ones are taken as those of other scopes. -/
theorem readEntry_foreign {name : String} {value : Json}
    (h : ∀ own ∈ ownNames, name ≠ entryName progress.scope own) :
    progress.readEntry name value =
      { progress with foreign := Entries.put progress.foreign name value } := by
  have hcompleted := h "completed" (by decide)
  have hgameMode := h "gameMode" (by decide)
  have hlastRegion := h "lastRegion" (by decide)
  rw [readEntry, if_neg hcompleted, if_neg hgameMode, if_neg hlastRegion]

/-- The entries of other scopes are kept as they are. -/
theorem foldl_readEntry_foreign (progress : Progress) {entries : List (String × Json)}
    (h : ∀ entry ∈ entries, ∀ own ∈ ownNames, entry.1 ≠ entryName progress.scope own) :
    entries.foldl (fun progress entry => progress.readEntry entry.1 entry.2) progress =
      { progress with
        foreign := entries.foldl (fun acc e => Entries.put acc e.1 e.2) progress.foreign } := by
  induction entries generalizing progress with
  | nil => rfl
  | cons entry rest ih =>
    obtain ⟨hentry, hrest⟩ := List.forall_mem_cons.mp h
    rw [List.foldl_cons, readEntry_foreign hentry]
    exact ih _ hrest

/-- The own entries are read back. -/
theorem foldl_readEntry_own (h : progress.completed.Nodup) (foreign : List (String × Json)) :
    progress.ownEntries.foldl (fun progress entry => progress.readEntry entry.1 entry.2)
      { scope := progress.scope, foreign } = { progress with foreign } := by
  have hgameMode : entryName progress.scope "gameMode" ≠ entryName progress.scope "completed" :=
    entryName_ne (by decide)
  have hlastRegion : entryName progress.scope "lastRegion" ≠ entryName progress.scope "completed" :=
    entryName_ne (by decide)
  have hlastRegion' : entryName progress.scope "lastRegion" ≠ entryName progress.scope "gameMode" :=
    entryName_ne (by decide)
  simp only [ownEntries, List.foldl_cons, List.foldl_nil, readEntry, if_pos, if_neg hgameMode,
    if_neg hlastRegion, if_neg hlastRegion', completedOf_map_string h, numberOf_ofInt]

/-- Progress is read back from its entries. -/
theorem Consistent.ofEntries_toEntries (h : progress.Consistent) :
    ofEntries progress.scope progress.toEntries = progress := by
  have hforeign : ∀ entry ∈ progress.foreign, ∀ own ∈ ownNames,
      entry.1 ≠ entryName progress.scope own := by
    rintro entry hentry own hown heq
    exact h.foreign_names own hown (heq ▸ List.mem_map_of_mem hentry)
  -- The entries of other scopes are read first; the own ones then leave them alone.
  rw [ofEntries, h.toEntries_eq, List.foldl_append,
    foldl_readEntry_foreign { scope := progress.scope } hforeign]
  have hsame : progress.foreign.foldl (fun acc e => Entries.put acc e.1 e.2) [] = progress.foreign :=
    Entries.ofList_of_nodup h.foreign_nodup
  simp only [hsame]
  exact foldl_readEntry_own h.completed_nodup progress.foreign

end Entries

section Files

/-- The text of an object starts and ends with its braces. -/
theorem trimmed_pretty_object (members : List (String × Json)) :
    Text.Trimmed (Json.object members).pretty.toList := by
  have hopen : Text.Trimmed ['\x7b'] := Text.trimmed_singleton (by decide)
  have hclose : Text.Trimmed ['\x7d'] := Text.trimmed_singleton (by decide)
  rw [Json.pretty, String.toList_ofList, Json.writePretty]
  cases Json.prettyMembers (0 + 1) members with
  | nil => exact hopen.append hclose []
  | cons part rest => exact hopen.append hclose _

/-- A file that is saved is not blank. -/
theorem toFile_not_blank (progress : Progress) : Text.trimChars progress.toFile.toList ≠ [] := by
  have htrimmed := trimmed_pretty_object progress.toEntries
  rw [toFile, htrimmed.trimChars_eq]
  exact htrimmed.ne_nil

/-- A file that is saved is parsed as its entries. -/
theorem Consistent.parse?_toFile (h : progress.Consistent) :
    Json.parse? progress.toFile = some (.object progress.toEntries) :=
  h.toEntries_fits.parse?_pretty

/-- A file that is saved is read as the progress. -/
theorem Consistent.ofFile_toFile (h : progress.Consistent) (path : String) :
    ofFile progress.scope path progress.toFile = .ok progress := by
  rw [ofFile, if_neg progress.toFile_not_blank, h.parse?_toFile]
  simp only [h.ofEntries_toEntries]

/-- What was saved is opened as it was, and saving it once more changes nothing. -/
theorem Consistent.openFile_save (h : progress.Consistent) {path : String} {disk disk' : Disk}
    (hsave : progress.save path disk = (true, disk')) :
    openFile disk' progress.scope path = .ok progress ∧ progress.save path disk' = (true, disk') := by
  obtain ⟨hhas, hread⟩ := Disk.read?_writeDeep hsave
  constructor
  · simp only [openFile, hhas, hread, if_true]
    exact h.ofFile_toFile path
  · exact Disk.writeDeep_again hsave

/-- Saving and opening are inverse. Progress that was opened from a file, or without one, and changed
in whatever way, is saved to some disk: opening the path again gives the same progress, with the same
completed keys and the same entries of other scopes in the same order, and the same two numbers.
Saving what was opened succeeds, writes the same text and leaves the disk as it is. -/
theorem saved_reopens {scope path : String} {disk before after : Disk} {opened : Progress}
    (operations : List Operation) (hopen : openFile disk scope path = .ok opened)
    (hsave : (opened.performAll operations).save path before = (true, after)) :
    ∃ reopened, openFile after scope path = .ok reopened ∧
      reopened = opened.performAll operations ∧
      after.read? path = some reopened.toFile ∧
      reopened.save path after = (true, after) := by
  obtain ⟨hconsistent, hscope⟩ := consistent_openFile hopen
  obtain ⟨hreopen, hagain⟩ := (hconsistent.performAll operations).openFile_save hsave
  rw [(performAll_sameOwner opened operations).scope, hscope] at hreopen
  exact ⟨_, hreopen, rfl, (Disk.read?_writeDeep hsave).2, hagain⟩

/-- A disk with nothing but a progress file. -/
def onlyFile (text : String) : Disk :=
  { files := [("progress.json", text)] }

theorem locate?_onlyFile (text : String) :
    (onlyFile text).locate? "progress.json" = some ["progress.json"] := by
  have hempty : ({} : Disk).locate? "progress.json" = some ["progress.json"] := by
    cbv
  exact (Disk.locate?_congr rfl _).trans hempty

theorem has_onlyFile (text : String) : (onlyFile text).has "progress.json" = true := by
  rw [Disk.has, locate?_onlyFile]
  rfl

theorem read?_onlyFile (text : String) :
    (onlyFile text).read? "progress.json" = some text := by
  rw [Disk.read?, locate?_onlyFile]
  rfl

theorem save_onlyFile (text : String) (progress : Progress) :
    progress.save "progress.json" (onlyFile text) = (true, onlyFile progress.toFile) := by
  have hfolder : Disk.makeFolder (Disk.around "progress.json") (onlyFile text) =
      (true, onlyFile text) := by
    cbv
  rw [save, Disk.writeDeep, hfolder]
  simp only [Disk.write?, locate?_onlyFile]
  rfl

/-- A disk with a file that another scope has an entry in. -/
def sharedDisk : Disk :=
  { files := [("progress.json",
      "\x7b\"other-completed\": [\"x\"], \"ns-completed\": [\"a\", \"a\"]\x7d")] }

/-- The progress of the scope `ns` in that file. -/
def sharedProgress : Progress :=
  { scope := "ns", completed := ["a"], foreign := [("other-completed", .array [.string "x"])] }

theorem openFile_sharedDisk : openFile sharedDisk "ns" "progress.json" = .ok sharedProgress := by
  rw [openFile, sharedDisk, ← onlyFile, if_pos (has_onlyFile _), read?_onlyFile]
  simp only
  rw [ofFile, if_neg (by decide)]
  cbv

theorem save_sharedDisk (progress : Progress) :
    progress.save "progress.json" sharedDisk =
      (true, { files := [("progress.json", progress.toFile)] }) :=
  save_onlyFile _ progress

theorem saved_reopens_shared :
    openFile sharedDisk "ns" "progress.json" = .ok sharedProgress ∧
      ∃ after reopened, openFile after "ns" "progress.json" = .ok reopened ∧
        reopened.completed = ["a", "b"] ∧ reopened.gameMode = 3 ∧
        reopened.foreign = sharedProgress.foreign ∧
        reopened.save "progress.json" after = (true, after) := by
  obtain ⟨reopened, hopen, rfl, -, hsave⟩ := saved_reopens
    [.setCompleted "b" true, .setGameMode 3, .importText "none" "ns"] openFile_sharedDisk
    (save_sharedDisk _)
  refine ⟨openFile_sharedDisk, _, _, hopen, ?_, ?_, ?_, hsave⟩
  · cbv
  · cbv
  · cbv

end Files

end Questlog.Progress
