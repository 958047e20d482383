import Mathlib
import Questlog.Proofs.Progress.Completed
import Questlog.Proofs.Progress.Saved
import Questlog.Proofs.Text.ByteOrder

namespace Questlog.Progress

variable {progress : Progress} {keys : List String}

theorem replaceCompleted_of_nodup (progress : Progress) (h : keys.Nodup) :
    progress.replaceCompleted keys = { progress with completed := keys } := by
  rw [replaceCompleted_eq, completed_replaceCompleted, eraseDups_of_nodup h]

theorem readKeys_map_string (keys : List String) : readKeys (keys.map .string) = .ok keys := by
  induction keys with
  | nil => rfl
  | cons key rest ih =>
    rw [List.map_cons, readKeys, ih]

/-- Entries are read as keys if all of them are texts. -/
theorem readKeys_eq_ok_iff {entries : List Json} :
    readKeys entries = .ok keys ↔ entries = keys.map .string := by
  constructor
  · intro h
    fun_induction readKeys entries generalizing keys with
    | case1 =>
      cases h
      rfl
    | case2 key rest read hread ih =>
      cases h
      rw [List.map_cons, ih hread]
    | case3 => cases h
    | case4 => cases h
  · rintro rfl
    exact readKeys_map_string keys

/-- `IsSnapshot text checklist keys`: the text is a snapshot of the checklist, a JSON object that names
it and lists the keys. -/
def IsSnapshot (text checklist : String) (keys : List String) : Prop :=
  ∃ members, Json.parse? text = some (.object members) ∧
    members.lookup "key" = some (.string checklist) ∧
    members.lookup "completed" = some (.array (keys.map .string))

/-- Only objects have members. -/
theorem object_of_member? {json value : Json} {name : String} (h : json.member? name = some value) :
    ∃ members, json = .object members := by
  cases json with
  | object members => exact ⟨members, rfl⟩
  | _ => cases h

/-- A snapshot that is taken over names the checklist and lists the keys. -/
theorem members_of_readSnapshot {checklist : String} {data : Json}
    (h : readSnapshot checklist data = .ok keys) :
    data.member? "key" = some (.string checklist) ∧
      data.member? "completed" = some (.array (keys.map .string)) := by
  rw [readSnapshot] at h
  rcases hkey : data.member? "key" with _ | (_ | _ | _ | key | _ | _)
  case some.string =>
    rw [hkey] at h
    by_cases heq : key = checklist
    · simp only [if_pos heq] at h
      rcases hcompleted : data.member? "completed" with _ | (_ | _ | _ | _ | entries | _)
      case some.array =>
        rw [hcompleted] at h
        rw [heq, readKeys_eq_ok_iff.mp h]
        exact ⟨rfl, rfl⟩
      all_goals
        rw [hcompleted] at h
        cases h
    · simp only [if_neg heq] at h
      cases h
  all_goals
    rw [hkey] at h
    cases h

/-- Keys are taken from snapshots of the checklist only, and all that these list. -/
theorem importKeys_eq_ok_iff {text checklist : String} :
    importKeys text checklist = .ok keys ↔ IsSnapshot text checklist keys := by
  constructor
  · intro h
    cases hparse : Json.parse? text with
    | none =>
      simp only [importKeys, hparse] at h
      cases h
    | some data =>
      simp only [importKeys, hparse] at h
      obtain ⟨hkey, hcompleted⟩ := members_of_readSnapshot h
      obtain ⟨members, rfl⟩ := object_of_member? hkey
      exact ⟨members, hparse, hkey, hcompleted⟩
  · rintro ⟨members, hparse, hkey, hcompleted⟩
    have hkey : Json.member? (.object members) "key" = some (.string checklist) := hkey
    have hcompleted : Json.member? (.object members) "completed" =
      some (.array (keys.map .string)) := hcompleted
    simp only [importKeys, hparse, readSnapshot, hkey, hcompleted, if_pos, readKeys_map_string]

/-- What a snapshot of one checklist gives under any name. -/
theorem readSnapshot_object (found expected : String) (keys : List String) :
    readSnapshot expected (.object [("key", .string found), ("completed", .array (keys.map .string))]) =
      if found = expected then .ok keys else .error (.otherKey found expected) := by
  have hkey : Json.member? (.object [("key", .string found),
      ("completed", .array (keys.map .string))]) "key" = some (.string found) := rfl
  have hcompleted : Json.member? (.object [("key", .string found),
      ("completed", .array (keys.map .string))]) "completed" = some (.array (keys.map .string)) := rfl
  simp only [readSnapshot, hkey, hcompleted, readKeys_map_string]

/-- The snapshot lists the completed keys, each of them once. -/
theorem perm_sortedKeys (progress : Progress) : progress.sortedKeys.Perm progress.completed :=
  List.mergeSort_perm _ _

/-- An import reads the keys and takes them over. -/
theorem importText_eq (progress : Progress) (text checklist : String) :
    progress.importText text checklist = (importKeys text checklist).map fun keys =>
      ((progress.replaceCompleted keys).completed.length, progress.replaceCompleted keys) := by
  unfold importText
  cases importKeys text checklist <;> rfl

/-- A snapshot can be taken of all progress in which anything is completed, and any other progress
can take it over: it then has the same keys completed, in ascending order of their bytes, and keeps
its scope, its two numbers and the entries of other scopes. Under another name than that of the
checklist the snapshot is refused, and what refuses it stays as it is. The name of a checklist keeps
a snapshot from being taken over under another name. -/
theorem export_restores_keys (h : progress.Reachable) (hcompleted : progress.completed ≠ [])
    (checklist : String) :
    progress.sortedKeys.Perm progress.completed ∧
      progress.sortedKeys.Pairwise (fun key next => Text.bytes key < Text.bytes next) ∧
      ∃ text, progress.exportText? checklist = some text ∧
        importKeys text checklist = .ok progress.sortedKeys ∧
        ∀ other : Progress,
          other.importText text checklist = .ok (progress.completed.length,
            { other with completed := progress.sortedKeys }) ∧
          ∀ different, different ≠ checklist →
            importKeys text different = .error (.otherKey checklist different) ∧
            other.importText text different = .error (.otherKey checklist different) ∧
            other.perform (.importText text different) = other := by
  have hsorted := pairwise_sortedKeys h.consistent.completed_nodup
  obtain ⟨text, htext, hparse⟩ :=
    exportText?_of_ne_nil (mt sortedKeys_eq_nil_iff.mp hcompleted) checklist
  have hkeys : ∀ expected, importKeys text expected =
      if checklist = expected then .ok progress.sortedKeys
      else .error (.otherKey checklist expected) := by
    intro expected
    rw [importKeys, hparse]
    exact readSnapshot_object checklist expected progress.sortedKeys
  have hsame := (hkeys checklist).trans (if_pos rfl)
  refine ⟨perm_sortedKeys progress, hsorted.imp Text.bytes_lt_bytes.mpr, text, htext, hsame, ?_⟩
  intro other
  constructor
  · have hreplaced := replaceCompleted_of_nodup other (hsorted.imp ne_of_lt)
    rw [importText_eq, hsame, Except.map, hreplaced, (perm_sortedKeys progress).length_eq]
  intro different hne
  have hother := (hkeys different).trans (if_neg (Ne.symm hne))
  have himport : other.importText text different = .error (.otherKey checklist different) := by
    rw [importText_eq, hother, Except.map]
  refine ⟨hother, himport, ?_⟩
  rw [perform, himport]

/-- A key with a quote, one with a line break and one beyond ASCII, marked in another order. -/
theorem export_restores_quoted :
    ∃ (progress : Progress) (text : String), progress.Reachable ∧ progress.completed ≠ [] ∧
      progress.exportText? "ns" = some text ∧
      importText { scope := "other", gameMode := 2 } text "ns" =
        .ok (3, { scope := "other", gameMode := 2, completed := ["\"", "a\nb", "é"] }) ∧
      importText { scope := "other" } text "other" = .error (.otherKey "ns" "other") := by
  let marked : Progress := performAll { scope := "ns" }
    [.setCompleted "é" true, .setCompleted "\"" true, .setCompleted "a\nb" true]
  have hmarked : marked.Reachable := (Reachable.inMemory "ns").performAll _
  have hcompleted : marked.completed = ["é", "\"", "a\nb"] := by cbv
  have hsorted : marked.sortedKeys = ["\"", "a\nb", "é"] := by
    rw [sortedKeys, hcompleted]
    cbv
  have hne : marked.completed ≠ [] := by
    rw [hcompleted]
    exact List.cons_ne_nil _ _
  obtain ⟨-, -, text, htext, -, hother⟩ := export_restores_keys hmarked hne "ns"
  refine ⟨marked, text, hmarked, hne, htext, ?_, ?_⟩
  · rw [(hother _).1, hcompleted, hsorted]
    rfl
  · exact ((hother _).2 "other" (by decide)).2.1

end Questlog.Progress
