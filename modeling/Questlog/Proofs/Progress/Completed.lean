import Mathlib
import Questlog.Proofs.Json.Pretty
import Questlog.Proofs.Progress.Operation

namespace Questlog.Progress

variable {progress : Progress} {key other : String} {keys : List String}

section Membership

@[simp] theorem isCompleted_iff : progress.isCompleted key = true ↔ key ∈ progress.completed :=
  List.contains_iff_mem

/-- What is completed after a key was marked. -/
theorem mem_mark : key ∈ (progress.mark other).completed ↔ key ∈ progress.completed ∨ key = other := by
  by_cases h : progress.isCompleted other = true
  · rw [mark, if_pos h, or_iff_left_of_imp]
    rintro rfl
    exact isCompleted_iff.mp h
  · rw [mark, if_neg h]
    simp

/-- What is completed after a mark was taken back. -/
theorem mem_unmark (h : progress.completed.Nodup) :
    key ∈ (progress.unmark other).completed ↔ key ∈ progress.completed ∧ key ≠ other := by
  rw [unmark, h.mem_erase_iff, and_comm]

/-- Of a key that was set the new state holds, and every other key keeps its own. -/
theorem isCompleted_setCompleted (h : progress.completed.Nodup) (completed : Bool) :
    (progress.setCompleted other completed).2.isCompleted key =
      if other = key then completed else progress.isCompleted key := by
  rw [Bool.eq_iff_iff, isCompleted_iff, setCompleted]
  by_cases hkey : other = key
  · subst hkey
    cases completed with
    | true => simp [mem_mark]
    | false => simp [mem_unmark h]
  · have hne : key ≠ other := fun heq => hkey heq.symm
    rw [if_neg hkey, isCompleted_iff]
    cases completed with
    | true => simp [mem_mark, hne]
    | false => simp [mem_unmark h, hne]

/-- A mark that is reported as unchanged changes nothing. -/
theorem setCompleted_of_unchanged {completed : Bool}
    (h : (progress.setCompleted key completed).1 = false) :
    (progress.setCompleted key completed).2 = progress := by
  simp only [setCompleted, bne_eq_false_iff_eq] at h ⊢
  cases completed with
  | true => rw [if_pos rfl, mark, if_pos h]
  | false =>
    have hmem : key ∉ progress.completed := by
      rw [← isCompleted_iff, h]
      exact Bool.false_ne_true
    rw [if_neg Bool.false_ne_true, unmark, List.erase_of_not_mem hmem]

end Membership

section Order

/-- What is marked stands behind what was completed before: the keys that are new, in the order in
which they first come. -/
theorem completed_markAll (progress : Progress) (keys : List String) :
    (progress.markAll keys).completed =
      progress.completed ++ (keys.filter (· ∉ progress.completed)).eraseDups := by
  induction keys generalizing progress with
  | nil => simp [markAll]
  | cons key rest ih =>
    have hrest : progress.markAll (key :: rest) = (progress.mark key).markAll rest := rfl
    rw [hrest, ih]
    by_cases hkey : key ∈ progress.completed
    · rw [mark, if_pos (isCompleted_iff.mpr hkey), List.filter_cons_of_neg (by simpa using hkey)]
    · have hmark : (progress.mark key).completed = progress.completed ++ [key] := by
        rw [mark, if_neg (mt isCompleted_iff.mp hkey)]
      have hfilter : rest.filter (· ∉ progress.completed ++ [key]) =
          (rest.filter (· ∉ progress.completed)).filter fun other => !other == key := by
        rw [List.filter_filter]
        apply List.filter_congr
        intro other _
        by_cases heq : other = key <;> simp [heq]
      rw [hmark, hfilter, List.filter_cons_of_pos (by simpa using hkey), List.eraseDups_cons,
        List.append_assoc, List.singleton_append]

/-- Replaced keys are completed once each, in the order in which they first come. -/
theorem completed_replaceCompleted (progress : Progress) (keys : List String) :
    (progress.replaceCompleted keys).completed = keys.eraseDups := by
  rw [replaceCompleted, completed_markAll]
  simp

end Order

section Snapshots

/-- The completed keys in the order of a snapshot. -/
def sortedKeys (progress : Progress) : List String :=
  progress.completed.mergeSort (· ≤ ·)

theorem mem_sortedKeys : key ∈ progress.sortedKeys ↔ key ∈ progress.completed :=
  (List.mergeSort_perm _ _).mem_iff

/-- The snapshot lists the completed keys once each in ascending order. -/
theorem pairwise_sortedKeys (h : progress.completed.Nodup) :
    progress.sortedKeys.Pairwise (· < ·) := by
  have hle : progress.sortedKeys.Pairwise fun a b => decide (a ≤ b) = true := by
    apply List.pairwise_mergeSort
    · intro a b c hab hbc
      simp only [decide_eq_true_eq] at hab hbc ⊢
      exact String.le_trans hab hbc
    · intro a b
      simpa using String.le_total a b
  have hnodup : progress.sortedKeys.Nodup := (List.mergeSort_perm _ _).nodup_iff.mpr h
  refine (hle.and hnodup).imp ?_
  rintro a b ⟨hab, hne⟩
  exact lt_of_le_of_ne (of_decide_eq_true hab) hne

/-- The snapshot is empty only if nothing is completed. -/
theorem sortedKeys_eq_nil_iff : progress.sortedKeys = [] ↔ progress.completed = [] := by
  rw [List.eq_nil_iff_forall_not_mem, List.eq_nil_iff_forall_not_mem]
  simp only [mem_sortedKeys]

/-- The text of a snapshot denotes the sorted keys. -/
theorem exportText?_of_ne_nil (h : progress.sortedKeys ≠ []) (checklist : String) :
    ∃ text, progress.exportText? checklist = some text ∧
      Json.parse? text = some (.object [("key", .string checklist),
        ("completed", .array (progress.sortedKeys.map .string))]) := by
  have hcompleted : ¬ progress.completed.isEmpty = true :=
    fun hempty => h (sortedKeys_eq_nil_iff.mpr (List.isEmpty_iff.mp hempty))
  have hsnapshot : progress.snapshot? checklist = some (.object [("key", .string checklist),
      ("completed", .array (progress.sortedKeys.map .string))]) := by
    rw [snapshot?, if_neg hcompleted]
    rfl
  refine ⟨_, congrArg (Option.map Json.pretty) hsnapshot, ?_⟩
  apply Json.Fits.parse?_pretty
  refine ⟨by simp [Entries.names], ?_⟩
  simp [Json.Fits]

end Snapshots

end Questlog.Progress
