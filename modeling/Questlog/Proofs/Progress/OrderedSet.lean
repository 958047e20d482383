import Mathlib
import Questlog.Proofs.Progress.Completed
import Questlog.Proofs.Progress.Saved

namespace Questlog.Progress

variable {progress next : Progress} {key other : String}

/-- `Adds present keys added`: what `keys` add to those that are `present`, once each, in the order in
which they first come. -/
structure Adds (present keys added : List String) : Prop where
  mem : ∀ key, key ∈ added ↔ key ∈ keys ∧ key ∉ present
  order : added.Pairwise fun key later => keys.idxOf key < keys.idxOf later

/-- Behind a key the places of all others are one further on. -/
theorem idxOf_cons_lt {rest : List String} {first : String} (hkey : key ≠ first)
    (hother : other ≠ first) (h : rest.idxOf key < rest.idxOf other) :
    (first :: rest).idxOf key < (first :: rest).idxOf other := by
  rw [List.idxOf_cons_ne _ (Ne.symm hkey), List.idxOf_cons_ne _ (Ne.symm hother)]
  exact Nat.succ_lt_succ h

/-- Where only the first of equal keys is kept, the keys stay in the order of their first places. -/
theorem pairwise_eraseDups (keys : List String) (p : String → Bool) :
    (keys.filter p).eraseDups.Pairwise fun key later => keys.idxOf key < keys.idxOf later := by
  induction keys generalizing p with
  | nil => exact List.Pairwise.nil
  | cons first rest ih =>
    -- What is kept behind `first` differs from it, and the order there is that of the rest.
    have hlater : ∀ q : String → Bool, q first = false →
        (rest.filter q).eraseDups.Pairwise fun key later =>
          (first :: rest).idxOf key < (first :: rest).idxOf later := by
      intro q hq
      have hne : ∀ key ∈ (rest.filter q).eraseDups, key ≠ first := by
        rintro key hkey rfl
        have hkept := (List.mem_filter.mp (List.mem_eraseDups.mp hkey)).2
        rw [hq] at hkept
        cases hkept
      exact (ih q).imp_of_mem fun hkey hother hlt =>
        idxOf_cons_lt (hne _ hkey) (hne _ hother) hlt
    by_cases hfirst : p first = true
    · rw [List.filter_cons_of_pos hfirst, List.eraseDups_cons, List.filter_filter]
      refine List.pairwise_cons.mpr ⟨fun key hkey => ?_, hlater _ (by simp)⟩
      have hne : first ≠ key := by
        rintro rfl
        have hkept := (List.mem_filter.mp (List.mem_eraseDups.mp hkey)).2
        simp at hkept
      rw [List.idxOf_cons_self, List.idxOf_cons_ne _ hne]
      exact Nat.succ_pos _
    · rw [List.filter_cons_of_neg hfirst]
      exact hlater p (by simpa using hfirst)

/-- Keys that are new, each where it first comes. -/
theorem adds_eraseDups (present keys : List String) :
    Adds present keys (keys.filter (· ∉ present)).eraseDups := by
  refine ⟨fun key => ?_, pairwise_eraseDups keys _⟩
  rw [List.mem_eraseDups, List.mem_filter, decide_eq_true_eq]

theorem adds_replaceCompleted (progress : Progress) (keys : List String) :
    Adds [] keys (progress.replaceCompleted keys).completed := by
  rw [replaceCompleted, completed_markAll, List.nil_append]
  exact adds_eraseDups [] keys

section Marks

/-- A change says of its own key whether it is completed, and nothing of the others. -/
theorem mem_setCompleted (h : progress.completed.Nodup) (key other : String) (completed : Bool) :
    other ∈ (progress.setCompleted key completed).2.completed ↔
      if other = key then completed = true else other ∈ progress.completed := by
  rw [← isCompleted_iff, isCompleted_setCompleted h]
  by_cases heq : other = key
  · rw [if_pos heq, if_pos heq.symm]
  · rw [if_neg heq, if_neg (Ne.symm heq), isCompleted_iff]

/-- Marking a key or taking its mark off leaves the others as they stand. -/
theorem filter_setCompleted (h : progress.completed.Nodup) (key : String) (completed : Bool) :
    (progress.setCompleted key completed).2.completed.filter (· ≠ key) =
      progress.completed.filter (· ≠ key) := by
  cases completed with
  | true =>
    rw [setCompleted, if_pos rfl, mark]
    split
    · rfl
    · rw [List.filter_append, List.filter_cons_of_neg (by simp), List.filter_nil, List.append_nil]
  | false =>
    have herase : progress.completed.erase key = progress.completed.filter (· ≠ key) := by
      rw [h.erase_eq_filter]
      exact List.filter_congr fun other _ => by rw [Bool.eq_iff_iff, bne_iff_ne, decide_eq_true_eq]
    rw [setCompleted, if_neg Bool.false_ne_true, unmark, herase, List.filter_filter]
    simp

/-- A new key is put at the end. -/
theorem completed_setCompleted_new (hnew : key ∉ progress.completed) :
    (progress.setCompleted key true).2.completed = progress.completed ++ [key] := by
  rw [setCompleted, if_pos rfl, mark, if_neg (mt isCompleted_iff.mp hnew)]

/-- A change is reported exactly where some key came or went. -/
theorem setCompleted_reports_iff (h : progress.completed.Nodup) (key : String) (completed : Bool) :
    (progress.setCompleted key completed).1 = true ↔
      ∃ other, ¬(other ∈ (progress.setCompleted key completed).2.completed ↔
        other ∈ progress.completed) := by
  have hreport : (progress.setCompleted key completed).1 = true ↔
      ¬(completed = true ↔ key ∈ progress.completed) := by
    rw [setCompleted, bne_iff_ne, ← isCompleted_iff, ← Bool.eq_iff_iff, ne_comm]
  rw [hreport]
  constructor
  · intro hdiffers
    refine ⟨key, ?_⟩
    rw [mem_setCompleted h, if_pos rfl]
    exact hdiffers
  · rintro ⟨other, hdiffers⟩
    rw [mem_setCompleted h] at hdiffers
    split at hdiffers
    · next heq => exact heq ▸ hdiffers
    · exact absurd Iff.rfl hdiffers

end Marks

/-- Marking puts new keys at the end in the order in which they first come, and no change moves the
keys it is not about. Progress that was opened from any file or began in memory, and was changed in
whatever way since, has no key completed twice. To mark a key or to take its mark off concerns that
key alone: the others stay in their order, a new key is put at the end, a change is reported just if
some key came or went, and without one all stays as it is. Marking further keys leaves the list as
it is and puts those that are missing behind it, once each in the order in which they first come,
and replacing leaves exactly the keys given, in that order. -/
theorem Reachable.keeps_ordered_set (h : progress.Reachable) :
    progress.completed.Nodup ∧
      (∀ key completed, ∃ changed next, progress.setCompleted key completed = (changed, next) ∧
        (∀ other, other ∈ next.completed ↔
          if other = key then completed = true else other ∈ progress.completed) ∧
        next.completed.filter (· ≠ key) = progress.completed.filter (· ≠ key) ∧
        (completed = true → key ∉ progress.completed →
          next.completed = progress.completed ++ [key]) ∧
        (changed = true ↔ ∃ other, ¬(other ∈ next.completed ↔ other ∈ progress.completed)) ∧
        (changed = false → next = progress)) ∧
      (∀ keys, ∃ added, (progress.markAll keys).completed = progress.completed ++ added ∧
        Adds progress.completed keys added) ∧
      ∀ keys, Adds [] keys (progress.replaceCompleted keys).completed := by
  have hnodup := h.consistent.completed_nodup
  refine ⟨hnodup, fun key completed => ?_, fun keys => ?_, adds_replaceCompleted progress⟩
  · refine ⟨_, _, rfl, fun other => mem_setCompleted hnodup key other completed,
      filter_setCompleted hnodup key completed, ?_, setCompleted_reports_iff hnodup key completed,
      setCompleted_of_unchanged⟩
    rintro rfl hnew
    exact completed_setCompleted_new hnew
  · exact ⟨_, completed_markAll progress keys, adds_eraseDups progress.completed keys⟩

/-- A file that names a key twice is opened, and one more key is marked: the twice named key goes with a
single mark taken off, and of the keys that are added one is there, one comes twice and one is new. -/
theorem Reachable.keeps_ordered_set_opened :
    ∃ progress : Progress, progress.Reachable ∧ progress.completed = ["a", "b"] ∧
      (∃ next, progress.setCompleted "a" false = (true, next) ∧ next.completed = ["b"] ∧
        "a" ∉ next.completed) ∧
      (progress.markAll ["d", "b", "c", "d"]).completed = ["a", "b", "d", "c"] ∧
      (∃ added, ["a", "b", "d", "c"] = progress.completed ++ added ∧
        Adds progress.completed ["d", "b", "c", "d"] added) ∧
      (progress.replaceCompleted ["c", "a", "c"]).completed = ["c", "a"] ∧
      Adds [] ["c", "a", "c"] ["c", "a"] := by
  let progress := (sharedProgress.setCompleted "b" true).2
  have hreachable : progress.Reachable :=
    (Reachable.opened openFile_sharedDisk).performed (.setCompleted "b" true)
  obtain ⟨-, hset, hmarked, hreplaced⟩ := hreachable.keeps_ordered_set
  have hcompleted : progress.completed = ["a", "b"] := by cbv
  have hmarks : (progress.markAll ["d", "b", "c", "d"]).completed = ["a", "b", "d", "c"] := by cbv
  have hkeys : (progress.replaceCompleted ["c", "a", "c"]).completed = ["c", "a"] := by cbv
  obtain ⟨changed, next, hnext, hmem, hothers, -, -, -⟩ := hset "a" false
  have hgone : "a" ∉ next.completed := by
    rw [hmem, if_pos rfl]
    exact Bool.false_ne_true
  have hrest : next.completed = ["b"] := by
    have hkept : next.completed.filter (· ≠ "a") = next.completed := by
      rw [List.filter_eq_self]
      exact fun key hkey => decide_eq_true fun heq => hgone (heq ▸ hkey)
    rw [← hkept, hothers, hcompleted]
    decide
  have hchanged : changed = true := by
    have hreport : (progress.setCompleted "a" false).1 = true := by cbv
    rw [hnext] at hreport
    exact hreport
  subst hchanged
  obtain ⟨added, hbehind, hadds⟩ := hmarked ["d", "b", "c", "d"]
  have hall := hreplaced ["c", "a", "c"]
  rw [hkeys] at hall
  exact ⟨progress, hreachable, hcompleted, ⟨next, hnext, hrest, hgone⟩, hmarks,
    ⟨added, hmarks ▸ hbehind, hadds⟩, hkeys, hall⟩

end Questlog.Progress
