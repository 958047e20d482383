import Questlog.Checklist.Key

namespace Questlog.Key

/-- A path of segments that are not empty is not empty. -/
theorem intercalate_ne_empty {segments : List String} (hne : segments ≠ [])
    (h : ∀ s ∈ segments, s ≠ "") : "/".intercalate segments ≠ "" := by
  obtain ⟨s, rest, rfl⟩ := List.exists_cons_of_ne_nil hne
  have hs := h s List.mem_cons_self
  cases rest with
  | nil =>
    rw [String.intercalate_singleton]
    exact hs
  | cons t rest =>
    rw [String.intercalate_cons_cons]
    intro hempty
    have htext := congrArg String.toList hempty
    simp at htext

/-- Only a path without any segment is empty. -/
theorem join_eq_empty {segments : List String} (h : join segments = "") :
    segments.filter (fun s => !s.isEmpty) = [] := by
  by_cases hnil : segments.filter (fun s => !s.isEmpty) = []
  · exact hnil
  · apply absurd h
    apply intercalate_ne_empty hnil
    rintro s hs rfl
    have hfilled := (List.mem_filter.mp hs).2
    exact absurd hfilled (by decide)

/-- A path may be joined in two steps. So joining onto a path that has been joined already gives the
path of all segments. -/
theorem join_cons_join (front back : List String) :
    join (join front :: back) = join (front ++ back) := by
  by_cases hempty : join front = ""
  · have hfront := join_eq_empty hempty
    rw [hempty, join, join, List.filter_append, hfront]
    rfl
  · have hfilled : (!(join front).isEmpty) = true := by simpa using hempty
    have hfront : front.filter (fun s => !s.isEmpty) ≠ [] := by
      intro hnil
      apply hempty
      rw [join, hnil]
      rfl
    have hcons : (join front :: back).filter (fun s => !s.isEmpty) =
        join front :: back.filter (fun s => !s.isEmpty) := List.filter_cons_of_pos hfilled
    rw [join, hcons, join, join, List.filter_append]
    by_cases hback : back.filter (fun s => !s.isEmpty) = []
    · rw [hback, String.intercalate_singleton, List.append_nil]
    · rw [String.intercalate_cons_of_ne_nil hback,
        String.intercalate_append_of_ne_nil hfront hback]

/-- Splitting a path is splitting its characters at every slash. -/
theorem splitChars_eq_splitOn (cs : List Char) : splitChars cs = cs.splitOn '/' := by
  induction cs with
  | nil => exact (List.splitOn_nil '/').symm
  | cons c cs ih =>
    rw [List.splitOn_eq_splitOnP] at ih ⊢
    rw [splitChars, ih, List.splitOnP_cons_eq_if_modifyHead]
    by_cases hc : c = '/'
    · rw [if_pos hc, if_pos (beq_iff_eq.mpr hc)]
    · rw [if_neg hc, if_neg (by simpa using hc)]
      obtain ⟨piece, pieces, hpieces⟩ :=
        List.exists_cons_of_ne_nil (List.splitOnP_ne_nil (· == '/') cs)
      rw [hpieces]
      rfl

/-- Segments without slashes are found again in the text that joins them. -/
theorem split_intercalate {segments : List String} (hne : segments ≠ [])
    (h : ∀ s ∈ segments, '/' ∉ s.toList) : split ("/".intercalate segments) = segments := by
  have hchars : ("/".intercalate segments).toList = ['/'].intercalate (segments.map String.toList) :=
    String.toList_intercalate
  have hslash : ∀ cs ∈ segments.map String.toList, '/' ∉ cs := by
    intro cs hcs
    obtain ⟨s, hs, rfl⟩ := List.mem_map.mp hcs
    exact h s hs
  have hmap : segments.map String.toList ≠ [] := by simpa using hne
  rw [split, hchars, splitChars_eq_splitOn, List.splitOn_intercalate '/' hslash hmap, List.map_map]
  have hid : String.ofList ∘ String.toList = id := funext fun s => String.ofList_toList
  rw [hid, List.map_id]

end Questlog.Key
