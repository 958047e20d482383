import Mathlib
import Questlog.Checklist.Key

namespace Questlog.Key

variable {cs ds front back : List Char} {c : Char}

/-- The filled pieces of a text between the dashes. -/
def words (cs : List Char) : List (List Char) :=
  (cs.splitOn '-').filter (· ≠ [])

/-- Two dashes in a row. -/
def doubleDash : List Char :=
  ['-', '-']

section Words

@[simp]
theorem words_nil : words [] = [] := rfl

/-- A dash cuts, wherever it stands. -/
theorem words_append_dash (front back : List Char) :
    words (front ++ '-' :: back) = words front ++ words back := by
  rw [words, List.splitOn_append_cons_self, List.filter_append]
  rfl

@[simp]
theorem words_dash_cons (cs : List Char) : words ('-' :: cs) = words cs :=
  words_append_dash [] cs

theorem words_append_singleton_dash (cs : List Char) : words (cs ++ ['-']) = words cs := by
  rw [words_append_dash, words_nil, List.append_nil]

theorem words_dropWhile (cs : List Char) : words (cs.dropWhile (· = '-')) = words cs := by
  induction cs with
  | nil => rfl
  | cons c cs ih =>
    by_cases hc : c = '-'
    · rw [List.dropWhile_cons_of_pos (by simpa using hc), ih, hc, words_dash_cons]
    · rw [List.dropWhile_cons_of_neg (by simpa using hc)]

theorem words_reverse_dropWhile (cs : List Char) :
    words (cs.dropWhile (· = '-')).reverse = words cs.reverse := by
  induction cs with
  | nil => rfl
  | cons c cs ih =>
    by_cases hc : c = '-'
    · rw [List.dropWhile_cons_of_pos (by simpa using hc), ih, hc, List.reverse_cons,
        words_append_singleton_dash]
    · rw [List.dropWhile_cons_of_neg (by simpa using hc)]

/-- Trimming the dashes at the ends keeps the words. -/
theorem words_trimDashes (cs : List Char) : words (trimDashes cs) = words cs := by
  rw [trimDashes, words_reverse_dropWhile, List.reverse_reverse, words_dropWhile]

end Words

section Trimmed

theorem head?_dropWhile_dash (cs : List Char) : (cs.dropWhile (· = '-')).head? ≠ some '-' := by
  have hhead := List.head?_dropWhile_not (fun c : Char => decide (c = '-')) cs
  intro hdash
  rw [hdash] at hhead
  simp at hhead

theorem getLast?_trimDashes (cs : List Char) : (trimDashes cs).getLast? ≠ some '-' := by
  rw [trimDashes, List.getLast?_reverse]
  exact head?_dropWhile_dash _

theorem trimDashes_front (cs : List Char) : trimDashes cs <+: cs.dropWhile (· = '-') := by
  have hsuffix := (List.dropWhile_suffix (l := (cs.dropWhile (· = '-')).reverse) (· = '-'))
  have hfront := List.reverse_prefix.mpr hsuffix
  rw [List.reverse_reverse] at hfront
  exact hfront

/-- What is trimmed does not start with a dash. -/
theorem head?_trimDashes (cs : List Char) : (trimDashes cs).head? ≠ some '-' := by
  intro hdash
  obtain ⟨rest, hrest⟩ := trimDashes_front cs
  apply head?_dropWhile_dash cs
  rw [← hrest, List.head?_append, hdash, Option.some_or]

theorem trimDashes_within (cs : List Char) : trimDashes cs <:+: cs :=
  (trimDashes_front cs).isInfix.trans (List.dropWhile_suffix _).isInfix

/-- A text with dashes only between other characters, and there one at a time, has no empty pieces. -/
theorem ne_nil_of_mem_splitOn (hne : cs ≠ []) (hhead : cs.head? ≠ some '-')
    (hlast : cs.getLast? ≠ some '-') (hdouble : ¬ doubleDash <:+: cs) :
    ∀ piece ∈ cs.splitOn '-', piece ≠ [] := by
  induction hlength : cs.length using Nat.strongRecOn generalizing cs with
  | ind n ih =>
    by_cases hdash : '-' ∈ cs
    · -- Behind the first dash the text goes on in the same way.
      obtain ⟨first, rest, rfl, hfirst⟩ := List.eq_append_cons_of_mem hdash
      have hfilled : first ≠ [] := by
        rintro rfl
        exact hhead rfl
      have hrest : rest ≠ [] := by
        rintro rfl
        exact hlast List.getLast?_concat
      have hrestHead : rest.head? ≠ some '-' := by
        intro hagain
        obtain ⟨more, rfl⟩ := List.head?_eq_some_iff.mp hagain
        exact hdouble ⟨first, more, by simp [doubleDash]⟩
      have hrestLast : rest.getLast? ≠ some '-' := by
        rwa [List.getLast?_append_of_ne_nil _ (List.cons_ne_nil _ _), List.getLast?_cons_of_ne_nil hrest]
          at hlast
      have hrestDouble : ¬ doubleDash <:+: rest :=
        fun hwithin => hdouble (hwithin.trans ⟨first ++ ['-'], [], by simp⟩)
      rw [List.splitOn_append_cons_self_of_not_mem hfirst]
      refine List.forall_mem_cons.mpr
        ⟨hfilled, ih rest.length ?_ hrest hrestHead hrestLast hrestDouble rfl⟩
      rw [← hlength, List.length_append, List.length_cons]
      omega
    · rw [List.splitOn_eq_singleton hdash]
      exact List.forall_mem_singleton.mpr hne

/-- Such a text is the join of its filled pieces. -/
theorem intercalate_words_trimDashes (hdouble : ¬ doubleDash <:+: cs) :
    ['-'].intercalate (words (trimDashes cs)) = trimDashes cs := by
  by_cases hempty : trimDashes cs = []
  · rw [hempty]
    rfl
  · have hfilled := ne_nil_of_mem_splitOn hempty (head?_trimDashes cs) (getLast?_trimDashes cs)
      (fun hwithin => hdouble (hwithin.trans (trimDashes_within cs)))
    have hall : words (trimDashes cs) = (trimDashes cs).splitOn '-' := by
      rw [words, List.filter_eq_self]
      exact fun piece hpiece => decide_eq_true (hfilled piece hpiece)
    rw [hall, List.intercalate_splitOn]

end Trimmed

section Writing

variable {written : List Char}

/-- What is written has the pieces of what was read, also with anything behind it. -/
theorem words_writeChar (written : List Char) (c : Char) (rest : List Char) :
    words ((writeChar written c).reverse ++ rest) = words (written.reverse ++ c :: rest) := by
  unfold writeChar
  split
  · next hskip =>
    obtain ⟨rfl, hhead⟩ := hskip
    obtain ⟨before, rfl⟩ := List.head?_eq_some_iff.mp hhead
    rw [List.reverse_cons, List.append_assoc, List.append_assoc, List.singleton_append,
      List.singleton_append, words_append_dash, words_append_dash, words_dash_cons]
  · rw [List.reverse_cons, List.append_assoc, List.singleton_append]

/-- Writing one more character never puts two dashes in a row. -/
theorem doubleDash_writeChar (h : ¬ doubleDash <:+: written) (c : Char) :
    ¬ doubleDash <:+: writeChar written c := by
  unfold writeChar
  split
  · exact h
  · next hnot =>
    rw [List.infix_cons_iff]
    rintro (hfront | hwithin)
    · obtain ⟨rest, hrest⟩ := hfront
      obtain ⟨rfl, rfl⟩ := List.cons.inj hrest
      exact hnot ⟨rfl, rfl⟩
    · exact h hwithin

/-- Only the character that is written is new. -/
theorem mem_writeChar {d : Char} (h : d ∈ writeChar written c) : d = c ∨ d ∈ written := by
  unfold writeChar at h
  split at h
  · exact .inr h
  · exact List.mem_cons.mp h

/-- A whole run keeps what each step keeps. -/
theorem words_foldl_writeChar (cs written : List Char) :
    words (cs.foldl (fun written c => writeChar written (escapeChar c)) written).reverse =
      words (written.reverse ++ cs.map escapeChar) := by
  induction cs generalizing written with
  | nil => rw [List.foldl_nil, List.map_nil, List.append_nil]
  | cons c cs ih => rw [List.foldl_cons, ih, words_writeChar, List.map_cons]

/-- There are never two dashes in a row, whatever is read. -/
theorem doubleDash_foldl_writeChar (h : ¬ doubleDash <:+: written) (cs : List Char) :
    ¬ doubleDash <:+: cs.foldl (fun written c => writeChar written (escapeChar c)) written := by
  induction cs generalizing written with
  | nil => exact h
  | cons c cs ih => exact ih (doubleDash_writeChar h (escapeChar c))

theorem mem_foldl_writeChar {d : Char}
    (h : d ∈ cs.foldl (fun written c => writeChar written (escapeChar c)) written) :
    (∃ c, d = escapeChar c) ∨ d ∈ written := by
  induction cs generalizing written with
  | nil => exact .inr h
  | cons c cs ih =>
    rcases ih h with hescaped | hwritten
    · exact .inl hescaped
    · exact (mem_writeChar hwritten).imp_left fun heq => ⟨c, heq⟩

end Writing

section Pieces

/-- Whether a title is cut at a character: at what is blank, and at what is neither a star nor kept. -/
def isCut (c : Char) : Bool :=
  Text.isBlank c || !(c == star || isKept c)

/-- A character of a piece as it stands in the key. -/
def withoutStar (c : Char) : Char :=
  if c = star then '*' else c

/-- The pieces of a title: what is filled between the cuts of its lowered text. -/
def pieces (title : String) : List (List Char) :=
  (((withoutApostrophes (Text.lowercase title.toList)).splitOnP isCut).filter (· ≠ [])).map
    (List.map withoutStar)

/-- Where a title is cut, a dash is written. -/
theorem escapeChar_of_cut (h : isCut c = true) : escapeChar c = '-' := by
  have hstar : c ≠ star := by
    rintro rfl
    exact absurd h (by decide)
  rw [isCut, beq_eq_false_iff_ne.mpr hstar, Bool.false_or] at h
  rw [escapeChar, if_neg hstar, if_pos h]

/-- Where a title is not cut, the character is kept but for the star. -/
theorem escapeChar_of_not_cut (h : isCut c = false) :
    escapeChar c = withoutStar c ∧ escapeChar c ≠ '-' := by
  by_cases hstar : c = star
  · subst hstar
    decide
  · rw [isCut, beq_eq_false_iff_ne.mpr hstar, Bool.false_or] at h
    rw [escapeChar, withoutStar, if_neg hstar, if_neg (by simp [h]), if_neg hstar]
    refine ⟨rfl, ?_⟩
    rintro rfl
    exact absurd h (by decide)

/-- Cutting and writing a dash for each cut come to the same. -/
theorem splitOn_map_escapeChar (cs : List Char) :
    (cs.map escapeChar).splitOn '-' = (cs.splitOnP isCut).map (List.map withoutStar) := by
  induction cs with
  | nil => rfl
  | cons c cs ih =>
    rw [List.map_cons, List.splitOn_cons_eq_if_modifyHead, List.splitOnP_cons_eq_if_modifyHead, ih]
    cases hcut : isCut c with
    | true =>
      rw [escapeChar_of_cut hcut]
      rfl
    | false =>
      obtain ⟨hchar, hdash⟩ := escapeChar_of_not_cut hcut
      rw [if_neg (by simpa using hdash), if_neg Bool.false_ne_true, hchar]
      cases cs.splitOnP isCut <;> rfl

/-- The words of what is written are the pieces of the title. -/
theorem words_map_escapeChar (cs : List Char) :
    words (cs.map escapeChar) =
      ((cs.splitOnP isCut).filter (· ≠ [])).map (List.map withoutStar) := by
  rw [words, splitOn_map_escapeChar, List.filter_map]
  congr 2
  funext piece
  simp

theorem toList_escape (title : String) :
    (escape title).toList = escapeLowered (Text.lowercase title.toList) :=
  String.toList_ofList

/-- The words of the segment are the pieces of the title. -/
theorem words_escape (title : String) : words (escape title).toList = pieces title := by
  rw [toList_escape, escapeLowered, words_trimDashes, words_foldl_writeChar, List.reverse_nil,
    List.nil_append, words_map_escapeChar, pieces]

theorem not_doubleDash_escaped (cs : List Char) :
    ¬ doubleDash <:+:
      (cs.foldl (fun written c => writeChar written (escapeChar c)) []).reverse := by
  have hreversed : doubleDash.reverse = doubleDash := rfl
  rw [← hreversed, List.reverse_infix]
  exact doubleDash_foldl_writeChar (by simp [doubleDash]) cs

/-- What a key holds is neither a slash nor blank, nor an ASCII capital. -/
theorem escapeChar_admitted (c : Char) :
    escapeChar c ≠ '/' ∧ Text.isBlank (escapeChar c) = false ∧
      ¬('A' ≤ escapeChar c ∧ escapeChar c ≤ 'Z') := by
  unfold escapeChar
  split
  · decide
  split
  · decide
  · next hkept =>
    obtain ⟨hblank, hkept⟩ : Text.isBlank c = false ∧ isKept c = true := by simpa using hkept
    refine ⟨?_, hblank, ?_⟩
    · rintro rfl
      exact absurd hkept (by decide)
    · rintro ⟨hfirst, hlast⟩
      simp only [isKept, Bool.or_eq_true, Bool.and_eq_true, decide_eq_true_eq] at hkept
      rcases hkept with (⟨hlower, -⟩ | ⟨-, hdigit⟩) | ⟨hlower, -⟩
      · exact absurd (hlower.trans hlast) (by decide)
      · exact absurd (hfirst.trans hdigit) (by decide)
      · exact absurd (hlower.trans hlast) (by decide)

theorem mem_escape {title : String} {d : Char} (h : d ∈ (escape title).toList) :
    ∃ c, d = escapeChar c := by
  rw [toList_escape, escapeLowered] at h
  have hwritten := (trimDashes_within _).mem h
  rw [List.mem_reverse] at hwritten
  exact (mem_foldl_writeChar hwritten).resolve_right List.not_mem_nil

/-- The segment is what remains of the title, piece by piece, with a dash between. -/
theorem toList_escape_eq_intercalate (title : String) :
    (escape title).toList = ['-'].intercalate (pieces title) := by
  rw [← words_escape, toList_escape, escapeLowered,
    intercalate_words_trimDashes (not_doubleDash_escaped _)]

end Pieces

/-- The segment of a title is the join of its pieces with dashes. So it has neither a slash nor a blank
character nor an ASCII capital, no two dashes in a row and none at its ends, and two titles have the
same segment exactly if they have the same pieces. -/
theorem escape_joins_pieces (title : String) :
    (escape title).toList = ['-'].intercalate (pieces title) ∧
      (∀ c ∈ (escape title).toList,
        c ≠ '/' ∧ Text.isBlank c = false ∧ ¬('A' ≤ c ∧ c ≤ 'Z')) ∧
      ¬ doubleDash <:+: (escape title).toList ∧
      (escape title).toList.head? ≠ some '-' ∧ (escape title).toList.getLast? ≠ some '-' ∧
      ∀ other, escape title = escape other ↔ pieces title = pieces other := by
  refine ⟨toList_escape_eq_intercalate title, fun c hc => ?_, ?_, ?_, ?_, fun other => ?_⟩
  · obtain ⟨c, rfl⟩ := mem_escape hc
    exact escapeChar_admitted c
  · rw [toList_escape, escapeLowered]
    exact fun hwithin => not_doubleDash_escaped _ (hwithin.trans (trimDashes_within _))
  · rw [toList_escape]
    exact head?_trimDashes _
  · rw [toList_escape]
    exact getLast?_trimDashes _
  · constructor
    · intro heq
      rw [← words_escape, ← words_escape, heq]
    · intro heq
      apply String.toList_injective
      rw [toList_escape_eq_intercalate, toList_escape_eq_intercalate, heq]

/-- A star of the title stands as an asterisk, while an asterisk of the title is a cut like any run of
other marks, so that a title spelled with other marks has the same segment. -/
theorem escape_joins_pieces_starred :
    pieces "★ Kaya’s  Rock’n: Roll/**2" = pieces "★ (Kaya) Rock-n-Roll!2" ∧
      escape "★ Kaya’s  Rock’n: Roll/**2" = "*-kaya-rock-n-roll-2" ∧
      escape "★ Kaya’s  Rock’n: Roll/**2" = escape "★ (Kaya) Rock-n-Roll!2" ∧
      '*' ∈ (escape "★ Kaya’s  Rock’n: Roll/**2").toList ∧
      ('*' ≠ '/' ∧ Text.isBlank '*' = false ∧ ¬('A' ≤ '*' ∧ '*' ≤ 'Z')) := by
  have hpieces : pieces "★ Kaya’s  Rock’n: Roll/**2" = pieces "★ (Kaya) Rock-n-Roll!2" := by cbv
  have hsegment : escape "★ Kaya’s  Rock’n: Roll/**2" = "*-kaya-rock-n-roll-2" := by cbv
  have hmem : '*' ∈ (escape "★ Kaya’s  Rock’n: Roll/**2").toList := by
    rw [hsegment]
    decide
  obtain ⟨-, hchars, -, -, -, hsame⟩ := escape_joins_pieces "★ Kaya’s  Rock’n: Roll/**2"
  exact ⟨hpieces, hsegment, (hsame _).mpr hpieces, hmem, hchars '*' hmem⟩

end Questlog.Key
