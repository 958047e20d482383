import Questlog.Text.Blank

namespace Questlog.Text

/-- A text that neither starts nor ends with a blank character, and is not empty. -/
structure Trimmed (cs : List Char) : Prop where
  ne_nil : cs ≠ []
  head : ∀ c ∈ cs.head?, isBlank c = false
  last : ∀ c ∈ cs.getLast?, isBlank c = false

variable {cs front back : List Char}

/-- The visible characters of ASCII are not blank. -/
theorem isBlank_of_visible {c : Char} (h : 33 ≤ c.toNat ∧ c.toNat ≤ 126) : isBlank c = false := by
  simp only [isBlank, Bool.or_eq_false_iff, Bool.and_eq_false_iff, decide_eq_false_iff_not,
    beq_eq_false_iff_ne]
  omega

theorem trimmed_of_forall (hne : cs ≠ []) (h : ∀ c ∈ cs, isBlank c = false) : Trimmed cs :=
  ⟨hne, fun c hc => h c (List.mem_of_mem_head? hc), fun c hc => h c (List.mem_of_getLast? hc)⟩

theorem trimmed_singleton {c : Char} (h : isBlank c = false) : Trimmed [c] :=
  trimmed_of_forall (List.cons_ne_nil c []) (List.forall_mem_singleton.mpr h)

/-- Nothing is dropped where no blank comes first. -/
theorem dropWhile_isBlank (h : ∀ c ∈ cs.head?, isBlank c = false) : cs.dropWhile isBlank = cs := by
  cases cs with
  | nil => rfl
  | cons c cs => rw [List.dropWhile_cons_of_neg (by simp [h c rfl])]

/-- Trimming leaves such a text as it is. -/
theorem Trimmed.trimChars_eq (h : Trimmed cs) : trimChars cs = cs := by
  have hlast : ∀ c ∈ cs.reverse.head?, isBlank c = false := by
    rw [List.head?_reverse]
    exact h.last
  rw [trimChars, dropWhile_isBlank h.head, dropWhile_isBlank hlast, List.reverse_reverse]

theorem trimChars_blank {c : Char} (h : isBlank c = true) : trimChars (c :: cs) = trimChars cs := by
  rw [trimChars, trimChars, List.dropWhile_cons_of_pos h]

/-- What stands between the two ends does not matter. -/
theorem Trimmed.append (hfront : Trimmed front) (hback : Trimmed back) (middle : List Char) :
    Trimmed (front ++ middle ++ back) := by
  obtain ⟨c, front, rfl⟩ := List.exists_cons_of_ne_nil hfront.ne_nil
  refine ⟨List.cons_ne_nil c _, hfront.head, ?_⟩
  have hlast : back.getLast? = some (back.getLast hback.ne_nil) :=
    List.getLast?_eq_some_getLast hback.ne_nil
  intro d hd
  rw [List.getLast?_append, hlast, Option.some_or, ← hlast] at hd
  exact hback.last d hd

end Questlog.Text
