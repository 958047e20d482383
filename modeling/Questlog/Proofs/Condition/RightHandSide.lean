import Mathlib
import Questlog.Condition.Clause
import Questlog.Proofs.Json.Completeness

namespace Questlog

namespace Json

variable {cs front gap : List Char} {json other : Json} {items : List Json} {n m : Nat} {c : Char}

/-- A text has tokens, of which the first is one that a value starts with. -/
theorem IsText.tokens_eq (h : IsText cs json n) (hn : n ≤ m) :
    ∃ input hlt, tokens cs = (input, true) ∧ readValue m input = some ⟨json, [], hlt⟩ := by
  obtain ⟨us, hlexes, hdenotes⟩ := h.readAs hn
  have hreads := hdenotes.reads []
  rw [List.append_nil] at hreads
  obtain ⟨hlt, hread⟩ := hreads
  exact ⟨us, hlt, hlexes.tokens_eq, hread⟩

/-- The text of a value ends in itself: where a mark stands behind it, what goes on from there is not
the text of any value. -/
theorem IsText.not_extended {t : Token} (h : IsText front json n) (hmark : mark? c = some t)
    (back : List Char) : ¬IsText (front ++ c :: back) other m := by
  intro hother
  obtain ⟨us, hlexes, hdenotes⟩ := h.readAs (Nat.le_max_left n m)
  obtain ⟨input, hlt, htokens, hread⟩ := hother.tokens_eq (Nat.le_max_right n m)
  cases hback : tokens back with
  | mk ts complete =>
    have hbehind := tokens_mark (isSpace_of_mark? hmark) hmark hback
    rw [hlexes _ _ complete (endsNumeral_mark hmark) hbehind] at htokens
    cases htokens
    -- One reader takes the tokens in front of the mark for a value, and all of them for another.
    obtain ⟨hlt', hread'⟩ := hdenotes.reads (t :: ts)
    cases hread'.symm.trans hread

/-- Blanks alone are no text of a value. -/
theorem not_isText_spaces (hgap : ∀ c ∈ gap, isSpace c = true) : ¬IsText gap json n := by
  intro h
  obtain ⟨input, hlt, htokens, -⟩ := h.tokens_eq (Nat.le_refl n)
  rw [← List.append_nil gap, tokens_spaces hgap, tokens] at htokens
  cases htokens
  exact absurd hlt (Nat.lt_irrefl 0)

/-- No value starts with a comma or with a closing bracket. -/
theorem not_isText_separator (hgap : ∀ c ∈ gap, isSpace c = true) (hc : c = ',' ∨ c = ']')
    (back : List Char) : ¬IsText (gap ++ c :: back) json n := by
  intro h
  obtain ⟨input, hlt, htokens, hread⟩ := h.tokens_eq (Nat.le_refl n)
  obtain ⟨inner, hinner⟩ := readValue_eq n
  rw [tokens_spaces hgap] at htokens
  rw [hinner] at hread
  cases hback : tokens back with
  | mk ts complete =>
    rcases hc with rfl | rfl
    · rw [tokens_mark rfl rfl hback] at htokens
      cases htokens
      cases hread
    · rw [tokens_mark rfl rfl hback] at htokens
      cases htokens
      cases hread

/-- The first of several items ends at the comma or at the end. -/
theorem AreItems.exists_first (h : AreItems cs items n) :
    ∃ first rest json m, cs = first ++ rest ∧ IsText first json m ∧
      (rest = [] ∨ ∃ later, rest = ',' :: later) := by
  cases h with
  | @last _ json n hitem => exact ⟨cs, [], json, n, (List.append_nil cs).symm, hitem, .inl rfl⟩
  | @more first later json _ n _ hitem => exact ⟨first, _, json, n, rfl, hitem, .inr ⟨later, rfl⟩⟩

/-- Values with commas between them do not go on as the text of one value behind a comma or a closing
bracket. -/
theorem AreItems.not_extended (h : AreItems front items n) (hc : c = ',' ∨ c = ']')
    (back : List Char) : ¬IsText (front ++ c :: back) json m := by
  obtain ⟨first, rest, value, k, rfl, hfirst, hrest⟩ := h.exists_first
  rcases hrest with rfl | ⟨later, rfl⟩
  · rw [List.append_nil]
    rcases hc with rfl | rfl
    · exact hfirst.not_extended rfl back
    · exact hfirst.not_extended rfl back
  · rw [List.append_assoc]
    exact hfirst.not_extended rfl (later ++ c :: back)

/-- An array that is not empty is its items in brackets. -/
theorem IsValue.areItems {value : Json} (h : IsValue cs value n) (hvalue : value = .array items)
    (hne : items ≠ []) : ∃ body m, cs = '[' :: body ++ [']'] ∧ n = m + 1 ∧ AreItems body items m := by
  cases h with
  | array hitems =>
    obtain rfl := Json.array.inj hvalue
    exact ⟨_, _, rfl, rfl, hitems⟩
  | emptyArray => exact absurd (Json.array.inj hvalue).symm hne
  | null | true | false | number | string | emptyObject => cases hvalue
  | object => exact Json.noConfusion hvalue

/-- A text in brackets is the list of one value just if it is the text of that value. -/
theorem isText_brackets_iff :
    IsText ('[' :: cs ++ [']']) (.array [json]) n ↔ ∃ m, n = m + 1 ∧ IsText cs json m := by
  constructor
  · intro h
    generalize hshape : '[' :: cs ++ [']'] = whole at h
    cases h with
    | @padded front used back _ _ hfront hvalue hback =>
      obtain ⟨body, m, rfl, rfl, hitems⟩ := hvalue.areItems rfl (List.cons_ne_nil json [])
      -- A space is no bracket, so there is none around the value.
      have hfrontNil : front = [] := by
        cases front with
        | nil => rfl
        | cons c front =>
          obtain ⟨rfl, -⟩ := List.cons.inj hshape
          exact absurd (hfront '[' List.mem_cons_self) (by decide)
      have hbackNil : back = [] := by
        rcases List.eq_nil_or_concat back with rfl | ⟨back, c, rfl⟩
        · rfl
        · have hlast := congrArg List.getLast? hshape
          rw [List.getLast?_append, List.concat_eq_append, ← List.append_assoc,
            List.getLast?_append] at hlast
          obtain rfl := Option.some.inj hlast
          exact absurd (hback ']' (by simp)) (by decide)
      subst hfrontNil hbackNil
      obtain rfl : cs = body := by simpa using hshape
      cases hitems with
      | last htext => exact ⟨m, rfl, htext⟩
      | more _ hrest => cases hrest
  · rintro ⟨m, rfl, htext⟩
    have hnone := List.forall_mem_nil fun c => isSpace c = true
    have hpadded := IsText.padded hnone (.array (.last htext)) hnone
    rwa [List.nil_append, List.append_nil] at hpadded

end Json

namespace Clause

open Json (IsText AreItems isSpace)

/-- The right-hand side of a clause is read in brackets. -/
theorem operand?_eq_some {clause : Clause} {value : Json} :
    clause.operand? = some value ↔
      Json.parse? (String.ofList ('[' :: clause.operandText ++ [']'])) = some (.array [value]) := by
  unfold operand?
  constructor
  · intro h
    split at h
    · next hparse =>
      obtain rfl := Option.some.inj h
      exact hparse
    · cases h
  · intro h
    simp only [h]

/-- Brackets, commas and quotes inside a right-hand side cannot pair with the brackets around it.
The right-hand side of a clause is read as a value just if it is, with spaces around it, the JSON
text of that value and nests at most 126 arrays and objects. So it is read as none if it is blank,
and if a comma or a closing bracket stands behind one or more complete values, or in front of all,
whatever comes after that. -/
theorem operand?_reads_one_value (clause : Clause) :
    (∀ value, clause.operand? = some value ↔ ∃ n, n ≤ 126 ∧ IsText clause.operandText value n) ∧
    ((∀ c ∈ clause.operandText, isSpace c = true) → clause.operand? = none) ∧
    (∀ front c back, clause.operandText = front ++ c :: back → c = ',' ∨ c = ']' →
      (∀ d ∈ front, isSpace d = true) ∨ (∃ items n, AreItems front items n) →
      clause.operand? = none) := by
  have hread : ∀ value, clause.operand? = some value ↔
      ∃ n, n ≤ 126 ∧ IsText clause.operandText value n := by
    intro value
    rw [operand?_eq_some, Json.parse?_eq_some_iff, String.toList_ofList]
    constructor
    · rintro ⟨n, hn, htext⟩
      obtain ⟨m, rfl, hinside⟩ := Json.isText_brackets_iff.mp htext
      exact ⟨m, Nat.le_of_succ_le_succ hn, hinside⟩
    · rintro ⟨m, hm, hinside⟩
      exact ⟨m + 1, Nat.succ_le_succ hm, Json.isText_brackets_iff.mpr ⟨m, rfl, hinside⟩⟩
  have hnone : (∀ value n, ¬IsText clause.operandText value n) → clause.operand? = none := by
    intro hno
    rw [Option.eq_none_iff_forall_ne_some]
    intro value hvalue
    obtain ⟨n, -, htext⟩ := (hread value).mp hvalue
    exact hno value n htext
  refine ⟨hread, fun hblank => hnone fun _ _ => Json.not_isText_spaces hblank, ?_⟩
  rintro front c back hshape hc hfront
  refine hnone fun value n => ?_
  rw [hshape]
  rcases hfront with hblank | ⟨items, m, hitems⟩
  · exact Json.not_isText_separator hblank hc back
  · exact hitems.not_extended hc back

/-- A list that holds brackets and a comma in quotes is read; a blank text, a value with a comma
behind it, and two lists whose inner brackets would pair with the outer ones are not. -/
theorem operand?_reads_one_value_quoted :
    (∃ n, n ≤ 126 ∧
      IsText " [true, \"],[\"] ".toList (.array [.bool true, .string "],["]) n) ∧
    (∀ c ∈ " ".toList, isSpace c = true) ∧ operand? ⟨.isIn, " ".toList⟩ = none ∧
    (∃ items n, AreItems "true".toList items n) ∧ operand? ⟨.isIn, "true,".toList⟩ = none ∧
    operand? ⟨.isIn, "true], [null".toList⟩ = none := by
  have hread : operand? ⟨.isIn, " [true, \"],[\"] ".toList⟩ =
      some (.array [.bool true, .string "],["]) := by cbv
  have hspace : ∀ c ∈ " ".toList, isSpace c = true := List.all_eq_true.mp (by decide)
  have hcomma : "true,".toList = "true".toList ++ [','] := by decide
  have hbracket : "true], [null".toList = "true".toList ++ ']' :: ", [null".toList := by decide
  have hnone := List.forall_mem_nil fun c => isSpace c = true
  have hitems : AreItems "true".toList [.bool true] 0 := .last (.padded hnone .true hnone)
  exact ⟨((operand?_reads_one_value _).1 _).mp hread, hspace,
    (operand?_reads_one_value _).2.1 hspace, ⟨_, _, hitems⟩,
    (operand?_reads_one_value ⟨.isIn, "true,".toList⟩).2.2 "true".toList ',' [] hcomma (.inl rfl)
      (.inr ⟨_, _, hitems⟩),
    (operand?_reads_one_value ⟨.isIn, "true], [null".toList⟩).2.2 "true".toList ']'
      ", [null".toList hbracket (.inr rfl) (.inr ⟨_, _, hitems⟩)⟩

end Clause

end Questlog
