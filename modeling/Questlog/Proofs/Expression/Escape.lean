import Mathlib
import Questlog.Proofs.Expression.Opacity

namespace Questlog

namespace Literal

/-- A backslash or a quote of one kind behind a backslash, and any other character as it is. -/
def escapeChar (quote c : Char) : List Char :=
  if c = '\\' ∨ c = quote then ['\\', c] else [c]

/-- A text with a backslash in front of each of its backslashes and its quotes of one kind. -/
def escape (quote : Char) (s : String) : String :=
  String.ofList (s.toList.flatMap (escapeChar quote))

variable {quote c : Char} {cs : List Char}

theorem unescape_cons (h : c ≠ '\\') (cs : List Char) :
    unescape (c :: cs) = c :: unescape cs :=
  unescape.eq_2 c cs fun _ _ heq _ => h heq

theorem unescapeChar_of_isQuote (h : isQuote quote = true) : unescapeChar quote = quote := by
  rcases Lexeme.eq_of_isQuote h with rfl | rfl | rfl <;> rfl

/-- What is escaped is read back. -/
theorem unescape_flatMap_escapeChar (hquote : isQuote quote = true) (cs : List Char) :
    unescape (cs.flatMap (escapeChar quote)) = cs := by
  induction cs with
  | nil => rfl
  | cons c cs ih =>
    rw [List.flatMap_cons, escapeChar]
    split
    · next hescaped =>
      have hback : unescapeChar c = c := by
        rcases hescaped with rfl | rfl
        · rfl
        · exact unescapeChar_of_isQuote hquote
      calc unescape ('\\' :: c :: cs.flatMap (escapeChar quote))
          = unescapeChar c :: unescape (cs.flatMap (escapeChar quote)) := rfl
        _ = c :: cs := by rw [hback, ih]
    · next hplain =>
      rw [List.singleton_append, unescape_cons (not_or.mp hplain).1, ih]

/-- Escaping leaves the last character. -/
theorem getLast?_flatMap_escapeChar (quote : Char) (cs : List Char) :
    (cs.flatMap (escapeChar quote)).getLast? = cs.getLast? := by
  induction cs with
  | nil => rfl
  | cons c cs ih =>
    rw [List.flatMap_cons, List.getLast?_append, ih, List.getLast?_cons]
    have hlast : (escapeChar quote c).getLast? = some c := by
      unfold escapeChar
      split <;> rfl
    rw [hlast]
    cases cs.getLast? <;> rfl

/-- Quotes that are escaped do not end a literal early. -/
theorem encloses_flatMap_escapeChar (hquote : isQuote quote = true)
    (hlast : cs.getLast? ≠ some '\\') : Encloses quote (cs.flatMap (escapeChar quote)) := by
  refine ⟨?_, getLast?_flatMap_escapeChar quote cs ▸ hlast⟩
  clear hlast
  induction cs with
  | nil =>
    intro front back h
    exact absurd h.symm (List.append_ne_nil_of_right_ne_nil _ (List.cons_ne_nil _ _))
  | cons c cs ih =>
    -- A quote further behind stands behind the same backslash as without the first characters.
    have hlater : ∀ (d : Char) (front : List Char), front.getLast? = some '\\' →
        (d :: front).getLast? = some '\\' := by
      intro d front h
      rw [List.getLast?_cons, h]
      rfl
    intro front back h
    rw [List.flatMap_cons, escapeChar] at h
    split at h
    · cases front with
      | nil =>
        obtain ⟨rfl, -⟩ := List.cons.inj h
        exact absurd hquote (by decide)
      | cons d front =>
        obtain ⟨rfl, hbehind⟩ := List.cons.inj h
        cases front with
        | nil => rfl
        | cons e front =>
          obtain ⟨-, htail⟩ := List.cons.inj hbehind
          exact hlater _ _ (hlater e front (ih front back htail))
    · next hplain =>
      cases front with
      | nil =>
        obtain ⟨rfl, -⟩ := List.cons.inj h
        exact absurd (.inr rfl) hplain
      | cons d front =>
        obtain ⟨-, htail⟩ := List.cons.inj h
        exact hlater d front (ih front back htail)

theorem unescapeChar_ne (h : c ≠ '\\') : unescapeChar c ≠ '\\' := by
  unfold unescapeChar
  split
  · decide
  · decide
  · decide
  · decide
  · exact h

/-- Nothing but the empty content stands for the empty text. -/
theorem unescape_eq_nil (h : unescape cs = []) : cs = [] := by
  unfold unescape at h
  split at h
  · cases h
  · cases h
  · rfl

/-- What stands in front does not decide how a text ends that is not empty. -/
theorem getLast?_cons_unescape {a b : Char} (hab : a ≠ '\\' → b ≠ '\\')
    (hrest : cs.getLast? ≠ some '\\' → (unescape cs).getLast? ≠ some '\\')
    (h : (a :: cs).getLast? ≠ some '\\') : (b :: unescape cs).getLast? ≠ some '\\' := by
  rw [List.getLast?_cons] at h ⊢
  cases hlast : (unescape cs).getLast? with
  | none =>
    obtain rfl := unescape_eq_nil (List.getLast?_eq_none_iff.mp hlast)
    have ha : a ≠ '\\' := fun ha => h (congrArg some ha)
    exact fun hb => hab ha (Option.some.inj hb)
  | some d =>
    have hne : cs ≠ [] := by
      rintro rfl
      cases hlast
    rw [List.getLast?_eq_some_getLast hne] at h hrest
    rw [← hlast]
    simpa [hlast] using hrest h

/-- A content that does not end in a backslash stands for a text that does not end in one. -/
theorem getLast?_unescape (h : cs.getLast? ≠ some '\\') :
    (unescape cs).getLast? ≠ some '\\' := by
  fun_induction unescape cs with
  | case1 c rest ih =>
    rw [List.getLast?_cons_cons] at h
    exact getLast?_cons_unescape unescapeChar_ne ih h
  | case2 c rest _ ih => exact getLast?_cons_unescape id ih h
  | case3 => exact h

end Literal

namespace Lexeme

variable {cs : List Char} {position : Nat} {lexemes : List Lexeme} {lexeme : Lexeme}

theorem Spells.written (h : Spells cs position lexemes) (hmem : lexeme ∈ lexemes) :
    ∃ used more, Written used more lexeme.token := by
  induction h with
  | done => cases hmem
  | space _ _ ih => exact ih hmem
  | lexeme hwritten _ ih =>
    rcases List.mem_cons.mp hmem with rfl | hmem
    · exact ⟨_, _, hwritten⟩
    · exact ih hmem

/-- A scan looks at the one character before a quote, while what is between two quotes is read with
each backslash taking the next character. The two rules part only at a backslash in front of the
closing quote. The literals stand for just those texts that do not end in a backslash: each of these
is read from between two quotes once its backslashes and its quotes of that kind are escaped, and no
token is a text that ends in one. -/
theorem tokenize_quoted_escape :
    (∀ quote s, Literal.isQuote quote = true → s.toList.getLast? ≠ some '\\' →
      tokenize (Literal.quoted quote (Literal.escape quote s)) = .ok [⟨.text s, 0⟩]) ∧
    (∀ text lexemes, tokenize text = .ok lexemes → ∀ s position, ⟨.text s, position⟩ ∈ lexemes →
      s.toList.getLast? ≠ some '\\') := by
  constructor
  · intro quote s hquote hlast
    have hcontent := Literal.encloses_flatMap_escapeChar hquote hlast
    have hwritten : Written _ [] _ := .text hquote hcontent
    have hcut : cutAllInPlace 0 _ = _ := cutAllInPlace_written hwritten
    rw [Literal.unescape_flatMap_escapeChar hquote, String.ofList_toList, cutAllInPlace_nil,
      List.append_nil] at hcut
    refine tokenize_of_cutAllInPlace ?_
    have hchars : (Literal.quoted quote (Literal.escape quote s)).toList =
        quote :: s.toList.flatMap (Literal.escapeChar quote) ++ [quote] := by
      simp [Literal.quoted, Literal.escape]
    rw [hchars]
    exact hcut
  · intro text lexemes htokenize s position hmem
    obtain ⟨used, more, hwritten⟩ := (spells_of_tokenize htokenize).written hmem
    obtain ⟨quote, content, -, hcontent, -, rfl⟩ := hwritten.quoted
    rw [String.toList_ofList]
    exact Literal.getLast?_unescape hcontent.last

/-- A text of backslashes, quotes of two kinds and a letter that an escape would change is read back
from between quotes, and a literal that closes behind an escaped backslash is another text. -/
theorem tokenize_quoted_escape_mixed :
    tokenize (Literal.quoted '"' (Literal.escape '"' "\\n\"\\\\'")) =
      .ok [⟨.text "\\n\"\\\\'", 0⟩] ∧
    tokenize "'a\\\\ '" = .ok [⟨.text "a\\ ", 0⟩] ∧ "a\\ ".toList.getLast? ≠ some '\\' := by
  have hread : tokenize "'a\\\\ '" = .ok [⟨.text "a\\ ", 0⟩] := by cbv
  exact ⟨tokenize_quoted_escape.1 '"' "\\n\"\\\\'" rfl (by decide), hread,
    tokenize_quoted_escape.2 _ _ hread _ _ List.mem_cons_self⟩

end Lexeme

end Questlog
