import Mathlib
import Questlog.Proofs.Expression.Scan
import Questlog.Proofs.Text.Boundary

namespace Questlog

/-- A content between two quotes. -/
def Literal.quoted (quote : Char) (content : String) : String :=
  String.singleton quote ++ content ++ String.singleton quote

namespace Lexeme

def IsBlank (text : String) : Prop :=
  ∀ c ∈ text.toList, isSpace c = true

/-- The lexemes of a text, of which a blank one has none. -/
def Yields (text : String) (lexemes : List Lexeme) : Prop :=
  tokenize text = .ok lexemes ∨ IsBlank text ∧ lexemes = []

variable {cs : List Char} {position : Nat} {text : String} {lexemes : List Lexeme}

/-- No token is spelled by blanks alone. -/
theorem spells_nil_iff : Spells cs position [] ↔ ∀ c ∈ cs, isSpace c = true := by
  constructor
  · intro h
    generalize hnone : ([] : List Lexeme) = lexemes at h
    induction h with
    | done => simp
    | space hspace _ ih => exact List.forall_mem_cons.mpr ⟨hspace, ih hnone⟩
    | lexeme => cases hnone
  · intro h
    induction cs generalizing position with
    | nil => exact .done
    | cons c cs ih =>
      obtain ⟨hspace, hrest⟩ := List.forall_mem_cons.mp h
      exact .space hspace (ih hrest)

/-- A text yields the lexemes that it is cut into in place. -/
theorem yields_iff : Yields text lexemes ↔ cutAllInPlace 0 text.toList = .ok lexemes := by
  constructor
  · rintro (h | ⟨hblank, rfl⟩)
    · unfold tokenize at h
      rw [cutAll_scan] at h
      split at h
      · cases h
      · cases h
      · next hcut =>
        cases h
        exact hcut
    · exact cutAllInPlace_eq_ok_iff.mpr (spells_nil_iff.mpr hblank)
  · intro h
    cases lexemes with
    | nil => exact .inr ⟨spells_nil_iff.mp (cutAllInPlace_eq_ok_iff.mp h), rfl⟩
    | cons first rest => exact .inl (tokenize_of_cutAllInPlace h)

/-- A text that is cut spells its lexemes. -/
theorem spells_of_tokenize (h : tokenize text = .ok lexemes) : Spells text.toList 0 lexemes :=
  cutAllInPlace_eq_ok_iff.mp (yields_iff.mp (.inl h))

/-- A text that cannot be cut fails in place as well. -/
theorem cutAllInPlace_of_tokenize_error {e : CompileError} (h : tokenize text = .error e)
    (hblank : ¬IsBlank text) : cutAllInPlace 0 text.toList = .error e := by
  cases hcut : cutAllInPlace 0 text.toList with
  | error e' =>
    simp only [tokenize, cutAll_scan, hcut] at h
    exact congrArg Except.error (Except.error.inj h)
  | ok lexemes =>
    cases lexemes with
    | nil => exact absurd (spells_nil_iff.mp (cutAllInPlace_eq_ok_iff.mp hcut)) hblank
    | cons first rest =>
      rw [tokenize_of_cutAllInPlace hcut] at h
      cases h

/-- The cutting goes on behind a literal as if the rest stood alone, but for the places. -/
theorem cutAllInPlace_around_literal {front content : String} {quote : Char} {before : List Lexeme}
    (back : String) (hfront : Yields front before) (hquote : Literal.isQuote quote = true)
    (hcontent : Literal.Encloses quote content.toList) :
    cutAllInPlace 0 (front ++ Literal.quoted quote content ++ back).toList =
      (((cutAllInPlace 0 back.toList).map (List.map
          (shift (front ++ Literal.quoted quote content).utf8ByteSize))).mapError
        (CompileError.shift (front ++ Literal.quoted quote content).utf8ByteSize)).map
        fun after => before ++
          ⟨.text (String.ofList (Literal.unescape content.toList)), front.utf8ByteSize⟩ :: after := by
  have hspells : Spells front.toList 0 before := cutAllInPlace_eq_ok_iff.mp (yields_iff.mp hfront)
  have hshape : (front ++ Literal.quoted quote content ++ back).toList =
      front.toList ++ (quote :: content.toList ++ [quote] ++ back.toList) := by
    simp [Literal.quoted]
  have hstop : Text.byteLength front.toList +
      Text.byteLength (quote :: content.toList ++ [quote]) =
        (front ++ Literal.quoted quote content).utf8ByteSize := by
    rw [← Text.byteLength_toList]
    simp [Literal.quoted]
  have hbreak : ∀ c ∈ (quote :: content.toList ++ [quote] ++ back.toList).head?, IsBreak c := by
    intro c hc
    obtain rfl : quote = c := Option.some.inj hc
    exact .inr hquote
  have hliteral : Written (quote :: content.toList ++ [quote]) back.toList _ :=
    .text hquote hcontent
  have hshift :=
    cutAllInPlace_shift (front ++ Literal.quoted quote content).utf8ByteSize 0 back.toList
  rw [Nat.zero_add] at hshift
  rw [hshape, hspells.cutAllInPlace_append hbreak, Nat.zero_add, cutAllInPlace_written hliteral,
    hstop, hshift, Text.byteLength_toList]
  cases cutAllInPlace 0 back.toList <;> rfl

/-- What is quoted is no code. A literal between two texts is one token, and what it holds has no
bearing on the tokens of the two. Those of the text behind it are moved by the bytes in front, and
so is the error for which that text has none. -/
theorem tokenize_around_literal {front content back : String} {quote : Char}
    {before : List Lexeme} (hfront : Yields front before) (hquote : Literal.isQuote quote = true)
    (hcontent : Literal.Encloses quote content.toList) :
    (∀ after, Yields back after →
      tokenize (front ++ Literal.quoted quote content ++ back) =
        .ok (before ++
          ⟨.text (String.ofList (Literal.unescape content.toList)), front.utf8ByteSize⟩ ::
            after.map (shift (front ++ Literal.quoted quote content).utf8ByteSize))) ∧
    (∀ e, tokenize back = .error e → ¬IsBlank back →
      tokenize (front ++ Literal.quoted quote content ++ back) =
        .error (e.shift (front ++ Literal.quoted quote content).utf8ByteSize)) := by
  have hcut := cutAllInPlace_around_literal back hfront hquote hcontent
  constructor
  · intro after hafter
    rw [yields_iff.mp hafter] at hcut
    have hyields := yields_iff.mpr hcut
    rcases hyields with htokenize | ⟨-, hnil⟩
    · exact htokenize
    · exact absurd hnil (List.append_ne_nil_of_right_ne_nil _ (List.cons_ne_nil _ _))
  · intro e he hblank
    rw [cutAllInPlace_of_tokenize_error he hblank] at hcut
    simp only [tokenize, cutAll_scan, hcut]
    rfl

/-- Operators, a name, quotes of the other kinds and an escaped one are one token between two quotes,
and a lone quote behind them is refused at its place. -/
theorem tokenize_around_code :
    tokenize ("a == " ++ Literal.quoted '"' "' || \\\" in [\x60" ++ " && b") =
      .ok [⟨.name "a", 0⟩, ⟨.symbol .equal, 2⟩, ⟨.text "' || \" in [\x60", 5⟩,
        ⟨.symbol .and, 21⟩, ⟨.name "b", 24⟩] ∧
    tokenize ("a == " ++ Literal.quoted '"' "' || \\\" in [\x60" ++ " '") =
      .error (.unterminatedString 21) := by
  have hfront : Yields "a == " [⟨.name "a", 0⟩, ⟨.symbol .equal, 2⟩] := .inl (by cbv)
  have hcontent : Literal.Encloses '"' "' || \\\" in [\x60".toList := by decide
  have hback : Yields " && b" [⟨.symbol .and, 1⟩, ⟨.name "b", 4⟩] := .inl (by cbv)
  have hlone : tokenize " '" = .error (.unterminatedString 1) := by cbv
  have hblank : ¬IsBlank " '" := fun h => absurd (h '\'' (by decide)) (by decide)
  constructor
  · rw [(tokenize_around_literal hfront rfl hcontent).1 _ hback]
    decide
  · rw [(tokenize_around_literal hfront rfl hcontent).2 _ hlone hblank]
    decide

end Lexeme

end Questlog
