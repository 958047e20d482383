import Mathlib
import Questlog.Proofs.Expression.Acceptance
import Questlog.Proofs.Expression.Opacity

namespace Questlog

namespace Expr

/-- The error names the place of one of some lexemes, or the end `stop` of the text. -/
inductive Blames (stop : Nat) (input : List Lexeme) : CompileError → Prop
  | lexeme {expected : Expected} {lexeme : Lexeme} : lexeme ∈ input →
    Blames stop input (.unexpectedToken expected (some lexeme.token) lexeme.position)
  | ending {expected : Expected} : Blames stop input (.unexpectedToken expected none stop)
  | nesting {limit depth : Nat} {lexeme : Lexeme} : lexeme ∈ input →
    Blames stop input (.nestingTooDeep limit depth lexeme.position)

/-- A lexeme that is blamed is one of any longer input. -/
theorem Blames.widen {stop : Nat} {input outer : List Lexeme} {e : CompileError}
    (h : Blames stop input e) (hinput : input ⊆ outer) : Blames stop outer e := by
  cases h with
  | lexeme hmem => exact .lexeme (hinput hmem)
  | ending => exact .ending
  | nesting hmem => exact .nesting (hinput hmem)

/-- What is read from some lexemes leaves a tail of them, or blames one of them. -/
inductive Accounts {α : Type} {outer : List Lexeme} (stop : Nat) (input : List Lexeme) :
    Except CompileError (Reading α outer) → Prop
  | leaves {value : α} {rest : List Lexeme} {h : rest.length < outer.length} : rest <:+ input →
    Accounts stop input (.ok ⟨value, rest, h⟩)
  | blames {e : CompileError} : Blames stop input e → Accounts stop input (.error e)

/-- A reader accounts for all that it is given. -/
def Accountable (stop : Nat) (reader : TreeReader) : Prop :=
  ∀ input, Accounts stop input (reader input)

variable {stop : Nat} {operand : TreeReader}

section Accounts

variable {α : Type} {outer input rest : List Lexeme}
  {result : Except CompileError (Reading α outer)} {e : CompileError}

/-- Blaming what is left of an input is blaming the input. -/
theorem Accounts.widen (h : Accounts stop rest result) (hrest : rest <:+ input) :
    Accounts stop input result := by
  cases h with
  | leaves hleft => exact .leaves (hleft.trans hrest)
  | blames hblames => exact .blames (hblames.widen hrest.subset)

/-- The lexeme in front of what is read from is one to blame as well. -/
theorem Accounts.behind (h : Accounts stop rest result) (lexeme : Lexeme) :
    Accounts stop (lexeme :: rest) result :=
  h.widen (List.suffix_cons _ _)

/-- An error of a reader that accounts for its input blames the input. -/
theorem Accounts.of_error (h : Accounts stop input result) (hresult : result = .error e) :
    Blames stop input e := by
  cases h with
  | leaves => cases hresult
  | blames hblames => exact Except.error.inj hresult ▸ hblames

/-- What such a reader leaves is the end of its input. -/
theorem Accounts.of_ok (h : Accounts stop input result) {value : α}
    {hrest : rest.length < outer.length} (hresult : result = .ok ⟨value, rest, hrest⟩) :
    rest <:+ input := by
  cases h with
  | leaves hleft =>
    cases hresult
    exact hleft
  | blames => cases hresult

/-- Nesting that is too deep is blamed on the lexeme that nests. -/
theorem blames_of_deepen {depth : Nat} {lexeme : Lexeme} (hmem : lexeme ∈ input)
    (h : deepen depth lexeme.position = .error e) : Blames stop input e := by
  unfold deepen at h
  split at h
  · cases h
    exact .nesting hmem
  · cases h

/-- What is unexpected is the first lexeme that is left, or the end. -/
theorem blames_unexpected (expected : Expected) (h : rest <:+ input) :
    Blames stop input (unexpected stop expected rest) := by
  cases rest with
  | nil => exact .ending
  | cons lexeme rest => exact .lexeme (h.subset List.mem_cons_self)

theorem suffix_of_behind? {s : Symbol} {h : rest.length < input.length}
    (hbehind : behind? s input = some ⟨rest, h⟩) : rest <:+ input := by
  obtain ⟨position, rfl⟩ := Grammar.behind?_eq_some hbehind
  exact List.suffix_cons _ _

end Accounts

/-- Climbing accounts for its lexemes if the reader of the operands does for its own. -/
theorem climb_accounts (hoperand : Accountable stop operand) (outer : List Lexeme) (least : Nat)
    (left : Subtree) (input : List Lexeme) (hinput : input.length < outer.length) :
    Accounts stop input (climb operand outer least left input hinput) := by
  fun_induction climb operand outer least left input hinput with
  | case1 | case2 | case3 => exact .leaves (List.suffix_refl _)
  | case4 _ _ _ lexeme rest _ _ _ _ _ e hread _ =>
    exact .blames (((hoperand rest).behind lexeme).of_error hread)
  | case5 _ _ _ lexeme rest _ _ _ _ _ first after _ hread e hright _ ih =>
    have hafter : after <:+ lexeme :: rest := ((hoperand rest).behind lexeme).of_ok hread
    exact .blames ((ih.widen hafter).of_error hright)
  | case6 _ _ _ lexeme rest _ _ _ _ _ _ _ _ _ _ _ _ _ e hdepth =>
    exact .blames (blames_of_deepen List.mem_cons_self hdepth)
  | case7 _ _ _ lexeme rest _ _ _ _ _ first after _ hread right _ _ hright _ _ _ ihright ihrest =>
    have hafter : after <:+ lexeme :: rest := ((hoperand rest).behind lexeme).of_ok hread
    exact ihrest.widen ((ihright.widen hafter).of_ok hright)

/-- Reading expressions accounts for the input if reading operands does. -/
theorem readExpression_accountable (hoperand : Accountable stop operand) :
    Accountable stop (readExpression 0 operand) := by
  intro input
  unfold readExpression
  split
  · next e hread => exact .blames ((hoperand input).of_error hread)
  · next left rest hrest hread =>
    exact (climb_accounts hoperand input 0 left rest hrest).widen ((hoperand input).of_ok hread)

theorem readItems_accounts {item : TreeReader} (hitem : Accountable stop item)
    (outer : List Lexeme) (acc : List Expr) (depth : Nat) (input : List Lexeme)
    (hinput : input.length ≤ outer.length) :
    Accounts stop input (readItems stop item outer acc depth input hinput) := by
  fun_induction readItems stop item outer acc depth input hinput with
  | case1 acc depth input hinput rest hrest hclose => exact .leaves (suffix_of_behind? hclose)
  | case2 acc depth input hinput _ e hread => exact .blames ((hitem input).of_error hread)
  | case3 acc depth input hinput _ expr itemDepth rest hrest hread more hmore hcomma ih =>
    exact ih.widen ((suffix_of_behind? hcomma).trans ((hitem input).of_ok hread))
  | case4 acc depth input hinput _ expr itemDepth rest hrest hread _ more hmore hclose =>
    exact .leaves ((suffix_of_behind? hclose).trans ((hitem input).of_ok hread))
  | case5 acc depth input hinput _ expr itemDepth rest hrest hread =>
    exact .blames (blames_unexpected _ ((hitem input).of_ok hread))

section Inside

variable {lexeme : Lexeme} {input : List Lexeme}

theorem readUnary_accounts (hoperand : Accountable stop operand) (op : PrefixOp) :
    Accounts stop (lexeme :: input) (readUnary op operand lexeme input) := by
  have hinner := (hoperand input).behind lexeme
  unfold readUnary
  split
  · next e hread => exact .blames (hinner.of_error hread)
  · next expr depth more hmore hread =>
    split
    · next e hdepth => exact .blames (blames_of_deepen List.mem_cons_self hdepth)
    · exact .leaves (hinner.of_ok hread)

theorem readParens_accounts (hoperand : Accountable stop operand) :
    Accounts stop (lexeme :: input) (readParens stop operand lexeme input) := by
  have hinner := (readExpression_accountable hoperand input).behind lexeme
  unfold readParens
  split
  · next e hread => exact .blames (hinner.of_error hread)
  · next subtree more hmore hread =>
    have hmore : more <:+ lexeme :: input := hinner.of_ok hread
    split
    · next last hlast hclose => exact .leaves ((suffix_of_behind? hclose).trans hmore)
    · exact .blames (blames_unexpected _ hmore)

theorem readList_accounts (hoperand : Accountable stop operand) :
    Accounts stop (lexeme :: input) (readList stop operand lexeme input) := by
  have hinner := (readItems_accounts (readExpression_accountable hoperand) input [] 0 input
    (length_le_self input)).behind lexeme
  unfold readList
  split
  · next e hread => exact .blames (hinner.of_error hread)
  · next items depth more hmore hread =>
    split
    · next e hdepth => exact .blames (blames_of_deepen List.mem_cons_self hdepth)
    · exact .leaves (hinner.of_ok hread)

theorem readInside_accounts {inner : Option TreeReader}
    {read : TreeReader → Except CompileError (Reading Subtree (lexeme :: input))}
    (hread : ∀ operand, inner = some operand → Accounts stop (lexeme :: input) (read operand)) :
    Accounts stop (lexeme :: input) (readInside inner lexeme read) := by
  cases inner with
  | none => exact .blames (.nesting List.mem_cons_self)
  | some operand => exact hread operand rfl

end Inside

/-- A single operand is accounted for if the inner ones are. -/
theorem readOperandWith_accountable {inner : Option TreeReader}
    (hinner : ∀ operand, inner = some operand → Accountable stop operand) :
    Accountable stop (readOperandWith stop inner) := by
  intro input
  cases input with
  | nil => exact .blames .ending
  | cons lexeme rest =>
    rw [readOperandWith_cons]
    split
    · exact .leaves (List.suffix_cons _ _)
    · exact .leaves (List.suffix_cons _ _)
    · exact .leaves (List.suffix_cons _ _)
    · split
      · exact readInside_accounts fun operand h => readUnary_accounts (hinner operand h) _
      · split
        · exact readInside_accounts fun operand h => readParens_accounts (hinner operand h)
        · split
          · exact readInside_accounts fun operand h => readList_accounts (hinner operand h)
          · exact .blames (blames_unexpected _ (List.suffix_refl _))

/-- Reading operands accounts for the input, however deep they may nest. -/
theorem readOperand_accountable (stop room : Nat) : Accountable stop (readOperand stop room) := by
  induction room with
  | zero =>
    refine readOperandWith_accountable ?_
    rintro operand ⟨⟩
  | succ room ih =>
    refine readOperandWith_accountable ?_
    rintro operand ⟨⟩
    exact ih

/-- `PointsTo text e`: the error names a place of the text at which it arises. What stands in front
of the place is sound: it is blank or is cut by itself. -/
inductive PointsTo (text : String) : CompileError → Prop
  | empty : Lexeme.IsBlank text → PointsTo text .emptyInput
  | tooLarge : maxBytes < text.utf8ByteSize →
    PointsTo text (.inputTooLarge maxBytes text.utf8ByteSize)
  | char {front back : String} {found : Char} {before : List Lexeme} :
    text = front ++ String.singleton found ++ back → Lexeme.Yields front before →
    PointsTo text (.unexpectedChar found front.utf8ByteSize)
  | quote {front back : String} {quote : Char} {before : List Lexeme} :
    Literal.isQuote quote = true → text = front ++ String.singleton quote ++ back →
    Lexeme.Yields front before → PointsTo text (.unterminatedString front.utf8ByteSize)
  | token {lexemes : List Lexeme} {lexeme : Lexeme} {expected : Expected} :
    Lexeme.tokenize text = .ok lexemes → lexeme ∈ lexemes →
    PointsTo text (.unexpectedToken expected (some lexeme.token) lexeme.position)
  | ending {lexemes : List Lexeme} {expected : Expected} : Lexeme.tokenize text = .ok lexemes →
    PointsTo text (.unexpectedToken expected none text.utf8ByteSize)
  | nesting {lexemes : List Lexeme} {lexeme : Lexeme} {limit depth : Nat} :
    Lexeme.tokenize text = .ok lexemes → lexeme ∈ lexemes →
    PointsTo text (.nestingTooDeep limit depth lexeme.position)
  | trailing {before after : List Lexeme} {lexeme : Lexeme} {e : Expr} :
    Lexeme.tokenize text = .ok (before ++ lexeme :: after) →
    (∀ stop, ofLexemes stop before = .ok e) → PointsTo text (.trailingInput lexeme.position)

/-- Errors of cutting point to the place where cutting fails. -/
theorem pointsTo_of_tokenize_error {text : String} {e : CompileError}
    (h : Lexeme.tokenize text = .error e) : PointsTo text e := by
  by_cases hblank : Lexeme.IsBlank text
  · have hyields : Lexeme.Yields text [] := .inr ⟨hblank, rfl⟩
    simp only [Lexeme.tokenize, Lexeme.cutAll_scan, Lexeme.yields_iff.mp hyields] at h
    cases h
    exact .empty hblank
  · obtain ⟨front, c, back, lexemes, htext, hfront, rfl⟩ :=
      Lexeme.spells_of_cut_error (Lexeme.cutAllInPlace_of_tokenize_error h hblank)
    have hsplit : text = String.ofList front ++ String.singleton c ++ String.ofList back := by
      rw [← String.toList_inj]
      simp [htext]
    have hyields : Lexeme.Yields (String.ofList front) lexemes := by
      rw [Lexeme.yields_iff, String.toList_ofList]
      exact Lexeme.cutAllInPlace_eq_ok_iff.mpr hfront
    have hplace : 0 + Text.byteLength front = (String.ofList front).utf8ByteSize := by
      rw [Text.utf8ByteSize_ofList, Nat.zero_add]
    rw [hplace, Lexeme.refusal]
    split
    · next hquote => exact .quote hquote hsplit hyields
    · exact .char hsplit hyields

/-- Errors of parsing point to a lexeme or to the end. -/
theorem pointsTo_of_ofLexemes_error {text : String} {lexemes : List Lexeme} {e : CompileError}
    (htokenize : Lexeme.tokenize text = .ok lexemes)
    (h : ofLexemes text.utf8ByteSize lexemes = .error e) : PointsTo text e := by
  unfold ofLexemes at h
  split at h
  · next e' hread =>
    obtain rfl := Except.error.inj h
    have haccounts := readExpression_accountable
      (readOperand_accountable text.utf8ByteSize maxNesting) lexemes
    cases haccounts.of_error hread with
    | lexeme hmem => exact .token htokenize hmem
    | ending => exact .ending htokenize
    | nesting hmem => exact .nesting htokenize hmem
  · cases h
  · next subtree lexeme after _ hread =>
    obtain rfl := Except.error.inj h
    obtain ⟨before, n, rfl, hphrase, hfits⟩ :=
      Grammar.readExpression_sound (Grammar.readOperand_sound _ maxNesting) _ _ _ _ hread
    exact .trailing htokenize fun stop =>
      Grammar.ofLexemes_eq_ok.mpr ⟨n, hphrase, hfits.enclosed, hfits.depth_le⟩

/-- Every error of an expression points to where it arises. The text in front of a character or a
quote that is refused is blank or cut by itself; what the reader refuses is a lexeme of the text, or
its end; and the lexemes in front of trailing ones make an expression. -/
theorem parse_error_pointsTo {text : String} {e : CompileError} (h : parse text = .error e) :
    PointsTo text e := by
  unfold parse at h
  split at h
  · next hsize =>
    obtain rfl := Except.error.inj h
    exact .tooLarge hsize
  · split at h
    · next e' htokenize =>
      obtain rfl := Except.error.inj h
      exact pointsTo_of_tokenize_error htokenize
    · next lexemes htokenize => exact pointsTo_of_ofLexemes_error htokenize h

/-- A name behind a whole expression and a quote that is never closed are found at offsets that
count bytes, and a parenthesis that is left open at the end of the text. -/
theorem parse_error_pointsTo_bytes :
    (parse "a == 'é' b" = .error (.trailingInput 10) ∧
      PointsTo "a == 'é' b" (.trailingInput 10)) ∧
    (parse "'é' == 'b" = .error (.unterminatedString 8) ∧
      PointsTo "'é' == 'b" (.unterminatedString 8)) ∧
    parse "(a" = .error (.unexpectedToken .closeParen none 2) ∧
      PointsTo "(a" (.unexpectedToken .closeParen none 2) := by
  have htrailing : parse "a == 'é' b" = .error (.trailingInput 10) := by cbv
  have hquote : parse "'é' == 'b" = .error (.unterminatedString 8) := by cbv
  have hopen : parse "(a" = .error (.unexpectedToken .closeParen none 2) := by cbv
  exact ⟨⟨htrailing, parse_error_pointsTo htrailing⟩, ⟨hquote, parse_error_pointsTo hquote⟩,
    hopen, parse_error_pointsTo hopen⟩

end Expr

end Questlog
