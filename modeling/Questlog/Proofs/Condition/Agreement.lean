import Mathlib
import Questlog.Condition.Structured
import Questlog.Expression.Predicate
import Questlog.Proofs.Condition.Wildcard
import Questlog.Proofs.Expression.Constant

namespace Questlog

open Lexeme (Spelled Written)
open Grammar (Phrase IsOperand)

/-- A name of the expression language, which is no word of it. -/
def Lexeme.IsName (name : String) : Prop :=
  name ≠ "in" ∧ ∃ first rest, name.toList = first :: rest ∧ isNameStart first = true ∧
    ∀ c ∈ rest, isNamePart c = true

namespace ClauseOp

/-- The operator of an expression that a clause operator is. -/
def binaryOp : ClauseOp → BinaryOp
  | compare c => .compare c
  | isIn => .isIn

/-- The symbol for a clause operator in an expression. -/
def symbol : ClauseOp → Symbol
  | compare .equal => .equal
  | compare .notEqual => .notEqual
  | compare .less => .less
  | compare .lessEqual => .lessEqual
  | compare .greater => .greater
  | compare .greaterEqual => .greaterEqual
  | isIn => .isIn

/-- Operators of clauses are spelled as those of expressions. -/
theorem spelling_of_mem {spelling : List Char} {op : ClauseOp}
    (h : (spelling, op) ∈ Clause.operators) : spelling = op.symbol.spelling.toList := by
  simp only [Clause.operators, List.mem_cons, Prod.mk.injEq, List.not_mem_nil, or_false] at h
  rcases h with ⟨rfl, rfl⟩ | ⟨rfl, rfl⟩ | ⟨rfl, rfl⟩ | ⟨rfl, rfl⟩ | ⟨rfl, rfl⟩ | ⟨rfl, rfl⟩ |
    ⟨rfl, rfl⟩ <;> rfl

/-- Every operator of a clause is a connective of the grammar. -/
theorem symbol_mem_connectives (op : ClauseOp) :
    ∃ level, 1 ≤ level ∧ level ≤ 4 ∧
      (op.symbol, .op op.binaryOp) ∈ Grammar.connectives level := by
  cases op with
  | compare c =>
    cases c with
    | equal | notEqual => exact ⟨3, by decide, by decide, by decide⟩
    | less | lessEqual | greater | greaterEqual => exact ⟨4, by decide, by decide, by decide⟩
  | isIn => exact ⟨4, by decide, by decide, by decide⟩

/-- With a blank behind it, an operator is a token of its own. -/
theorem written_symbol (op : ClauseOp) (rest : List Char) :
    Written op.symbol.spelling.toList (' ' :: rest) (.symbol op.symbol) := by
  have hbreak : ∀ c ∈ (' ' :: rest).head?, Lexeme.IsBreak c := by
    intro c hc
    obtain rfl : ' ' = c := Option.some.inj hc
    exact .inl (by decide)
  cases op with
  | compare c =>
    have hsign : Lexeme.sign? (ClauseOp.compare c).symbol.spelling.toList =
        some (ClauseOp.compare c).symbol := by cases c <;> rfl
    apply Written.sign
    · cases c <;> exact Symbol.noConfusion
    · rw [Lexeme.sign?_append _ hbreak, hsign]
  | isIn =>
    have hstart : Lexeme.isNameStart 'i' = true := rfl
    have hpart : ∀ c ∈ ['n'], Lexeme.isNamePart c = true := List.forall_mem_singleton.mpr rfl
    exact Written.word hstart hpart fun c hc => (hbreak c hc).isNamePart

theorem trimmed_spelling (op : ClauseOp) : Text.Trimmed op.symbol.spelling.toList := by
  apply Text.trimmed_of_forall (Lexeme.spelling_ne_nil op.symbol)
  intro c hc
  exact Text.isBlank_of_visible (Lexeme.spelling_visible op.symbol c hc)

end ClauseOp

variable {op : ClauseOp} {rhs : List Char} {json : Json} {field : String} {values : Values}

theorem Values.contains_of_get? {v : Json} (h : values.get? field = some v) :
    values.contains field = true := by
  rw [contains, h]
  rfl

namespace Clause

/-- The characters of a clause. -/
def chars (op : ClauseOp) (rhs : List Char) : List Char :=
  op.symbol.spelling.toList ++ ' ' :: rhs

theorem trimmed_chars (op : ClauseOp) (hrhs : Text.Trimmed rhs) : Text.Trimmed (chars op rhs) := by
  have hends := (op.trimmed_spelling).append hrhs [' ']
  simpa [chars] using hends

/-- A clause that is written is read as its operator and its operand. -/
theorem ofText?_chars (op : ClauseOp) (hrhs : Text.Trimmed rhs) :
    ofText? (String.ofList (chars op rhs)) = some ⟨op, rhs⟩ := by
  have hblank : Text.trimChars (' ' :: rhs) = rhs :=
    (Text.trimChars_blank (by decide)).trans hrhs.trimChars_eq
  have hparts : some (⟨op, rhs⟩ : Clause) = some ⟨op, Text.trimChars (' ' :: rhs)⟩ := by
    rw [hblank]
  rw [hparts, ofText?, String.toList_ofList, (trimmed_chars op hrhs).trimChars_eq]
  -- An operator that another one begins with is told from it by the space behind it.
  obtain ⟨c, rest, rfl⟩ := List.exists_cons_of_ne_nil hrhs.ne_nil
  rcases op with ⟨_ | _⟩ | _ <;> rfl

/-- Its answer is that of the operator on the value and the operand. -/
theorem holds_chars (htrimmed : Text.Trimmed rhs)
    (hread : Json.parse? (String.ofList ('[' :: rhs ++ [']'])) = some (.array [json]))
    (value : Operand) (default : Bool) :
    Clause.holds (String.ofList (chars op rhs)) value default =
      op.holds value (.ofJson json) default := by
  have hoperand : (⟨op, rhs⟩ : Clause).operand? = some json := by rw [operand?, hread]
  simp only [Clause.holds, ofText?_chars op htrimmed, hoperand]

/-- Such a clause is never the wildcard. -/
theorem isWildcard_chars (wildcard : Bool) (op : ClauseOp) (hrhs : Text.Trimmed rhs) :
    Requirement.isWildcard wildcard (String.ofList (chars op rhs)) = false := by
  have hne : Text.trim (String.ofList (chars op rhs)) ≠ "any" := by
    rw [Text.trim, String.toList_ofList, (trimmed_chars op hrhs).trimChars_eq]
    intro hany
    have hchars : chars op rhs = "any".toList := by rw [← hany, String.toList_ofList]
    have hspace : ' ' ∈ "any".toList := by
      rw [← hchars]
      simp [chars]
    exact absurd hspace (by decide)
  exact Requirement.isWildcard_of_ne hne wildcard

end Clause

/-- A clause at the entry of an object compares the value of the field. -/
theorem Requirement.entryHolds_chars (wildcard : Bool) (op : ClauseOp) (htrimmed : Text.Trimmed rhs)
    (hread : Json.parse? (String.ofList ('[' :: rhs ++ [']'])) = some (.array [json])) :
    entryHolds wildcard values field (.clause (String.ofList (Clause.chars op rhs))) =
      op.holds (valueOf values field) (.ofJson json) true := by
  have hwildcard := Clause.isWildcard_chars wildcard op htrimmed
  rw [entryHolds, clauseHolds, hwildcard, Clause.ofText?_chars op htrimmed,
    Clause.holds_chars htrimmed hread, Option.isNone_some, Bool.false_and, Bool.false_or,
    Bool.false_or]

/-- A structured condition with one clause at one field comes to the operator. -/
theorem Requirement.allHold_chars (wildcard : Bool) (op : ClauseOp) (hrhs : Json.Constant rhs json)
    {v : Json} (hvalue : values.get? field = some v) :
    allHold wildcard values [(field, .clause (String.ofList (Clause.chars op rhs)))] =
      op.holds (.ofJson v) (.ofJson json) true := by
  have hcontains := Values.contains_of_get? hvalue
  rw [allHold, allHold, entryHolds_chars wildcard op hrhs.trimmed hrhs.parse?_eq, hcontains, valueOf,
    hvalue, Bool.not_true, Bool.false_or, Bool.and_true]

namespace Lexeme

/-- The characters of a comparison with a clause. -/
theorem spelled_comparison (op : ClauseOp) (hfield : IsName field) (hrhs : Json.Constant rhs json) :
    ∃ us, Spelled (field.toList ++ ' ' :: Clause.chars op rhs)
        (.name field :: .symbol op.symbol :: us) ∧ IsOperand us (.ofJson json) 2 := by
  obtain ⟨hin, first, rest, hname, hfirst, hrest⟩ := hfield
  obtain ⟨us, hspelled, hoperand⟩ :=
    Grammar.spelled_constant hrhs (fun c hc => by cases hc) spelled_nil
  rw [List.append_nil, List.append_nil] at hspelled
  have hsymbol : Spelled (Clause.chars op rhs) (.symbol op.symbol :: us) :=
    (hspelled.space rfl).token (op.written_symbol rhs)
  have hword : ofWord (first :: rest) = .name field := by
    have hne : first :: rest ≠ ['i', 'n'] := by
      intro heq
      rw [heq] at hname
      exact hin (String.toList_inj.mp hname)
    rw [ofWord, if_neg hne, ← hname, String.ofList_toList]
  have hwritten : Written field.toList (' ' :: Clause.chars op rhs) (.name field) := by
    rw [hname, ← hword]
    exact .word hfirst hrest fun c hc => IsBreak.isNamePart (.inl (by cases hc; rfl))
  exact ⟨us, (hsymbol.space rfl).token hwritten, hoperand⟩

end Lexeme

namespace Grammar

/-- The comparison is a phrase of the grammar. -/
theorem phrase_comparison (op : ClauseOp) {us : List Token} {value : Operand}
    (h : IsOperand us value 2) (field : String) :
    ∃ right n, Phrase 1 (.name field :: .symbol op.symbol :: us)
        (.binary op.binaryOp (.field field) right) n ∧ n ≤ 2 ∧ right.IsConstant value 3 := by
  obtain ⟨right, n, hphrase, hn, hconstant⟩ := h
  obtain ⟨level, hpositive, hle, hmem⟩ := op.symbol_mem_connectives
  have hnext : level + 1 + (6 - level) = 7 := by omega
  have hleft : Phrase (level + 1) [.name field] (.field field) 0 :=
    (Phrase.name field).lower (Nat.le_add_left 1 level) hnext
  have hright : Phrase (level + 1) us right n := hphrase.lower (Nat.le_add_left 1 level) hnext
  have hchain := Phrase.chain hpositive (by omega) hleft (.more hmem hright .done)
  have hone : 1 + (level - 1) = level := by omega
  rw [← hone] at hchain
  refine ⟨right, n, ?_, hn, hconstant⟩
  have hloose := hchain.loosen (Nat.le_refl 1) (by omega)
  simpa [Expr.Connective.join] using hloose

end Grammar

namespace Predicate

theorem trim_comparison (op : ClauseOp) (hfield : Lexeme.IsName field) (hrhs : Text.Trimmed rhs) :
    Text.trim (String.ofList (field.toList ++ ' ' :: Clause.chars op rhs)) =
      String.ofList (field.toList ++ ' ' :: Clause.chars op rhs) := by
  obtain ⟨-, first, rest, hname, hfirst, -⟩ := hfield
  have hvisible : 33 ≤ first.toNat ∧ first.toNat ≤ 126 := by
    rcases Lexeme.isNameStart_iff.mp hfirst with hletter | rfl | rfl
    · omega
    · decide
    · decide
  have hhead := Text.trimmed_singleton (Text.isBlank_of_visible hvisible)
  have htrimmed := hhead.append hrhs (rest ++ ' ' :: op.symbol.spelling.toList ++ [' '])
  have hshape : [first] ++ (rest ++ ' ' :: op.symbol.spelling.toList ++ [' ']) ++ rhs =
      field.toList ++ ' ' :: Clause.chars op rhs := by
    simp [hname, Clause.chars]
  rw [hshape] at htrimmed
  rw [Text.trim, String.toList_ofList, htrimmed.trimChars_eq]

/-- A comparison with a constant compiles to its operator between the field and the constant. -/
theorem compile_comparison {text : String} (op : ClauseOp) (hfield : Lexeme.IsName field)
    (hrhs : Json.Constant rhs json)
    (htext : text = String.ofList (field.toList ++ ' ' :: Clause.chars op rhs))
    (hsize : text.utf8ByteSize ≤ Expr.maxBytes) :
    ∃ right, compile text = .ok ⟨text, .binary op.binaryOp (.field field) right, [field]⟩ ∧
      right.IsConstant (.ofJson json) 3 := by
  obtain ⟨us, hspelled, hoperand⟩ := Lexeme.spelled_comparison op hfield hrhs
  rw [← String.toList_ofList (l := _ ++ _), ← htext] at hspelled
  obtain ⟨lexemes, htokenize, htokens⟩ := hspelled.tokenize_eq
  obtain ⟨right, n, hphrase, hn, hconstant⟩ := Grammar.phrase_comparison op hoperand field
  have hparse : Expr.parse text = .ok (.binary op.binaryOp (.field field) right) := by
    rw [Grammar.parse_of_tokenize hsize htokenize, Grammar.ofLexemes_eq_ok, htokens]
    have hdepth := hconstant.depth_le
    have hnesting : n ≤ Expr.maxNesting := Nat.le_trans hn (by decide)
    have hfits : (Expr.binary op.binaryOp (.field field) right).depth ≤ Expr.maxDepth := by
      simp only [Expr.depth, Expr.maxDepth]
      omega
    exact ⟨n, hphrase, hnesting, hfits⟩
  have hfields : (Expr.binary op.binaryOp (.field field) right).fields = [field] :=
    hconstant.fields [field]
  have htrim : Text.trim text = text := by rw [htext, trim_comparison op hfield hrhs.trimmed]
  refine ⟨right, ?_, hconstant⟩
  simp only [compile, htrim, hparse, hfields]

/-- The test of the comparison comes to the same operator. -/
theorem test_comparison {source : String} {right : Expr} {v : Json} {b : Bool}
    (hconstant : right.IsConstant (.ofJson json) 3) (hvalue : values.get? field = some v)
    (happly : op.binaryOp.apply (.ofJson v) (.ofJson json) = .ok (.bool b)) :
    test ⟨source, .binary op.binaryOp (.field field) right, [field]⟩ values = b := by
  have hcontains := Values.contains_of_get? hvalue
  have heval : (Expr.binary op.binaryOp (.field field) right).eval values = .ok (.bool b) := by
    simp only [Expr.eval, hvalue, hconstant.eval_eq, happly]
  simp [test, check, hcontains, heval, Operand.truthy]

end Predicate

theorem isEmptyText_ofJson (v : Json) : (Operand.ofJson v).isEmptyText = true ↔ v = .string "" := by
  cases v with
  | string s => simp [Operand.ofJson, Operand.isEmptyText]
  | object members =>
    have hfixed : "[object Object]".isEmpty = false := by decide
    simp [Operand.ofJson, Operand.isEmptyText, hfixed]
  | _ => simp [Operand.ofJson, Operand.isEmptyText]

/-- Both come to the same operator and the same operand, each in its own way. A clause at a field
that has a value holds just if the expression does that compares the field in the same words, but
for membership of the empty text: no clause finds it in a list. -/
theorem Requirement.allHold_eq_test {spelling : List Char} {op : ClauseOp} {field rhs : String}
    {json : Json} {values : Values} (hop : (spelling, op) ∈ Clause.operators)
    (hfield : Lexeme.IsName field) (hcontains : values.contains field = true)
    (hrhs : Json.Constant rhs.toList json)
    (hlist : op = .isIn → ∃ items, json = .array items)
    (hsize : (field ++ " " ++ (String.ofList spelling ++ " " ++ rhs)).utf8ByteSize ≤ 65536)
    (wildcard : Bool) :
    ∃ predicate,
      Predicate.compile (field ++ " " ++ (String.ofList spelling ++ " " ++ rhs)) =
        .ok predicate ∧
      (¬(op = .isIn ∧ values.get? field = some (.string "")) →
        allHold wildcard values [(field, .clause (String.ofList spelling ++ " " ++ rhs))] =
          predicate.test values) ∧
      (op = .isIn → values.get? field = some (.string "") →
        allHold wildcard values [(field, .clause (String.ofList spelling ++ " " ++ rhs))] =
          false) := by
  obtain rfl := ClauseOp.spelling_of_mem hop
  have hclause : String.ofList op.symbol.spelling.toList ++ " " ++ rhs =
      String.ofList (Clause.chars op rhs.toList) := by
    apply String.toList_inj.mp
    simp [Clause.chars]
  have htext : field ++ " " ++ (String.ofList op.symbol.spelling.toList ++ " " ++ rhs) =
      String.ofList (field.toList ++ ' ' :: Clause.chars op rhs.toList) := by
    rw [hclause]
    apply String.toList_inj.mp
    simp
  obtain ⟨v, hvalue⟩ := Option.isSome_iff_exists.mp hcontains
  obtain ⟨right, hcompile, hconstant⟩ := Predicate.compile_comparison op hfield hrhs htext hsize
  have hholds := allHold_chars wildcard op hrhs hvalue
  rw [← hclause] at hholds
  refine ⟨_, hcompile, ?_, ?_⟩
  · intro hmember
    rw [hholds]
    cases op with
    | compare c => exact (Predicate.test_comparison hconstant hvalue rfl).symm
    | isIn =>
      obtain ⟨items, rfl⟩ := hlist rfl
      have hfull : (Operand.ofJson v).isEmptyText = false := by
        rw [Bool.eq_false_iff, ne_eq, isEmptyText_ofJson]
        rintro rfl
        exact hmember ⟨rfl, hvalue⟩
      rw [Predicate.test_comparison hconstant hvalue rfl]
      simp [ClauseOp.holds, Operand.ofJson, hfull]
  · rintro rfl hempty
    obtain ⟨items, rfl⟩ := hlist rfl
    obtain rfl : v = .string "" := Option.some.inj (hvalue.symm.trans hempty)
    rw [hholds]
    rfl

/-- Membership in a list of a text and a negative number, for a text that is in it. -/
theorem Requirement.allHold_eq_test_calm :
    ∃ predicate, Predicate.compile "mood in [\"calm\", -5]" = .ok predicate ∧
      allHold true ⟨[("mood", .string "calm")]⟩ [("mood", .clause "in [\"calm\", -5]")] =
        predicate.test ⟨[("mood", .string "calm")]⟩ := by
  have hcalm : Json.Scalar ('"' :: ['c', 'a', 'l', 'm'] ++ ['"']) (.string "calm") :=
    .text (by simp)
  have hfive : Json.Scalar ('-' :: Decimal.toDigits 5)
      (.number (.integer (-(5 : Nat)) (by decide))) := .negative (by decide) (by decide)
  have hnone : ∀ c ∈ ([] : List Char), Json.isSpace c = true := by simp
  have hspace : ∀ c ∈ [' '], Json.isSpace c = true := List.all_eq_true.mp rfl
  have hrhs : Json.Constant "[\"calm\", -5]".toList _ :=
    .list (.more hnone hcalm hnone (.last hspace hfive hnone))
  have hfield : Lexeme.IsName "mood" :=
    ⟨by decide, 'm', ['o', 'o', 'd'], by decide, rfl, List.all_eq_true.mp rfl⟩
  have hop : ("in".toList, .isIn) ∈ Clause.operators := by decide
  have hcontains : (⟨[("mood", .string "calm")]⟩ : Values).contains "mood" = true := rfl
  have hmood : (⟨[("mood", .string "calm")]⟩ : Values).get? "mood" ≠ some (.string "") := by
    simp [Values.get?]
  obtain ⟨predicate, hcompile, hagree, -⟩ :=
    allHold_eq_test hop hfield hcontains hrhs (fun _ => ⟨_, rfl⟩) (by decide) true
  refine ⟨predicate, hcompile, ?_⟩
  apply hagree
  rintro ⟨-, hempty⟩
  exact hmood hempty

end Questlog
