import Questlog.Expression.Parser

namespace Questlog.Expr

theorem lt_length_cons {τ : Type} {input more : List τ} (first : τ)
    (h : more.length < input.length) : more.length < (first :: input).length :=
  Nat.lt_succ_of_lt h

theorem lt_length_cons_of_lt {τ : Type} {input more last : List τ} (first : τ)
    (hlast : last.length < more.length) (h : more.length < input.length) :
    last.length < (first :: input).length :=
  Nat.lt_succ_of_lt (Nat.lt_trans hlast h)

/-- Reads what an operator in front of an operand stands before. -/
def readUnary (op : PrefixOp) (operand : TreeReader) (lexeme : Lexeme) (input : List Lexeme) :
    Except CompileError (Reading Subtree (lexeme :: input)) :=
  match operand input with
  | .error e => .error e
  | .ok ⟨⟨expr, depth⟩, more, hmore⟩ =>
    match deepen depth lexeme.position with
    | .error e => .error e
    | .ok depth => .ok ⟨⟨.unary op expr, depth⟩, more, lt_length_cons lexeme hmore⟩

/-- Reads what stands between an opening parenthesis and the closing one. -/
def readParens (stop : Nat) (operand : TreeReader) (lexeme : Lexeme) (input : List Lexeme) :
    Except CompileError (Reading Subtree (lexeme :: input)) :=
  match readExpression 0 operand input with
  | .error e => .error e
  | .ok ⟨subtree, more, hmore⟩ =>
    match behind? .closeParen more with
    | some ⟨last, hlast⟩ => .ok ⟨subtree, last, lt_length_cons_of_lt lexeme hlast hmore⟩
    | none => .error (unexpected stop .closeParen more)

/-- Reads what stands between an opening bracket and the closing one. -/
def readList (stop : Nat) (operand : TreeReader) (lexeme : Lexeme) (input : List Lexeme) :
    Except CompileError (Reading Subtree (lexeme :: input)) :=
  match readItems stop (readExpression 0 operand) input [] 0 input (length_le_self input) with
  | .error e => .error e
  | .ok ⟨(items, depth), more, hmore⟩ =>
    match deepen depth lexeme.position with
    | .error e => .error e
    | .ok depth => .ok ⟨⟨.list items, depth⟩, more, lt_length_cons lexeme hmore⟩

/-- Reads on with the reader of inner operands, if one more enclosure is allowed. -/
def readInside {α : Type} (inner : Option TreeReader) (lexeme : Lexeme)
    (read : TreeReader → Except CompileError α) : Except CompileError α :=
  match inner with
  | none => .error (.nestingTooDeep maxNesting (maxNesting + 1) lexeme.position)
  | some operand => read operand

/-- The reader of operands in parts: what follows an operator in front, an opening parenthesis and
an opening bracket. -/
theorem readOperandWith_cons (stop : Nat) (inner : Option TreeReader) (lexeme : Lexeme)
    (input : List Lexeme) : readOperandWith stop inner (lexeme :: input) =
      match lexeme.token with
      | .number x => .ok (.ofHead ⟨.number x, 1⟩ lexeme input)
      | .text s => .ok (.ofHead ⟨.text s, 1⟩ lexeme input)
      | .name n => .ok (.ofHead ⟨.field n, 1⟩ lexeme input)
      | .symbol s =>
        match prefixOp? s with
        | some op => readInside inner lexeme fun operand => readUnary op operand lexeme input
        | none =>
          if s = .openParen then
            readInside inner lexeme fun operand => readParens stop operand lexeme input
          else if s = .openBracket then
            readInside inner lexeme fun operand => readList stop operand lexeme input
          else
            .error (unexpected stop .expression (lexeme :: input)) := by
  cases inner <;> rfl

end Questlog.Expr
