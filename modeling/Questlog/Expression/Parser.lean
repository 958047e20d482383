import Questlog.Expression.Lexeme
import Questlog.Expression.Tree

namespace Questlog

namespace Expr

/-- The largest expression in bytes. -/
def maxBytes : Nat := 65536

/-- How many parentheses, lists and operators in front may enclose a place. -/
def maxNesting : Nat := 32

/-- How deep a tree may be; a leaf has depth one. -/
def maxDepth : Nat := 256

/-- What a symbol between two operands makes of them. -/
inductive Connective where
  | or
  | and
  | op (op : BinaryOp)
deriving DecidableEq

/-- The connective that a symbol is between two operands, with its level from one to six. -/
def connective? : Symbol → Option (Nat × Connective)
  | .or => some (1, .or)
  | .and => some (2, .and)
  | .equal => some (3, .op (.compare .equal))
  | .notEqual => some (3, .op (.compare .notEqual))
  | .strictEqual => some (3, .op .strictEqual)
  | .strictNotEqual => some (3, .op .strictNotEqual)
  | .less => some (4, .op (.compare .less))
  | .lessEqual => some (4, .op (.compare .lessEqual))
  | .greater => some (4, .op (.compare .greater))
  | .greaterEqual => some (4, .op (.compare .greaterEqual))
  | .isIn => some (4, .op .isIn)
  | .plus => some (5, .op .add)
  | .minus => some (5, .op .sub)
  | .star => some (6, .op .mul)
  | .slash => some (6, .op .div)
  | .percent => some (6, .op .rem)
  | _ => none

/-- The tree of two operands under a connective. -/
def Connective.join : Connective → Expr → Expr → Expr
  | or => Expr.or
  | and => Expr.and
  | op o => Expr.binary o

/-- The operator that a symbol is in front of an operand. -/
def prefixOp? : Symbol → Option PrefixOp
  | .bang => some .not
  | .minus => some .neg
  | .plus => some .plus
  | .tilde => some .complement
  | _ => none

/-- A tree and its depth. -/
structure Subtree where
  expr : Expr
  depth : Nat

/-- What reads a subtree off the front of the lexemes. -/
abbrev TreeReader := Reader CompileError Lexeme Subtree

/-- The depth of a node at `position` over children of depth `depth`. -/
def deepen (depth position : Nat) : Except CompileError Nat :=
  if maxDepth < depth + 1 then
    .error (.nestingTooDeep maxDepth (depth + 1) position)
  else
    .ok (depth + 1)

/-- The refusal of the next lexeme in a text that ends at `stop`. -/
def unexpected (stop : Nat) (expected : Expected) : List Lexeme → CompileError
  | [] => .unexpectedToken expected none stop
  | lexeme :: _ => .unexpectedToken expected (some lexeme.token) lexeme.position

/-- The connective that a token is, with its level. -/
def connectiveOf? : Token → Option (Nat × Connective)
  | .symbol s => connective? s
  | _ => none

/-- Goes on with what `left` is an operand of, as long as the connectives are of the level `least`
or of a tighter one. What stands to the right of a connective reaches as far as tighter ones do. -/
def climb (operand : TreeReader) (outer : List Lexeme) (least : Nat) (left : Subtree)
    (input : List Lexeme) (hinput : input.length < outer.length) :
    Except CompileError (Reading Subtree outer) :=
  match input with
  | [] => .ok ⟨left, [], hinput⟩
  | lexeme :: rest =>
    match connectiveOf? lexeme.token with
    | none => .ok ⟨left, lexeme :: rest, hinput⟩
    | some (level, connective) =>
      if level < least then
        .ok ⟨left, lexeme :: rest, hinput⟩
      else
        match operand rest with
        | .error e => .error e
        | .ok ⟨first, after, hafter⟩ =>
          match climb operand rest (level + 1) first after hafter with
          | .error e => .error e
          | .ok ⟨right, more, hmore⟩ =>
            match deepen (max left.depth right.depth) lexeme.position with
            | .error e => .error e
            | .ok depth =>
              climb operand outer least ⟨connective.join left.expr right.expr, depth⟩ more
                (by simp only [List.length_cons] at hinput; omega)
termination_by input.length
decreasing_by
  · exact Nat.lt_succ_of_lt hafter
  · exact Nat.lt_succ_of_lt hmore

/-- Reads operands joined by connectives of the level `least` or of tighter ones. -/
def readExpression (least : Nat) (operand : TreeReader) : TreeReader := fun input =>
  match operand input with
  | .error e => .error e
  | .ok ⟨left, rest, hrest⟩ => climb operand input least left rest hrest

/-- What follows a given symbol, if that is the first lexeme. -/
def behind? (s : Symbol) (input : List Lexeme) :
    Option { rest : List Lexeme // rest.length < input.length } :=
  match input with
  | ⟨.symbol t, _⟩ :: rest => if t = s then some ⟨rest, Nat.lt_succ_self _⟩ else none
  | _ => none

/-- Reads the items of a list and its closing bracket. `acc` holds the items already read, last
one first, and `depth` is the greatest of their depths. A comma may follow the last item. -/
def readItems (stop : Nat) (item : TreeReader) (outer : List Lexeme) (acc : List Expr) (depth : Nat)
    (input : List Lexeme) (hinput : input.length ≤ outer.length) :
    Except CompileError (Reading (List Expr × Nat) outer) :=
  match behind? .closeBracket input with
  | some ⟨rest, hrest⟩ => .ok ⟨(acc.reverse, depth), rest, Nat.lt_of_lt_of_le hrest hinput⟩
  | none =>
    match item input with
    | .error e => .error e
    | .ok ⟨⟨expr, itemDepth⟩, rest, hrest⟩ =>
      match behind? .comma rest with
      | some ⟨more, hmore⟩ =>
        readItems stop item outer (expr :: acc) (max depth itemDepth) more (by omega)
      | none =>
        match behind? .closeBracket rest with
        | some ⟨more, hmore⟩ =>
          .ok ⟨((expr :: acc).reverse, max depth itemDepth), more, by omega⟩
        | none => .error (unexpected stop .commaOrCloseBracket rest)
termination_by input.length

/-- Reads an operand: a leaf, an operator in front of an operand, a list or an expression in
parentheses. The inner ones are read by `inner`; without one the nesting is too deep. -/
def readOperandWith (stop : Nat) (inner : Option TreeReader) : TreeReader := fun input =>
  match input with
  | [] => .error (unexpected stop .expression [])
  | lexeme :: rest =>
    let tooDeep : CompileError := .nestingTooDeep maxNesting (maxNesting + 1) lexeme.position
    match lexeme.token with
    | .number x => .ok (.ofHead ⟨.number x, 1⟩ _ rest)
    | .text s => .ok (.ofHead ⟨.text s, 1⟩ _ rest)
    | .name n => .ok (.ofHead ⟨.field n, 1⟩ _ rest)
    | .symbol s =>
      match prefixOp? s with
      | some op =>
        match inner with
        | none => .error tooDeep
        | some operand =>
          match operand rest with
          | .error e => .error e
          | .ok ⟨⟨expr, depth⟩, more, hmore⟩ =>
            match deepen depth lexeme.position with
            | .error e => .error e
            | .ok depth => .ok ⟨⟨.unary op expr, depth⟩, more, Nat.lt_succ_of_lt hmore⟩
      | none =>
        if s = .openParen then
          match inner with
          | none => .error tooDeep
          | some operand =>
            match readExpression 0 operand rest with
            | .error e => .error e
            | .ok ⟨subtree, more, hmore⟩ =>
              match behind? .closeParen more with
              | some ⟨last, hlast⟩ =>
                .ok ⟨subtree, last, by simp only [List.length_cons]; omega⟩
              | none => .error (unexpected stop .closeParen more)
        else if s = .openBracket then
          match inner with
          | none => .error tooDeep
          | some operand =>
            match readItems stop (readExpression 0 operand) rest [] 0 rest (length_le_self rest) with
            | .error e => .error e
            | .ok ⟨(items, depth), more, hmore⟩ =>
              match deepen depth lexeme.position with
              | .error e => .error e
              | .ok depth => .ok ⟨⟨.list items, depth⟩, more, Nat.lt_succ_of_lt hmore⟩
        else
          .error (unexpected stop .expression (lexeme :: rest))

/-- Reads an operand that encloses no place more than `room` times. -/
def readOperand (stop : Nat) : (room : Nat) → TreeReader
  | 0 => readOperandWith stop none
  | room + 1 => readOperandWith stop (some (readOperand stop room))

/-- Reads the tree of the lexemes of a text that ends at `stop`. -/
def ofLexemes (stop : Nat) (input : List Lexeme) : Except CompileError Expr :=
  match readExpression 0 (readOperand stop maxNesting) input with
  | .error e => .error e
  | .ok ⟨subtree, [], _⟩ => .ok subtree.expr
  | .ok ⟨_, lexeme :: _, _⟩ => .error (.trailingInput lexeme.position)

/-- The tree of an expression. -/
def parse (text : String) : Except CompileError Expr :=
  if maxBytes < text.utf8ByteSize then
    .error (.inputTooLarge maxBytes text.utf8ByteSize)
  else
    match Lexeme.tokenize text with
    | .error e => .error e
    | .ok lexemes => ofLexemes text.utf8ByteSize lexemes

end Expr

end Questlog
