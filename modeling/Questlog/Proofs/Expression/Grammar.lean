import Questlog.Expression.Parser

namespace Questlog.Grammar

open Questlog.Expr (Connective)

/-- The symbols that join two operands on each level, from the loosest to the tightest. -/
def connectives : Nat → List (Symbol × Connective)
  | 1 => [(.or, .or)]
  | 2 => [(.and, .and)]
  | 3 => [(.equal, .op (.compare .equal)), (.notEqual, .op (.compare .notEqual)),
      (.strictEqual, .op .strictEqual), (.strictNotEqual, .op .strictNotEqual)]
  | 4 => [(.less, .op (.compare .less)), (.lessEqual, .op (.compare .lessEqual)),
      (.greater, .op (.compare .greater)), (.greaterEqual, .op (.compare .greaterEqual)),
      (.isIn, .op .isIn)]
  | 5 => [(.plus, .op .add), (.minus, .op .sub)]
  | 6 => [(.star, .op .mul), (.slash, .op .div), (.percent, .op .rem)]
  | _ => []

/-- The symbols that stand in front of one operand. -/
def prefixes : List (Symbol × PrefixOp) :=
  [(.bang, .not), (.minus, .neg), (.plus, .plus), (.tilde, .complement)]

mutual

/-- `Phrase level tokens e n`: the tokens derive the tree `e` on a level, and their innermost place
is enclosed `n` times. Levels one to six are chains of the next level; on level seven stand single
operands. Six levels of connectives group to the left, below them stand operators in front of one
operand, and then leaves, parentheses and lists. -/
inductive Phrase : Nat → List Token → Expr → Nat → Prop
  | chain {level n m : Nat} {ts us : List Token} {first e : Expr} : 1 ≤ level → level ≤ 6 →
    Phrase (level + 1) ts first n → Tail level first n us e m → Phrase level (ts ++ us) e m
  | number (x : Binary64) : Phrase 7 [.number x] (.number x) 0
  | text (s : String) : Phrase 7 [.text s] (.text s) 0
  | name (s : String) : Phrase 7 [.name s] (.field s) 0
  | unary {s : Symbol} {op : PrefixOp} {ts : List Token} {e : Expr} {n : Nat} :
    (s, op) ∈ prefixes → Phrase 7 ts e n → Phrase 7 (.symbol s :: ts) (.unary op e) (n + 1)
  | parens {ts : List Token} {e : Expr} {n : Nat} : Phrase 1 ts e n →
    Phrase 7 (.symbol .openParen :: ts ++ [.symbol .closeParen]) e (n + 1)
  | list {ts : List Token} {es : List Expr} {n : Nat} : Items ts es n →
    Phrase 7 (.symbol .openBracket :: ts) (.list es) (n + 1)

/-- `Tail level left n tokens e m`: the tokens go on with a chain of a level to the left of which
stands the tree `left` with its `n`, and make the tree `e` of it. -/
inductive Tail : Nat → Expr → Nat → List Token → Expr → Nat → Prop
  | done {level n : Nat} {left : Expr} : Tail level left n [] left n
  | more {level n m k : Nat} {s : Symbol} {c : Connective} {ts us : List Token}
    {left right e : Expr} : (s, c) ∈ connectives level → Phrase (level + 1) ts right m →
    Tail level (c.join left right) (max n m) us e k →
    Tail level left n (.symbol s :: ts ++ us) e k

/-- The items of a list with its closing bracket. A comma may follow the last item. -/
inductive Items : List Token → List Expr → Nat → Prop
  | close : Items [.symbol .closeBracket] [] 0
  | last {ts : List Token} {e : Expr} {n : Nat} : Phrase 1 ts e n →
    Items (ts ++ [.symbol .closeBracket]) [e] n
  | more {ts us : List Token} {e : Expr} {es : List Expr} {n m : Nat} : Phrase 1 ts e n →
    Items us es m → Items (ts ++ .symbol .comma :: us) (e :: es) (max n m)

end

/-- Induction along a chain, with its operands as they are. -/
@[elab_as_elim]
theorem Tail.along {level : Nat}
    {motive : ∀ left n ts e k, Tail level left n ts e k → Prop}
    (done : ∀ left n, motive left n [] left n .done)
    (more : ∀ {n m k s c ts us left right e} (hmem : (s, c) ∈ connectives level)
      (hright : Phrase (level + 1) ts right m)
      (hrest : Tail level (c.join left right) (max n m) us e k), motive _ _ _ _ _ hrest →
      motive left n (.symbol s :: ts ++ us) e k (.more hmem hright hrest))
    {left : Expr} {n : Nat} {us : List Token} {e : Expr} {k : Nat} :
    ∀ h : Tail level left n us e k, motive left n us e k h
  | .done => done left n
  | .more hmem hright hrest => more hmem hright hrest (hrest.along done more)

/-- Induction along the items of a list, with the items as they are. -/
@[elab_as_elim]
theorem Items.along {motive : ∀ ts es n, Items ts es n → Prop}
    (close : motive [.symbol .closeBracket] [] 0 .close)
    (last : ∀ {ts e n} (hitem : Phrase 1 ts e n),
      motive (ts ++ [.symbol .closeBracket]) [e] n (.last hitem))
    (more : ∀ {ts us e es n m} (hitem : Phrase 1 ts e n) (hrest : Items us es m),
      motive us es m hrest → motive (ts ++ .symbol .comma :: us) (e :: es) (max n m)
        (.more hitem hrest))
    {ts : List Token} {es : List Expr} {n : Nat} : ∀ h : Items ts es n, motive ts es n h
  | .close => close
  | .last hitem => last hitem
  | .more hitem hrest => more hitem hrest (hrest.along close last more)

/-- The connectives of the grammar are those that the reader knows. -/
theorem mem_connectives {level : Nat} {s : Symbol} {c : Connective} :
    (s, c) ∈ connectives level ↔ Expr.connective? s = some (level, c) := by
  match level with
  | 0 => cases s <;> simp [connectives, Expr.connective?]
  | 1 | 2 | 3 | 4 | 5 | 6 => cases s <;> simp [connectives, Expr.connective?, eq_comm]
  | level + 7 => cases s <;> simp [connectives, Expr.connective?]

/-- The operators that may stand in front of an operand. -/
theorem mem_prefixes {s : Symbol} {op : PrefixOp} :
    (s, op) ∈ prefixes ↔ Expr.prefixOp? s = some op := by
  cases s <;> simp [prefixes, Expr.prefixOp?, eq_comm]

end Questlog.Grammar

namespace Questlog.Expr

mutual

/-- How deep a tree is: a leaf has depth one, and every other node one more than what it holds. -/
def depth : Expr → Nat
  | number _ => 1
  | text _ => 1
  | field _ => 1
  | list items => depthOfItems items + 1
  | unary _ operand => depth operand + 1
  | binary _ left right => max (depth left) (depth right) + 1
  | and left right => max (depth left) (depth right) + 1
  | or left right => max (depth left) (depth right) + 1

/-- The depth of the deepest item, or zero. -/
def depthOfItems : List Expr → Nat
  | [] => 0
  | item :: rest => max (depth item) (depthOfItems rest)

end

/-- Joining two expressions makes the tree one deeper than the deeper of them. -/
@[simp]
theorem depth_join (c : Connective) (left right : Expr) :
    (c.join left right).depth = max left.depth right.depth + 1 := by
  cases c <;> simp [Connective.join, depth]

end Questlog.Expr

namespace Questlog.Grammar

/-- A chain encloses its places no less than the part that it goes on with, and its tree is no
less deep. -/
theorem Tail.mono {level n m : Nat} {left e : Expr} {us : List Token} :
    Tail level left n us e m → n ≤ m ∧ left.depth ≤ e.depth := by
  intro h
  induction h using Tail.along with
  | done left n => exact ⟨Nat.le_refl n, Nat.le_refl _⟩
  | more _ _ _ ih =>
    rw [Expr.depth_join] at ih
    omega

/-- The words of some lexemes. -/
def tokens (lexemes : List Lexeme) : List Token :=
  lexemes.map (·.token)

@[simp]
theorem tokens_nil : tokens [] = [] := rfl

@[simp]
theorem tokens_cons (lexeme : Lexeme) (lexemes : List Lexeme) :
    tokens (lexeme :: lexemes) = lexeme.token :: tokens lexemes := rfl

@[simp]
theorem tokens_append (front back : List Lexeme) :
    tokens (front ++ back) = tokens front ++ tokens back :=
  List.map_append

theorem tokens_eq_cons {lexemes : List Lexeme} {t : Token} {ts : List Token}
    (h : tokens lexemes = t :: ts) :
    ∃ position rest, lexemes = ⟨t, position⟩ :: rest ∧ tokens rest = ts := by
  obtain ⟨⟨token, position⟩, rest, rfl, rfl, hrest⟩ := List.map_eq_cons_iff.mp h
  exact ⟨position, rest, rfl, hrest⟩

theorem tokens_eq_append {lexemes : List Lexeme} {ts us : List Token}
    (h : tokens lexemes = ts ++ us) :
    ∃ front back, lexemes = front ++ back ∧ tokens front = ts ∧ tokens back = us :=
  List.map_eq_append_iff.mp h

theorem tokens_eq_singleton {lexemes : List Lexeme} {t : Token} (h : tokens lexemes = [t]) :
    ∃ position, lexemes = [⟨t, position⟩] := by
  obtain ⟨position, rest, rfl, hrest⟩ := tokens_eq_cons h
  obtain rfl : rest = [] := List.map_eq_nil_iff.mp hrest
  exact ⟨position, rfl⟩

end Questlog.Grammar
