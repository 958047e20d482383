import Questlog.Expression.Eval
import Questlog.Expression.Parser

namespace Questlog

/-- A compiled condition: its trimmed text, its tree and the fields it names. -/
structure Predicate where
  source : String
  expr : Expr
  fields : List String

namespace Predicate

/-- Compiles a text condition. -/
def compile (text : String) : Except CompileError Predicate :=
  let source := Text.trim text
  match Expr.parse source with
  | .error e => .error e
  | .ok expr => .ok { source, expr, fields := expr.fields }

/-- Whether the condition holds, or why that cannot be said. -/
def check (predicate : Predicate) (values : Values) : Except EvalError Bool :=
  match predicate.fields.find? fun name => !values.contains name with
  | some missing => .error (.unknownField missing)
  | none =>
    match predicate.expr.eval values with
    | .error e => .error e
    | .ok a => .ok a.truthy

/-- Whether the condition holds; it does not where that cannot be said. -/
def test (predicate : Predicate) (values : Values) : Bool :=
  match predicate.check values with
  | .ok holds => holds
  | .error _ => false

end Predicate

end Questlog
