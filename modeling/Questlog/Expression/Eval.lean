import Questlog.Expression.Tree
import Questlog.Operand.Comparison
import Questlog.Values

namespace Questlog

/-- Why an expression has no value: a field without a value, or a membership test in something
that is no list. -/
inductive EvalError where
  | unknownField (name : String)
  | notAList (found : Operand)

/-- The message of an error, with the field that it names. -/
def EvalError.message : EvalError → String
  | unknownField name => s!"unknown field '{name}'"
  | notAList found =>
    s!"type error: right-hand side of 'in' must be a list, got '{found.toText}'"

/-- The value of an operator in front of an operand. -/
def PrefixOp.apply (op : PrefixOp) (a : Operand) : Operand :=
  match op with
  | .not => .bool !a.truthy
  | .neg => .number a.toNumber.neg
  | .plus => .number a.toNumber
  | .complement => .number (.ofInt (~~~a.toNumber.toInt32).toInt)

/-- The value of an operator between two operands. -/
def BinaryOp.apply (op : BinaryOp) (a b : Operand) : Except EvalError Operand :=
  match op with
  | .compare c => .ok (.bool (c.holds a b))
  | .strictEqual => .ok (.bool (a.strictEq b))
  | .strictNotEqual => .ok (.bool !a.strictEq b)
  | .isIn =>
    match b with
    | .list items => .ok (.bool (a.isAmong items))
    | other => .error (.notAList other)
  | .add => .ok (a.add b)
  | .sub => .ok (.number (a.toNumber.sub b.toNumber))
  | .mul => .ok (.number (a.toNumber.mul b.toNumber))
  | .div => .ok (.number (a.toNumber.div b.toNumber))
  | .rem => .ok (.number (a.toNumber.rem b.toNumber))

namespace Expr

mutual

/-- The value of an expression. `and` and `or` give one of their sides and read the right one only
where the left one does not decide. -/
def eval (values : Values) : Expr → Except EvalError Operand
  | number x => .ok (.number x)
  | text s => .ok (.text s)
  | field name =>
    match values.get? name with
    | some json => .ok (.ofJson json)
    | none => .error (.unknownField name)
  | list items =>
    match evalItems values items with
    | .error e => .error e
    | .ok operands => .ok (.list operands)
  | unary op operand =>
    match eval values operand with
    | .error e => .error e
    | .ok a => .ok (op.apply a)
  | binary op left right =>
    match eval values left with
    | .error e => .error e
    | .ok a =>
      match eval values right with
      | .error e => .error e
      | .ok b => op.apply a b
  | and left right =>
    match eval values left with
    | .error e => .error e
    | .ok a => if a.truthy then eval values right else .ok a
  | or left right =>
    match eval values left with
    | .error e => .error e
    | .ok a => if a.truthy then .ok a else eval values right

/-- The values of the items of a list, from left to right. -/
def evalItems (values : Values) : List Expr → Except EvalError (List Operand)
  | [] => .ok []
  | item :: rest =>
    match eval values item with
    | .error e => .error e
    | .ok a =>
      match evalItems values rest with
      | .error e => .error e
      | .ok operands => .ok (a :: operands)

end

end Expr

end Questlog
