import Questlog.Json.Parser
import Questlog.Operand.Comparison

namespace Questlog

/-- The operator of a clause. -/
inductive ClauseOp where
  | compare (comparison : Comparison)
  | isIn
deriving DecidableEq

/-- A clause cut into its operator and the text of its right-hand side. -/
structure Clause where
  op : ClauseOp
  operandText : List Char

namespace Clause

/-- The operators with their spelling, each ahead of those that begin it. -/
def operators : List (List Char × ClauseOp) :=
  [("==".toList, .compare .equal), ("!=".toList, .compare .notEqual),
    ("<=".toList, .compare .lessEqual), (">=".toList, .compare .greaterEqual),
    ("<".toList, .compare .less), (">".toList, .compare .greater), ("in".toList, .isIn)]

/-- What follows an operator at the start of a text; blank space has to come first. -/
def behindOperator? (spelling cs : List Char) : Option (List Char) :=
  match cs.drop spelling.length with
  | c :: rest => if spelling.isPrefixOf cs && Text.isBlank c then some (c :: rest) else none
  | [] => none

/-- Cuts a clause into operator and right-hand side. -/
def ofText? (text : String) : Option Clause :=
  let cs := Text.trimChars text.toList
  operators.findSome? fun (spelling, op) =>
    (behindOperator? spelling cs).map fun rest => ⟨op, Text.trimChars rest⟩

/-- The value of the right-hand side, which has to be exactly one JSON value. -/
def operand? (clause : Clause) : Option Json :=
  match Json.parse? (String.ofList ('[' :: clause.operandText ++ [']'])) with
  | some (.array [value]) => some value
  | _ => none

end Clause

/-- Whether an operand is the empty text. -/
def Operand.isEmptyText : Operand → Bool
  | .text s => s.isEmpty
  | _ => false

/-- Whether an operator holds between the value of a field and the value of a clause. Membership
asks for a list, or else gives `default`, and the empty text is no member of any. -/
def ClauseOp.holds (op : ClauseOp) (value expected : Operand) (default : Bool) : Bool :=
  match op with
  | .compare c => c.holds value expected
  | .isIn =>
    match expected with
    | .list items => !value.isEmptyText && value.isAmong items
    | _ => default

/-- Whether a clause holds for a value. Text that is no clause gives `default`. -/
def Clause.holds (text : String) (value : Operand) (default : Bool) : Bool :=
  match Clause.ofText? text with
  | none => default
  | some clause =>
    match clause.operand? with
    | none => default
    | some json => clause.op.holds value (.ofJson json) default

end Questlog
