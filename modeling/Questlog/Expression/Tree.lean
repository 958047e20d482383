import Questlog.Binary64.Basic
import Questlog.Operand.Comparison

namespace Questlog

/-- An operator in front of one operand. -/
inductive PrefixOp where
  | not | neg | plus | complement
deriving DecidableEq

/-- The operators between two operands that always read both. -/
inductive BinaryOp where
  | compare (comparison : Comparison)
  | strictEqual | strictNotEqual | isIn
  | add | sub | mul | div | rem
deriving DecidableEq

/-- A text condition. `and` and `or` read their right side only where the left one does not
decide. -/
inductive Expr where
  | number (value : Binary64)
  | text (value : String)
  | field (name : String)
  | list (items : List Expr)
  | unary (op : PrefixOp) (operand : Expr)
  | binary (op : BinaryOp) (left right : Expr)
  | and (left right : Expr)
  | or (left right : Expr)

namespace Expr

/-- Adds a name to those that were found, if it is not among them. -/
def note (found : List String) (name : String) : List String :=
  if name ∈ found then found else found ++ [name]

mutual

/-- Adds the fields that an expression names to those that were found, from left to right. -/
def collectFields (found : List String) : Expr → List String
  | number _ => found
  | text _ => found
  | field name => note found name
  | list items => collectFieldsOfItems found items
  | unary _ operand => collectFields found operand
  | binary _ left right => collectFields (collectFields found left) right
  | and left right => collectFields (collectFields found left) right
  | or left right => collectFields (collectFields found left) right

/-- The fields that the items of a list name, behind those found before. -/
def collectFieldsOfItems (found : List String) : List Expr → List String
  | [] => found
  | item :: rest => collectFieldsOfItems (collectFields found item) rest

end

/-- The fields that an expression names, each once, in the order of first mention. -/
def fields (e : Expr) : List String :=
  e.collectFields []

end Expr

end Questlog
