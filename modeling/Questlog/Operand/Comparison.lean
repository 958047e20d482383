import Questlog.Operand.Coercion

namespace Questlog

namespace Operand

/-- How many conversions an operand may go through before it is compared. -/
def conversions : Operand → Nat
  | bool _ => 1
  | list _ => 1
  | _ => 0

/-- Equality that converts: `null` equals only itself, two lists are never equal, and operands of one
kind are compared as they are. Of two kinds, a text stands next to a number as the number it denotes,
a truth value always as its number, and a list as its text. -/
def looseEq : Operand → Operand → Bool
  | null, null => true
  | null, _ => false
  | _, null => false
  | bool a, bool b => a == b
  | number x, number y => x.equals y
  | text s, text t => s == t
  | list _, list _ => false
  | number x, text s => x.equals (numberOfText s)
  | text s, number x => x.equals (numberOfText s)
  | bool b, a => looseEq (number (.ofNat b.toNat)) a
  | a, bool b => looseEq (number (.ofNat b.toNat)) a
  | list items, a => looseEq (list items).primitive a
  | a, list items => looseEq a (list items).primitive
termination_by a b => a.conversions + b.conversions
decreasing_by all_goals simp [conversions, primitive]

/-- Equality without conversion; lists are never equal. -/
def strictEq : Operand → Operand → Bool
  | null, null => true
  | bool a, bool b => a == b
  | number x, number y => x.equals y
  | text s, text t => s == t
  | _, _ => false

/-- Equality for membership: strict, but NaN equals itself. -/
def sameValue : Operand → Operand → Bool
  | number x, number y => (x.isNaN && y.isNaN) || x.equals y
  | a, b => strictEq a b

/-- The order of operands: two texts by their characters, all else as numbers. -/
def compare? (a b : Operand) : Option Ordering :=
  match a.primitive, b.primitive with
  | text s, text t => some (compare s t)
  | p, q => p.toNumber.compare? q.toNumber

/-- Whether an operand is among the items of a list. -/
def isAmong (a : Operand) (items : List Operand) : Bool :=
  items.any fun item => item.sameValue a

/-- Joins when either side is a text or a list, and adds otherwise. -/
def add (a b : Operand) : Operand :=
  match a.primitive, b.primitive with
  | text s, q => text (s ++ q.toText)
  | p, text t => text (p.toText ++ t)
  | p, q => number (p.toNumber.add q.toNumber)

end Operand

/-- The comparisons that text expressions and clauses have in common. -/
inductive Comparison where
  | equal | notEqual | less | lessEqual | greater | greaterEqual
deriving DecidableEq

/-- Whether a comparison holds between two operands. -/
def Comparison.holds (c : Comparison) (a b : Operand) : Bool :=
  match c with
  | equal => a.looseEq b
  | notEqual => !a.looseEq b
  | less => a.compare? b == some .lt
  | lessEqual => a.compare? b == some .lt || a.compare? b == some .eq
  | greater => a.compare? b == some .gt
  | greaterEqual => a.compare? b == some .gt || a.compare? b == some .eq

end Questlog
