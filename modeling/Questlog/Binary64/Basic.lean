namespace Questlog

/-- `mantissa * 2 ^ shift` units form a finite double in standard form: the mantissa has 53 bits,
or fewer when the shift is zero. -/
abbrev Binary64.Canonical (mantissa shift : Nat) : Prop :=
  mantissa < 0x20000000000000 ∧ shift ≤ 2045 ∧ (0x10000000000000 ≤ mantissa ∨ shift = 0)

/-- A double-precision number. A finite one is `mantissa * 2 ^ shift` units of `2 ^ -1074`, with a
sign that zero has too. Every finite double is a whole number of `2 ^ -1074`, the smallest positive
one, so mantissa and shift count those units, and order and equality are those of integers. -/
inductive Binary64 where
  | nan
  | infinite (negative : Bool)
  | finite (negative : Bool) (mantissa shift : Nat)
      (canonical : Binary64.Canonical mantissa shift)
deriving DecidableEq

namespace Binary64

/-- The number of units in the number one. -/
def unit : Nat := 1 <<< 1074

/-- A zero of either sign. -/
def zero (negative : Bool) : Binary64 :=
  .finite negative 0 0 (by decide)

instance : Inhabited Binary64 := ⟨zero false⟩

def isNaN : Binary64 → Bool
  | nan => true
  | _ => false

def isFinite : Binary64 → Bool
  | finite .. => true
  | _ => false

/-- The number of units between a finite number and zero. -/
def magnitude : Binary64 → Nat
  | finite _ mantissa shift _ => mantissa <<< shift
  | _ => 0

/-- Whether the sign is a minus. -/
def isNegative : Binary64 → Bool
  | nan => false
  | infinite negative => negative
  | finite negative .. => negative

/-- `n` with a minus sign in front where asked. -/
def signed (negative : Bool) (n : Nat) : Int :=
  if negative then -(n : Int) else n

/-- The exact value of a finite number, in units. -/
def units (x : Binary64) : Int :=
  signed x.isNegative x.magnitude

/-- The order of numbers. A NaN stands in no order, not even to itself. -/
def compare? : Binary64 → Binary64 → Option Ordering
  | nan, _ => none
  | _, nan => none
  | infinite m, infinite n => some (compare (signed m 1) (signed n 1))
  | infinite m, finite .. => some (if m then .lt else .gt)
  | finite .., infinite n => some (if n then .gt else .lt)
  | x, y => some (compare x.units y.units)

/-- Numeric equality: the two zeros are equal, and a NaN equals nothing. -/
def equals (x y : Binary64) : Bool :=
  x.compare? y == some .eq

/-- Zeros of both signs. -/
def isZero (x : Binary64) : Bool :=
  x.equals (zero false)

/-- The interchange format as a number below `2 ^ 64`: sign, eleven bits of exponent, 52 bits of
mantissa. A NaN has the quiet pattern. -/
def bits : Binary64 → Nat
  | nan => 0x7FF8000000000000
  | infinite negative => (if negative then 0x8000000000000000 else 0) + 0x7FF0000000000000
  | finite negative mantissa shift _ =>
    (if negative then 0x8000000000000000 else 0) +
      if mantissa < 0x10000000000000 then mantissa else (shift <<< 52) + mantissa

end Binary64

end Questlog
