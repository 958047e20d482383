import Questlog.Binary64.Rounding

namespace Questlog.Binary64

/-- The opposite number, also of a zero and of an infinity. -/
def neg : Binary64 → Binary64
  | nan => nan
  | infinite negative => infinite !negative
  | finite negative mantissa shift h => finite (!negative) mantissa shift h

/-- Equal opposite numbers add up to the positive zero, two negative zeros to the negative one. -/
def add : Binary64 → Binary64 → Binary64
  | nan, _ => nan
  | _, nan => nan
  | infinite m, infinite n => if m = n then infinite m else nan
  | infinite m, finite .. => infinite m
  | finite .., infinite n => infinite n
  | x, y =>
    let sum := x.units + y.units
    if sum = 0 then zero (x.isNegative && y.isNegative) else nearest (sum < 0) sum.natAbs 1

/-- The difference, rounded once like the sum. -/
def sub (x y : Binary64) : Binary64 :=
  x.add y.neg

/-- The product, rounded once, with the sign that the factors give; zero times infinity is no
number. -/
def mul (x y : Binary64) : Binary64 :=
  let negative := x.isNegative != y.isNegative
  if x.isNaN || y.isNaN then nan
  else if x.isFinite && y.isFinite then nearest negative (x.magnitude * y.magnitude) unit
  else if x.isZero || y.isZero then nan
  else infinite negative

/-- Division by zero is infinite, save for zero by zero, which is no number. -/
def div (x y : Binary64) : Binary64 :=
  let negative := x.isNegative != y.isNegative
  if x.isNaN || y.isNaN then nan
  else match x.isFinite, y.isFinite with
    | false, false => nan
    | false, true => infinite negative
    | true, false => zero negative
    | true, true =>
      if y.isZero then
        if x.isZero then nan else infinite negative
      else
        nearest negative (x.magnitude * unit) y.magnitude

/-- The remainder of the division truncated towards zero; it has the sign of the dividend. -/
def rem (x y : Binary64) : Binary64 :=
  if x.isNaN || y.isNaN || !x.isFinite || y.isZero then nan
  else if y.isFinite then nearest x.isNegative (x.magnitude % y.magnitude) 1
  else x

/-- The whole part of a finite number; zero for the others. -/
def truncate (x : Binary64) : Int :=
  signed x.isNegative (x.magnitude / unit)

/-- A number without its sign. -/
def abs : Binary64 → Binary64
  | nan => nan
  | infinite _ => infinite false
  | finite _ mantissa shift h => finite false mantissa shift h

/-- A number without its fraction. The sign stays, also that of a zero. -/
def whole (x : Binary64) : Binary64 :=
  if x.isFinite then nearest x.isNegative (x.magnitude / unit * unit) 1 else x

/-- The remainder of the division that is not negative. -/
def remEuclid (x y : Binary64) : Binary64 :=
  let remainder := x.rem y
  if remainder.compare? (zero false) = some .lt then remainder.add y.abs else remainder

/-- A number as an unsigned 32-bit integer: its whole part, or the nearest of these integers where
that is none of them. A NaN becomes zero. -/
def toUInt32 : Binary64 → UInt32
  | nan => 0
  | infinite negative => if negative then 0 else 0xFFFFFFFF
  | x => UInt32.ofNat (min x.truncate.toNat 0xFFFFFFFF)

/-- The number of unsigned 32-bit integers. -/
def wordCount : Binary64 :=
  .ofNat 0x100000000

/-- The whole part taken modulo `2 ^ 32` into the signed 32-bit range; zero for a number that is not
finite. -/
def toInt32 (x : Binary64) : Int32 :=
  if x.isFinite then (x.whole.remEuclid wordCount).toUInt32.toInt32 else 0

end Questlog.Binary64
