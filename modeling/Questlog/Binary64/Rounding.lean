import Questlog.Binary64.Basic

namespace Questlog.Binary64

/-- `num / den` rounded to the nearest whole number, a half to the even one. -/
def divideEven (num den : Nat) : Nat :=
  let quotient := num / den
  match compare (2 * (num % den)) den with
  | .lt => quotient
  | .gt => quotient + 1
  | .eq => quotient + quotient % 2

/-- The finite number with this mantissa and shift, or infinity where there is none. -/
def pack (negative : Bool) (mantissa shift : Nat) : Binary64 :=
  if h : Canonical mantissa shift then .finite negative mantissa shift h else .infinite negative

/-- The double nearest to `num / den` units. All arithmetic and the reading of decimals go through
it. -/
def nearest (negative : Bool) (num den : Nat) : Binary64 :=
  let shift := Nat.log2 (num / den) - 52
  let mantissa := divideEven num (den <<< shift)
  if mantissa = 0x20000000000000 then
    pack negative 0x10000000000000 (shift + 1)
  else
    pack negative mantissa shift

/-- The double nearest to an integer. -/
def ofInt (n : Int) : Binary64 :=
  nearest (n < 0) (n.natAbs * unit) 1

/-- The double nearest to a natural number. -/
def ofNat (n : Nat) : Binary64 :=
  nearest false (n * unit) 1

end Questlog.Binary64
