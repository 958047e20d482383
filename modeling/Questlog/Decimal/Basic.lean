import Questlog.Binary64.Rounding

namespace Questlog

/-- The number `digits * 10 ^ exponent`. -/
structure Decimal where
  digits : Nat
  exponent : Int
deriving DecidableEq

namespace Decimal

/-- The number that a run of digits denotes. -/
def ofDigits (ds : List Char) : Nat :=
  ds.foldl (fun n d => 10 * n + (d.toNat - '0'.toNat)) 0

/-- The digits of a number, without leading zeros; a zero is one digit. -/
def toDigits (n : Nat) : List Char :=
  Nat.toDigits 10 n

/-- The double nearest to a decimal with the given sign. A decimal far outside the range of doubles
is settled without building a power of ten for it. -/
def toBinary64 (negative : Bool) (d : Decimal) : Binary64 :=
  if d.digits = 0 then
    .zero negative
  else
    match d.exponent with
    | .ofNat k =>
      if 400 < k then
        .infinite negative
      else
        .nearest negative (d.digits * Nat.pow 10 k * Binary64.unit) 1
    | .negSucc k =>
      if Nat.log2 d.digits + 1076 ≤ 3 * (k + 1) then
        .zero negative
      else
        .nearest negative (d.digits * Binary64.unit) (Nat.pow 10 (k + 1))

end Decimal

end Questlog
