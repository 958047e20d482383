import Questlog.Decimal.Shortest

namespace Questlog.Decimal

/-- The choices of one format for finite numbers. A number is shown by its shortest digits, with a
point among them or with an exponent behind them. -/
structure Layout where
  /-- which of two equally short and near decimals is written -/
  tie : TieRule
  /-- the leading exponents that are written positionally, from the first to the last -/
  positional : Int → Bool
  /-- whether a whole number in positional form ends in a point and a zero -/
  wholeFraction : Bool

/-- The digits of a decimal without trailing zeros, and the exponent of the first of them. -/
def significant (d : Decimal) : List Char × Int :=
  let ds := toDigits d.digits
  ((ds.reverse.dropWhile (· = '0')).reverse, d.exponent + ds.length - 1)

/-- Digits whose first one stands at `leading`, with a point where it belongs. -/
def positionalForm (wholeFraction : Bool) (ds : List Char) (leading : Int) : List Char :=
  if leading < 0 then
    '0' :: '.' :: List.replicate (-leading - 1).toNat '0' ++ ds
  else
    let places := leading.toNat + 1
    match ds.drop places with
    | [] =>
      ds ++ List.replicate (places - ds.length) '0' ++ if wholeFraction then ['.', '0'] else []
    | fraction => ds.take places ++ '.' :: fraction

/-- Digits with the point after the first one and a signed exponent. -/
def exponentForm (ds : List Char) (leading : Int) : List Char :=
  let fraction := match ds.drop 1 with
    | [] => []
    | rest => '.' :: rest
  ds.take 1 ++ fraction ++ 'e' :: (if leading < 0 then '-' else '+') :: toDigits leading.natAbs

/-- The text of `magnitude` units without a sign. -/
def Layout.write (layout : Layout) (magnitude : Nat) : List Char :=
  if magnitude = 0 then
    if layout.wholeFraction then ['0', '.', '0'] else ['0']
  else
    let (ds, leading) := significant (shortest layout.tie magnitude)
    if layout.positional leading then
      positionalForm layout.wholeFraction ds leading
    else
      exponentForm ds leading

end Questlog.Decimal
