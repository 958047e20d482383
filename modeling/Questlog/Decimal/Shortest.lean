import Questlog.Decimal.Basic

namespace Questlog.Decimal

/-- Which of two equally near decimals is written: the one away from zero, or the one with the even
last digit. -/
inductive TieRule where
  | away
  | even

/-- Whether the larger of two equally near neighbours is taken, the smaller being `lower`. -/
def TieRule.takesUpper : TieRule → (lower : Nat) → Bool
  | away, _ => true
  | even, lower => lower % 2 == 1

/-- The exponent of the first significant digit of `magnitude` units. -/
def leadingExponent (magnitude : Nat) : Int :=
  (toDigits (magnitude * Nat.pow 10 324 / Binary64.unit)).length - 325

/-- The decimal with all digits of `magnitude` units. -/
def exact (magnitude : Nat) : Decimal :=
  { digits := magnitude * Nat.pow 5 1074, exponent := -1074 }

/-- `magnitude` units counted in steps of `10 ^ exponent`, as a quotient of integers. -/
def steps (magnitude : Nat) : (exponent : Int) → Nat × Nat
  | .ofNat k => (magnitude, Binary64.unit * Nat.pow 10 k)
  | .negSucc k => (magnitude * Nat.pow 10 (k + 1), Binary64.unit)

/-- Whether a decimal is read as the positive double of `magnitude` units. -/
def readsBack (magnitude : Nat) (d : Decimal) : Bool :=
  (d.toBinary64 false).isFinite && (d.toBinary64 false).magnitude == magnitude

/-- The decimal nearest to `magnitude` units that is a multiple of `10 ^ exponent` and reads
back. -/
def onGrid? (tie : TieRule) (magnitude : Nat) (exponent : Int) : Option Decimal :=
  let (num, den) := steps magnitude exponent
  let lower := num / den
  let below : Decimal := ⟨lower, exponent⟩
  let above : Decimal := ⟨lower + 1, exponent⟩
  let upperFirst := match compare (2 * (num % den)) den with
    | .lt => false
    | .gt => true
    | .eq => tie.takesUpper lower
  (if upperFirst then [above, below] else [below, above]).find? (readsBack magnitude)

/-- The shortest decimal that reads back to the positive double of `magnitude` units. For 1, 2, … 17
digits the two neighbours of the exact value on that grid are read back; the first grid with a hit
wins, and of two hits the nearer one. -/
def shortest (tie : TieRule) (magnitude : Nat) : Decimal :=
  let leading := leadingExponent magnitude
  ((List.range 17).findSome? fun (n : Nat) => onGrid? tie magnitude (leading - n)).getD
    (exact magnitude)

end Questlog.Decimal
