import Questlog.Binary64.Arithmetic
import Questlog.Binary64.Text
import Questlog.Decimal.Layout
import Questlog.Operand.Basic
import Questlog.Text.Blank
import Questlog.Text.Hexadecimal

namespace Questlog

namespace Operand

/-- Numbers become text without an exponent from `1e-6` up to `1e21`. -/
def numberLayout : Decimal.Layout :=
  { tie := .away
    positional := fun leading => -6 ≤ leading && leading ≤ 20
    wholeFraction := false }

/-- The text of a number. Both zeros are `0`. -/
def numberText : Binary64 → String
  | .nan => "NaN"
  | .infinite negative => if negative then "-Infinity" else "Infinity"
  | .finite negative mantissa shift _ =>
    let body := numberLayout.write (mantissa <<< shift)
    String.ofList (if negative && mantissa != 0 then '-' :: body else body)

/-- The number that stands behind `0x`: at least one digit, after an optional plus sign, and less
than `2 ^ 64`. -/
def hexNumber (cs : List Char) : Binary64 :=
  let digits := match cs with
    | '+' :: rest => rest
    | rest => rest
  match digits, Text.ofBase? 16 digits with
  | _ :: _, some n => if n < 0x10000000000000000 then .ofNat n else .nan
  | _, _ => .nan

/-- A letter of the English alphabet other than those that write an exponent. -/
def isForeignLetter (c : Char) : Bool :=
  c.isAlpha && c != 'e' && c != 'E'

/-- The number that trimmed text denotes. -/
def numberOfTrimmed (cs : List Char) : Binary64 :=
  if cs = [] then .zero false
  else if cs = "Infinity".toList ∨ cs = "+Infinity".toList then .infinite false
  else if cs = "-Infinity".toList then .infinite true
  else match cs with
    | '0' :: 'x' :: rest => hexNumber rest
    | '0' :: 'X' :: rest => hexNumber rest
    | _ => if cs.any isForeignLetter then .nan else (Binary64.ofChars? cs).getD .nan

/-- The number that a text denotes: blank text is zero, and text that is no number is NaN. -/
def numberOfText (s : String) : Binary64 :=
  numberOfTrimmed (Text.trimChars s.toList)

mutual

/-- The text of an operand. A list joins the texts of its items with commas, a `null` among them
leaves its place empty. -/
def toText : Operand → String
  | null => "null"
  | bool b => if b then "true" else "false"
  | number x => numberText x
  | text s => s
  | list items => ",".intercalate (itemTexts items)

/-- The texts of the items of a list. -/
def itemTexts : List Operand → List String
  | [] => []
  | null :: rest => "" :: itemTexts rest
  | item :: rest => toText item :: itemTexts rest

end

/-- An operand that is no list: a list stands as its text. -/
def primitive : Operand → Operand
  | list items => text (toText (list items))
  | a => a

/-- The number of an operand. -/
def toNumber : Operand → Binary64
  | null => .zero false
  | bool b => .ofNat b.toNat
  | number x => x
  | text s => numberOfText s
  | list items => numberOfText (toText (list items))

/-- The 32-bit integer of an operand; zero for a number that is not finite. -/
def toInt32 (a : Operand) : Int :=
  a.toNumber.toInt32.toInt

end Operand

end Questlog
