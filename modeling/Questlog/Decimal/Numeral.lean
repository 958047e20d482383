import Questlog.Decimal.Basic

namespace Questlog.Decimal

/-- Whether a character is one of the ten decimal digits. -/
def isDigit (c : Char) : Bool :=
  '0' ≤ c && c ≤ '9'

/-- A written decimal in its parts. A point without digits on one of its sides is kept by
`point`. -/
structure Numeral where
  whole : List Char
  point : Bool
  fraction : List Char
  exponent : Option Int

/-- The decimal that is written. -/
def Numeral.value (n : Numeral) : Decimal :=
  { digits := ofDigits (n.whole ++ n.fraction)
    exponent := n.exponent.getD 0 - n.fraction.length }

/-- Reads an optional sign; the flag tells whether it is a minus. -/
def readSign : List Char → Bool × List Char
  | '-' :: rest => (true, rest)
  | '+' :: rest => (false, rest)
  | rest => (false, rest)

/-- Reads an exponent `e`, sign, digits; text without the digits has none. -/
def readExponent (cs : List Char) : Option Int × List Char :=
  match cs with
  | [] => (none, [])
  | e :: rest =>
    if e = 'e' ∨ e = 'E' then
      let (negative, ds) := readSign rest
      match ds.takeWhile isDigit with
      | [] => (none, e :: rest)
      | run => (some (Binary64.signed negative (ofDigits run)), ds.dropWhile isDigit)
    else
      (none, e :: rest)

/-- Reads digits with an optional point and optional further digits. -/
def readFixed (cs : List Char) : Numeral × List Char :=
  let whole := cs.takeWhile isDigit
  match cs.dropWhile isDigit with
  | '.' :: rest => (⟨whole, true, rest.takeWhile isDigit, none⟩, rest.dropWhile isDigit)
  | rest => (⟨whole, false, [], none⟩, rest)

/-- The digits in front of a point are among the characters that are read. -/
theorem readFixed_length (cs : List Char) :
    (readFixed cs).1.whole.length + (readFixed cs).2.length ≤ cs.length := by
  have hwhole := congrArg List.length (List.takeWhile_append_dropWhile (p := isDigit) (l := cs))
  rw [List.length_append] at hwhole
  unfold readFixed
  split
  · rename_i rest hrest
    have hfraction := (List.dropWhile_suffix isDigit (l := rest)).length_le
    rw [hrest, List.length_cons] at hwhole
    dsimp only
    omega
  · dsimp only
    omega

/-- A sign takes characters away, and adds none. -/
theorem readSign_length (cs : List Char) : (readSign cs).2.length ≤ cs.length := by
  unfold readSign
  split <;> simp

/-- An exponent takes characters away, and adds none. -/
theorem readExponent_length (cs : List Char) : (readExponent cs).2.length ≤ cs.length := by
  unfold readExponent
  split
  · exact Nat.le_refl _
  · rename_i e rest
    split
    · have hsign := readSign_length rest
      have hdrop := (List.dropWhile_suffix isDigit (l := (readSign rest).2)).length_le
      dsimp only
      split
      · exact Nat.le_refl _
      · simp only [List.length_cons]
        omega
    · exact Nat.le_refl _

/-- Reads the decimal that a whole text is: at least one digit, an optional point before, between
or after the digits, and an optional exponent. -/
def ofChars? (cs : List Char) : Option Decimal :=
  let (fixed, rest) := readFixed cs
  if fixed.whole = [] ∧ fixed.fraction = [] then
    none
  else
    match readExponent rest with
    | (exponent, []) => some { fixed with exponent }.value
    | _ => none

end Questlog.Decimal
