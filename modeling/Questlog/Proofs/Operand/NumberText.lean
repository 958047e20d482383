import Mathlib
import Questlog.Proofs.Decimal.Tight
import Questlog.Proofs.Operand.Comparison
import Questlog.Proofs.Operand.Numeric
import Questlog.Proofs.Text.Blank

namespace Questlog.Operand

open Binary64 (Canonical)
open Decimal (IsSign Numeral Spells chars_of_decimal placed scientific)

variable {body cs sign : List Char} {negative : Bool} {n : Numeral} {mantissa shift : Nat}

/-- A text is left to the reading of decimals: trimming does not change it, it is no blank text, no word
for infinity and not hexadecimal, and its letters are those of decimals. -/
structure IsLeftToDecimals (cs : List Char) : Prop where
  trimmed : Text.trimChars cs = cs
  ne_nil : cs ≠ []
  no_word : ∀ sign negative, IsSign sign negative → cs ≠ sign ++ "Infinity".toList
  no_mark : ∀ mark rest, IsHexMark mark → cs ≠ '0' :: mark :: rest
  no_letter : cs.any isForeignLetter = false

/-- The spelling of a decimal passes all that is asked before a text is read as a decimal. -/
theorem isLeftToDecimals (hsign : IsSign sign negative) (h : Spells body n) :
    IsLeftToDecimals (sign ++ body) := by
  have hchars := chars_of_decimal hsign h
  have hletter : ∀ c ∈ sign ++ body, isForeignLetter c ≠ true := fun c hc =>
    Bool.eq_false_iff.mp (isForeignLetter_of_isNumeralChar (hchars c hc))
  have hne : sign ++ body ≠ [] := List.append_ne_nil_of_right_ne_nil sign h.ne_nil
  constructor
  · exact (Decimal.trimmed_of_decimal hsign h).trimChars_eq
  · exact hne
  · intro other _ _ hword
    rw [hword] at hletter
    exact hletter 'I' (List.mem_append_right other (by decide)) rfl
  · intro mark rest hmark hhex
    rw [hhex] at hletter
    exact hletter mark (by simp) (isForeignLetter_of_isHexMark hmark)
  · exact List.any_eq_false.mpr hletter

/-- The minus sign in front of a negative number. -/
def minus (negative : Bool) : List Char :=
  if negative then ['-'] else []

theorem isSign_minus (negative : Bool) : IsSign (minus negative) negative := by
  cases negative with
  | true => exact .minus
  | false => exact .none

/-- A finite number but zero is written by its sign and its layout. -/
theorem toList_numberText_finite (h : Canonical mantissa shift) (hne : mantissa <<< shift ≠ 0) :
    (numberText (.finite negative mantissa shift h)).toList =
      minus negative ++ numberLayout.write (mantissa <<< shift) := by
  have hmantissa : (mantissa != 0) = true := by
    rw [bne_iff_ne]
    rintro rfl
    exact hne (Nat.zero_shiftLeft shift)
  rw [numberText, String.toList_ofList, hmantissa, Bool.and_true]
  cases negative <;> rfl

/-- Zero is written without its sign. -/
theorem numberText_zero (h : Canonical mantissa shift) (hzero : mantissa <<< shift = 0) :
    numberText (.finite negative mantissa shift h) = "0" := by
  obtain ⟨rfl, rfl⟩ := Decimal.eq_zero_of_canonical h hzero
  cases negative <;> rfl

theorem positional_iff (leading : Int) :
    numberLayout.positional leading = true ↔ -6 ≤ leading ∧ leading ≤ 20 := by
  simp [numberLayout]

/-- The decimal that a number shows as its text reads back. -/
theorem toBinary64_shown (negative : Bool) (h : Canonical mantissa shift) :
    (placed (numberLayout.shown (mantissa <<< shift)).1
      (numberLayout.shown (mantissa <<< shift)).2).toBinary64 negative =
        .finite negative mantissa shift h := by
  have hextends := Decimal.extends_significant
    (Decimal.shortest numberLayout.tie (mantissa <<< shift))
  exact (hextends.toBinary64_eq negative).symm.trans
    (Decimal.toBinary64_shortest numberLayout.tie negative h)

/-- The text of a finite number other than zero. -/
theorem numberText_finite (negative : Bool) (h : Canonical mantissa shift) (hne : mantissa <<< shift ≠ 0) :
    ∃ n : Numeral,
      (numberText (.finite negative mantissa shift h)).toList = minus negative ++ n.write ∧
      n.IsTight ∧
      n.value.Extends (placed (numberLayout.shown (mantissa <<< shift)).1
        (numberLayout.shown (mantissa <<< shift)).2) ∧
      (n.exponent = none ↔ -6 ≤ (numberLayout.shown (mantissa <<< shift)).2 ∧
        (numberLayout.shown (mantissa <<< shift)).2 ≤ 20) := by
  obtain ⟨n, hwrite, htight, hvalue, hexponent⟩ :=
    Decimal.Layout.write_tight (rfl : numberLayout.wholeFraction = false) h hne
  refine ⟨n, ?_, htight, hvalue, hexponent.trans (positional_iff _)⟩
  rw [toList_numberText_finite h hne, hwrite]

/-- The text of a finite number is read as the number. -/
theorem numberOfText_numberText_finite (h : Canonical mantissa shift) (hne : mantissa <<< shift ≠ 0) :
    numberOfText (numberText (.finite negative mantissa shift h)) =
      .finite negative mantissa shift h := by
  obtain ⟨n, htext, htight, hvalue, -⟩ := numberText_finite negative h hne
  have hspells := htight.toIsWritten.spells
  have hsign := isSign_minus negative
  rw [numberOfText, htext, (isLeftToDecimals hsign hspells).trimmed,
    numberOfTrimmed_decimal hsign hspells, hvalue.toBinary64_eq, toBinary64_shown]

theorem equals_self {x : Binary64} (hx : x ≠ .nan) : x.equals x = true := by
  cases x with
  | nan => exact absurd rfl hx
  | infinite m => cases m <;> rfl
  | finite => simp [Binary64.equals, Binary64.compare?]

/-- A number other than NaN is equal to the number that its text denotes; a negative zero is not the
same, but equal. -/
theorem equals_numberOfText_numberText {x : Binary64} (hx : x ≠ .nan) :
    x.equals (numberOfText (numberText x)) = true := by
  cases x with
  | nan => exact absurd rfl hx
  | infinite m => cases m <;> rfl
  | finite negative mantissa shift h =>
    by_cases hzero : mantissa <<< shift = 0
    · rw [numberText_zero h hzero]
      obtain ⟨rfl, rfl⟩ := Decimal.eq_zero_of_canonical h hzero
      cases negative <;> rfl
    · rw [numberOfText_numberText_finite h hzero]
      exact equals_self hx

/-- The text of a finite number other than zero has its sign and the exact value of its shortest
digits `d₁.d₂…dₖ * 10 ^ e`, with an exponent unless `-6 ≤ e ≤ 20`, has nothing superfluous, and is
left to the reading of decimals. Every number but NaN is equal to its text. So every number but NaN
is equal to its own text. -/
theorem numberText_denotes (x : Binary64) (hx : x ≠ .nan) :
    (x.isFinite = true → x.magnitude ≠ 0 →
      ∃ n : Numeral,
        (numberText x).toList = minus x.isNegative ++ n.write ∧
        n.value.toRat = scientific (numberLayout.shown x.magnitude).1
          (numberLayout.shown x.magnitude).2 ∧
        (n.exponent = none ↔ -6 ≤ (numberLayout.shown x.magnitude).2 ∧
          (numberLayout.shown x.magnitude).2 ≤ 20) ∧
        n.IsTight ∧
        IsLeftToDecimals (numberText x).toList ∧
        Decimal.readSign (numberText x).toList = (x.isNegative, n.write) ∧
        Decimal.ofChars? n.write = some n.value) ∧
    (number x).looseEq (text (number x).toText) = true := by
  refine ⟨fun hfinite hmagnitude => ?_, ?_⟩
  · cases x with
    | nan | infinite => cases hfinite
    | finite negative mantissa shift h =>
      obtain ⟨n, htext, htight, hvalue, hexponent⟩ := numberText_finite negative h hmagnitude
      have hspells := htight.toIsWritten.spells
      have hsign := isSign_minus negative
      have hds := numberLayout.isSignificant_shown h hmagnitude
      refine ⟨n, htext, hvalue.toRat_eq.trans (Decimal.toRat_placed hds.ne_nil _), hexponent, htight,
        ?_, ?_, hspells.ofChars?_eq⟩
      · rw [htext]
        exact isLeftToDecimals hsign hspells
      · rw [htext]
        exact Decimal.readSign_append hsign hspells.head_ne_sign
  · rw [toText, looseEq]
    exact equals_numberOfText_numberText hx

/-- The number `-1.5e+21`. -/
def farBelow : Binary64 :=
  .finite true 5722045898437500 1092 (by decide)

theorem numberText_denotes_farBelow :
    farBelow ≠ .nan ∧ farBelow.isFinite = true ∧ farBelow.magnitude ≠ 0 ∧
    numberText farBelow = "-1.5e+21" ∧
    (∃ n : Numeral,
      "-1.5e+21".toList = minus true ++ n.write ∧
      n.value.toRat = scientific ['1', '5'] 21 ∧
      (n.exponent = none ↔ (-6 : Int) ≤ 21 ∧ (21 : Int) ≤ 20) ∧
      n.IsTight ∧
      IsLeftToDecimals "-1.5e+21".toList ∧
      Decimal.readSign "-1.5e+21".toList = (true, n.write) ∧
      Decimal.ofChars? n.write = some n.value) ∧
    (number farBelow).looseEq (text "-1.5e+21") = true := by
  have hnan : farBelow ≠ .nan := Binary64.noConfusion
  have hmagnitude : farBelow.magnitude ≠ 0 := by decide +kernel
  have htext : numberText farBelow = "-1.5e+21" := by decide +kernel
  have hshown : numberLayout.shown farBelow.magnitude = (['1', '5'], 21) := by decide +kernel
  have hdenotes := numberText_denotes farBelow hnan
  rw [toText, htext, hshown] at hdenotes
  exact ⟨hnan, rfl, hmagnitude, htext, hdenotes.1 rfl hmagnitude, hdenotes.2⟩

end Questlog.Operand
