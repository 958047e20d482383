import Questlog.Binary64.Arithmetic
import Questlog.Decimal.Numeral
import Questlog.Proofs.Decimal.Numeral

namespace Questlog

namespace Decimal

/-- The digits of a number are the digits of that number. -/
theorem ofDigits_toDigits (n : Nat) : ofDigits (toDigits n) = n := by
  have hvalue : Nat.ofDigitChars 10 (Nat.toDigits 10 n) 0 = n := Nat.ofDigitChars_ten_toDigits
  rwa [Nat.ofDigitChars_eq_foldl] at hvalue

theorem toDigits_ne_nil (n : Nat) : toDigits n ≠ [] :=
  Nat.toDigits_ne_nil

/-- Nothing but digits is written. -/
theorem isDigit_of_mem_toDigits {n : Nat} : ∀ d ∈ toDigits n, isDigit d = true := by
  intro d hd
  have hdigit : d.isDigit = true := Nat.isDigit_of_mem_toDigits (by decide) (by decide) hd
  have hrange : d.val ≥ 48 ∧ d.val ≤ 57 := by simpa [Char.isDigit] using hdigit
  exact isDigit_iff.mpr hrange

/-- A zero stands in front of no other digit. -/
theorem head?_toDigits_ne_zero {n : Nat} (hn : n ≠ 0) : (toDigits n).head? ≠ some '0' := by
  induction n using Nat.strongRecOn with
  | ind n ih =>
    by_cases hlt : n < 10
    · rw [toDigits, Nat.toDigits_of_lt_base hlt]
      simpa using hn
    · have hten : 10 ≤ n := Nat.le_of_not_lt hlt
      have hsplit : toDigits n = toDigits (n / 10) ++ [(n % 10).digitChar] :=
        Nat.toDigits_of_base_le (by decide) hten
      have hhead := ih (n / 10) (by omega) (by omega)
      obtain ⟨d, rest, hdigits⟩ := List.exists_cons_of_ne_nil (toDigits_ne_nil (n / 10))
      rw [hdigits] at hhead
      rw [hsplit, hdigits]
      exact hhead

end Decimal

namespace Binary64

theorem neg_pack (negative : Bool) (mantissa shift : Nat) :
    (pack negative mantissa shift).neg = pack (!negative) mantissa shift := by
  unfold pack
  split <;> rfl

/-- A minus sign may be applied before or after rounding. -/
theorem neg_nearest (negative : Bool) (num den : Nat) :
    (nearest negative num den).neg = nearest (!negative) num den := by
  simp only [nearest]
  split
  · exact neg_pack negative _ _
  · exact neg_pack negative _ _

theorem nearest_zero (negative : Bool) : nearest negative 0 1 = zero negative := by
  cases negative <;> rfl

/-- A natural number is converted alike as an integer. -/
theorem ofInt_natCast (n : Nat) : ofInt n = ofNat n := by
  have hsign : decide ((n : Int) < 0) = false := decide_eq_false (Int.not_lt.mpr (Int.natCast_nonneg n))
  rw [ofInt, hsign]
  rfl

/-- The sign of an integer other than zero is not lost by rounding. -/
theorem ofInt_neg {n : Nat} (hn : n ≠ 0) : ofInt (-n) = (ofNat n).neg := by
  have hsign : decide (-(n : Int) < 0) = true := decide_eq_true (by omega)
  rw [ofInt, hsign, Int.natAbs_neg, ofNat, neg_nearest]
  rfl

end Binary64

/-- An integer that is read digit by digit is the double nearest to it. -/
theorem Decimal.toBinary64_natCast (n : Nat) :
    Decimal.toBinary64 false ⟨n, 0⟩ = Binary64.ofNat n := by
  unfold Decimal.toBinary64
  split
  · next hzero =>
    obtain rfl : n = 0 := hzero
    rw [Binary64.ofNat, Nat.zero_mul, Binary64.nearest_zero]
  · rw [Binary64.ofNat]
    simp

end Questlog
