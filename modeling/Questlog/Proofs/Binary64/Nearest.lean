import Questlog.Proofs.Decimal.Integer

namespace Questlog.Binary64

/-- Only the value of a quotient matters for its rounding, not how the quotient is written. -/
theorem divideEven_mul {c : Nat} (hc : 0 < c) (num den : Nat) :
    divideEven (num * c) (den * c) = divideEven num den := by
  have hquotient : num * c / (den * c) = num / den := Nat.mul_div_mul_right num den hc
  have hrest : 2 * (num * c % (den * c)) = 2 * (num % den) * c := by
    rw [Nat.mul_mod_mul_right, Nat.mul_assoc]
  have hcompare : compare (2 * (num % den) * c) (den * c) = compare (2 * (num % den)) den := by
    simp only [Nat.compare_eq_ite_lt, Nat.mul_lt_mul_right hc]
  simp only [divideEven, hquotient, hrest, hcompare]

/-- The quotient may be extended by any factor. -/
theorem nearest_mul {c : Nat} (hc : 0 < c) (negative : Bool) (num den : Nat) :
    nearest negative (num * c) (den * c) = nearest negative num den := by
  have hquotient : num * c / (den * c) = num / den := Nat.mul_div_mul_right num den hc
  have hshift : ∀ shift, (den * c) <<< shift = den <<< shift * c := by
    intro shift
    rw [Nat.shiftLeft_eq, Nat.shiftLeft_eq, Nat.mul_right_comm]
  simp only [nearest, hquotient, hshift, divideEven_mul hc]

/-- A quotient that is whole needs no rounding. -/
theorem divideEven_mul_self {den : Nat} (hden : 0 < den) (n : Nat) :
    divideEven (n * den) den = n := by
  have hquotient : n * den / den = n := Nat.mul_div_cancel n hden
  have hrest : 2 * (n * den % den) = 0 := by rw [Nat.mul_mod_left]
  have hcompare : compare 0 den = .lt := Nat.compare_eq_lt.mpr hden
  simp only [divideEven, hquotient, hrest, hcompare]

/-- The shift of a double in standard form is found again from its magnitude. -/
theorem log2_magnitude {mantissa shift : Nat} (h : Canonical mantissa shift) :
    Nat.log2 (mantissa <<< shift) - 52 = shift := by
  obtain ⟨hlt, -, hlarge⟩ := h
  by_cases hshift : shift = 0
  · subst hshift
    rw [Nat.shiftLeft_zero]
    by_cases hzero : mantissa = 0
    · rw [hzero]
      rfl
    · have hlog : Nat.log2 mantissa < 53 := (Nat.log2_lt hzero).mpr hlt
      omega
  · have hmantissa : 2 ^ 52 ≤ mantissa := by omega
    have hpos := Nat.two_pow_pos shift
    have hlower : 2 ^ (52 + shift) ≤ mantissa <<< shift := by
      rw [Nat.pow_add, Nat.shiftLeft_eq]
      exact Nat.mul_le_mul_right _ hmantissa
    have hupper : mantissa <<< shift < 2 ^ (53 + shift) := by
      rw [Nat.pow_add, Nat.shiftLeft_eq]
      exact Nat.mul_lt_mul_of_pos_right hlt hpos
    have hne : mantissa <<< shift ≠ 0 := by
      have hpower := Nat.two_pow_pos (52 + shift)
      omega
    have hle := (Nat.le_log2 hne).mpr hlower
    have hlog := (Nat.log2_lt hne).mpr hupper
    omega

/-- A double is the nearest to itself. -/
theorem nearest_magnitude (negative : Bool) {mantissa shift : Nat}
    (h : Canonical mantissa shift) :
    nearest negative (mantissa <<< shift) 1 = .finite negative mantissa shift h := by
  have hshift := log2_magnitude h
  have hmantissa : divideEven (mantissa <<< shift) (1 <<< shift) = mantissa := by
    rw [Nat.shiftLeft_eq, Nat.shiftLeft_eq, Nat.one_mul]
    exact divideEven_mul_self (Nat.two_pow_pos shift) mantissa
  have hbound : mantissa ≠ 0x20000000000000 := Nat.ne_of_lt h.1
  simp only [nearest, Nat.div_one, hshift, hmantissa]
  rw [if_neg hbound, pack, dif_pos h]

/-- Rounding keeps the sign. -/
theorem isNegative_nearest (negative : Bool) (num den : Nat) :
    (nearest negative num den).isNegative = negative := by
  have hpack : ∀ mantissa shift, (pack negative mantissa shift).isNegative = negative := by
    intro mantissa shift
    unfold pack
    split <;> rfl
  simp only [nearest]
  split
  · exact hpack _ _
  · exact hpack _ _

/-- A double is determined by its sign and its magnitude. -/
theorem eq_finite {x : Binary64} (hx : x.isFinite = true) {negative : Bool} {mantissa shift : Nat}
    (h : Canonical mantissa shift) (hsign : x.isNegative = negative)
    (hmagnitude : x.magnitude = mantissa <<< shift) : x = .finite negative mantissa shift h := by
  cases x with
  | nan | infinite => cases hx
  | finite negative' mantissa' shift' h' =>
    obtain rfl : negative' = negative := hsign
    have hmagnitude' : mantissa' <<< shift' = mantissa <<< shift := hmagnitude
    rw [← nearest_magnitude negative' h', ← nearest_magnitude negative' h, hmagnitude']

/-- Far beyond the largest double everything is infinite. -/
theorem nearest_eq_infinite (negative : Bool) {n : Nat} (h : 2098 ≤ Nat.log2 n) :
    nearest negative n 1 = .infinite negative := by
  have hpack : ∀ mantissa shift, 2045 < shift → pack negative mantissa shift = .infinite negative := by
    intro mantissa shift hlt
    rw [pack, dif_neg fun hcanonical => Nat.not_le_of_lt hlt hcanonical.2.1]
  simp only [nearest, Nat.div_one]
  split
  · exact hpack _ _ (by omega)
  · exact hpack _ _ (by omega)

/-- What is less than half of the smallest double is nearest to zero. -/
theorem nearest_eq_zero (negative : Bool) {num den : Nat} (h : 2 * num < den) :
    nearest negative num den = zero negative := by
  have hquotient : num / den = 0 := Nat.div_eq_of_lt (by omega)
  have hrest : num % den = num := Nat.mod_eq_of_lt (by omega)
  have hcompare : compare (2 * num) den = .lt := Nat.compare_eq_lt.mpr h
  have hmantissa : divideEven num den = 0 := by
    simp only [divideEven, hquotient, hrest, hcompare]
  have hshift : Nat.log2 0 - 52 = 0 := rfl
  simp only [nearest, hquotient, hshift, Nat.shiftLeft_zero, hmantissa]
  rfl

end Questlog.Binary64
