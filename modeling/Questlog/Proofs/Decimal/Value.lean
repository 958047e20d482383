import Mathlib.Algebra.Group.Nat.Defs
import Questlog.Proofs.Binary64.Nearest

namespace Questlog.Decimal

open Binary64 (unit nearest)

/-- The units in a decimal, as a quotient. -/
def ratio (d : Decimal) : Nat × Nat :=
  match d.exponent with
  | .ofNat k => (d.digits * 10 ^ k * unit, 1)
  | .negSucc k => (d.digits * unit, 10 ^ (k + 1))

/-- The exponent is kept as a variable, so that no power of it is computed where this is used. -/
theorem unit_eq {k : Nat} (hk : k = 1074) : unit = 2 ^ k := by
  have hshift : unit = 1 <<< k := by
    subst hk
    rfl
  rw [hshift, Nat.one_shiftLeft]

theorem two_pow_mul_unit (n : Nat) : 2 ^ n * unit = 2 ^ (n + 1074) := by
  have hany : ∀ k, k = 1074 → 2 ^ n * unit = 2 ^ (n + k) := by
    intro k hk
    rw [unit_eq hk, Nat.pow_add]
  exact hany 1074 rfl

theorem unit_pos : 0 < unit := by
  have hany : ∀ k, k = 1074 → 0 < unit := by
    intro k hk
    rw [unit_eq hk]
    exact Nat.two_pow_pos k
  exact hany 1074 rfl

/-- A power of ten against a power of two, for the bounds far out of range. -/
theorem two_pow_le_ten_pow (k : Nat) : 2 ^ (3 * k) ≤ 10 ^ k := by
  rw [Nat.pow_mul]
  exact Nat.pow_le_pow_left (by decide) k

/-- A decimal with a vast exponent rounds to infinity. -/
theorem nearest_vast (negative : Bool) {digits k : Nat} (hdigits : digits ≠ 0) (hk : 400 < k) :
    nearest negative (digits * 10 ^ k * unit) 1 = .infinite negative := by
  have hbound : 2 ^ (3 * k + 1074) ≤ digits * 10 ^ k * unit := by
    rw [← two_pow_mul_unit]
    apply Nat.mul_le_mul_right
    exact Nat.le_trans (two_pow_le_ten_pow k)
      (Nat.le_mul_of_pos_left _ (Nat.pos_of_ne_zero hdigits))
  have hne : digits * 10 ^ k * unit ≠ 0 := by
    have hpos := Nat.two_pow_pos (3 * k + 1074)
    omega
  have hlog := (Nat.le_log2 hne).mpr hbound
  exact Binary64.nearest_eq_infinite negative (by omega)

/-- A decimal whose exponent outweighs its digits rounds to zero. -/
theorem nearest_tiny (negative : Bool) {digits k : Nat} (hk : Nat.log2 digits + 1076 ≤ 3 * k) :
    nearest negative (digits * unit) (10 ^ k) = .zero negative := by
  have hdigits : digits < 2 ^ (Nat.log2 digits + 1) := Nat.lt_log2_self
  have hsplit : 2 ^ (Nat.log2 digits + 1076) = 2 * (2 ^ (Nat.log2 digits + 1) * unit) := by
    rw [two_pow_mul_unit, Nat.mul_comm, ← Nat.pow_succ]
  have htwo : 2 * (digits * unit) < 2 ^ (Nat.log2 digits + 1076) := by
    rw [hsplit]
    exact Nat.mul_lt_mul_of_pos_left (Nat.mul_lt_mul_of_pos_right hdigits unit_pos) (by decide)
  have hpow : 2 ^ (Nat.log2 digits + 1076) ≤ 10 ^ k :=
    Nat.le_trans (Nat.pow_le_pow_right (by decide) hk) (two_pow_le_ten_pow k)
  exact Binary64.nearest_eq_zero negative (Nat.lt_of_lt_of_le htwo hpow)

/-- Zero is zero, whatever its exponent. -/
theorem nearest_ratio_zero (negative : Bool) (exponent : Int) :
    nearest negative (ratio ⟨0, exponent⟩).1 (ratio ⟨0, exponent⟩).2 = .zero negative := by
  cases exponent with
  | ofNat k =>
    have hzero : 2 * (0 * 10 ^ k * unit) < 1 := by
      rw [Nat.zero_mul, Nat.zero_mul]
      exact Nat.one_pos
    exact Binary64.nearest_eq_zero negative hzero
  | negSucc k =>
    have hzero : 2 * (0 * unit) < 10 ^ (k + 1) := by
      rw [Nat.zero_mul]
      exact Nat.pow_pos (by decide)
    exact Binary64.nearest_eq_zero negative hzero

/-- The double of a decimal is the nearest one to its value. -/
theorem toBinary64_eq_nearest (negative : Bool) (d : Decimal) :
    d.toBinary64 negative = nearest negative d.ratio.1 d.ratio.2 := by
  obtain ⟨digits, exponent⟩ := d
  by_cases hdigits : digits = 0
  · subst hdigits
    rw [nearest_ratio_zero]
    exact if_pos rfl
  · rw [toBinary64, if_neg hdigits]
    cases exponent with
    | ofNat k =>
      simp only [ratio]
      split
      · next hlarge => exact (nearest_vast negative hdigits hlarge).symm
      · rfl
    | negSucc k =>
      simp only [ratio]
      split
      · next hsmall => exact (nearest_tiny negative hsmall).symm
      · rfl

/-- A zero more at the end of the digits and one less in the exponent is the same number. -/
theorem toBinary64_shift_one (negative : Bool) (digits : Nat) (exponent : Int) :
    toBinary64 negative ⟨digits * 10, exponent - 1⟩ = toBinary64 negative ⟨digits, exponent⟩ := by
  rw [toBinary64_eq_nearest, toBinary64_eq_nearest]
  cases exponent with
  | ofNat k =>
    cases k with
    | zero =>
      have hexponent : Int.ofNat 0 - 1 = .negSucc 0 := rfl
      simp only [ratio, hexponent]
      have hnum : digits * 10 * unit = digits * 10 ^ 0 * unit * 10 := by
        rw [Nat.pow_zero, Nat.mul_one, Nat.mul_right_comm]
      rw [hnum]
      exact Binary64.nearest_mul (by decide) negative _ 1
    | succ k =>
      have hexponent : Int.ofNat (k + 1) - 1 = .ofNat k := by
        rw [Int.ofNat_eq_natCast, Int.ofNat_eq_natCast]
        omega
      simp only [ratio, hexponent]
      rw [Nat.pow_succ, Nat.mul_assoc digits 10, Nat.mul_comm 10]
  | negSucc k =>
    have hexponent : Int.negSucc k - 1 = .negSucc (k + 1) := by omega
    simp only [ratio, hexponent]
    rw [Nat.mul_right_comm, Nat.pow_succ 10 (k + 1)]
    exact Binary64.nearest_mul (by decide) negative _ _

/-- Zeros at the end of the digits do not matter. So the double depends on the value of a decimal
alone. -/
theorem toBinary64_shift (negative : Bool) (digits : Nat) (exponent : Int) (j : Nat) :
    toBinary64 negative ⟨digits * 10 ^ j, exponent - j⟩ = toBinary64 negative ⟨digits, exponent⟩ := by
  induction j with
  | zero => simp
  | succ j ih =>
    have hdigits : digits * 10 ^ (j + 1) = digits * 10 ^ j * 10 := by
      rw [Nat.pow_succ, Nat.mul_assoc]
    have hexponent : exponent - ((j + 1 : Nat) : Int) = exponent - j - 1 := by omega
    rw [hdigits, hexponent, toBinary64_shift_one, ih]

/-- The sign does not matter to the rounding. -/
theorem neg_toBinary64 (negative : Bool) (d : Decimal) :
    (d.toBinary64 negative).neg = d.toBinary64 !negative := by
  rw [toBinary64_eq_nearest, toBinary64_eq_nearest, Binary64.neg_nearest]

end Questlog.Decimal
