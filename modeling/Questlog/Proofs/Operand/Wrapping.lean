import Mathlib
import Questlog.Expression.Eval
import Questlog.Proofs.Binary64.Exact

namespace Questlog.Operand

open Binary64 (ofInt wordCount)

variable {a : Operand} {n k : ℤ}

/-- The whole part of the number of an operand. -/
def wholePart (a : Operand) : ℤ :=
  towardsZero a.toNumber.toRat

/-- What is brought into the range is in the range. -/
theorem toInt32_bounds (a : Operand) : -2 ^ 31 ≤ a.toInt32 ∧ a.toInt32 < 2 ^ 31 :=
  ⟨Int32.le_toInt _, Int32.toInt_lt _⟩

theorem bmod_of_bounds (h : -2 ^ 31 ≤ n ∧ n < 2 ^ 31) : n.bmod (2 ^ 32) = n :=
  Int.bmod_eq_of_le_mul_two (by push_cast; omega) (by push_cast; omega)

/-- Each residue modulo `2 ^ 32` has one representative in the signed 32-bit range. -/
theorem eq_bmod_iff : k.bmod (2 ^ 32) = n ↔ (-2 ^ 31 ≤ n ∧ n < 2 ^ 31) ∧ n ≡ k [ZMOD 2 ^ 32] := by
  constructor
  · rintro rfl
    have hlower := Int.le_bmod (x := k) (m := 2 ^ 32) (by decide)
    have hupper := Int.bmod_lt (x := k) (m := 2 ^ 32) (by decide)
    exact ⟨⟨by omega, by omega⟩, Int.bmod_emod⟩
  · rintro ⟨hbounds, hcongr⟩
    have hresidue : k % (2 ^ 32 : Nat) = n % (2 ^ 32 : Nat) := hcongr.symm
    rw [← Int.emod_bmod, hresidue, Int.emod_bmod, bmod_of_bounds hbounds]

/-- The complement is one less than the opposite of the 32-bit integer. -/
theorem apply_complement (a : Operand) :
    PrefixOp.complement.apply a = .number (ofInt (-a.toInt32 - 1)) := by
  have hbounds := a.toInt32_bounds
  have hnot : (~~~a.toNumber.toInt32).toInt = -a.toInt32 - 1 := by
    rw [Int32.toInt_not, ← toInt32]
    exact bmod_of_bounds ⟨by omega, by omega⟩
  rw [PrefixOp.apply, hnot]

/-- An integer of the signed 32-bit range is its own 32-bit integer. -/
theorem toInt32_number (h : -2 ^ 31 ≤ n ∧ n < 2 ^ 31) : (number (ofInt n)).toInt32 = n := by
  have hexact : (ofInt n).IsExactly n := Binary64.ofInt_isExactly (by omega)
  have hword : (number (ofInt n)).toInt32 = (towardsZero (ofInt n).toRat).bmod (2 ^ 32) :=
    Binary64.toInt32_eq_bmod hexact.isFinite
  rw [hword, hexact.toRat_eq, towardsZero_intCast, bmod_of_bounds h]

/-- The whole part is brought into the range by multiples of `2 ^ 32` and by nothing else, however
large it is. The 32-bit integer of a finite number is the only one of the signed 32-bit range that
is congruent to its whole part modulo `2 ^ 32`, and no step on the way to it rounds; without a
finite number it is zero. The complement is exactly one less than its opposite, so that the
complement of the complement is the integer. -/
theorem complement_wraps (a : Operand) :
    (a.toNumber.isFinite = true →
      a.toNumber.whole.IsExactly a.wholePart ∧
      (a.toNumber.whole.rem wordCount).IsExactly (a.wholePart.tmod (2 ^ 32) : ℤ) ∧
      (a.toNumber.whole.remEuclid wordCount).IsExactly (a.wholePart % 2 ^ 32 : ℤ) ∧
      ((a.toNumber.whole.remEuclid wordCount).toUInt32.toNat : ℤ) = a.wholePart % 2 ^ 32 ∧
      ∀ n : ℤ, a.toInt32 = n ↔
        (-2 ^ 31 ≤ n ∧ n < 2 ^ 31) ∧ n ≡ a.wholePart [ZMOD 2 ^ 32]) ∧
    (a.toNumber.isFinite = false → a.toInt32 = 0) ∧
    ∀ (values : Values) (e : Expr), e.eval values = .ok a →
      (Expr.unary .complement e).eval values = .ok (number (ofInt (-a.toInt32 - 1))) ∧
      (ofInt (-a.toInt32 - 1)).IsExactly (-a.toInt32 - 1 : ℤ) ∧
      (Expr.unary .complement (.unary .complement e)).eval values =
        .ok (number (ofInt a.toInt32)) ∧
      (ofInt a.toInt32).IsExactly a.toInt32 := by
  have hbounds := a.toInt32_bounds
  refine ⟨fun hfinite => ?_, fun hfinite => ?_, fun values e heval => ?_⟩
  · have hwhole := Binary64.whole_isExactly hfinite
    obtain ⟨hremainder, hcast⟩ := Binary64.remEuclid_whole hfinite
    refine ⟨hwhole, Binary64.rem_isExactly hwhole Binary64.wordCount_isExactly (by decide), hremainder,
      hcast, fun n => ?_⟩
    have hword : a.toInt32 = a.wholePart.bmod (2 ^ 32) := Binary64.toInt32_eq_bmod hfinite
    rw [hword, eq_bmod_iff]
  · have hnone : a.toNumber.toInt32 = 0 := if_neg (Bool.eq_false_iff.mp hfinite)
    rw [toInt32, hnone]
    rfl
  · have hopposite : -2 ^ 31 ≤ -a.toInt32 - 1 ∧ -a.toInt32 - 1 < 2 ^ 31 := ⟨by omega, by omega⟩
    have honce : (Expr.unary .complement e).eval values = .ok (number (ofInt (-a.toInt32 - 1))) := by
      simp only [Expr.eval, heval, apply_complement]
    have hback : -(-a.toInt32 - 1) - 1 = a.toInt32 := by omega
    refine ⟨honce, Binary64.ofInt_isExactly (by omega), ?_, Binary64.ofInt_isExactly (by omega)⟩
    rw [Expr.eval, honce]
    simp only [apply_complement, toInt32_number hopposite, hback]

/-- A text one and a half below the smallest 32-bit integer: its whole part wraps to the largest one. -/
theorem complement_wraps_below :
    (text "-2147483649.5").toNumber.isFinite = true ∧ (text "-2147483649.5").toInt32 = 2147483647 ∧
    (text "-2147483649.5").toNumber.whole.IsExactly (-2147483649 : ℤ) ∧
    (2147483647 : ℤ) ≡ -2147483649 [ZMOD 2 ^ 32] ∧
    (Expr.unary .complement (.text "-2147483649.5")).eval ⟨[]⟩ =
      .ok (number (ofInt (-2147483648))) ∧
    (Expr.unary .complement (.unary .complement (.text "-2147483649.5"))).eval ⟨[]⟩ =
      .ok (number (ofInt 2147483647)) := by
  have hfinite : (text "-2147483649.5").toNumber.isFinite = true := by decide +kernel
  have hword : (text "-2147483649.5").toInt32 = 2147483647 := by decide +kernel
  have hpart : (text "-2147483649.5").wholePart = -2147483649 := by decide +kernel
  have hwraps := complement_wraps (text "-2147483649.5")
  rw [hword, hpart] at hwraps
  obtain ⟨hnumber, -, hcomplement⟩ := hwraps
  obtain ⟨hwhole, -, -, -, hunique⟩ := hnumber hfinite
  obtain ⟨-, hcongr⟩ := (hunique 2147483647).mp rfl
  obtain ⟨honce, -, htwice, -⟩ := hcomplement ⟨[]⟩ (.text "-2147483649.5") rfl
  exact ⟨hfinite, hword, hwhole, hcongr, honce, htwice⟩

end Questlog.Operand
