import Questlog.Decimal.Shortest
import Questlog.Proofs.Decimal.Value

namespace Questlog.Decimal

open Binary64 (Canonical unit nearest)

variable {mantissa shift magnitude : Nat} {d : Decimal}

theorem isNegative_toBinary64 (negative : Bool) (d : Decimal) :
    (d.toBinary64 negative).isNegative = negative := by
  rw [toBinary64_eq_nearest, Binary64.isNegative_nearest]

theorem ratio_neg (digits : Nat) {k : Nat} (hk : k ≠ 0) :
    ratio ⟨digits, -(k : Int)⟩ = (digits * unit, 10 ^ k) := by
  cases k with
  | zero => exact absurd rfl hk
  | succ k => rfl

/-- A unit of `2 ^ -k` has `5 ^ k` steps of `10 ^ -k`. -/
theorem nearest_all_digits (negative : Bool) (magnitude k : Nat) :
    nearest negative (magnitude * 5 ^ k * 2 ^ k) (10 ^ k) = nearest negative magnitude 1 := by
  have hpow : 5 ^ k * 2 ^ k = 10 ^ k := (Nat.mul_pow 5 2 k).symm
  have hextend := Binary64.nearest_mul (Nat.pow_pos (by decide : 0 < 10)) negative magnitude 1
    (c := 10 ^ k)
  rw [Nat.mul_assoc, hpow, ← hextend, Nat.one_mul]

/-- The decimal with all digits has the value of the double. -/
theorem toBinary64_exact (negative : Bool) (magnitude : Nat) :
    (exact magnitude).toBinary64 negative = nearest negative magnitude 1 := by
  -- The exponent is a variable here too: Lean would try to compute a power of 1074.
  have hany : ∀ k, k = 1074 →
      toBinary64 negative ⟨magnitude * Nat.pow 5 k, -(k : Int)⟩ = nearest negative magnitude 1 := by
    intro k hk
    have hne : k ≠ 0 := by omega
    rw [toBinary64_eq_nearest, ratio_neg _ hne, unit_eq hk]
    exact nearest_all_digits negative magnitude k
  exact hany 1074 rfl

/-- Being read back, told of the double that is read. -/
theorem readsBack_iff :
    readsBack magnitude d = true ↔
      (d.toBinary64 false).isFinite = true ∧ (d.toBinary64 false).magnitude = magnitude := by
  rw [readsBack, Bool.and_eq_true, beq_iff_eq]

/-- Every candidate was read back before it was taken. -/
theorem readsBack_of_onGrid? {tie : TieRule} {exponent : Int}
    (h : onGrid? tie magnitude exponent = some d) : readsBack magnitude d = true :=
  List.find?_some h

/-- The decimal with all digits has the very value of the double. -/
theorem readsBack_exact (h : Canonical mantissa shift) :
    readsBack (mantissa <<< shift) (exact (mantissa <<< shift)) = true := by
  rw [readsBack_iff, toBinary64_exact, Binary64.nearest_magnitude false h]
  exact ⟨rfl, rfl⟩

/-- The shortest decimal of a double is read as that double again. -/
theorem readsBack_shortest (tie : TieRule) (h : Canonical mantissa shift) :
    readsBack (mantissa <<< shift) (shortest tie (mantissa <<< shift)) = true := by
  simp only [shortest]
  cases hfound : (List.range 17).findSome? fun (n : Nat) =>
      onGrid? tie (mantissa <<< shift) (leadingExponent (mantissa <<< shift) - n) with
  | none => exact readsBack_exact h
  | some d =>
    obtain ⟨n, -, hgrid⟩ := List.exists_of_findSome?_eq_some hfound
    exact readsBack_of_onGrid? hgrid

/-- The shortest decimal of a double, with the sign of the double, is read as the double. -/
theorem toBinary64_shortest (tie : TieRule) (negative : Bool) (h : Canonical mantissa shift) :
    (shortest tie (mantissa <<< shift)).toBinary64 negative = .finite negative mantissa shift h := by
  obtain ⟨hfinite, hmagnitude⟩ := readsBack_iff.mp (readsBack_shortest tie h)
  have hpositive := Binary64.eq_finite hfinite h (isNegative_toBinary64 false _) hmagnitude
  cases negative with
  | false => exact hpositive
  | true =>
    have hneg := neg_toBinary64 false (shortest tie (mantissa <<< shift))
    rw [hpositive] at hneg
    exact hneg.symm

/-- The shortest decimal of a double other than zero is not zero. -/
theorem digits_shortest_ne_zero (tie : TieRule) (h : Canonical mantissa shift)
    (hne : mantissa <<< shift ≠ 0) : (shortest tie (mantissa <<< shift)).digits ≠ 0 := by
  intro hdigits
  obtain ⟨-, hmagnitude⟩ := readsBack_iff.mp (readsBack_shortest tie h)
  rw [toBinary64, if_pos hdigits] at hmagnitude
  exact hne hmagnitude.symm

end Questlog.Decimal
