import Mathlib
import Questlog.Binary64.Arithmetic
import Questlog.Proofs.Decimal.Value

namespace Questlog

/-- The whole part of a rational number, whose fraction is cut off towards zero. -/
def towardsZero (q : ℚ) : ℤ :=
  if 0 ≤ q then ⌊q⌋ else ⌈q⌉

/-- Cutting off the fraction treats both signs alike. -/
theorem towardsZero_neg (q : ℚ) : towardsZero (-q) = -towardsZero q := by
  rcases lt_trichotomy q 0 with hq | rfl | hq
  · have hneg : 0 ≤ -q := by linarith
    rw [towardsZero, towardsZero, if_pos hneg, if_neg (not_le.mpr hq), Int.floor_neg]
  · rfl
  · have hneg : ¬0 ≤ -q := by linarith
    rw [towardsZero, towardsZero, if_neg hneg, if_pos hq.le, Int.ceil_neg]

/-- For natural numbers cutting off the fraction is the division of natural numbers. -/
theorem towardsZero_div (n d : Nat) : towardsZero (n / d) = (n / d : Nat) := by
  rw [towardsZero, if_pos (by positivity), Rat.floor_natCast_div_natCast, Int.natCast_ediv]

theorem towardsZero_intCast (n : ℤ) : towardsZero n = n := by
  unfold towardsZero
  split
  · exact Int.floor_intCast n
  · exact Int.ceil_intCast n

namespace Binary64

open Decimal (unit_eq unit_pos)

variable {x y : Binary64} {n s : Nat} {k m : ℤ}

section Value

/-- The exact value of a finite double. -/
def toRat (x : Binary64) : ℚ :=
  x.units / unit

/-- The double is finite and has the value `q`, without any error. -/
structure IsExactly (x : Binary64) (q : ℚ) : Prop where
  isFinite : x.isFinite = true
  toRat_eq : x.toRat = q

theorem unit_ne_zero : (unit : ℚ) ≠ 0 :=
  Nat.cast_ne_zero.mpr unit_pos.ne'

theorem mul_unit_neg : k * unit < 0 ↔ k < 0 := by
  have hpos : (0 : ℤ) < unit := Nat.cast_pos.mpr unit_pos
  constructor
  · intro h
    exact neg_of_mul_neg_left h hpos.le
  · intro h
    exact mul_neg_of_neg_of_pos h hpos

/-- Being exactly an integer, told in units of the smallest double. -/
theorem isExactly_intCast : x.IsExactly k ↔ x.isFinite = true ∧ x.units = k * unit := by
  have hvalue : x.toRat = k ↔ x.units = k * unit := by
    rw [toRat, div_eq_iff unit_ne_zero]
    exact_mod_cast Iff.rfl
  rw [← hvalue]
  exact ⟨fun h => ⟨h.isFinite, h.toRat_eq⟩, fun h => ⟨h.1, h.2⟩⟩

theorem signed_mul (negative : Bool) (n c : Nat) : signed negative (n * c) = signed negative n * c := by
  cases negative with
  | true => simp [signed]
  | false => simp [signed]

/-- The remainder of magnitudes, signed as the dividend, is the remainder of integers that takes the
sign of the dividend. -/
theorem signed_mod (negative negative' : Bool) (n d : Nat) :
    signed negative (n % d) = (signed negative n).tmod (signed negative' d) := by
  have hnat : ((n % d : Nat) : ℤ) = (n : ℤ).tmod d := Int.ofNat_tmod n d
  cases negative <;> cases negative' <;>
    simp only [signed, if_true, Bool.false_eq_true, if_false, Int.neg_tmod, Int.tmod_neg, hnat]

theorem signed_natAbs (k : ℤ) : signed (k < 0) k.natAbs = k := by
  unfold signed
  split
  · next hneg =>
    have hlt : k < 0 := of_decide_eq_true hneg
    omega
  · next hneg =>
    have hle : ¬k < 0 := of_decide_eq_false (Bool.eq_false_iff.mpr hneg)
    omega

/-- The whole part of a double is its value with the fraction cut off. -/
theorem truncate_eq (x : Binary64) : x.truncate = towardsZero x.toRat := by
  rw [toRat, truncate, units]
  cases x.isNegative with
  | true =>
    have hcast : ((signed true x.magnitude : ℤ) : ℚ) / unit = -(x.magnitude / unit) := by
      simp [signed, neg_div]
    rw [hcast, towardsZero_neg, towardsZero_div]
    rfl
  | false => exact (towardsZero_div x.magnitude unit).symm

end Value

section Rounding

/-- A number of units is a double if it is a multiple of a power of two and has no more than 53 bits from
there on. -/
theorem nearest_of_dvd (negative : Bool) (hs : s ≤ 2045) (hdvd : 2 ^ s ∣ n) (hlt : n < 2 ^ 53 * 2 ^ s) :
    (nearest negative n 1).isFinite = true ∧ (nearest negative n 1).units = signed negative n := by
  have hcanonical : ∃ mantissa shift, Canonical mantissa shift ∧ mantissa <<< shift = n := by
    by_cases hsmall : n < 2 ^ 53
    · exact ⟨n, 0, ⟨hsmall, Nat.zero_le _, .inr rfl⟩, Nat.shiftLeft_zero⟩
    · have hne : n ≠ 0 := by
        rintro rfl
        exact hsmall (Nat.two_pow_pos 53)
      have hlower : 53 ≤ n.log2 := (Nat.le_log2 hne).mpr (Nat.le_of_not_lt hsmall)
      have hupper : n.log2 < 53 + s := by
        rw [Nat.log2_lt hne, Nat.pow_add]
        exact hlt
      -- The shift that leaves 53 bits is no larger than `s`, so it cuts off zeros only.
      obtain ⟨shift, hshift⟩ : ∃ shift, n.log2 = 52 + shift := ⟨n.log2 - 52, by omega⟩
      have hpower : 2 ^ shift ∣ n := (Nat.pow_dvd_pow 2 (by omega)).trans hdvd
      have hleast : 2 ^ 52 ≤ n / 2 ^ shift := by
        rw [Nat.le_div_iff_mul_le (Nat.two_pow_pos shift), ← Nat.pow_add, ← hshift]
        exact Nat.log2_self_le hne
      have hmost : n / 2 ^ shift < 2 ^ 53 := by
        rw [Nat.div_lt_iff_lt_mul (Nat.two_pow_pos shift), ← Nat.pow_add, ← Nat.log2_lt hne]
        omega
      refine ⟨n / 2 ^ shift, shift, ⟨hmost, by omega, .inl hleast⟩, ?_⟩
      rw [Nat.shiftLeft_eq, Nat.div_mul_cancel hpower]
  obtain ⟨mantissa, shift, h, rfl⟩ := hcanonical
  rw [nearest_magnitude negative h]
  exact ⟨rfl, rfl⟩

/-- An integer of at most 53 bits is a double. -/
theorem nearest_mul_unit (negative : Bool) (hn : n < 2 ^ 53) :
    (nearest negative (n * unit) 1).isFinite = true ∧
      (nearest negative (n * unit) 1).units = signed negative n * unit := by
  have hany : ∀ k, k = 1074 → (nearest negative (n * 2 ^ k) 1).isFinite = true ∧
      (nearest negative (n * 2 ^ k) 1).units = signed negative n * (2 ^ k : Nat) := by
    intro k hk
    rw [← signed_mul]
    exact nearest_of_dvd negative (by omega) (Nat.dvd_mul_left _ n)
      (Nat.mul_lt_mul_of_pos_right hn (Nat.two_pow_pos k))
  rw [unit_eq rfl]
  exact hany 1074 rfl

/-- Every integer of at most 53 bits is a double: converting it does not round. -/
theorem ofInt_isExactly (h : k.natAbs < 2 ^ 53) : (ofInt k).IsExactly k := by
  obtain ⟨hfinite, hunits⟩ := nearest_mul_unit (k < 0) h
  rw [signed_natAbs] at hunits
  exact isExactly_intCast.mpr ⟨hfinite, hunits⟩

end Rounding

section Whole

/-- The magnitude of a finite double is a mantissa of at most 53 bits, shifted. -/
theorem exists_magnitude (hx : x.isFinite = true) :
    ∃ mantissa shift, Canonical mantissa shift ∧ x.magnitude = mantissa * 2 ^ shift := by
  cases x with
  | nan | infinite => cases hx
  | finite negative mantissa shift h => exact ⟨mantissa, shift, h, Nat.shiftLeft_eq _ _⟩

/-- Cutting off a fraction does not round. -/
theorem whole_isExactly (hx : x.isFinite = true) : x.whole.IsExactly (towardsZero x.toRat) := by
  obtain ⟨mantissa, shift, ⟨hlt, hshift, -⟩, hmagnitude⟩ := exists_magnitude hx
  have hlarge : mantissa * 2 ^ shift < 2 ^ 53 * 2 ^ shift :=
    Nat.mul_lt_mul_of_pos_right hlt (Nat.two_pow_pos shift)
  have hany : ∀ k, k = 1074 → ∃ s, s ≤ 2045 ∧ 2 ^ s ∣ x.magnitude / 2 ^ k * 2 ^ k ∧
      x.magnitude / 2 ^ k * 2 ^ k < 2 ^ 53 * 2 ^ s := by
    intro k hk
    rw [hmagnitude]
    have hle := Nat.div_mul_le_self (mantissa * 2 ^ shift) (2 ^ k)
    by_cases hwhole : k ≤ shift
    · have hdvd : 2 ^ k ∣ mantissa * 2 ^ shift := (Nat.pow_dvd_pow 2 hwhole).mul_left mantissa
      rw [Nat.div_mul_cancel hdvd]
      exact ⟨shift, hshift, Nat.dvd_mul_left _ _, hlarge⟩
    · have hpow : 2 ^ shift ≤ 2 ^ k := Nat.pow_le_pow_right (by decide) (by omega)
      exact ⟨k, by omega, Nat.dvd_mul_left _ _,
        (hle.trans_lt hlarge).trans_le (Nat.mul_le_mul_left _ hpow)⟩
  obtain ⟨s, hs, hdvd, hbound⟩ := hany 1074 rfl
  rw [← unit_eq rfl] at hdvd hbound
  obtain ⟨hfinite, hunits⟩ := nearest_of_dvd x.isNegative hs hdvd hbound
  rw [whole, if_pos hx, ← truncate_eq, isExactly_intCast]
  exact ⟨hfinite, hunits.trans (signed_mul _ _ _)⟩

end Whole

section Remainder

theorem isZero_eq_false (hx : x.isFinite = true) (hunits : x.units ≠ 0) : x.isZero = false := by
  cases x with
  | nan | infinite => cases hx
  | finite negative mantissa shift h =>
    rw [Bool.eq_false_iff]
    intro hzero
    have hcompare : compare (finite negative mantissa shift h).units 0 = .eq :=
      Option.some.inj (beq_iff_eq.mp hzero)
    exact hunits (compare_eq_iff_eq.mp hcompare)

/-- The remainder of two finite doubles is never rounded. -/
theorem units_rem (hx : x.isFinite = true) (hy : y.isFinite = true) (hunits : y.units ≠ 0) :
    (x.rem y).isFinite = true ∧ (x.rem y).units = x.units.tmod y.units := by
  obtain ⟨mantissa, shift, ⟨hlt, hshift, -⟩, hmagnitude⟩ := exists_magnitude hx
  obtain ⟨mantissa', shift', ⟨hlt', hshift', -⟩, hmagnitude'⟩ := exists_magnitude hy
  have hpos : 0 < y.magnitude := by
    rw [Nat.pos_iff_ne_zero]
    intro hzero
    rw [units, hzero] at hunits
    cases hsign : y.isNegative <;> rw [hsign] at hunits <;> exact hunits rfl
  have hlarge : x.magnitude < 2 ^ 53 * 2 ^ shift := by
    rw [hmagnitude]
    exact Nat.mul_lt_mul_of_pos_right hlt (Nat.two_pow_pos shift)
  have hlarge' : y.magnitude < 2 ^ 53 * 2 ^ shift' := by
    rw [hmagnitude']
    exact Nat.mul_lt_mul_of_pos_right hlt' (Nat.two_pow_pos shift')
  -- The remainder is a multiple of the finer of the two grids and less than what lies on it.
  have hgrid : ∃ s, s ≤ 2045 ∧ 2 ^ s ∣ x.magnitude % y.magnitude ∧
      x.magnitude % y.magnitude < 2 ^ 53 * 2 ^ s := by
    have hdvd : ∀ s, s ≤ shift → s ≤ shift' → 2 ^ s ∣ x.magnitude % y.magnitude := by
      intro s hs hs'
      have hx : 2 ^ s ∣ x.magnitude := hmagnitude ▸ (Nat.pow_dvd_pow 2 hs).mul_left mantissa
      have hy : 2 ^ s ∣ y.magnitude := hmagnitude' ▸ (Nat.pow_dvd_pow 2 hs').mul_left mantissa'
      exact (Nat.dvd_mod_iff hy).mpr hx
    rcases Nat.le_total shift' shift with hle | hle
    · exact ⟨shift', hshift', hdvd shift' hle le_rfl, (Nat.mod_lt _ hpos).trans hlarge'⟩
    · exact ⟨shift, hshift, hdvd shift le_rfl hle, (Nat.mod_le _ _).trans_lt hlarge⟩
  obtain ⟨s, hs, hdvd, hbound⟩ := hgrid
  have hnan : ∀ z : Binary64, z.isFinite = true → z.isNaN = false := by
    intro z hz
    cases z with
    | nan | infinite => cases hz
    | finite => rfl
  have hrem : x.rem y = nearest x.isNegative (x.magnitude % y.magnitude) 1 := by
    rw [rem, hnan x hx, hnan y hy, hx, hy, isZero_eq_false hy hunits]
    rfl
  have htmod : x.units.tmod y.units = signed x.isNegative (x.magnitude % y.magnitude) :=
    (signed_mod _ _ _ _).symm
  rw [hrem, htmod]
  exact nearest_of_dvd x.isNegative hs hdvd hbound

/-- The remainder of two integers is taken without rounding, at whatever size they are. -/
theorem rem_isExactly (hx : x.IsExactly k) (hy : y.IsExactly m) (hm : m ≠ 0) :
    (x.rem y).IsExactly (k.tmod m : ℤ) := by
  rw [isExactly_intCast] at hx hy ⊢
  have hunits : y.units ≠ 0 := by
    rw [hy.2]
    exact mul_ne_zero hm (Nat.cast_ne_zero.mpr unit_pos.ne')
  obtain ⟨hfinite, hrem⟩ := units_rem hx.1 hy.1 hunits
  refine ⟨hfinite, ?_⟩
  rw [hrem, hx.2, hy.2, mul_comm k, mul_comm m, mul_comm (k.tmod m),
    Int.mul_tmod_mul_of_pos k m (Nat.cast_pos.mpr unit_pos)]

end Remainder

section Sum

/-- Dropping the sign does not round. -/
theorem abs_isExactly (hx : x.IsExactly k) : x.abs.IsExactly (k.natAbs : ℤ) := by
  rw [isExactly_intCast] at hx ⊢
  obtain ⟨hfinite, hunits⟩ := hx
  cases x with
  | nan | infinite => cases hfinite
  | finite negative mantissa shift h =>
    refine ⟨rfl, ?_⟩
    have habs := congrArg Int.natAbs hunits
    rw [Int.natAbs_mul, Int.natAbs_natCast, units, isNegative] at habs
    have hsigned : (signed negative (finite negative mantissa shift h).magnitude).natAbs =
        (finite negative mantissa shift h).magnitude := by
      cases negative <;> simp [signed]
    have hvalue : (finite negative mantissa shift h).abs.units =
        (finite negative mantissa shift h).magnitude := rfl
    rw [hvalue, ← hsigned, habs, Nat.cast_mul]

/-- A sum of integers is not rounded where it has at most 53 bits. -/
theorem add_isExactly (hx : x.IsExactly k) (hy : y.IsExactly m) (hbound : (k + m).natAbs < 2 ^ 53) :
    (x.add y).IsExactly (k + m : ℤ) := by
  rw [isExactly_intCast] at hx hy ⊢
  obtain ⟨hx, hunits⟩ := hx
  obtain ⟨hy, hunits'⟩ := hy
  have hsum : x.units + y.units = (k + m) * unit := by rw [hunits, hunits', add_mul]
  have hadd : x.add y = if x.units + y.units = 0 then zero (x.isNegative && y.isNegative)
      else nearest (x.units + y.units < 0) (x.units + y.units).natAbs 1 := by
    cases x with
    | nan | infinite => cases hx
    | finite =>
      cases y with
      | nan | infinite => cases hy
      | finite => rfl
  rw [hadd, hsum]
  split
  · next hzero =>
    rw [hzero]
    refine ⟨rfl, ?_⟩
    cases x.isNegative <;> cases y.isNegative <;> rfl
  · have hsign : decide ((k + m) * unit < 0) = decide (k + m < 0) := by
      rw [decide_eq_decide]
      exact mul_unit_neg
    rw [hsign, Int.natAbs_mul, Int.natAbs_natCast]
    obtain ⟨hfinite, hnearest⟩ := nearest_mul_unit (k + m < 0) hbound
    rw [signed_natAbs] at hnearest
    exact ⟨hfinite, hnearest⟩

theorem compare?_zero (hx : x.IsExactly k) : x.compare? (zero false) = some .lt ↔ k < 0 := by
  obtain ⟨hfinite, hunits⟩ := isExactly_intCast.mp hx
  cases x with
  | nan | infinite => cases hfinite
  | finite negative mantissa shift h =>
    have hcompare : (finite negative mantissa shift h).compare? (zero false) =
        some (compare (k * unit : ℤ) 0) := by
      rw [← hunits]
      rfl
    rw [hcompare, Option.some_inj, compare_lt_iff_lt]
    exact mul_unit_neg

/-- The remainder that is not negative is not rounded where the divisor has at most 53 bits. -/
theorem remEuclid_isExactly (hx : x.IsExactly k) (hy : y.IsExactly m) (hm : m ≠ 0)
    (hbound : m.natAbs < 2 ^ 53) : (x.remEuclid y).IsExactly (k % m : ℤ) := by
  have hrem := rem_isExactly hx hy hm
  have hnonneg : 0 ≤ k % m := Int.emod_nonneg k hm
  have hlt : k % m < m.natAbs := Int.emod_lt k hm
  have htmod : k.tmod m = k % m - (if 0 ≤ k ∨ m ∣ k then 0 else m.natAbs : Nat) := Int.tmod_eq_emod
  simp only [remEuclid, compare?_zero hrem]
  split at htmod
  · rw [Nat.cast_zero, sub_zero] at htmod
    rw [htmod] at hrem ⊢
    rw [if_neg (not_lt.mpr hnonneg)]
    exact hrem
  · have hsum : k.tmod m + m.natAbs = k % m := by omega
    have hbits : (k.tmod m + m.natAbs).natAbs < 2 ^ 53 := by omega
    rw [if_pos (by omega), ← hsum]
    exact add_isExactly hrem (abs_isExactly hy) hbits

end Sum

section Word

/-- An integer that fits into an unsigned word is converted to that word. -/
theorem toUInt32_isExactly {n : Nat} (hx : x.IsExactly n) (hn : n < 2 ^ 32) :
    x.toUInt32.toNat = n := by
  have htruncate : x.truncate = n := by
    rw [truncate_eq, hx.toRat_eq]
    exact towardsZero_intCast n
  obtain ⟨hfinite, -⟩ := hx
  cases x with
  | nan | infinite => cases hfinite
  | finite negative mantissa shift h =>
    have hcast : (finite negative mantissa shift h).toUInt32 =
        UInt32.ofNat (min (finite negative mantissa shift h).truncate.toNat 0xFFFFFFFF) := rfl
    rw [hcast, htruncate, Int.toNat_natCast, Nat.min_eq_left (by omega), UInt32.toNat_ofNat_of_lt' hn]

/-- The number of words is a double. -/
theorem wordCount_isExactly : wordCount.IsExactly (2 ^ 32 : ℤ) := by
  have hcast : ofInt (0x100000000 : Nat) = wordCount := ofInt_natCast _
  rw [← hcast]
  exact ofInt_isExactly (by decide)

/-- The remainder by which a finite double becomes a 32-bit integer: it is the exact one, and the cast to
an unsigned integer takes all of it. -/
theorem remEuclid_whole (hx : x.isFinite = true) :
    (x.whole.remEuclid wordCount).IsExactly (towardsZero x.toRat % 2 ^ 32 : ℤ) ∧
      ((x.whole.remEuclid wordCount).toUInt32.toNat : ℤ) = towardsZero x.toRat % 2 ^ 32 := by
  have hrem := remEuclid_isExactly (whole_isExactly hx) wordCount_isExactly (by decide) (by decide)
  refine ⟨hrem, ?_⟩
  have hnonneg := Int.emod_nonneg (towardsZero x.toRat) (by decide : (2 : ℤ) ^ 32 ≠ 0)
  obtain ⟨n, hn⟩ := Int.eq_ofNat_of_zero_le hnonneg
  have hlt : (n : ℤ) < 2 ^ 32 := hn ▸ Int.emod_lt_of_pos _ (by decide)
  rw [hn] at hrem ⊢
  rw [toUInt32_isExactly (by exact_mod_cast hrem) (by exact_mod_cast hlt)]

theorem toInt_toInt32 (n : UInt32) : n.toInt32.toInt = (n.toNat : ℤ).bmod (2 ^ 32) :=
  BitVec.toInt_eq_toNat_bmod n.toBitVec

/-- On the way to a 32-bit integer nothing is lost but the fraction and the multiples of `2 ^
32`. -/
theorem toInt32_eq_bmod (hx : x.isFinite = true) :
    x.toInt32.toInt = (towardsZero x.toRat).bmod (2 ^ 32) := by
  obtain ⟨-, hword⟩ := remEuclid_whole hx
  have hcast : x.toInt32 = (x.whole.remEuclid wordCount).toUInt32.toInt32 := if_pos hx
  rw [hcast, toInt_toInt32, hword]
  exact Int.emod_bmod _ _

end Word

end Binary64

end Questlog
