import Mathlib
import Questlog.Proofs.Decimal.Layout
import Questlog.Proofs.Decimal.Spelling

namespace Questlog.Decimal

open Binary64 (Canonical)

/-- The mark, the sign and the digits of an exponent. -/
def exponentChars : Option Int → List Char
  | none => []
  | some e => 'e' :: (if e < 0 then '-' else '+') :: toDigits e.natAbs

/-- The characters of a numeral; its exponent has a sign and no leading zeros. -/
def Numeral.write (n : Numeral) : List Char :=
  n.mantissa ++ exponentChars n.exponent

/-- A numeral without superfluous zeros or points: a point stands before a fraction, the fraction does
not end in a zero, and an exponent stands behind one digit other than zero and its fraction. -/
structure Numeral.IsTight (n : Numeral) : Prop extends n.IsWritten, n.IsStrict where
  last_ne_zero : n.fraction.getLast? ≠ some '0'
  normal : n.exponent ≠ none → n.whole.length = 1 ∧ n.whole ≠ ['0']

/-- The value of a decimal. -/
def toRat (d : Decimal) : ℚ :=
  d.digits * 10 ^ d.exponent

/-- The number with the given digits, of which the first one counts `10 ^ leading`. -/
def scientific (ds : List Char) (leading : Int) : ℚ :=
  ofDigits ds / 10 ^ (ds.length - 1) * 10 ^ leading

variable {ds : List Char} {leading : Int} {n : Numeral}

/-- Zeros at the end do not change the value. -/
theorem Extends.toRat_eq {long short : Decimal} (h : long.Extends short) :
    long.toRat = short.toRat := by
  obtain ⟨j, rfl⟩ := h
  have hten : (10 : ℚ) ≠ 0 := by norm_num
  simp only [toRat, Nat.cast_mul, Nat.cast_pow, Nat.cast_ofNat]
  rw [zpow_sub₀ hten, zpow_natCast]
  field_simp

/-- The value of digits that are placed, in scientific form. -/
theorem toRat_placed (hne : ds ≠ []) (leading : Int) :
    (placed ds leading).toRat = scientific ds leading := by
  have hten : (10 : ℚ) ≠ 0 := by norm_num
  have hlength : leading + 1 - (ds.length : Int) = leading - ((ds.length - 1 : Nat) : Int) := by
    have hpos := List.length_pos_iff.mpr hne
    omega
  simp only [toRat, placed, scientific, hlength]
  rw [zpow_sub₀ hten, zpow_natCast]
  field_simp

theorem spellsExponent_exponentChars (exponent : Option Int) :
    SpellsExponent (exponentChars exponent) exponent := by
  cases exponent with
  | none => exact .none
  | some e =>
    have hsign : IsSign [if e < 0 then '-' else '+'] ((if e < 0 then '-' else '+') == '-') := by
      split
      · exact .minus
      · exact .plus
    have hspells := SpellsExponent.some (.inl rfl : 'e' = 'e' ∨ 'e' = 'E') hsign
      (toDigits_ne_nil e.natAbs) isDigit_of_mem_toDigits
    rwa [signed_toDigits] at hspells

/-- A numeral that is written out is derived as itself. -/
theorem Numeral.IsWritten.spells (h : n.IsWritten) : Spells n.write n :=
  ⟨h, exponentChars n.exponent, spellsExponent_exponentChars n.exponent, rfl⟩

/-- Digits without zeros at their end do not end in one. -/
theorem getLast?_withoutZeros (ds : List Char) : (withoutZeros ds).getLast? ≠ some '0' := by
  intro hlast
  rw [withoutZeros, List.getLast?_reverse] at hlast
  have hzero := head?_dropWhile (p := fun d => decide (d = '0')) '0' hlast
  exact absurd hzero (by decide)

section Forms

variable {cs : List Char}

theorem getLast?_drop_ne_zero (hlast : ds.getLast? ≠ some '0') (k : Nat) :
    (ds.drop k).getLast? ≠ some '0' := by
  rw [List.getLast?_drop]
  split
  · exact (Option.some_ne_none '0').symm
  · exact hlast

/-- A layout of significant digits is tight if its parts are. -/
theorem LaysOut.isTight (h : LaysOut cs n ds leading) (hwhole : ∀ d ∈ n.whole, isDigit d = true)
    (hfraction : ∀ d ∈ n.fraction, isDigit d = true) (hpoint : n.point = false → n.fraction = [])
    (hlast : n.fraction.getLast? ≠ some '0')
    (hnormal : n.exponent ≠ none → n.whole.length = 1 ∧ n.whole ≠ ['0']) : n.IsTight where
  whole_digits := hwhole
  fraction_digits := hfraction
  some_digit := fun hnil => h.strict.whole_ne_nil hnil.1
  fraction_nil := hpoint
  toIsStrict := h.strict
  last_ne_zero := hlast
  normal := hnormal

/-- What is written positionally, without a fraction of whole numbers. -/
theorem positionalForm_tight (hds : IsSignificant ds) (hlast : ds.getLast? ≠ some '0')
    (leading : Int) :
    ∃ n : Numeral, positionalForm false ds leading = n.write ∧ n.IsTight ∧
      n.value.Extends (placed ds leading) ∧ n.exponent = none := by
  unfold positionalForm
  split
  · next hleading =>
    have hlays := laysOut_small hds hleading
    have hfraction : ∀ d ∈ List.replicate (-leading - 1).toNat '0' ++ ds, isDigit d = true :=
      fun d hd => (List.mem_append.mp hd).elim (isDigit_of_mem_zeros d) (hds.digits d)
    have htight := hlays.isTight (List.forall_mem_singleton.mpr rfl) hfraction Bool.noConfusion
      (by rwa [List.getLast?_append_of_ne_nil _ hds.ne_nil]) fun hnone => absurd rfl hnone
    exact ⟨_, by simp [Numeral.write, Numeral.mantissa, exponentChars], htight, hlays.value, rfl⟩
  · next hleading =>
    have hplaces : leading + 1 = (leading.toNat + 1 : Nat) := by omega
    -- Only digits that reach behind the point bring a point with them.
    cases hdrop : ds.drop (leading.toNat + 1) with
    | nil =>
      have hlays : LaysOut _ ⟨_, false, [], none⟩ ds leading :=
        laysOut_whole hds hplaces (List.drop_eq_nil_iff.mp hdrop)
      have htight := hlays.isTight (hds.append_zeros _).digits (fun _ hd => absurd hd List.not_mem_nil)
        (fun _ => rfl) (Option.some_ne_none '0').symm fun hnone => absurd rfl hnone
      exact ⟨_, by simp [hdrop, Numeral.write, Numeral.mantissa, exponentChars], htight,
        hlays.value, rfl⟩
    | cons d fraction =>
      have hlength : leading.toNat + 1 < ds.length := by
        rw [← Nat.not_le, ← List.drop_eq_nil_iff, hdrop]
        exact List.cons_ne_nil d fraction
      have hlays := laysOut_inside hds hplaces hlength
      have htight := hlays.isTight (hds.take _).digits
        (fun d hd => hds.digits d (List.mem_of_mem_drop hd)) Bool.noConfusion
        (getLast?_drop_ne_zero hlast _) fun hnone => absurd rfl hnone
      exact ⟨_, by simp [hdrop, Numeral.write, Numeral.mantissa, exponentChars], htight,
        hlays.value, rfl⟩

/-- What is written with an exponent. -/
theorem exponentForm_tight (hds : IsSignificant ds) (hlast : ds.getLast? ≠ some '0')
    (leading : Int) :
    ∃ n : Numeral, exponentForm ds leading = n.write ∧ n.IsTight ∧
      n.value.Extends (placed ds leading) ∧ n.exponent = some leading := by
  have hlays := laysOut_exponent hds leading
  have hpoint : (!(ds.drop 1).isEmpty) = false → ds.drop 1 = [] := by simp
  obtain ⟨d, rest, rfl⟩ := List.exists_cons_of_ne_nil hds.ne_nil
  have hnormal : [d].length = 1 ∧ [d] ≠ ['0'] :=
    ⟨rfl, fun hzero => hds.head_ne_zero (congrArg List.head? hzero)⟩
  have htight := hlays.isTight (hds.take 0).digits
    (fun d hd => hds.digits d (List.mem_of_mem_drop hd)) hpoint (getLast?_drop_ne_zero hlast 1)
    fun _ => hnormal
  refine ⟨_, ?_, htight, hlays.value, rfl⟩
  unfold exponentForm Numeral.write Numeral.mantissa exponentChars
  cases rest <;> simp

end Forms

/-- The digits of a number as its text shows them, and the exponent of the first of them. -/
def Layout.shown (layout : Layout) (magnitude : Nat) : List Char × Int :=
  significant (shortest layout.tie magnitude)

theorem Layout.isSignificant_shown (layout : Layout) {mantissa shift : Nat} (h : Canonical mantissa shift)
    (hne : mantissa <<< shift ≠ 0) : IsSignificant (layout.shown (mantissa <<< shift)).1 :=
  isSignificant_withoutZeros (digits_shortest_ne_zero layout.tie h hne)

/-- A layout without fractions of whole numbers writes the shortest digits of a number, with their exact
value and nothing superfluous. -/
theorem Layout.write_tight {layout : Layout} (hplain : layout.wholeFraction = false)
    {mantissa shift : Nat} (h : Canonical mantissa shift) (hne : mantissa <<< shift ≠ 0) :
    ∃ n : Numeral, layout.write (mantissa <<< shift) = n.write ∧ n.IsTight ∧
      n.value.Extends (placed (layout.shown (mantissa <<< shift)).1
        (layout.shown (mantissa <<< shift)).2) ∧
      (n.exponent = none ↔ layout.positional (layout.shown (mantissa <<< shift)).2 = true) := by
  have hds := layout.isSignificant_shown h hne
  have hlast : (layout.shown (mantissa <<< shift)).1.getLast? ≠ some '0' :=
    getLast?_withoutZeros _
  have hwrite : layout.write (mantissa <<< shift) =
      if layout.positional (layout.shown (mantissa <<< shift)).2 then
        positionalForm layout.wholeFraction (layout.shown (mantissa <<< shift)).1
          (layout.shown (mantissa <<< shift)).2
      else exponentForm (layout.shown (mantissa <<< shift)).1
        (layout.shown (mantissa <<< shift)).2 := by
    unfold Layout.write
    rw [if_neg hne]
    rfl
  rw [hwrite, hplain]
  generalize layout.shown (mantissa <<< shift) = shown at hds hlast ⊢
  cases hpositional : layout.positional shown.2 with
  | true =>
    obtain ⟨n, htext, htight, hvalue, hnone⟩ := positionalForm_tight hds hlast shown.2
    rw [if_pos rfl]
    exact ⟨n, htext, htight, hvalue, iff_of_true hnone rfl⟩
  | false =>
    obtain ⟨n, htext, htight, hvalue, hsome⟩ := exponentForm_tight hds hlast shown.2
    rw [if_neg Bool.false_ne_true]
    refine ⟨n, htext, htight, hvalue, ?_⟩
    rw [hsome]
    exact iff_of_false (Option.some_ne_none _) Bool.false_ne_true

end Questlog.Decimal
