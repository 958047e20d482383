import Questlog.Decimal.Layout
import Questlog.Proofs.Decimal.Rendered
import Questlog.Proofs.Decimal.Shortest

namespace Questlog.Decimal

open Binary64 (Canonical)

variable {ds : List Char} {leading : Int} {wholeFraction : Bool}

/-- Digits as they are laid out: some, of which the first is no zero. -/
structure IsSignificant (ds : List Char) : Prop where
  ne_nil : ds ≠ []
  digits : ∀ d ∈ ds, isDigit d = true
  head_ne_zero : ds.head? ≠ some '0'

/-- The decimal that digits are when the first of them stands at `leading`. -/
def placed (ds : List Char) (leading : Int) : Decimal :=
  ⟨ofDigits ds, leading + 1 - ds.length⟩

/-- The same decimal with zeros at the end of the digits. -/
def Extends (long short : Decimal) : Prop :=
  ∃ j : Nat, long = ⟨short.digits * 10 ^ j, short.exponent - j⟩

/-- Zeros at the end do not change the double. -/
theorem Extends.toBinary64_eq {long short : Decimal} (h : long.Extends short) (negative : Bool) :
    long.toBinary64 negative = short.toBinary64 negative := by
  obtain ⟨j, rfl⟩ := h
  exact toBinary64_shift negative short.digits short.exponent j

theorem Extends.refl (d : Decimal) : d.Extends d :=
  ⟨0, by simp⟩

section Significant

/-- The digits without the zeros at their end. -/
def withoutZeros (ds : List Char) : List Char :=
  (ds.reverse.dropWhile (· = '0')).reverse

/-- What is dropped from the digits are zeros at their end. -/
theorem withoutZeros_append (ds : List Char) :
    ∃ j, ds = withoutZeros ds ++ List.replicate j '0' := by
  have hsplit := List.takeWhile_append_dropWhile (p := (· = '0')) (l := ds.reverse)
  have hzeros : ∀ d ∈ ds.reverse.takeWhile (· = '0'), d = '0' := by
    intro d hd
    exact of_decide_eq_true (List.all_eq_true.mp List.all_takeWhile d hd)
  refine ⟨(ds.reverse.takeWhile (· = '0')).length, ?_⟩
  rw [← List.reverse_replicate, ← List.eq_replicate_of_mem hzeros, withoutZeros,
    ← List.reverse_append, hsplit, List.reverse_reverse]

/-- What remains of the digits of a number but zero is significant. -/
theorem isSignificant_withoutZeros {n : Nat} (hn : n ≠ 0) :
    IsSignificant (withoutZeros (toDigits n)) := by
  obtain ⟨j, hsplit⟩ := withoutZeros_append (toDigits n)
  have hne : withoutZeros (toDigits n) ≠ [] := by
    intro hnil
    rw [hnil, List.nil_append] at hsplit
    have hvalue := ofDigits_toDigits n
    rw [hsplit, ofDigits_zeros] at hvalue
    exact hn hvalue.symm
  refine ⟨hne, fun d hd => ?_, ?_⟩
  · apply isDigit_of_mem_toDigits (n := n) d
    rw [hsplit]
    exact List.mem_append_left _ hd
  · have hhead := head?_toDigits_ne_zero hn
    rw [hsplit] at hhead
    obtain ⟨d, rest, hcons⟩ := List.exists_cons_of_ne_nil hne
    rw [hcons] at hhead ⊢
    exact hhead

/-- A decimal is its significant digits in their place, with zeros at the end. -/
theorem extends_significant (d : Decimal) :
    d.Extends (placed (significant d).1 (significant d).2) := by
  obtain ⟨j, hsplit⟩ := withoutZeros_append (toDigits d.digits)
  have hlength := congrArg List.length hsplit
  rw [List.length_append, List.length_replicate] at hlength
  have hdigits : d.digits = ofDigits (withoutZeros (toDigits d.digits)) * 10 ^ j := by
    rw [← ofDigits_append_zeros, ← hsplit, ofDigits_toDigits]
  have hexponent : d.exponent =
      d.exponent + (toDigits d.digits).length - 1 + 1 -
        (withoutZeros (toDigits d.digits)).length - j := by
    omega
  obtain ⟨digits, exponent⟩ := d
  exact ⟨j, congr (congrArg Decimal.mk hdigits) hexponent⟩

end Significant

/-- What a text in one of the two forms is read as. -/
structure LaysOut (cs : List Char) (n : Numeral) (ds : List Char) (leading : Int) : Prop where
  renders : Renders cs n
  strict : n.IsStrict
  value : n.value.Extends (placed ds leading)

theorem isDigit_of_mem_zeros {k : Nat} : ∀ d ∈ List.replicate k '0', isDigit d = true := by
  intro d hd
  rw [List.eq_of_mem_replicate hd]
  rfl

theorem IsSignificant.append_zeros (hds : IsSignificant ds) (k : Nat) :
    IsSignificant (ds ++ List.replicate k '0') := by
  obtain ⟨d, ds, rfl⟩ := List.exists_cons_of_ne_nil hds.ne_nil
  refine ⟨List.cons_ne_nil d _, fun c hc => ?_, hds.head_ne_zero⟩
  exact (List.mem_append.mp hc).elim (hds.digits c) (isDigit_of_mem_zeros c)

/-- Leaving digits out behind the first one keeps the others significant. -/
theorem IsSignificant.take (hds : IsSignificant ds) (k : Nat) : IsSignificant (ds.take (k + 1)) := by
  obtain ⟨d, ds, rfl⟩ := List.exists_cons_of_ne_nil hds.ne_nil
  exact ⟨List.cons_ne_nil d _, fun c hc => hds.digits c (List.mem_of_mem_take hc),
    hds.head_ne_zero⟩

/-- A numeral whose first digit is no zero is strict if digits follow its point. -/
theorem IsSignificant.isStrict (hds : IsSignificant ds) {point : Bool} {fraction : List Char}
    (hfraction : point = true → fraction ≠ []) (exponent : Option Int) :
    Numeral.IsStrict ⟨ds, point, fraction, exponent⟩ :=
  ⟨hds.ne_nil, fun h => absurd h hds.head_ne_zero, hfraction⟩

/-- Digits behind the point, with zeros between. -/
theorem laysOut_small (hds : IsSignificant ds) (hleading : leading < 0) :
    LaysOut ('0' :: '.' :: List.replicate (-leading - 1).toNat '0' ++ ds)
      ⟨['0'], true, List.replicate (-leading - 1).toNat '0' ++ ds, none⟩ ds leading := by
  have hfraction : ∀ d ∈ List.replicate (-leading - 1).toNat '0' ++ ds, isDigit d = true := by
    intro d hd
    rcases List.mem_append.mp hd with hzero | hdigit
    · exact isDigit_of_mem_zeros d hzero
    · exact hds.digits d hdigit
  have hwhole : ∀ d ∈ ['0'], isDigit d = true := List.forall_mem_singleton.mpr rfl
  refine ⟨?_, ⟨List.cons_ne_nil _ _, fun _ => rfl, fun _ => ?_⟩, ?_⟩
  · exact (rendersFixed_point hwhole hfraction).renders rfl
  · exact List.append_ne_nil_of_right_ne_nil _ hds.ne_nil
  · refine ⟨0, ?_⟩
    have hvalue : ofDigits (['0'] ++ (List.replicate (-leading - 1).toNat '0' ++ ds)) =
        ofDigits ds := by
      rw [ofDigits_append, ofDigits_zeros_append]
      simp [ofDigits]
    simp only [Numeral.value, hvalue, placed, Option.getD_none, List.length_append,
      List.length_replicate]
    simp
    omega

/-- Digits and zeros up to the point, with a zero behind it where one is asked for. -/
theorem laysOut_whole (hds : IsSignificant ds) {places : Nat} (hplaces : leading + 1 = places)
    (hlength : ds.length ≤ places) :
    LaysOut (ds ++ List.replicate (places - ds.length) '0' ++
        if wholeFraction then ['.', '0'] else [])
      ⟨ds ++ List.replicate (places - ds.length) '0', wholeFraction,
        if wholeFraction then ['0'] else [], none⟩ ds leading := by
  have hwhole := hds.append_zeros (places - ds.length)
  cases wholeFraction with
  | false =>
    refine ⟨?_, hwhole.isStrict ?_ none, ?_⟩
    · rw [if_neg Bool.false_ne_true, List.append_nil]
      exact (rendersFixed_whole hwhole.digits).renders rfl
    · exact fun h => absurd h Bool.false_ne_true
    · refine ⟨places - ds.length, ?_⟩
      simp only [Numeral.value, if_neg Bool.false_ne_true, List.append_nil, ofDigits_append_zeros,
        placed]
      simp
      omega
  | true =>
    refine ⟨?_, hwhole.isStrict ?_ none, ?_⟩
    · rw [if_pos rfl]
      exact (rendersFixed_point hwhole.digits (isDigit_of_mem_zeros (k := 1))).renders rfl
    · exact fun _ => List.cons_ne_nil _ _
    · refine ⟨places - ds.length + 1, ?_⟩
      have hvalue := ofDigits_append_zeros ds (places - ds.length + 1)
      rw [List.replicate_succ', ← List.append_assoc] at hvalue
      simp only [Numeral.value, if_pos, hvalue, placed]
      simp
      omega

/-- Digits with a point behind some of them have the value of the digits, placed. -/
theorem extends_split (ds : List Char) {k : Nat} (hk : k ≤ ds.length) (point : Bool)
    {exponent : Option Int} (hexponent : leading + 1 = exponent.getD 0 + k) :
    (⟨ds.take k, point, ds.drop k, exponent⟩ : Numeral).value.Extends (placed ds leading) := by
  refine ⟨0, ?_⟩
  simp only [Numeral.value, List.take_append_drop, placed, List.length_drop]
  simp
  omega

/-- A point among the digits. -/
theorem laysOut_inside (hds : IsSignificant ds) {k : Nat} (hplaces : leading + 1 = (k + 1 : Nat))
    (hlength : k + 1 < ds.length) :
    LaysOut (ds.take (k + 1) ++ '.' :: ds.drop (k + 1))
      ⟨ds.take (k + 1), true, ds.drop (k + 1), none⟩ ds leading := by
  have hwhole := hds.take k
  have hfraction : ∀ d ∈ ds.drop (k + 1), isDigit d = true :=
    fun d hd => hds.digits d (List.mem_of_mem_drop hd)
  have hne : ds.drop (k + 1) ≠ [] :=
    fun hnil => absurd (List.drop_eq_nil_iff.mp hnil) (Nat.not_le_of_lt hlength)
  constructor
  · exact (rendersFixed_point hwhole.digits hfraction).renders rfl
  · exact hwhole.isStrict (fun _ => hne) none
  · apply extends_split ds (Nat.le_of_lt hlength) true
    rw [Option.getD_none, Int.zero_add, hplaces]

/-- The positional form of digits lays them out, with a point if a fraction is asked for. -/
theorem laysOut_positional (wholeFraction : Bool) (hds : IsSignificant ds) (leading : Int) :
    ∃ n, LaysOut (positionalForm wholeFraction ds leading) n ds leading ∧
      (wholeFraction = true → n.point = true) := by
  unfold positionalForm
  split
  · next hleading => exact ⟨_, laysOut_small hds hleading, fun _ => rfl⟩
  · next hleading =>
    have hplaces : leading + 1 = (leading.toNat + 1 : Nat) := by omega
    cases hdrop : ds.drop (leading.toNat + 1) with
    | nil =>
      simp only [hdrop]
      exact ⟨_, laysOut_whole hds hplaces (List.drop_eq_nil_iff.mp hdrop), fun h => h⟩
    | cons d fraction =>
      have hlength : leading.toNat + 1 < ds.length := by
        apply Nat.lt_of_not_le
        intro hle
        rw [List.drop_eq_nil_of_le hle] at hdrop
        cases hdrop
      have hinside := laysOut_inside hds hplaces hlength
      rw [hdrop] at hinside
      simp only [hdrop]
      exact ⟨_, hinside, fun _ => rfl⟩

/-- The sign and the digits of an exponent have its value. -/
theorem signed_toDigits (leading : Int) :
    Binary64.signed ((if leading < 0 then '-' else '+') == '-')
      (ofDigits (toDigits leading.natAbs)) = leading := by
  rw [ofDigits_toDigits]
  split
  · change -(leading.natAbs : Int) = leading
    omega
  · change (leading.natAbs : Int) = leading
    omega

/-- An exponent behind a fixed form, sign and all. -/
theorem RendersFixed.renders_signed {cs whole fraction : List Char} {point : Bool}
    (h : RendersFixed cs ⟨whole, point, fraction, none⟩) (leading : Int) :
    Renders (cs ++ 'e' :: (if leading < 0 then '-' else '+') :: toDigits leading.natAbs)
      ⟨whole, point, fraction, some leading⟩ := by
  have hsign : (if leading < 0 then '-' else '+') = '-' ∨
      (if leading < 0 then '-' else '+') = '+' := by
    split
    · exact .inl rfl
    · exact .inr rfl
  have hrenders := h.renders_exponent rfl hsign (toDigits_ne_nil leading.natAbs)
    isDigit_of_mem_toDigits
  rw [signed_toDigits] at hrenders
  exact hrenders

/-- One digit, a point before the others, and the exponent. -/
theorem laysOut_exponent (hds : IsSignificant ds) (leading : Int) :
    LaysOut (exponentForm ds leading)
      ⟨ds.take 1, !(ds.drop 1).isEmpty, ds.drop 1, some leading⟩ ds leading := by
  have hwhole := hds.take 0
  have hpos : 1 ≤ ds.length := List.length_pos_iff.mpr hds.ne_nil
  have hfraction : ∀ d ∈ ds.drop 1, isDigit d = true :=
    fun d hd => hds.digits d (List.mem_of_mem_drop hd)
  have hvalue : ∀ point, (⟨ds.take 1, point, ds.drop 1, some leading⟩ : Numeral).value.Extends
      (placed ds leading) := fun point => extends_split ds hpos point rfl
  unfold exponentForm
  cases hdrop : ds.drop 1 with
  | nil =>
    rw [hdrop] at hvalue
    refine ⟨?_, hwhole.isStrict ?_ _, hvalue false⟩
    · simpa using (rendersFixed_whole hwhole.digits).renders_signed leading
    · exact fun h => absurd h Bool.false_ne_true
  | cons d fraction =>
    rw [hdrop] at hvalue hfraction
    refine ⟨?_, hwhole.isStrict ?_ _, hvalue true⟩
    · simpa using (rendersFixed_point hwhole.digits hfraction).renders_signed leading
    · exact fun _ => List.cons_ne_nil d fraction

/-- Zero is written with the mantissa zero. -/
theorem eq_zero_of_canonical {mantissa shift : Nat} (h : Canonical mantissa shift)
    (hzero : mantissa <<< shift = 0) : mantissa = 0 ∧ shift = 0 := by
  rw [Nat.shiftLeft_eq] at hzero
  have hpos := Nat.two_pow_pos shift
  have hmantissa : mantissa = 0 := (Nat.mul_eq_zero.mp hzero).resolve_right (by omega)
  obtain ⟨-, -, hlarge⟩ := h
  omega

/-- A zero is a numeral of its own, of either sign. -/
theorem renders_zero (wholeFraction negative : Bool) :
    ∃ n : Numeral, Renders (if wholeFraction then ['0', '.', '0'] else ['0']) n ∧ n.IsStrict ∧
      (wholeFraction = true → n.point = true ∨ n.exponent ≠ none) ∧
      n.value.toBinary64 negative = .zero negative := by
  have hdigit : ∀ d ∈ ['0'], isDigit d = true := List.forall_mem_singleton.mpr rfl
  have hne : ['0'] ≠ [] := List.cons_ne_nil _ _
  cases wholeFraction with
  | false =>
    refine ⟨⟨['0'], false, [], none⟩, (rendersFixed_whole hdigit).renders rfl,
      ⟨hne, fun _ => rfl, ?_⟩, ?_, if_pos rfl⟩
    · exact fun h => absurd h Bool.false_ne_true
    · exact fun h => absurd h Bool.false_ne_true
  | true =>
    exact ⟨⟨['0'], true, ['0'], none⟩, (rendersFixed_point hdigit hdigit).renders rfl,
      ⟨hne, fun _ => rfl, fun _ => hne⟩, fun _ => .inl rfl, if_pos rfl⟩

/-- What a layout writes for a finite number is read as that number with either sign. Either form of
the layout has the value of the digits it lays out, with zeros at their end at most. -/
theorem Layout.renders_write (layout : Layout) {mantissa shift : Nat} (h : Canonical mantissa shift)
    (negative : Bool) :
    ∃ n : Numeral, Renders (layout.write (mantissa <<< shift)) n ∧ n.IsStrict ∧
      (layout.wholeFraction = true → n.point = true ∨ n.exponent ≠ none) ∧
      n.value.toBinary64 negative = .finite negative mantissa shift h := by
  unfold Layout.write
  split
  · next hzero =>
    obtain ⟨rfl, rfl⟩ := eq_zero_of_canonical h hzero
    exact renders_zero layout.wholeFraction negative
  · next hne =>
    have hds : IsSignificant (significant (shortest layout.tie (mantissa <<< shift))).1 :=
      isSignificant_withoutZeros (digits_shortest_ne_zero layout.tie h hne)
    have hplaced :
        (placed (significant (shortest layout.tie (mantissa <<< shift))).1
          (significant (shortest layout.tie (mantissa <<< shift))).2).toBinary64 negative =
            .finite negative mantissa shift h := by
      rw [← (extends_significant _).toBinary64_eq, toBinary64_shortest layout.tie negative h]
    simp only
    split
    · obtain ⟨n, hlays, hpoint⟩ := laysOut_positional layout.wholeFraction hds
        (significant (shortest layout.tie (mantissa <<< shift))).2
      exact ⟨n, hlays.renders, hlays.strict, fun hfraction => .inl (hpoint hfraction),
        (hlays.value.toBinary64_eq negative).trans hplaced⟩
    · have hlays := laysOut_exponent hds (significant (shortest layout.tie (mantissa <<< shift))).2
      exact ⟨_, hlays.renders, hlays.strict, fun _ => .inr (Option.some_ne_none _),
        (hlays.value.toBinary64_eq negative).trans hplaced⟩

end Questlog.Decimal
