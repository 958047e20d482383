import Mathlib
import Questlog.Operand.Coercion
import Questlog.Proofs.Decimal.Spelling
import Questlog.Proofs.Decimal.Value

namespace Questlog

/-- Rounding never gives NaN. -/
theorem Binary64.nearest_ne_nan (negative : Bool) (num den : Nat) : nearest negative num den ≠ nan := by
  have hpack : ∀ mantissa shift, pack negative mantissa shift ≠ nan := by
    intro mantissa shift
    unfold pack
    split <;> exact Binary64.noConfusion
  simp only [nearest]
  split
  · exact hpack _ _
  · exact hpack _ _

theorem Decimal.toBinary64_ne_nan (negative : Bool) (d : Decimal) : d.toBinary64 negative ≠ .nan := by
  rw [toBinary64_eq_nearest]
  exact Binary64.nearest_ne_nan _ _ _

theorem Text.hexDigit?_lt {c : Char} {d : Nat} (h : hexDigit? c = some d) : d < 16 := by
  have hnine : '9'.toNat = 57 := rfl
  have hlower : 'f'.toNat = 102 := rfl
  have hupper : 'F'.toNat = 70 := rfl
  unfold hexDigit? at h
  split_ifs at h with hdigit hsmall hcapital
  · have hle : c.toNat ≤ '9'.toNat := hdigit.2
    have hzero : '0'.toNat = 48 := rfl
    obtain rfl := Option.some.inj h
    omega
  · have hle : c.toNat ≤ 'f'.toNat := hsmall.2
    have ha : 'a'.toNat = 97 := rfl
    obtain rfl := Option.some.inj h
    omega
  · have hle : c.toNat ≤ 'F'.toNat := hcapital.2
    have hA : 'A'.toNat = 65 := rfl
    obtain rfl := Option.some.inj h
    omega

/-- A run of characters has a hexadecimal value just when all of them are hexadecimal digits. -/
theorem Text.exists_ofBase?_iff {digits : List Char} :
    (∃ value, ofBase? 16 digits = some value) ↔ ∀ d ∈ digits, (hexDigit? d).isSome := by
  unfold ofBase?
  generalize 0 = start
  induction digits generalizing start with
  | nil => simp
  | cons d digits ih =>
    rw [List.foldlM_cons, List.forall_mem_cons]
    cases hdigit : hexDigit? d with
    | none => simp
    | some value =>
      rw [← ih (16 * start + value)]
      simp [hexDigit?_lt hdigit]

namespace Operand

open Decimal (IsNumeralChar IsSign Spells chars_of_decimal)

/-- The letter behind the zero of a hexadecimal number. -/
def IsHexMark (c : Char) : Prop :=
  c = 'x' ∨ c = 'X'

/-- How numbers are written: not at all for zero, `Infinity` with an optional sign, hexadecimal digits
behind `0x`, or a decimal with an optional sign. -/
inductive IsNumeric : List Char → Prop
  | blank : IsNumeric []
  | infinity {sign : List Char} {negative : Bool} : IsSign sign negative →
    IsNumeric (sign ++ "Infinity".toList)
  | hexadecimal {mark : Char} {digits : List Char} : IsHexMark mark → digits ≠ [] →
    (∀ d ∈ digits, (Text.hexDigit? d).isSome) → IsNumeric ('0' :: mark :: digits)
  | decimal {sign cs : List Char} {negative : Bool} {n : Decimal.Numeral} : IsSign sign negative →
    Spells cs n → IsNumeric (sign ++ cs)

variable {cs digits rest sign body : List Char} {c mark : Char} {negative : Bool}
  {n : Decimal.Numeral}

section Letters

theorem isForeignLetter_iff :
    isForeignLetter c = true ↔
      ((65 ≤ c.toNat ∧ c.toNat ≤ 90) ∨ (97 ≤ c.toNat ∧ c.toNat ≤ 122)) ∧
        c.toNat ≠ 101 ∧ c.toNat ≠ 69 := by
  simp [isForeignLetter, Char.isAlpha, Char.isUpper, Char.isLower, UInt32.le_iff_toNat_le,
    ← Char.toNat_val, ← Char.toNat_inj, and_assoc]

theorem isForeignLetter_of_toLower (h : c.toLower = 'n') : isForeignLetter c = true := by
  rw [isForeignLetter_iff]
  unfold Char.toLower at h
  split at h
  · next hupper =>
    have hne : c.toNat ≠ 69 := by
      intro hmark
      obtain rfl : c = 'E' := Char.toNat_inj.mp hmark
      cases h
    have hlower : 65 ≤ c.toNat := hupper.1
    have hbound : c.toNat ≤ 90 := hupper.2
    omega
  · subst h
    decide

/-- The letters of a decimal are the marks of its exponent. -/
theorem isForeignLetter_of_isNumeralChar (h : IsNumeralChar c) : isForeignLetter c = false := by
  rcases h with hdigit | rfl | rfl | rfl | rfl | rfl
  · have hrange := Decimal.isDigit_iff.mp hdigit
    rw [Bool.eq_false_iff, ne_eq, isForeignLetter_iff]
    omega
  all_goals rfl

theorem isForeignLetter_of_isHexMark (hmark : IsHexMark mark) : isForeignLetter mark = true := by
  rcases hmark with rfl | rfl <;> rfl

end Letters

section Branches

/-- The words for infinity and NaN have a letter that no decimal has. -/
theorem ofChars?_of_noForeign (h : ∀ c ∈ (Decimal.readSign cs).2, isForeignLetter c = false) :
    Binary64.ofChars? cs =
      (Decimal.ofChars? (Decimal.readSign cs).2).map (·.toBinary64 (Decimal.readSign cs).1) := by
  -- Every such word has an `n`, in small letters or in capitals.
  have hword : ∀ word : String, 'n' ∈ word.toList →
      String.ofList (Binary64.lowerAscii (Decimal.readSign cs).2) ≠ word := by
    rintro word hmem rfl
    rw [String.toList_ofList, Binary64.lowerAscii] at hmem
    obtain ⟨c, hc, hlower⟩ := List.mem_map.mp hmem
    have hforeign := h c hc
    rw [isForeignLetter_of_toLower hlower] at hforeign
    cases hforeign
  unfold Binary64.ofChars?
  dsimp only
  cases Decimal.ofChars? (Decimal.readSign cs).2 with
  | some d => rfl
  | none =>
    rw [if_neg, if_neg (hword "nan" (by decide))]
    · rfl
    · rintro (hinf | hinfinity)
      · exact hword "inf" (by decide) hinf
      · exact hword "infinity" (by decide) hinfinity

/-- Text without foreign letters is no word and not hexadecimal, so it is read as a decimal. -/
theorem numberOfTrimmed_of_noForeign (hne : cs ≠ []) (h : ∀ c ∈ cs, isForeignLetter c = false) :
    numberOfTrimmed cs = (Binary64.ofChars? cs).getD .nan := by
  have hletter : ∀ c ∈ cs, isForeignLetter c ≠ true := fun c hc => Bool.eq_false_iff.mp (h c hc)
  have hany : cs.any isForeignLetter = false := by
    simpa using h
  unfold numberOfTrimmed
  rw [if_neg hne, if_neg, if_neg]
  · split
    · exact absurd rfl (hletter 'x' (by simp))
    · exact absurd rfl (hletter 'X' (by simp))
    · rw [if_neg (by simp [hany])]
  · rintro rfl
    exact absurd rfl (hletter 'I' (by decide))
  · rintro (rfl | rfl)
    · exact absurd rfl (hletter 'I' (by decide))
    · exact absurd rfl (hletter 'I' (by decide))

end Branches

section Hexadecimal

/-- The number that hexadecimal digits without a sign denote. -/
def hexValue (digits : List Char) : Binary64 :=
  match digits, Text.ofBase? 16 digits with
  | _ :: _, some value => if value < 0x10000000000000000 then .ofNat value else .nan
  | _, _ => .nan

/-- Without a plus sign, hexadecimal digits are read as their value. -/
theorem hexNumber_bare (h : digits.head? ≠ some '+') : hexNumber digits = hexValue digits := by
  unfold hexNumber hexValue
  split
  · next hplus => exact absurd rfl h
  · rfl

/-- Hexadecimal digits have a value if it fits into 64 bits. -/
theorem hexValue_ne_nan_iff :
    hexValue digits ≠ .nan ↔
      digits ≠ [] ∧ ∃ value, Text.ofBase? 16 digits = some value ∧ value < 2 ^ 64 := by
  unfold hexValue
  split
  · next d ds value hvalue =>
    split
    · next hlt =>
      refine iff_of_true (Binary64.nearest_ne_nan _ _ _) ⟨List.cons_ne_nil d ds, value, hvalue, hlt⟩
    · next hvast =>
      refine iff_of_false (fun h => h rfl) ?_
      rintro ⟨-, other, hother, hlt⟩
      rw [hvalue] at hother
      obtain rfl := Option.some.inj hother
      exact hvast hlt
  · next hother =>
    refine iff_of_false (fun h => h rfl) ?_
    rintro ⟨hne, value, hvalue, -⟩
    obtain ⟨d, ds, rfl⟩ := List.exists_cons_of_ne_nil hne
    exact hother d ds value rfl hvalue

/-- What stands behind `0x` is a number if it is digits of a value below `2 ^ 64`, after an optional
plus sign. -/
theorem hexNumber_ne_nan_iff :
    hexNumber rest ≠ .nan ↔
      ∃ digits value, (rest = digits ∨ rest = '+' :: digits) ∧ digits ≠ [] ∧
        Text.ofBase? 16 digits = some value ∧ value < 2 ^ 64 := by
  constructor
  · intro h
    by_cases hplus : rest.head? = some '+'
    · obtain ⟨digits, rfl⟩ := List.head?_eq_some_iff.mp hplus
      obtain ⟨hne, value, hvalue⟩ := hexValue_ne_nan_iff.mp h
      exact ⟨digits, value, .inr rfl, hne, hvalue⟩
    · rw [hexNumber_bare hplus] at h
      obtain ⟨hne, value, hvalue⟩ := hexValue_ne_nan_iff.mp h
      exact ⟨rest, value, .inl rfl, hne, hvalue⟩
  · rintro ⟨digits, value, rfl | rfl, hne, hvalue, hlt⟩
    · rw [hexNumber_bare]
      · exact hexValue_ne_nan_iff.mpr ⟨hne, value, hvalue, hlt⟩
      · intro hplus
        obtain ⟨ds, rfl⟩ := List.head?_eq_some_iff.mp hplus
        have hdigit := Text.exists_ofBase?_iff.mp ⟨value, hvalue⟩ '+' List.mem_cons_self
        cases hdigit
    · exact hexValue_ne_nan_iff.mpr ⟨hne, value, hvalue, hlt⟩

end Hexadecimal

/-- Behind the mark the digits are hexadecimal. -/
theorem numberOfTrimmed_hexadecimal (hmark : IsHexMark mark) :
    numberOfTrimmed ('0' :: mark :: rest) = hexNumber rest := by
  have hword : ∀ word : String, word.toList.head? ≠ some '0' → '0' :: mark :: rest ≠ word.toList := by
    intro word hhead heq
    rw [← heq] at hhead
    exact hhead rfl
  unfold numberOfTrimmed
  rw [if_neg (List.cons_ne_nil _ _), if_neg, if_neg (hword "-Infinity" (by decide))]
  · rcases hmark with rfl | rfl <;> rfl
  · rintro (hinfinity | hplus)
    · exact hword "Infinity" (by decide) hinfinity
    · exact hword "+Infinity" (by decide) hplus

section Decimals

/-- A decimal with an optional sign is read as the number that is written. -/
theorem numberOfTrimmed_decimal (hsign : IsSign sign negative) (h : Spells body n) :
    numberOfTrimmed (sign ++ body) = n.value.toBinary64 negative := by
  have hne : sign ++ body ≠ [] := List.append_ne_nil_of_right_ne_nil sign h.ne_nil
  have hread : Decimal.readSign (sign ++ body) = (negative, body) :=
    Decimal.readSign_append hsign h.head_ne_sign
  have hbody : ∀ c ∈ (Decimal.readSign (sign ++ body)).2, isForeignLetter c = false := by
    rw [hread]
    exact fun c hc => isForeignLetter_of_isNumeralChar (h.chars c hc)
  have hletter : ∀ c ∈ sign ++ body, isForeignLetter c = false :=
    fun c hc => isForeignLetter_of_isNumeralChar (chars_of_decimal hsign h c hc)
  rw [numberOfTrimmed_of_noForeign hne hletter, ofChars?_of_noForeign hbody, hread]
  simp only [h.ofChars?_eq, Option.map_some, Option.getD_some]

end Decimals

/-- Hexadecimal digits with a value that does not fit in 64 bits. -/
def IsVast (cs : List Char) : Prop :=
  ∃ mark digits value, IsHexMark mark ∧ cs = '0' :: mark :: digits ∧
    Text.ofBase? 16 digits = some value ∧ 2 ^ 64 ≤ value

/-- Hexadecimal digits that fit in 64 bits, with a plus sign between the mark and the digits. -/
def IsPlusHex (cs : List Char) : Prop :=
  ∃ mark digits value, IsHexMark mark ∧ cs = '0' :: mark :: '+' :: digits ∧ digits ≠ [] ∧
    Text.ofBase? 16 digits = some value ∧ value < 2 ^ 64

theorem not_isVast_infinity (hsign : IsSign sign negative) :
    ¬ IsVast (sign ++ "Infinity".toList) := by
  rintro ⟨mark, digits, value, -, hcs, -⟩
  cases hsign <;> simp at hcs

/-- No decimal is vast. -/
theorem not_isVast_decimal (hsign : IsSign sign negative) (h : Spells body n) :
    ¬ IsVast (sign ++ body) := by
  rintro ⟨mark, digits, value, hmark, hcs, -⟩
  have hmem : mark ∈ sign ++ body := by simp [hcs]
  have hletter := isForeignLetter_of_isNumeralChar (chars_of_decimal hsign h mark hmem)
  rw [isForeignLetter_of_isHexMark hmark] at hletter
  cases hletter

/-- What is read behind a mark is written as a number or has the plus sign. -/
theorem isNumeric_of_hexNumber (hmark : IsHexMark mark) (h : hexNumber rest ≠ .nan) :
    (IsNumeric ('0' :: mark :: rest) ∧ ¬ IsVast ('0' :: mark :: rest)) ∨
      IsPlusHex ('0' :: mark :: rest) := by
  obtain ⟨digits, value, hrest, hne, hvalue, hlt⟩ := hexNumber_ne_nan_iff.mp h
  rcases hrest with rfl | rfl
  · refine .inl ⟨.hexadecimal hmark hne (Text.exists_ofBase?_iff.mp ⟨value, hvalue⟩), ?_⟩
    rintro ⟨_, digits, other, -, hcs, hother, hle⟩
    obtain ⟨-, hcs⟩ := List.cons.inj hcs
    obtain ⟨-, rfl⟩ := List.cons.inj hcs
    rw [hvalue] at hother
    obtain rfl := Option.some.inj hother
    exact Nat.not_lt_of_le hle hlt
  · exact .inr ⟨mark, digits, value, hmark, rfl, hne, hvalue, hlt⟩

/-- What is read as a decimal is written as a number. -/
theorem isNumeric_of_ofChars? (hletter : ∀ c ∈ cs, isForeignLetter c = false)
    (h : Binary64.ofChars? cs ≠ none) : IsNumeric cs ∧ ¬ IsVast cs := by
  obtain ⟨sign, hsign, hsplit⟩ := Decimal.isSign_readSign cs
  have hbody : ∀ c ∈ (Decimal.readSign cs).2, isForeignLetter c = false := by
    intro c hc
    apply hletter
    rw [hsplit]
    exact List.mem_append_right sign hc
  rw [ofChars?_of_noForeign hbody, ne_eq, Option.map_eq_none_iff] at h
  obtain ⟨d, hd⟩ := Option.ne_none_iff_exists'.mp h
  obtain ⟨n, hspells, -⟩ := Decimal.ofChars?_eq_some_iff.mp hd
  rw [hsplit]
  exact ⟨.decimal hsign hspells, not_isVast_decimal hsign hspells⟩

/-- What is read as a number is written as one, save for the plus sign in front of hexadecimal
digits. -/
theorem isNumeric_of_ne_nan :
    numberOfTrimmed cs ≠ .nan → (IsNumeric cs ∧ ¬ IsVast cs) ∨ IsPlusHex cs := by
  fun_cases numberOfTrimmed cs with
  | case1 =>
    refine fun _ => .inl ⟨.blank, ?_⟩
    rintro ⟨mark, digits, value, -, hcs, -⟩
    cases hcs
  | case2 cs hne hword =>
    intro _
    rcases hword with rfl | rfl
    · exact .inl ⟨.infinity .none, not_isVast_infinity .none⟩
    · exact .inl ⟨.infinity .plus, not_isVast_infinity .plus⟩
  | case3 => exact fun _ => .inl ⟨.infinity .minus, not_isVast_infinity .minus⟩
  | case4 rest => exact isNumeric_of_hexNumber (.inl rfl)
  | case5 rest => exact isNumeric_of_hexNumber (.inr rfl)
  | case6 cs hne _ _ hforeign =>
    rw [if_pos hforeign]
    exact fun h => absurd rfl h
  | case7 cs hne _ _ hforeign =>
    rw [if_neg hforeign]
    intro h
    have hletter : ∀ c ∈ cs, isForeignLetter c = false := by
      simpa using hforeign
    refine .inl (isNumeric_of_ofChars? hletter fun hnone => h ?_)
    rw [hnone, Option.getD_none]

/-- What is written as a number is read as one, save for hexadecimal digits of more than 64 bits. -/
theorem ne_nan_of_isNumeric (h : IsNumeric cs) (hvast : ¬ IsVast cs) :
    numberOfTrimmed cs ≠ .nan := by
  cases h with
  | blank => exact Binary64.noConfusion
  | infinity hsign => cases hsign <;> exact Binary64.noConfusion
  | @hexadecimal mark digits hmark hne hdigits =>
    obtain ⟨value, hvalue⟩ := Text.exists_ofBase?_iff.mpr hdigits
    rw [numberOfTrimmed_hexadecimal hmark]
    refine hexNumber_ne_nan_iff.mpr ⟨digits, value, .inl rfl, hne, hvalue, ?_⟩
    exact Nat.lt_of_not_le fun hle => hvast ⟨mark, digits, value, hmark, rfl, hvalue, hle⟩
  | decimal hsign hspells =>
    rw [numberOfTrimmed_decimal hsign hspells]
    exact Decimal.toBinary64_ne_nan _ _

/-- The plus sign in front of hexadecimal digits passes. -/
theorem ne_nan_of_isPlusHex (h : IsPlusHex cs) : numberOfTrimmed cs ≠ .nan := by
  obtain ⟨mark, digits, value, hmark, rfl, hne, hvalue, hlt⟩ := h
  rw [numberOfTrimmed_hexadecimal hmark]
  exact hexNumber_ne_nan_iff.mpr ⟨digits, value, .inr rfl, hne, hvalue, hlt⟩

theorem toNumber_text (s : String) :
    (text s).toNumber = numberOfTrimmed (Text.trimChars s.toList) :=
  rfl

/-- A text is a number just when it is written as one and not vast, or is hexadecimal with a plus
sign. -/
theorem toNumber_ne_nan_iff (s : String) :
    (text s).toNumber ≠ .nan ↔
      (IsNumeric (Text.trimChars s.toList) ∧ ¬ IsVast (Text.trimChars s.toList)) ∨
        IsPlusHex (Text.trimChars s.toList) := by
  rw [toNumber_text]
  constructor
  · exact isNumeric_of_ne_nan
  · rintro (⟨hnumeric, hvast⟩ | hplus)
    · exact ne_nan_of_isNumeric hnumeric hvast
    · exact ne_nan_of_isPlusHex hplus

/-- No number is written with a plus sign behind the mark. -/
theorem not_isNumeric_of_isPlusHex (h : IsPlusHex cs) : ¬ IsNumeric cs := by
  obtain ⟨mark, digits, value, hmark, heq, -⟩ := h
  intro hnumeric
  cases hnumeric with
  | blank => cases heq
  | infinity hsign => cases hsign <;> simp at heq
  | hexadecimal _ _ hdigits =>
    obtain ⟨-, heq⟩ := List.cons.inj heq
    obtain ⟨-, rfl⟩ := List.cons.inj heq
    have hplus := hdigits '+' List.mem_cons_self
    cases hplus
  | decimal hsign hspells =>
    have hmem : mark ∈ '0' :: mark :: '+' :: digits := List.mem_cons_of_mem _ List.mem_cons_self
    rw [← heq] at hmem
    have hletter := isForeignLetter_of_isNumeralChar (chars_of_decimal hsign hspells mark hmem)
    rw [isForeignLetter_of_isHexMark hmark] at hletter
    cases hletter

/-- A text may be a number that is not written as one, and be written as a number without being one. -/
theorem written_and_read_differ :
    ((text "0x+1f").toNumber ≠ .nan ∧ ¬ IsNumeric (Text.trimChars "0x+1f".toList)) ∧
    ((text "0x10000000000000000").toNumber = .nan ∧
      IsNumeric (Text.trimChars "0x10000000000000000".toList)) := by
  have hplus : IsPlusHex (Text.trimChars "0x+1f".toList) :=
    ⟨'x', ['1', 'f'], 31, .inl rfl, by decide, by decide, by decide, by decide⟩
  have hdigits : ∀ d ∈ '1' :: List.replicate 16 '0', (Text.hexDigit? d).isSome := by
    intro d hd
    rcases List.mem_cons.mp hd with rfl | hd
    · rfl
    · rw [List.eq_of_mem_replicate hd]
      rfl
  have htrim : Text.trimChars "0x10000000000000000".toList =
      '0' :: 'x' :: '1' :: List.replicate 16 '0' := by
    decide +kernel
  rw [toNumber_text, toNumber_text]
  refine ⟨⟨ne_nan_of_isPlusHex hplus, not_isNumeric_of_isPlusHex hplus⟩, ?_, ?_⟩
  · decide +kernel
  · rw [htrim]
    have hmark : IsHexMark 'x' := .inl rfl
    exact .hexadecimal hmark (List.cons_ne_nil _ _) hdigits

end Operand

end Questlog
