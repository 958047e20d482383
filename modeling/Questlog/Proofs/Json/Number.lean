import Questlog.Json.Printer
import Questlog.Json.Token
import Questlog.Proofs.Decimal.Layout
import Questlog.Proofs.Decimal.Spelling

namespace Questlog.Json

open Decimal (EndsNumeral Numeral Renders isDigit readFixed readExponent toDigits)

/-- The characters are read as a token, and those behind them are left. -/
def TokenText (cs : List Char) (t : Token) : Prop :=
  ∀ more, EndsNumeral more → ∃ hlt, readToken (cs ++ more) = some ⟨t, more, hlt⟩

variable {cs more : List Char} {n : Numeral}

theorem atExponent_of_endsNumeral (h : EndsNumeral more) : atExponent more = false := by
  cases more with
  | nil => rfl
  | cons c more =>
    obtain ⟨-, -, hlower, hupper⟩ := h c rfl
    simp [atExponent, hlower, hupper]

/-- A strict numeral is read up to where it ends. -/
theorem readUnsigned_of_renders (negative : Bool) (h : Renders cs n) (hn : n.IsStrict)
    (hmore : EndsNumeral more) :
    ∃ hlt, readUnsigned negative (cs ++ more) = some ⟨numberToken negative n, more, hlt⟩ := by
  obtain ⟨rest, hfixed, hexponent⟩ := h more hmore
  have hmark : n.exponent = none → atExponent rest = false := by
    intro hnone
    have hrest := Decimal.readExponent_none (congrArg Prod.fst hexponent |>.trans hnone)
    rw [hexponent] at hrest
    rw [← hrest]
    exact atExponent_of_endsNumeral hmore
  have hlt : more.length < (cs ++ more).length := by
    have hfixedLength := Decimal.readFixed_length (cs ++ more)
    have hexponentLength := Decimal.readExponent_length rest
    rw [hfixed] at hfixedLength
    rw [hexponent] at hexponentLength
    have hpos := List.length_pos_iff.mpr hn.whole_ne_nil
    exact Nat.lt_of_lt_of_le (Nat.lt_add_of_pos_left hpos)
      (Nat.le_trans (Nat.add_le_add_left hexponentLength _) hfixedLength)
  refine ⟨hlt, ?_⟩
  have hwell : ¬(n.whole = [] ∨ (n.whole.head? = some '0' ∧ n.whole.length ≠ 1) ∨
      (n.point = true ∧ n.fraction = [])) := by
    rintro (hnil | ⟨hzero, hlength⟩ | ⟨hpoint, hnil⟩)
    · exact hn.whole_ne_nil hnil
    · exact hlength (hn.no_zeros hzero)
    · exact hn.fraction_ne_nil hpoint hnil
  have hexponentMark : ¬(n.exponent = none ∧ atExponent rest = true) := by
    rintro ⟨hnone, hat⟩
    rw [hmark hnone] at hat
    exact Bool.false_ne_true hat
  simp only [readUnsigned, hfixed, hexponent]
  rw [dif_neg hwell, if_neg hexponentMark]

/-- A strict numeral starts with a digit. -/
theorem exists_cons_of_renders (h : Renders cs n) (hn : n.IsStrict) :
    ∃ d rest, cs = d :: rest ∧ isDigit d = true := by
  obtain ⟨rest, hfixed, -⟩ := h [] Decimal.endsNumeral_nil
  have hwhole : cs.takeWhile isDigit = n.whole := by
    have hfst := congrArg (fun r => r.1.whole) hfixed
    rw [List.append_nil, Decimal.whole_readFixed] at hfst
    exact hfst
  cases cs with
  | nil => exact absurd hwhole.symm hn.whole_ne_nil
  | cons d cs =>
    refine ⟨d, cs, rfl, ?_⟩
    by_cases hdigit : isDigit d = true
    · exact hdigit
    · rw [List.takeWhile_cons_of_neg hdigit] at hwhole
      exact absurd hwhole.symm hn.whole_ne_nil

/-- A text that starts with a digit or a minus sign starts with a number or with no token. -/
theorem readToken_number {c : Char} {rest : List Char}
    (hc : c = '-' ∨ Decimal.isDigit c = true) :
    readToken (c :: rest) = readNumber (c :: rest) := by
  have hrange : 45 ≤ c.toNat ∧ c.toNat ≤ 57 := by
    rcases hc with rfl | hdigit
    · decide
    · have hdigits := Decimal.isDigit_iff.mp hdigit
      omega
  have hmark : mark? c = none := by
    unfold mark?
    split <;> first | rfl | exact absurd hrange (by decide)
  have hquote : c ≠ '"' := by
    rintro rfl
    exact absurd hrange (by decide)
  have hword : words.find? (fun w => w.1.isPrefixOf (c :: rest)) = none := by
    have hletters : ∀ w ∈ words, 97 ≤ (w.1.headD ' ').toNat := by decide
    rw [List.find?_eq_none]
    intro w hw hprefix
    have hletter := hletters w hw
    obtain ⟨tail, htail⟩ := List.isPrefixOf_iff_prefix.mp hprefix
    cases hspelling : w.1 with
    | nil =>
      rw [hspelling] at hletter
      exact absurd hletter (by decide)
    | cons d spelling =>
      rw [hspelling] at hletter htail
      obtain ⟨rfl, -⟩ := List.cons.inj htail
      have hle : 97 ≤ d.toNat := hletter
      omega
  unfold readToken
  simp only [hmark, hword]
  rw [if_neg hquote]

/-- A strict numeral is one token. -/
theorem tokenText_unsigned (h : Renders cs n) (hn : n.IsStrict) :
    TokenText cs (numberToken false n) := by
  intro more hmore
  obtain ⟨hlt, hread⟩ := readUnsigned_of_renders false h hn hmore
  obtain ⟨d, rest, rfl, hdigit⟩ := exists_cons_of_renders h hn
  have hunsigned : ∀ tail, d :: (rest ++ more) ≠ '-' :: tail := by
    intro tail hminus
    obtain ⟨rfl, -⟩ := List.cons.inj hminus
    exact absurd hdigit (by decide)
  exact ⟨hlt, (readToken_number (.inr hdigit)).trans
    ((readNumber.eq_2 _ hunsigned).trans hread)⟩

/-- With a minus sign it is one token as well. -/
theorem tokenText_minus (h : Renders cs n) (hn : n.IsStrict) :
    TokenText ('-' :: cs) (numberToken true n) := by
  intro more hmore
  obtain ⟨hlt, hread⟩ := readUnsigned_of_renders true h hn hmore
  have hminus : readNumber ('-' :: (cs ++ more)) =
      (readUnsigned true (cs ++ more)).map fun r => r.widen (Nat.le_succ _) := rfl
  rw [hread, Option.map_some] at hminus
  exact ⟨Nat.lt_succ_of_lt hlt, (readToken_number (.inl rfl)).trans hminus⟩

section Tokens

theorem value_toDigits (n : Nat) :
    (⟨Decimal.toDigits n, false, [], none⟩ : Decimal.Numeral).value = ⟨n, 0⟩ := by
  simp [Decimal.Numeral.value, Decimal.ofDigits_toDigits]

/-- An integer that fits a word is kept as one. -/
theorem numberToken_integer (negative : Bool) (n : Nat)
    (h : InWord (Binary64.signed negative n))
    (hzero : ¬(negative = true ∧ Binary64.signed negative n = 0)) :
    numberToken negative ⟨Decimal.toDigits n, false, [], none⟩ = .number (.integer _ h) := by
  have hnumber : numberOf? negative ⟨Decimal.toDigits n, false, [], none⟩ =
      some (.integer _ h) := by
    simp only [numberOf?, value_toDigits]
    rw [dif_pos ⟨⟨trivial, trivial⟩, h, hzero⟩]
  rw [numberToken, hnumber]

/-- What has a point or an exponent is a double, also where its value is whole. -/
theorem numberToken_double {negative : Bool} {x : Binary64} (hn : n.point = true ∨ n.exponent ≠ none)
    (hx : x.isFinite = true) (hvalue : n.value.toBinary64 negative = x) :
    numberToken negative n = .number (.double x hx) := by
  subst hvalue
  have hpart : ¬(n.point = false ∧ n.exponent = none) := by
    rintro ⟨hpoint, hexponent⟩
    rcases hn with hn | hn
    · rw [hpoint] at hn
      exact Bool.false_ne_true hn
    · exact hn hexponent
  have hnumber : numberOf? negative n = some (.double _ hx) := by
    simp only [numberOf?]
    rw [dif_neg fun h => hpart h.1, dif_pos hx]
  rw [numberToken, hnumber]

end Tokens

/-- A finite double is written by its sign and its layout. -/
theorem write_finite {negative : Bool} {mantissa shift : Nat}
    {h : Binary64.Canonical mantissa shift}
    {hx : (Binary64.finite negative mantissa shift h).isFinite = true} :
    (Number.double (.finite negative mantissa shift h) hx).write =
      if negative then '-' :: numberLayout.write (mantissa <<< shift)
      else numberLayout.write (mantissa <<< shift) := rfl

/-- The text of a number is read as the number. -/
theorem tokenText_write (number : Number) : TokenText number.write (.number number) := by
  cases number with
  | integer value h =>
    have hrenders := Decimal.renders_toDigits value.natAbs
    have hstrict := Decimal.isStrict_toDigits value.natAbs
    simp only [Number.write]
    split
    · next hnegative =>
      have hsigned : Binary64.signed true value.natAbs = value := by
        simp only [Binary64.signed, if_true]
        omega
      have htoken := tokenText_minus hrenders hstrict
      rw [numberToken_integer true value.natAbs (by rwa [hsigned]) (by rw [hsigned]; omega)] at htoken
      simpa only [hsigned] using htoken
    · next hnegative =>
      have hsigned : Binary64.signed false value.natAbs = value := by
        rw [Binary64.signed, if_neg Bool.false_ne_true]
        omega
      have htoken := tokenText_unsigned hrenders hstrict
      rw [numberToken_integer false value.natAbs (by rwa [hsigned]) (by simp)] at htoken
      simpa only [hsigned] using htoken
  | double x hx =>
    cases x with
    | nan | infinite => cases hx
    | finite negative mantissa shift h =>
      obtain ⟨n, hrenders, hstrict, hpart, hvalue⟩ := numberLayout.renders_write h negative
      have htoken := numberToken_double (hpart rfl) hx hvalue
      rw [write_finite]
      cases negative with
      | true =>
        rw [if_pos rfl, ← htoken]
        exact tokenText_minus hrenders hstrict
      | false =>
        rw [if_neg Bool.false_ne_true, ← htoken]
        exact tokenText_unsigned hrenders hstrict

theorem trimmed_signed (minus : Prop) [Decidable minus] (h : Renders cs n) (hn : n.IsStrict) :
    Text.Trimmed (if minus then '-' :: cs else cs) := by
  have hspells := h.spells hn
  split
  · exact Decimal.trimmed_of_decimal .minus hspells
  · exact Decimal.trimmed_of_decimal .none hspells

/-- The text of a number has no blanks at its ends. -/
theorem trimmed_write (number : Number) : Text.Trimmed number.write := by
  cases number with
  | integer value h =>
    exact trimmed_signed (value < 0) (Decimal.renders_toDigits value.natAbs)
      (Decimal.isStrict_toDigits value.natAbs)
  | double x hx =>
    cases x with
    | nan | infinite => cases hx
    | finite negative mantissa shift h =>
      obtain ⟨n, hrenders, hstrict, -, -⟩ := numberLayout.renders_write h negative
      rw [write_finite]
      exact trimmed_signed (negative = true) hrenders hstrict

end Questlog.Json
