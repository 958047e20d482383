import Mathlib.Algebra.Group.Nat.Defs
import Questlog.Proofs.Decimal.Integer

namespace Questlog.Decimal

/-- No more of a numeral can stand at the start of the text. -/
def EndsNumeral (cs : List Char) : Prop :=
  ∀ c ∈ cs.head?, isDigit c = false ∧ c ≠ '.' ∧ c ≠ 'e' ∧ c ≠ 'E'

theorem endsNumeral_nil : EndsNumeral [] := by
  intro c hc
  cases hc

/-- The characters are read as digits with an optional point, and those behind them are left. -/
def RendersFixed (cs : List Char) (n : Numeral) : Prop :=
  ∀ rest, (∀ c ∈ rest.head?, isDigit c = false ∧ c ≠ '.') → readFixed (cs ++ rest) = (n, rest)

/-- The characters are read as a numeral, and those behind them are left. -/
def Renders (cs : List Char) (n : Numeral) : Prop :=
  ∀ more, EndsNumeral more → ∃ rest,
    readFixed (cs ++ more) = ({ n with exponent := none }, rest) ∧
      readExponent rest = (n.exponent, more)

/-- A numeral has digits in front, of which none is a superfluous zero, and a point stands before
digits. -/
structure Numeral.IsStrict (n : Numeral) : Prop where
  whole_ne_nil : n.whole ≠ []
  no_zeros : n.whole.head? = some '0' → n.whole.length = 1
  fraction_ne_nil : n.point = true → n.fraction ≠ []

variable {cs ds whole fraction more : List Char} {n : Numeral}

theorem whole_readFixed (cs : List Char) : (readFixed cs).1.whole = cs.takeWhile isDigit := by
  unfold readFixed
  split <;> rfl

theorem rendersFixed_whole (hwhole : ∀ d ∈ whole, isDigit d = true) :
    RendersFixed whole ⟨whole, false, [], none⟩ :=
  fun _ hrest => readFixed_whole hwhole hrest

/-- A fraction is rendered by its digits around the point. -/
theorem rendersFixed_point (hwhole : ∀ d ∈ whole, isDigit d = true)
    (hfraction : ∀ d ∈ fraction, isDigit d = true) :
    RendersFixed (whole ++ '.' :: fraction) ⟨whole, true, fraction, none⟩ := by
  intro rest hrest
  have hassoc : whole ++ '.' :: fraction ++ rest = whole ++ '.' :: (fraction ++ rest) := by simp
  rw [hassoc]
  exact readFixed_point hwhole hfraction fun c hc => (hrest c hc).1

/-- No exponent is read where the numeral ends. -/
theorem readExponent_of_endsNumeral (h : EndsNumeral more) : readExponent more = (none, more) := by
  cases more with
  | nil => rfl
  | cons c more =>
    obtain ⟨-, -, hlower, hupper⟩ := h c rfl
    simp [readExponent, hlower, hupper]

/-- Where no exponent is read, nothing is. -/
theorem readExponent_none (h : (readExponent cs).1 = none) : (readExponent cs).2 = cs := by
  cases cs with
  | nil => rfl
  | cons e rest =>
    simp only [readExponent] at h ⊢
    split
    · next hmark =>
      rw [if_pos hmark] at h
      cases hrun : (readSign rest).2.takeWhile isDigit with
      | nil => rfl
      | cons d run =>
        simp only [hrun] at h
        exact absurd h (Option.some_ne_none _)
    · rfl

/-- Without an exponent the fixed form is the numeral. -/
theorem RendersFixed.renders (h : RendersFixed cs n) (hn : n.exponent = none) : Renders cs n := by
  intro more hmore
  have hfixed := h more fun c hc => ⟨(hmore c hc).1, (hmore c hc).2.1⟩
  obtain ⟨whole, point, fraction, exponent⟩ := n
  obtain rfl : exponent = none := hn
  exact ⟨more, hfixed, readExponent_of_endsNumeral hmore⟩

theorem readSign_of_sign {sign : Char} (hsign : sign = '-' ∨ sign = '+') (rest : List Char) :
    readSign (sign :: rest) = (sign == '-', rest) := by
  rcases hsign with rfl | rfl <;> rfl

/-- The mark of an exponent, a sign and digits are an exponent. -/
theorem readExponent_signed {sign : Char} (hsign : sign = '-' ∨ sign = '+') (hne : ds ≠ [])
    (hds : ∀ d ∈ ds, isDigit d = true) (hmore : EndsNumeral more) :
    readExponent ('e' :: sign :: (ds ++ more)) =
      (some (Binary64.signed (sign == '-') (ofDigits ds)), more) := by
  have hend : ∀ c ∈ more.head?, isDigit c = false := fun c hc => (hmore c hc).1
  obtain ⟨d, run, rfl⟩ := List.exists_cons_of_ne_nil hne
  simp only [readExponent, readSign_of_sign hsign, takeWhile_run hds hend, dropWhile_run hds hend]
  rfl

/-- A fixed form with an exponent behind it renders the numeral of both. -/
theorem RendersFixed.renders_exponent (h : RendersFixed cs n) (hn : n.exponent = none) {sign : Char}
    (hsign : sign = '-' ∨ sign = '+') (hne : ds ≠ []) (hds : ∀ d ∈ ds, isDigit d = true) :
    Renders (cs ++ 'e' :: sign :: ds)
      { n with exponent := some (Binary64.signed (sign == '-') (ofDigits ds)) } := by
  intro more hmore
  have hmark : ∀ c ∈ ('e' :: sign :: (ds ++ more)).head?, isDigit c = false ∧ c ≠ '.' := by
    intro c hc
    obtain rfl : 'e' = c := Option.some.inj hc
    decide
  have hfixed := h _ hmark
  have hassoc : cs ++ 'e' :: sign :: ds ++ more = cs ++ 'e' :: sign :: (ds ++ more) := by simp
  obtain ⟨whole, point, fraction, exponent⟩ := n
  obtain rfl : exponent = none := hn
  rw [hassoc]
  exact ⟨_, hfixed, readExponent_signed hsign hne hds hmore⟩

section Values

theorem ofDigits_append (front back : List Char) :
    ofDigits (front ++ back) = ofDigits front * 10 ^ back.length + ofDigits back := by
  have hvalue := Nat.ofDigitChars_append (b := 10) (l := front) (m := back) 0
  rw [Nat.ofDigitChars_eq_ofDigitChars_zero (l := back), Nat.mul_comm] at hvalue
  exact hvalue

theorem ofDigits_zeros (k : Nat) : ofDigits (List.replicate k '0') = 0 :=
  Nat.ofDigitChars_replicate_zero

theorem ofDigits_zeros_append (k : Nat) (ds : List Char) :
    ofDigits (List.replicate k '0' ++ ds) = ofDigits ds := by
  rw [ofDigits_append, ofDigits_zeros, Nat.zero_mul, Nat.zero_add]

theorem ofDigits_append_zeros (ds : List Char) (k : Nat) :
    ofDigits (ds ++ List.replicate k '0') = ofDigits ds * 10 ^ k := by
  rw [ofDigits_append, ofDigits_zeros, List.length_replicate, Nat.add_zero]

end Values

/-- The digits of a whole number are a numeral of their own. -/
theorem renders_toDigits (n : Nat) : Renders (toDigits n) ⟨toDigits n, false, [], none⟩ :=
  (rendersFixed_whole isDigit_of_mem_toDigits).renders rfl

/-- The digits of a number have no zero in front to spare. -/
theorem isStrict_toDigits (n : Nat) : Numeral.IsStrict ⟨toDigits n, false, [], none⟩ := by
  refine ⟨toDigits_ne_nil n, ?_, fun h => absurd h Bool.false_ne_true⟩
  intro hhead
  by_cases hn : n = 0
  · subst hn
    rfl
  · exact absurd hhead (head?_toDigits_ne_zero hn)

end Questlog.Decimal
