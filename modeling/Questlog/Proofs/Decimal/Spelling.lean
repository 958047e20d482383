import Questlog.Proofs.Decimal.Rendered
import Questlog.Proofs.Text.Blank

namespace Questlog.Decimal

/-- An optional sign; the flag tells whether it is a minus. -/
inductive IsSign : List Char → Bool → Prop
  | none : IsSign [] false
  | plus : IsSign ['+'] false
  | minus : IsSign ['-'] true

/-- The digits of a numeral with the point among them. -/
def Numeral.mantissa (n : Numeral) : List Char :=
  n.whole ++ if n.point then '.' :: n.fraction else []

/-- The parts of a numeral can be written: there is a digit, and a fraction stands behind a point. -/
structure Numeral.IsWritten (n : Numeral) : Prop where
  whole_digits : ∀ d ∈ n.whole, isDigit d = true
  fraction_digits : ∀ d ∈ n.fraction, isDigit d = true
  some_digit : ¬(n.whole = [] ∧ n.fraction = [])
  fraction_nil : n.point = false → n.fraction = []

/-- An optional exponent: its mark, an optional sign and digits. -/
inductive SpellsExponent : List Char → Option Int → Prop
  | none : SpellsExponent [] none
  | some {mark : Char} {sign ds : List Char} {negative : Bool} : mark = 'e' ∨ mark = 'E' →
    IsSign sign negative → ds ≠ [] → (∀ d ∈ ds, isDigit d = true) →
    SpellsExponent (mark :: (sign ++ ds)) (some (Binary64.signed negative (ofDigits ds)))

/-- `Spells cs n`: the characters are the numeral `n` as it is written, which is digits with an
optional point and further digits behind it, or a point before digits, and an optional exponent. -/
def Spells (cs : List Char) (n : Numeral) : Prop :=
  n.IsWritten ∧ ∃ tail, SpellsExponent tail n.exponent ∧ cs = n.mantissa ++ tail

variable {cs ds sign tail more : List Char} {negative : Bool} {n : Numeral} {d : Decimal}

section Characters

/-- The characters that decimals are written with. -/
def IsNumeralChar (c : Char) : Prop :=
  isDigit c = true ∨ c = '.' ∨ c = 'e' ∨ c = 'E' ∨ c = '-' ∨ c = '+'

theorem IsSign.chars (h : IsSign sign negative) : ∀ c ∈ sign, IsNumeralChar c := by
  intro c hc
  cases h with
  | none => cases hc
  | plus | minus =>
    obtain rfl := List.mem_singleton.mp hc
    simp [IsNumeralChar]

theorem SpellsExponent.chars {exponent : Option Int} (h : SpellsExponent tail exponent) :
    ∀ c ∈ tail, IsNumeralChar c := by
  intro c hc
  cases h with
  | none => cases hc
  | some hmark hsign hne hdigits =>
    rcases List.mem_cons.mp hc with rfl | hrest
    · exact .inr (.inr (hmark.imp_right .inl))
    · rcases List.mem_append.mp hrest with hsigned | hdigit
      · exact hsign.chars c hsigned
      · exact .inl (hdigits c hdigit)

theorem Numeral.IsWritten.chars (h : n.IsWritten) : ∀ c ∈ n.mantissa, IsNumeralChar c := by
  intro c hc
  rcases List.mem_append.mp hc with hwhole | hfraction
  · exact .inl (h.whole_digits c hwhole)
  · split at hfraction
    · rcases List.mem_cons.mp hfraction with rfl | hdigit
      · exact .inr (.inl rfl)
      · exact .inl (h.fraction_digits c hdigit)
    · cases hfraction

theorem Spells.chars (h : Spells cs n) : ∀ c ∈ cs, IsNumeralChar c := by
  obtain ⟨hwritten, tail, htail, rfl⟩ := h
  intro c hc
  exact (List.mem_append.mp hc).elim (hwritten.chars c) (htail.chars c)

/-- The characters of a decimal with an optional sign. This tells decimals from texts with other
characters. -/
theorem chars_of_decimal (hsign : IsSign sign negative) (h : Spells cs n) :
    ∀ c ∈ sign ++ cs, IsNumeralChar c :=
  fun c hc => (List.mem_append.mp hc).elim (hsign.chars c) (h.chars c)

theorem isBlank_of_isNumeralChar {c : Char} (h : IsNumeralChar c) : Text.isBlank c = false := by
  rcases h with hdigit | rfl | rfl | rfl | rfl | rfl
  · have hrange := isDigit_iff.mp hdigit
    exact Text.isBlank_of_visible (by omega)
  all_goals rfl

end Characters

section Soundness

/-- What is read as the sign is one. -/
theorem isSign_readSign (cs : List Char) :
    ∃ sign, IsSign sign (readSign cs).1 ∧ cs = sign ++ (readSign cs).2 := by
  unfold readSign
  split
  · exact ⟨['-'], .minus, rfl⟩
  · exact ⟨['+'], .plus, rfl⟩
  · exact ⟨[], .none, rfl⟩

theorem isDigit_of_mem_takeWhile {c : Char} (h : c ∈ cs.takeWhile isDigit) : isDigit c = true :=
  List.all_eq_true.mp List.all_takeWhile c h

/-- What is read as the fixed part is written so. -/
theorem mantissa_readFixed (cs : List Char) :
    cs = (readFixed cs).1.mantissa ++ (readFixed cs).2 := by
  have hsplit := List.takeWhile_append_dropWhile (p := isDigit) (l := cs)
  unfold readFixed
  split
  · next rest hrest =>
    rw [hrest] at hsplit
    simp [Numeral.mantissa, hsplit]
  · simp [Numeral.mantissa, hsplit]

/-- What is read as the fixed part is a mantissa of the grammar if it has a digit. -/
theorem isWritten_readFixed (h : ¬((readFixed cs).1.whole = [] ∧ (readFixed cs).1.fraction = []))
    (exponent : Option Int) : Numeral.IsWritten { (readFixed cs).1 with exponent } := by
  refine ⟨?_, ?_, h, ?_⟩
  · intro d hd
    simp only [whole_readFixed] at hd
    exact isDigit_of_mem_takeWhile hd
  · unfold readFixed
    split
    · exact fun d hd => isDigit_of_mem_takeWhile hd
    · exact fun d hd => absurd hd List.not_mem_nil
  · unfold readFixed
    split
    · exact fun hpoint => absurd hpoint Bool.noConfusion
    · exact fun _ => rfl

/-- What is read as the exponent is one. -/
theorem spells_readExponent (cs : List Char) :
    ∃ tail, SpellsExponent tail (readExponent cs).1 ∧ cs = tail ++ (readExponent cs).2 := by
  unfold readExponent
  split
  · exact ⟨[], .none, rfl⟩
  · next e rest =>
    split
    · next hmark =>
      obtain ⟨sign, hsign, hrest⟩ := isSign_readSign rest
      have hsplit := List.takeWhile_append_dropWhile (p := isDigit) (l := (readSign rest).2)
      dsimp only
      split
      · exact ⟨[], .none, rfl⟩
      · next hrun =>
        refine ⟨_, .some hmark hsign hrun fun _ hd => isDigit_of_mem_takeWhile hd, ?_⟩
        rw [List.cons_append, List.append_assoc, hsplit, ← hrest]
    · exact ⟨[], .none, rfl⟩

/-- A text that is read is derived by the grammar. -/
theorem spells_of_ofChars? (h : ofChars? cs = some d) : ∃ n, Spells cs n ∧ n.value = d := by
  have hmantissa := mantissa_readFixed cs
  obtain ⟨tail, htail, hrest⟩ := spells_readExponent (readFixed cs).2
  unfold ofChars? at h
  dsimp only at h
  split at h
  · cases h
  · next hdigit =>
    split at h
    · next exponent hread =>
      rw [hread] at htail hrest
      rw [List.append_nil] at hrest
      refine ⟨_, ⟨isWritten_readFixed hdigit exponent, tail, htail, ?_⟩, Option.some.inj h⟩
      rw [← hrest]
      exact hmantissa
    · cases h

/-- What is rendered is spelled: what is read back from the characters is written in them. -/
theorem Renders.spells (h : Renders cs n) (hn : n.IsStrict) : Spells cs n := by
  obtain ⟨rest, hfixed, hexponent⟩ := h [] endsNumeral_nil
  rw [List.append_nil] at hfixed
  have hdigit : ¬((readFixed cs).1.whole = [] ∧ (readFixed cs).1.fraction = []) := by
    rw [hfixed]
    exact fun hnil => hn.whole_ne_nil hnil.1
  have hwritten := isWritten_readFixed hdigit n.exponent
  have hmantissa := mantissa_readFixed cs
  obtain ⟨tail, htail, hrest⟩ := spells_readExponent rest
  rw [hfixed] at hwritten hmantissa
  rw [hexponent, List.append_nil] at hrest
  rw [hexponent] at htail
  refine ⟨hwritten, tail, htail, ?_⟩
  rw [← hrest]
  exact hmantissa

end Soundness

section Completeness

/-- A sign is read in front of anything but another sign. -/
theorem readSign_append (hsign : IsSign sign negative) (hds : ∀ d ∈ ds.head?, d ≠ '-' ∧ d ≠ '+') :
    readSign (sign ++ ds) = (negative, ds) := by
  cases hsign with
  | plus | minus => rfl
  | none =>
    rw [List.nil_append]
    unfold readSign
    split
    · exact absurd rfl (hds '-' rfl).1
    · exact absurd rfl (hds '+' rfl).2
    · rfl

theorem ne_sign_of_isDigit {c : Char} (h : isDigit c = true) : c ≠ '-' ∧ c ≠ '+' := by
  constructor
  · rintro rfl
    cases h
  · rintro rfl
    cases h

/-- An exponent is read wherever no more of a numeral stands behind it. -/
theorem SpellsExponent.readExponent_append {exponent : Option Int} (h : SpellsExponent tail exponent)
    (hmore : EndsNumeral more) : readExponent (tail ++ more) = (exponent, more) := by
  cases h with
  | none => exact readExponent_of_endsNumeral hmore
  | @some mark sign ds negative hmark hsign hne hds =>
    have hend : ∀ c ∈ more.head?, isDigit c = false := fun c hc => (hmore c hc).1
    have hrun := takeWhile_run hds hend
    have hrest := dropWhile_run hds hend
    obtain ⟨d, run, rfl⟩ := List.exists_cons_of_ne_nil hne
    have hread : readSign (sign ++ (d :: run ++ more)) = (negative, d :: run ++ more) := by
      apply readSign_append hsign
      intro c hc
      obtain rfl : d = c := Option.some.inj hc
      exact ne_sign_of_isDigit (hds d List.mem_cons_self)
    rw [List.cons_append, List.append_assoc]
    simp only [readExponent, if_pos hmark, hread, hrun, hrest]

theorem SpellsExponent.readExponent_eq {exponent : Option Int} (h : SpellsExponent tail exponent) :
    readExponent tail = (exponent, []) := by
  have hread := h.readExponent_append endsNumeral_nil
  rwa [List.append_nil] at hread

/-- A mantissa of the grammar is read. -/
theorem Numeral.IsWritten.rendersFixed (h : n.IsWritten) :
    RendersFixed n.mantissa { n with exponent := none } := by
  obtain ⟨whole, point, fraction, exponent⟩ := n
  cases point with
  | false =>
    obtain rfl : fraction = [] := h.fraction_nil rfl
    simpa [Numeral.mantissa] using rendersFixed_whole h.whole_digits
  | true => simpa [Numeral.mantissa] using rendersFixed_point h.whole_digits h.fraction_digits

/-- An exponent does not start like what may go on with a mantissa. -/
theorem SpellsExponent.head {exponent : Option Int} (h : SpellsExponent tail exponent) :
    ∀ c ∈ tail.head?, isDigit c = false ∧ c ≠ '.' := by
  intro c hc
  cases h with
  | none => cases hc
  | some hmark =>
    obtain rfl := Option.some.inj hc
    rcases hmark with rfl | rfl <;> decide

/-- What is spelled is rendered: it is read back wherever no more of a numeral stands behind it. -/
theorem Spells.renders (h : Spells cs n) : Renders cs n := by
  obtain ⟨hwritten, tail, htail, rfl⟩ := h
  intro more hmore
  have hend : ∀ c ∈ (tail ++ more).head?, isDigit c = false ∧ c ≠ '.' := by
    cases tail with
    | nil => exact fun c hc => ⟨(hmore c hc).1, (hmore c hc).2.1⟩
    | cons e tail => exact htail.head
  have hfixed := hwritten.rendersFixed (tail ++ more) hend
  rw [← List.append_assoc] at hfixed
  exact ⟨tail ++ more, hfixed, htail.readExponent_append hmore⟩

/-- A text that the grammar derives is read as the number that is written. -/
theorem Spells.ofChars?_eq (h : Spells cs n) : ofChars? cs = some n.value := by
  obtain ⟨hwritten, tail, htail, rfl⟩ := h
  have hfixed := hwritten.rendersFixed tail htail.head
  unfold ofChars?
  simp only [hfixed, htail.readExponent_eq]
  rw [if_neg hwritten.some_digit]

/-- A decimal without its sign starts with a digit or a point. -/
theorem Spells.head (h : Spells cs n) : ∃ c rest, cs = c :: rest ∧ (isDigit c = true ∨ c = '.') := by
  obtain ⟨hwritten, tail, -, rfl⟩ := h
  obtain ⟨whole, point, fraction, exponent⟩ := n
  cases whole with
  | cons d whole => exact ⟨d, _, rfl, .inl (hwritten.whole_digits d List.mem_cons_self)⟩
  | nil =>
    cases point with
    | true => exact ⟨'.', _, rfl, .inr rfl⟩
    | false => exact absurd ⟨rfl, hwritten.fraction_nil rfl⟩ hwritten.some_digit

theorem Spells.ne_nil (h : Spells cs n) : cs ≠ [] := by
  obtain ⟨c, rest, rfl, -⟩ := h.head
  exact List.cons_ne_nil c rest

theorem trimmed_of_decimal (hsign : IsSign sign negative) (h : Spells cs n) :
    Text.Trimmed (sign ++ cs) :=
  Text.trimmed_of_forall (List.append_ne_nil_of_right_ne_nil sign h.ne_nil) fun c hc =>
    isBlank_of_isNumeralChar (chars_of_decimal hsign h c hc)

theorem Spells.head_ne_sign (h : Spells cs n) : ∀ c ∈ cs.head?, c ≠ '-' ∧ c ≠ '+' := by
  obtain ⟨c, rest, rfl, hc⟩ := h.head
  intro d hd
  obtain rfl : c = d := Option.some.inj hd
  rcases hc with hdigit | rfl
  · exact ne_sign_of_isDigit hdigit
  · decide

end Completeness

/-- A text is read as a decimal just when it is one as it is written. -/
theorem ofChars?_eq_some_iff : ofChars? cs = some d ↔ ∃ n, Spells cs n ∧ n.value = d := by
  constructor
  · exact spells_of_ofChars?
  · rintro ⟨n, hspells, rfl⟩
    exact hspells.ofChars?_eq

end Questlog.Decimal
