import Questlog.Expression.Lexeme
import Questlog.Proofs.Decimal.Numeral
import Questlog.Proofs.Expression.Literal

namespace Questlog.Lexeme

/-- `Written used more token`: the characters `used`, with `more` behind them, are written for the
token. A token other than a literal goes as far as its characters do, so what stands behind it
decides where it ends. -/
inductive Written : List Char → List Char → Token → Prop
  | text {quote : Char} {content more : List Char} : Literal.isQuote quote = true →
    Literal.Encloses quote content →
    Written (quote :: content ++ [quote]) more (.text (String.ofList (Literal.unescape content)))
  | whole {digits more : List Char} : digits ≠ [] → (∀ d ∈ digits, Decimal.isDigit d = true) →
    (∀ c ∈ more.head?, Decimal.isDigit c = false ∧ c ≠ '.') →
    Written digits more (.number (Decimal.toBinary64 false ⟨Decimal.ofDigits digits, 0⟩))
  | point {digits fraction more : List Char} : ¬(digits = [] ∧ fraction = []) →
    (∀ d ∈ digits, Decimal.isDigit d = true) → (∀ d ∈ fraction, Decimal.isDigit d = true) →
    (∀ c ∈ more.head?, Decimal.isDigit c = false) →
    Written (digits ++ '.' :: fraction) more
      (.number (Decimal.toBinary64 false
        ⟨Decimal.ofDigits (digits ++ fraction), -fraction.length⟩))
  | word {first : Char} {word more : List Char} : isNameStart first = true →
    (∀ c ∈ word, isNamePart c = true) → (∀ c ∈ more.head?, isNamePart c = false) →
    Written (first :: word) more (ofWord (first :: word))
  | sign {s : Symbol} {more : List Char} : s ≠ .isIn →
    sign? (s.spelling.toList ++ more) = some s → Written s.spelling.toList more (.symbol s)

section Classes

variable {c : Char}

/-- The characters that names start with, by their code points. -/
theorem isNameStart_iff : isNameStart c = true ↔
    (97 ≤ c.toNat ∧ c.toNat ≤ 122 ∨ 65 ≤ c.toNat ∧ c.toNat ≤ 90) ∨ c = '_' ∨ c = '$' := by
  simp only [isNameStart, Bool.or_eq_true, Bool.and_eq_true, decide_eq_true_eq, or_assoc]
  exact Iff.rfl

theorem eq_of_isQuote (h : Literal.isQuote c = true) : c = '"' ∨ c = '\x27' ∨ c = '\x60' := by
  simpa [Literal.isQuote, or_assoc] using h

theorem eq_of_isSpace (h : isSpace c = true) : c = ' ' ∨ c = '\t' ∨ c = '\n' ∨ c = '\r' := by
  simpa [isSpace, or_assoc] using h

theorem utf8Size_of_isSpace (h : isSpace c = true) : c.utf8Size = 1 := by
  rcases eq_of_isSpace h with rfl | rfl | rfl | rfl <;> decide

theorem utf8Size_of_isQuote (h : Literal.isQuote c = true) : c.utf8Size = 1 := by
  rcases eq_of_isQuote h with rfl | rfl | rfl <;> decide

/-- Every character that means something outside of literals is ASCII: spaces, quotes, digits and
the characters of names. -/
theorem isSpace_ascii (h : isSpace c = true) : c.toNat < 128 := by
  rcases eq_of_isSpace h with rfl | rfl | rfl | rfl <;> decide

theorem isQuote_ascii (h : Literal.isQuote c = true) : c.toNat < 128 := by
  rcases eq_of_isQuote h with rfl | rfl | rfl <;> decide

theorem isDigit_ascii (h : Decimal.isDigit c = true) : c.toNat < 128 := by
  have hle := (Decimal.isDigit_iff.mp h).2
  omega

theorem isNameStart_ascii (h : isNameStart c = true) : c.toNat < 128 := by
  rcases isNameStart_iff.mp h with hletter | rfl | rfl
  · omega
  · decide
  · decide

theorem isNamePart_ascii (h : isNamePart c = true) : c.toNat < 128 := by
  rcases Bool.or_eq_true_iff.mp h with hstart | hdigit
  · exact isNameStart_ascii hstart
  · exact isDigit_ascii hdigit

/-- A character at which every token other than a literal ends. -/
def IsBreak (c : Char) : Prop :=
  isSpace c = true ∨ Literal.isQuote c = true

/-- No name has such a character in it. -/
theorem IsBreak.isNamePart (h : IsBreak c) : isNamePart c = false := by
  rcases h with h | h
  · rcases eq_of_isSpace h with rfl | rfl | rfl | rfl <;> decide
  · rcases eq_of_isQuote h with rfl | rfl | rfl <;> decide

theorem isDigit_of_isNamePart_eq_false (h : isNamePart c = false) : Decimal.isDigit c = false :=
  (Bool.or_eq_false_iff.mp h).2

theorem IsBreak.ne_point (h : IsBreak c) : c ≠ '.' := by
  rintro rfl
  revert h
  simp [IsBreak, isSpace, Literal.isQuote]

/-- No symbol has such a character in it. -/
theorem IsBreak.not_mem_spelling (h : IsBreak c) (s : Symbol) : c ∉ s.spelling.toList := by
  have hnone : s.spelling.toList.all (fun d => !(isSpace d || Literal.isQuote d)) = true := by
    cases s <;> rfl
  intro hmem
  have hneither := List.all_eq_true.mp hnone c hmem
  rw [Bool.not_eq_true', Bool.or_eq_false_iff] at hneither
  rcases h with h | h
  · rw [hneither.1] at h
    cases h
  · rw [hneither.2] at h
    cases h

theorem isSpace_of_isQuote (h : Literal.isQuote c = true) : isSpace c = false := by
  rcases eq_of_isQuote h with rfl | rfl | rfl <;> decide

theorem isQuote_of_isDigit (h : Decimal.isDigit c = true) : Literal.isQuote c = false := by
  rw [Bool.eq_false_iff]
  intro hquote
  rcases eq_of_isQuote hquote with rfl | rfl | rfl <;> exact absurd h (by decide)

theorem isQuote_of_isNameStart (h : isNameStart c = true) : Literal.isQuote c = false := by
  rw [Bool.eq_false_iff]
  intro hquote
  rcases eq_of_isQuote hquote with rfl | rfl | rfl <;> exact absurd h (by decide)

theorem isSpace_of_isNamePart (h : isNamePart c = true) : isSpace c = false := by
  rw [Bool.eq_false_iff]
  intro hspace
  rw [IsBreak.isNamePart (.inl hspace)] at h
  cases h

theorem isDigit_of_isNameStart (h : isNameStart c = true) : Decimal.isDigit c = false := by
  rw [Bool.eq_false_iff, ne_eq, Decimal.isDigit_iff]
  rcases isNameStart_iff.mp h with hletter | rfl | rfl
  · omega
  · decide
  · decide

theorem ne_point_of_isNameStart (h : isNameStart c = true) : c ≠ '.' := by
  rintro rfl
  exact absurd h (by decide)

end Classes

theorem spelling_ne_nil (s : Symbol) : s.spelling.toList ≠ [] := by
  cases s <;> decide

/-- Symbols are spelled with visible characters. -/
theorem spelling_visible (s : Symbol) :
    ∀ c ∈ s.spelling.toList, 33 ≤ c.toNat ∧ c.toNat ≤ 126 := by
  have hall : s.spelling.toList.all (fun c => 33 ≤ c.toNat ∧ c.toNat ≤ 126) = true := by
    cases s <;> rfl
  exact fun c hc => of_decide_eq_true (List.all_eq_true.mp hall c hc)

theorem spelling_ascii (s : Symbol) : ∀ c ∈ s.spelling.toList, c.toNat < 128 := by
  intro c hc
  have hvisible := spelling_visible s c hc
  omega

/-- A sign starts with a character that starts no other lexeme. -/
theorem spelling_eq_cons {s : Symbol} (hs : s ≠ .isIn) :
    ∃ c cs, s.spelling.toList = c :: cs ∧ isSpace c = false ∧ Literal.isQuote c = false ∧
      isNamePart c = false ∧ c ≠ '.' := by
  have hall : s.spelling.toList.all (fun c => !isNamePart c && c != '.') = true := by
    cases s <;> first | exact absurd rfl hs | rfl
  obtain ⟨c, cs, hcs⟩ := List.exists_cons_of_ne_nil (spelling_ne_nil s)
  have hmem : c ∈ s.spelling.toList := by rw [hcs]; exact List.mem_cons_self
  have hbreak : ¬IsBreak c := fun hbreak => hbreak.not_mem_spelling s hmem
  obtain ⟨hspace, hquote⟩ := not_or.mp hbreak
  have hchar := List.all_eq_true.mp hall c hmem
  simp only [Bool.and_eq_true, Bool.not_eq_true', bne_iff_ne] at hchar
  exact ⟨c, cs, hcs, Bool.eq_false_iff.mpr hspace, Bool.eq_false_iff.mpr hquote, hchar⟩

section Numbers

variable {digits fraction more : List Char}

/-- The characters of a whole number end where neither a digit nor a point follows. -/
theorem numberChars_whole (hdigits : ∀ d ∈ digits, Decimal.isDigit d = true)
    (hmore : ∀ c ∈ more.head?, Decimal.isDigit c = false ∧ c ≠ '.') :
    numberChars (digits ++ more) = digits := by
  have hend : ∀ c ∈ more.head?, Decimal.isDigit c = false := fun c hc => (hmore c hc).1
  unfold numberChars
  rw [takeWhile_run hdigits hend, dropWhile_run hdigits hend]
  cases more with
  | nil => rfl
  | cons c more =>
    have hpoint : c ≠ '.' := (hmore c rfl).2
    split
    · next heq => exact absurd (List.cons.inj heq).1 hpoint
    · rfl

/-- Those of a fraction end where no digit follows. -/
theorem numberChars_point (hdigits : ∀ d ∈ digits, Decimal.isDigit d = true)
    (hfraction : ∀ d ∈ fraction, Decimal.isDigit d = true)
    (hmore : ∀ c ∈ more.head?, Decimal.isDigit c = false) :
    numberChars (digits ++ '.' :: (fraction ++ more)) = digits ++ '.' :: fraction := by
  have hpoint : ∀ c ∈ ('.' :: (fraction ++ more)).head?, Decimal.isDigit c = false := by
    intro c hc
    obtain rfl : '.' = c := Option.some.inj hc
    decide
  unfold numberChars
  rw [takeWhile_run hdigits hpoint, dropWhile_run hdigits hpoint]
  simp only [takeWhile_run hfraction hmore]

/-- The characters of a number are a run of digits, or two of them around a point. -/
theorem numberChars_cases (cs : List Char) :
    (∃ digits more, cs = digits ++ more ∧ numberChars cs = digits ∧
      (∀ d ∈ digits, Decimal.isDigit d = true) ∧
      (∀ c ∈ more.head?, Decimal.isDigit c = false ∧ c ≠ '.')) ∨
    (∃ digits fraction more, cs = digits ++ '.' :: (fraction ++ more) ∧
      numberChars cs = digits ++ '.' :: fraction ∧
      (∀ d ∈ digits, Decimal.isDigit d = true) ∧ (∀ d ∈ fraction, Decimal.isDigit d = true) ∧
      (∀ c ∈ more.head?, Decimal.isDigit c = false)) := by
  have hsplit : cs.takeWhile Decimal.isDigit ++ cs.dropWhile Decimal.isDigit = cs :=
    List.takeWhile_append_dropWhile
  have hdigits : ∀ d ∈ cs.takeWhile Decimal.isDigit, Decimal.isDigit d = true :=
    List.all_eq_true.mp List.all_takeWhile
  have hend : ∀ c ∈ (cs.dropWhile Decimal.isDigit).head?, Decimal.isDigit c = false :=
    head?_dropWhile
  unfold numberChars
  split
  · next rest hrest =>
    have hparts : rest.takeWhile Decimal.isDigit ++ rest.dropWhile Decimal.isDigit = rest :=
      List.takeWhile_append_dropWhile
    refine .inr ⟨_, _, rest.dropWhile Decimal.isDigit, ?_, rfl, hdigits,
      List.all_eq_true.mp List.all_takeWhile, head?_dropWhile⟩
    rw [hparts, ← hrest, hsplit]
  · next hpoint =>
    refine .inl ⟨_, cs.dropWhile Decimal.isDigit, hsplit.symm, rfl, hdigits, ?_⟩
    intro c hc
    refine ⟨hend c hc, ?_⟩
    rintro rfl
    obtain ⟨rest, hrest⟩ := List.head?_eq_some_iff.mp hc
    exact hpoint rest hrest

end Numbers

section Cutting

variable {position : Nat} {used more : List Char} {token : Token}

theorem byteLength_digits {digits : List Char}
    (hdigits : ∀ d ∈ digits, Decimal.isDigit d = true) : Text.byteLength digits = digits.length :=
  Text.byteLength_of_ascii fun d hd => isDigit_ascii (hdigits d hd)

theorem byteLength_spelling (s : Symbol) :
    Text.byteLength s.spelling.toList = s.spelling.length := by
  rw [← String.length_toList]
  exact Text.byteLength_of_ascii (spelling_ascii s)

theorem drop_used {c : Char} {rest : List Char} (h : c :: rest = used ++ more) (hne : used ≠ []) :
    rest.drop (used.length - 1) = more := by
  obtain ⟨d, used, rfl⟩ := List.exists_cons_of_ne_nil hne
  obtain ⟨rfl, rfl⟩ := List.cons.inj h
  exact List.drop_left

theorem length_lt_of_used {cs : List Char} (h : cs = used ++ more) (hne : used ≠ []) :
    more.length < cs.length := by
  have hpos : 0 < used.length := List.length_pos_iff.mpr hne
  rw [h, List.length_append]
  omega

theorem isQuote_of_startsNumber {c : Char} {rest : List Char}
    (h : startsNumber (c :: rest) = true) : Literal.isQuote c = false := by
  rcases Bool.or_eq_true_iff.mp h with hdigit | hpoint
  · exact isQuote_of_isDigit hdigit
  · obtain rfl : c = '.' := of_decide_eq_true (Bool.and_eq_true_iff.mp hpoint).1
    decide

theorem startsNumber_of_isNameStart {c : Char} (rest : List Char) (h : isNameStart c = true) :
    startsNumber (c :: rest) = false := by
  simp [startsNumber, isDigit_of_isNameStart h, ne_point_of_isNameStart h]

/-- Cuts the first token off a text, with no literals found ahead: one is read where it starts. -/
def cutInPlace (position : Nat) (cs : List Char) : Except CompileError (Reading Cut cs) :=
  cut (Literal.atHead position cs).toList position cs

theorem find?_atHead (position : Nat) (cs : List Char) :
    (Literal.atHead position cs).toList.find? (fun literal => literal.start = position) =
      Literal.atHead position cs := by
  cases hliteral : Literal.atHead position cs with
  | none => rfl
  | some literal =>
    obtain ⟨hstart, -⟩ := Literal.atHead_eq_some.mp hliteral
    exact List.find?_cons_of_pos (decide_eq_true hstart)

/-- Only the literal that starts at the place of the cut has a bearing on it. -/
theorem cut_eq_inPlace {literals : List Literal} {cs : List Char}
    (h : literals.find? (fun literal => literal.start = position) = Literal.atHead position cs) :
    cut literals position cs = cutInPlace position cs := by
  have hplace := find?_atHead position cs
  unfold cutInPlace
  cases cs with
  | nil => rfl
  | cons c rest => simp only [cut, h, hplace]

/-- A number is cut off with all its characters. -/
theorem cut_of_number {cs : List Char} {value : Decimal} (hstarts : startsNumber cs = true)
    (hused : numberChars cs = used) (hvalue : Decimal.ofChars? used = some value)
    (hcs : cs = used ++ more) (hne : used ≠ [])
    (hlength : Text.byteLength used = used.length) :
    ∃ hmore, cutInPlace position cs =
      .ok ⟨⟨.number (value.toBinary64 false), Text.byteLength used⟩, more, hmore⟩ := by
  refine ⟨length_lt_of_used hcs hne, ?_⟩
  cases cs with
  | nil => cases hstarts
  | cons c rest =>
    have hquote := isQuote_of_startsNumber hstarts
    have hdrop := drop_used hcs hne
    simp only [cutInPlace, cut, hquote, hstarts, hused, hvalue, hdrop, hlength, if_true,
      Bool.false_eq_true, if_false]

/-- A token that is written at the front of a text is cut off there. -/
theorem cut_of_written (position : Nat) (h : Written used more token) {cs : List Char}
    (hcs : cs = used ++ more) :
    ∃ hmore, cutInPlace position cs = .ok ⟨⟨token, Text.byteLength used⟩, more, hmore⟩ := by
  cases h with
  | @text quote content _ hquote hcontent =>
    have hshape : cs = quote :: (content ++ quote :: more) := by simpa using hcs
    have hliteral : Literal.atHead position (quote :: (content ++ quote :: more)) =
        some ⟨quote, position, content⟩ :=
      Literal.atHead_eq_some.mpr ⟨rfl, hquote, hcontent, more, rfl⟩
    have hwidth : (⟨quote, position, content⟩ : Literal).after - position =
        Text.byteLength (quote :: content ++ [quote]) := by
      simp [Literal.after, Literal.stop]; omega
    have hrest : (content ++ quote :: more).drop (content.length + 1) = more := by simp
    have hfind := find?_atHead position (quote :: (content ++ quote :: more))
    rw [hliteral] at hfind
    refine ⟨length_lt_of_used hcs (List.cons_ne_nil _ _), ?_⟩
    subst hshape
    simp only [cutInPlace, cut, hquote, if_true, hliteral, hfind, hwidth, hrest]
  | whole hne hdigits hend =>
    obtain ⟨d, digits, rfl⟩ := List.exists_cons_of_ne_nil hne
    have hstarts : startsNumber cs = true := by
      simp [hcs, startsNumber, hdigits d List.mem_cons_self]
    have hused := numberChars_whole hdigits hend
    rw [← hcs] at hused
    exact cut_of_number hstarts hused (Decimal.ofChars?_whole hne hdigits) hcs hne
      (byteLength_digits hdigits)
  | @point digits fraction _ hne hdigits hfraction hend =>
    have hpoint : cs = digits ++ '.' :: (fraction ++ more) := by simpa using hcs
    have hstarts : startsNumber cs = true := by
      cases digits with
      | cons d digits => simp [hcs, startsNumber, hdigits d List.mem_cons_self]
      | nil =>
        obtain ⟨d, fraction, rfl⟩ := List.exists_cons_of_ne_nil fun hnil => hne ⟨rfl, hnil⟩
        simp [hcs, startsNumber, hfraction d List.mem_cons_self]
    have hused := numberChars_point hdigits hfraction hend
    rw [← hpoint] at hused
    have hlength : Text.byteLength (digits ++ '.' :: fraction) =
        (digits ++ '.' :: fraction).length := by
      rw [Text.byteLength_append, Text.byteLength_cons, byteLength_digits hdigits,
        byteLength_digits hfraction, List.length_append, List.length_cons, Nat.add_comm _ 1]
      rfl
    exact cut_of_number hstarts hused (Decimal.ofChars?_point hne hdigits hfraction) hcs
      (by simp) hlength
  | @word first word _ hfirst hword hend =>
    subst hcs
    have hparts : ∀ c ∈ first :: word, isNamePart c = true := by
      intro c hc
      rcases List.mem_cons.mp hc with rfl | hc
      · exact Bool.or_eq_true_iff.mpr (.inl hfirst)
      · exact hword c hc
    have htake : (first :: (word ++ more)).takeWhile isNamePart = first :: word :=
      takeWhile_run hparts hend
    have hlength : Text.byteLength (first :: word) = (first :: word).length :=
      Text.byteLength_of_ascii fun c hc => isNamePart_ascii (hparts c hc)
    have hdrop : (word ++ more).drop ((first :: word).length - 1) = more :=
      drop_used rfl (List.cons_ne_nil first word)
    refine ⟨length_lt_of_used rfl (List.cons_ne_nil first word), ?_⟩
    simp only [List.cons_append, cutInPlace, cut, isQuote_of_isNameStart hfirst,
      startsNumber_of_isNameStart _ hfirst, hfirst, htake, hdrop, hlength, if_true,
      Bool.false_eq_true, if_false]
  | @sign s _ hs hsign =>
    obtain ⟨c, spelling, hspelling, -, hquote, hname, hpoint⟩ := spelling_eq_cons hs
    have hne := spelling_ne_nil s
    have hcons : cs = c :: (spelling ++ more) := by rw [hcs, hspelling]; rfl
    have hstarts : startsNumber cs = false := by
      have hdigit := isDigit_of_isNamePart_eq_false hname
      simp [hcons, startsNumber, hdigit, hpoint]
    have hstart : isNameStart c = false := (Bool.or_eq_false_iff.mp hname).1
    have hsign : sign? cs = some s := by rw [hcs]; exact hsign
    refine ⟨length_lt_of_used hcs hne, ?_⟩
    subst hcons
    have hdrop : (spelling ++ more).drop (s.spelling.length - 1) = more := by
      rw [← String.length_toList]
      exact drop_used hcs hne
    simp only [cutInPlace, cut, hquote, hstarts, hstart, hsign, hdrop, byteLength_spelling,
      Bool.false_eq_true, if_false]

/-- What is found to be a sign is the spelling of one. -/
theorem sign?_eq_some {cs : List Char} {s : Symbol} (h : sign? cs = some s) :
    s ≠ .isIn ∧ ∃ more, cs = s.spelling.toList ++ more := by
  have hmem : s ∈ signs := List.mem_of_find?_eq_some h
  have hstarts := List.find?_some h
  refine ⟨?_, ?_⟩
  · rintro rfl
    exact absurd hmem (by decide)
  · obtain ⟨more, hmore⟩ := List.isPrefixOf_iff_prefix.mp hstarts
    exact ⟨more, hmore.symm⟩

/-- A text that starts like a number starts with one. -/
theorem exists_written_number {cs : List Char} (h : startsNumber cs = true) :
    ∃ used more token, cs = used ++ more ∧ Written used more token := by
  rcases numberChars_cases cs with ⟨digits, more, rfl, -, hdigits, hend⟩ |
    ⟨digits, fraction, more, rfl, -, hdigits, hfraction, hend⟩
  · have hne : digits ≠ [] := by
      rintro rfl
      cases more with
      | nil => cases h
      | cons c more =>
        obtain ⟨hdigit, hpoint⟩ := hend c rfl
        simp [startsNumber, hdigit, hpoint] at h
    exact ⟨_, more, _, rfl, .whole hne hdigits hend⟩
  · have hne : ¬(digits = [] ∧ fraction = []) := by
      rintro ⟨rfl, rfl⟩
      cases more with
      | nil => exact absurd h (by decide)
      | cons c more =>
        have hdigit := hend c rfl
        have hpoint : Decimal.isDigit '.' = false := by decide
        simp [startsNumber, hdigit, hpoint] at h
    exact ⟨_, more, _, by simp, .point hne hdigits hfraction hend⟩

/-- What starts like a name is a word that is written. -/
theorem exists_written_word {c : Char} {rest : List Char} (h : isNameStart c = true) :
    ∃ used more token, c :: rest = used ++ more ∧ Written used more token := by
  have hsplit : rest.takeWhile isNamePart ++ rest.dropWhile isNamePart = rest :=
    List.takeWhile_append_dropWhile
  refine ⟨_, _, _, congrArg (c :: ·) hsplit.symm, .word h ?_ head?_dropWhile⟩
  exact List.all_eq_true.mp List.all_takeWhile

/-- What is cut off the front of a text is a token that is written there. -/
theorem written_of_cut {cs : List Char} {width : Nat} {hmore : more.length < cs.length}
    (h : cutInPlace position cs = .ok ⟨⟨token, width⟩, more, hmore⟩) :
    ∃ used, cs = used ++ more ∧ width = Text.byteLength used ∧ Written used more token := by
  have hexists : ∃ used more token, cs = used ++ more ∧ Written used more token := by
    unfold cutInPlace cut at h
    split at h
    · cases h
    · next c rest =>
      split at h
      · rw [find?_atHead] at h
        split at h
        · cases h
        · next literal hliteral =>
          obtain ⟨-, hquote, hcontent, more, hcs⟩ := Literal.atHead_eq_some.mp hliteral
          exact ⟨literal.quote :: literal.content ++ [literal.quote], more, _, by simp [hcs],
            .text hquote hcontent⟩
      · split at h
        · next hstarts => exact exists_written_number hstarts
        · split at h
          · next hstart => exact exists_written_word hstart
          · split at h
            · cases h
            · next s hsign =>
              obtain ⟨hs, more, hcs⟩ := sign?_eq_some hsign
              rw [hcs] at hsign ⊢
              exact ⟨_, more, _, rfl, .sign hs hsign⟩
  -- Only one token is cut off, so it is the one found here.
  obtain ⟨used, more, token, hcs, hwritten⟩ := hexists
  obtain ⟨_, hcut⟩ := cut_of_written position hwritten hcs
  rw [hcut] at h
  cases h
  exact ⟨used, hcs, rfl, hwritten⟩

/-- No token is empty. -/
theorem Written.ne_nil (h : Written used more token) : used ≠ [] := by
  cases h with
  | text | word => exact List.cons_ne_nil _ _
  | whole hne => exact hne
  | point => simp
  | @sign s => exact spelling_ne_nil s

/-- A token does not start with a space. -/
theorem Written.isSpace_head (h : Written used more token) :
    ∀ c ∈ used.head?, isSpace c = false := by
  intro c hc
  cases h with
  | text hquote =>
    obtain rfl := Option.some.inj hc
    exact isSpace_of_isQuote hquote
  | whole _ hdigits =>
    have hdigit := hdigits c (List.mem_of_mem_head? hc)
    exact isSpace_of_isNamePart (Bool.or_eq_true_iff.mpr (.inr hdigit))
  | @point digits _ _ _ hdigits =>
    cases digits with
    | nil =>
      obtain rfl := Option.some.inj hc
      decide
    | cons d digits =>
      obtain rfl := Option.some.inj hc
      have hdigit := hdigits d List.mem_cons_self
      exact isSpace_of_isNamePart (Bool.or_eq_true_iff.mpr (.inr hdigit))
  | word hfirst =>
    obtain rfl := Option.some.inj hc
    exact isSpace_of_isNamePart (Bool.or_eq_true_iff.mpr (.inl hfirst))
  | sign hs =>
    obtain ⟨d, spelling, hspelling, hspace, -⟩ := spelling_eq_cons hs
    rw [hspelling] at hc
    obtain rfl := Option.some.inj hc
    exact hspace

end Cutting

section Behind

variable {used more tail : List Char} {token : Token}

theorem head?_append {α : Type} {front back : List α} {p : α → Prop}
    (hfront : ∀ a ∈ front.head?, p a) (hback : ∀ a ∈ back.head?, p a) :
    ∀ a ∈ (front ++ back).head?, p a := by
  cases front with
  | nil => exact hback
  | cons a front => exact hfront

/-- No sign reaches into what starts with a break. -/
theorem sign?_append (cs : List Char) (htail : ∀ c ∈ tail.head?, IsBreak c) :
    sign? (cs ++ tail) = sign? cs := by
  have hprefix : ∀ s : Symbol, s.spelling.toList.isPrefixOf (cs ++ tail) =
      s.spelling.toList.isPrefixOf cs := by
    intro s
    rw [Bool.eq_iff_iff, List.isPrefixOf_iff_prefix, List.isPrefixOf_iff_prefix]
    constructor
    · rintro ⟨after, hafter⟩
      rcases List.append_eq_append_iff.mp hafter with ⟨later, hcs, -⟩ | ⟨later, hspelling, hlater⟩
      · exact ⟨later, hcs.symm⟩
      · cases later with
        | nil => exact ⟨[], by rw [hspelling]; simp⟩
        | cons c later =>
          have hbreak : IsBreak c := htail c (by rw [hlater]; rfl)
          have hmem : c ∈ s.spelling.toList := by simp [hspelling]
          exact absurd hmem (hbreak.not_mem_spelling s)
    · exact fun h => h.trans (List.prefix_append cs tail)
  simp only [sign?, hprefix]

/-- A sign that is the longest in front of a text is so where the text ends earlier. -/
theorem sign?_of_append {s : Symbol} (h : sign? (s.spelling.toList ++ (more ++ tail)) = some s) :
    sign? (s.spelling.toList ++ more) = some s := by
  rw [← List.append_assoc] at h
  obtain ⟨-, before, after, hsigns, hbefore⟩ := List.find?_eq_some_iff_append.mp h
  refine List.find?_eq_some_iff_append.mpr ⟨?_, before, after, hsigns, fun t ht => ?_⟩
  · exact List.isPrefixOf_iff_prefix.mpr (List.prefix_append _ _)
  · have hlonger := hbefore t ht
    rw [Bool.not_eq_true', Bool.eq_false_iff, ne_eq, List.isPrefixOf_iff_prefix] at hlonger ⊢
    exact fun hbegins => hlonger (hbegins.trans (List.prefix_append _ _))

/-- A token stays the same when a space or a quote is put behind the text. -/
theorem Written.append (h : Written used more token) (htail : ∀ c ∈ tail.head?, IsBreak c) :
    Written used (more ++ tail) token := by
  have hname : ∀ c ∈ tail.head?, isNamePart c = false := fun c hc => (htail c hc).isNamePart
  have hdigit : ∀ c ∈ tail.head?, Decimal.isDigit c = false :=
    fun c hc => isDigit_of_isNamePart_eq_false (hname c hc)
  cases h with
  | text hquote hcontent => exact .text hquote hcontent
  | whole hne hdigits hend =>
    exact .whole hne hdigits
      (head?_append hend fun c hc => ⟨hdigit c hc, (htail c hc).ne_point⟩)
  | point hne hdigits hfraction hend =>
    exact .point hne hdigits hfraction (head?_append hend hdigit)
  | word hfirst hword hend => exact .word hfirst hword (head?_append hend hname)
  | sign hs hsign =>
    rw [← sign?_append _ htail, List.append_assoc] at hsign
    exact .sign hs hsign

/-- The signs but for the word among them are what they are written as. -/
theorem sign?_spelling {s : Symbol} (hs : s ≠ .isIn) : sign? s.spelling.toList = some s := by
  cases s <;> first | exact absurd rfl hs | rfl

/-- A token stays the same when what stands behind it gives way to a text that starts with a space
or a quote, or to none. -/
theorem Written.before_break {rest : List Char} (h : Written used more token)
    (hrest : ∀ c ∈ rest.head?, IsBreak c) : Written used rest token := by
  have hname : ∀ c ∈ rest.head?, isNamePart c = false := fun c hc => (hrest c hc).isNamePart
  have hdigit : ∀ c ∈ rest.head?, Decimal.isDigit c = false :=
    fun c hc => isDigit_of_isNamePart_eq_false (hname c hc)
  cases h with
  | text hquote hcontent => exact .text hquote hcontent
  | whole hne hdigits => exact .whole hne hdigits fun c hc => ⟨hdigit c hc, (hrest c hc).ne_point⟩
  | point hne hdigits hfraction => exact .point hne hdigits hfraction hdigit
  | word hfirst hword => exact .word hfirst hword hname
  | sign hs =>
    refine .sign hs ?_
    rw [sign?_append _ hrest, sign?_spelling hs]

/-- A token stays the same when the text ends earlier behind it. -/
theorem Written.of_append (h : Written used (more ++ tail) token) : Written used more token := by
  have hhead : ∀ c ∈ more.head?, c ∈ (more ++ tail).head? := by
    intro c hc
    cases more with
    | nil => cases hc
    | cons d more => exact hc
  cases h with
  | text hquote hcontent => exact .text hquote hcontent
  | whole hne hdigits hend => exact .whole hne hdigits fun c hc => hend c (hhead c hc)
  | point hne hdigits hfraction hend =>
    exact .point hne hdigits hfraction fun c hc => hend c (hhead c hc)
  | word hfirst hword hend => exact .word hfirst hword fun c hc => hend c (hhead c hc)
  | sign hs hsign => exact .sign hs (sign?_of_append hsign)

end Behind

end Questlog.Lexeme
