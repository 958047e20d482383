import Questlog.Proofs.Expression.Spelling

namespace Questlog

open Lexeme (Spells Written)

variable {cs used more rest : List Char} {position offset : Nat} {escaped : Bool}

namespace Literal

variable {quote : Char} {content : List Char}

/-- The scan passes a character that is no quote. -/
theorem scanFrom_plain {c : Char} (h : isQuote c = false) :
    scanFrom offset escaped (c :: cs) = scanFrom (offset + c.utf8Size) (c = '\\') cs := by
  rw [scanFrom, h, Bool.false_and, if_neg Bool.false_ne_true]

/-- The scan passes a quote that has no closing one. -/
theorem scanFrom_open (hquote : isQuote quote = true)
    (h : atHead offset (quote :: rest) = none) :
    scanFrom offset false (quote :: rest) = scanFrom (offset + quote.utf8Size) false rest := by
  rw [atHead, if_pos hquote, Option.map_eq_none_iff] at h
  rw [scanFrom, hquote, Bool.not_false, Bool.and_true, if_pos rfl]
  simp only [h]

/-- The scan goes on behind a literal. -/
theorem scanFrom_enclosed (hquote : isQuote quote = true) (hcontent : Encloses quote content) :
    scanFrom offset false (quote :: (content ++ quote :: more)) =
      ⟨quote, offset, content⟩ ::
        scanFrom (⟨quote, offset, content⟩ : Literal).after false more := by
  obtain ⟨_, hread⟩ := readContent_enclosed hcontent more
  rw [scanFrom, hquote, Bool.not_false, Bool.and_true, if_pos rfl]
  simp only [hread]

/-- A literal is passed over as a whole. -/
theorem scanFrom_quoted (hquote : isQuote quote = true) (hcontent : Encloses quote content) :
    scanFrom offset false (quote :: content ++ [quote] ++ more) =
      ⟨quote, offset, content⟩ ::
        scanFrom (offset + Text.byteLength (quote :: content ++ [quote])) false more := by
  have hshape : quote :: content ++ [quote] ++ more = quote :: (content ++ quote :: more) := by
    simp
  have hafter : (⟨quote, offset, content⟩ : Literal).after =
      offset + Text.byteLength (quote :: content ++ [quote]) := by
    simp [after, stop]
    omega
  rw [hshape, scanFrom_enclosed hquote hcontent, hafter]

/-- Every literal that is found stands between its quotes at the place that it names. -/
theorem exists_append_of_mem_scanFrom :
    ∀ literal ∈ scanFrom offset escaped cs, ∃ front back,
      cs = front ++ literal.quote :: (literal.content ++ literal.quote :: back) ∧
        offset + Text.byteLength front = literal.start := by
  have hcons : ∀ {c : Char} {rest : List Char} {o : Nat} {literal : Literal},
      (∃ front back, rest = front ++ literal.quote :: (literal.content ++ literal.quote :: back) ∧
        o + c.utf8Size + Text.byteLength front = literal.start) →
      ∃ front back, c :: rest =
          front ++ literal.quote :: (literal.content ++ literal.quote :: back) ∧
        o + Text.byteLength front = literal.start := by
    rintro c rest o literal ⟨front, back, rfl, hstart⟩
    exact ⟨c :: front, back, rfl, by rw [Text.byteLength_cons, ← hstart, Nat.add_assoc]⟩
  induction offset, escaped, cs using scanFrom.induct with
  | case1 => simp [scanFrom]
  | case2 offset escaped c rest hmark hread ih =>
    intro literal hmem
    rw [scanFrom, if_pos hmark] at hmem
    simp only [hread] at hmem
    exact hcons (ih literal hmem)
  | case3 offset escaped c rest hmark content more _ hread found ih =>
    intro literal hmem
    rw [scanFrom, if_pos hmark] at hmem
    simp only [hread] at hmem
    obtain ⟨rfl, -⟩ := readContent_eq_some.mp hread
    rcases List.mem_cons.mp hmem with rfl | hmem
    · exact ⟨[], more, rfl, rfl⟩
    · obtain ⟨front, back, rfl, hstart⟩ := ih literal hmem
      refine ⟨c :: (content ++ c :: front), back, by simp, ?_⟩
      rw [← hstart]
      simp [found, after, stop]
      omega
  | case4 offset escaped c rest hmark ih =>
    intro literal hmem
    rw [scanFrom, if_neg hmark] at hmem
    exact hcons (ih literal hmem)

/-- No literal starts before the offset. -/
theorem le_start_of_mem_scanFrom :
    ∀ literal ∈ scanFrom offset escaped cs, offset ≤ literal.start := by
  intro literal hmem
  obtain ⟨front, -, -, hstart⟩ := exists_append_of_mem_scanFrom literal hmem
  exact hstart ▸ Nat.le_add_right _ _

theorem find?_scanFrom_eq_none {place : Nat} (h : place < offset) :
    (scanFrom offset escaped cs).find? (fun literal => literal.start = place) = none := by
  rw [List.find?_eq_none]
  intro literal hmem hstart
  have hbehind := le_start_of_mem_scanFrom literal hmem
  have hequal := of_decide_eq_true hstart
  omega

/-- A scan finds at its start the literal that the text starts with. -/
theorem find?_scanFrom (offset : Nat) (cs : List Char) :
    (scanFrom offset false cs).find? (fun literal => literal.start = offset) =
      atHead offset cs := by
  cases cs with
  | nil =>
    rw [scanFrom]
    rfl
  | cons c rest =>
    have hbehind : offset < offset + c.utf8Size := Nat.lt_add_of_pos_right (Char.utf8Size_pos c)
    cases hquote : isQuote c with
    | false =>
      have hnone : atHead offset (c :: rest) = none := by
        rw [atHead, if_neg (Bool.eq_false_iff.mp hquote)]
      rw [scanFrom_plain hquote, find?_scanFrom_eq_none hbehind, hnone]
    | true =>
      cases hliteral : atHead offset (c :: rest) with
      | none => rw [scanFrom_open hquote hliteral, find?_scanFrom_eq_none hbehind]
      | some literal =>
        obtain ⟨hstart, hmark, hcontent, more, hcs⟩ := atHead_eq_some.mp hliteral
        rw [hcs, scanFrom_enclosed hmark hcontent, ← hstart]
        exact List.find?_cons_of_pos (decide_eq_true rfl)

/-- Characters without quotes and backslashes are passed over. -/
theorem scanFrom_append_plain (hplain : ∀ c ∈ used, isQuote c = false ∧ c ≠ '\\') :
    scanFrom offset false (used ++ more) =
      scanFrom (offset + Text.byteLength used) false more := by
  induction used generalizing offset with
  | nil => rw [List.nil_append, Text.byteLength_nil, Nat.add_zero]
  | cons c used ih =>
    obtain ⟨hquote, hbackslash⟩ := hplain c List.mem_cons_self
    have hrest : scanFrom (offset + c.utf8Size) false (used ++ more) =
        scanFrom (offset + c.utf8Size + Text.byteLength used) false more :=
      ih fun d hd => hplain d (List.mem_cons_of_mem c hd)
    rw [List.cons_append, scanFrom_plain hquote, decide_eq_false hbackslash, hrest,
      Text.byteLength_cons, Nat.add_assoc]

theorem scanFrom_space {c : Char} (hspace : Lexeme.isSpace c = true) :
    scanFrom offset false (c :: cs) = scanFrom (offset + 1) false cs := by
  have hplain : isQuote c = false ∧ c ≠ '\\' := by
    rcases Lexeme.eq_of_isSpace hspace with rfl | rfl | rfl | rfl <;> decide
  rw [scanFrom_plain hplain.1, decide_eq_false hplain.2, Lexeme.utf8Size_of_isSpace hspace]

end Literal

namespace Lexeme

/-- A token is a literal, or consists of ASCII characters other than quotes and backslashes. -/
theorem Written.quoted_or_plain {token : Token} (h : Written used more token) :
    (∃ quote content, Literal.isQuote quote = true ∧ Literal.Encloses quote content ∧
      used = quote :: content ++ [quote]) ∨
    ∀ c ∈ used, c.toNat < 128 ∧ Literal.isQuote c = false ∧ c ≠ '\\' := by
  have hdigit : ∀ {c : Char}, Decimal.isDigit c = true →
      c.toNat < 128 ∧ Literal.isQuote c = false ∧ c ≠ '\\' :=
    fun h => ⟨isDigit_ascii h, isQuote_of_isDigit h, by rintro rfl; exact absurd h (by decide)⟩
  have hstart : ∀ {c : Char}, isNameStart c = true →
      c.toNat < 128 ∧ Literal.isQuote c = false ∧ c ≠ '\\' := fun h =>
    ⟨isNameStart_ascii h, isQuote_of_isNameStart h, by rintro rfl; exact absurd h (by decide)⟩
  cases h with
  | text hquote hcontent => exact .inl ⟨_, _, hquote, hcontent, rfl⟩
  | whole _ hdigits => exact .inr fun c hc => hdigit (hdigits c hc)
  | point _ hdigits hfraction =>
    refine .inr fun c hc => ?_
    rcases List.mem_append.mp hc with hc | hc
    · exact hdigit (hdigits c hc)
    · rcases List.mem_cons.mp hc with rfl | hc
      · decide
      · exact hdigit (hfraction c hc)
  | word hfirst hword =>
    refine .inr fun c hc => ?_
    rcases List.mem_cons.mp hc with rfl | hc
    · exact hstart hfirst
    · rcases Bool.or_eq_true_iff.mp (hword c hc) with hname | hnumber
      · exact hstart hname
      · exact hdigit hnumber
  | @sign s =>
    have hall : s.spelling.toList.all (fun c => !Literal.isQuote c && c != '\\') = true := by
      cases s <;> rfl
    exact .inr fun c hc => ⟨spelling_ascii s c hc, by simpa using List.all_eq_true.mp hall c hc⟩

/-- Only one token is written with given characters in front of a text. -/
theorem Written.unique {token other : Token} (h : Written used more token)
    (hother : Written used more other) : token = other := by
  obtain ⟨_, hcut⟩ := cut_of_written 0 h rfl
  obtain ⟨_, hcut'⟩ := cut_of_written 0 hother rfl
  rw [hcut] at hcut'
  cases hcut'
  rfl

/-- A text is written as a literal. -/
theorem Written.quoted {s : String} (h : Written used more (.text s)) :
    ∃ quote content, Literal.isQuote quote = true ∧ Literal.Encloses quote content ∧
      used = quote :: content ++ [quote] ∧ s = String.ofList (Literal.unescape content) := by
  generalize htoken : Token.text s = token at h
  cases h with
  | text hquote hcontent =>
    obtain rfl := Token.text.inj htoken
    exact ⟨_, _, hquote, hcontent, rfl, rfl⟩
  | word =>
    unfold ofWord at htoken
    split at htoken <;> cases htoken
  | whole | point | sign => cases htoken

/-- Of the literals found ahead, those from a place on are the ones that a scan from there finds. -/
def Ahead (literals : List Literal) (position : Nat) (cs : List Char) : Prop :=
  ∃ passed, literals = passed ++ Literal.scanFrom position false cs ∧
    ∀ literal ∈ passed, literal.start < position

/-- At the start of a text the literals of the text lie ahead. -/
theorem ahead_scan (text : String) : Ahead (Literal.scan text) 0 text.toList :=
  ⟨[], rfl, by simp⟩

namespace Ahead

variable {literals : List Literal}

/-- A literal that lies ahead here is the one that would be read here. -/
theorem find?_eq (h : Ahead literals position cs) :
    literals.find? (fun literal => literal.start = position) = Literal.atHead position cs := by
  obtain ⟨passed, rfl, hpassed⟩ := h
  have hskip : passed.find? (fun literal => literal.start = position) = none := by
    rw [List.find?_eq_none]
    intro literal hmem hstart
    exact absurd (of_decide_eq_true hstart) (Nat.ne_of_lt (hpassed literal hmem))
  rw [List.find?_append, hskip, Option.none_or, Literal.find?_scanFrom]

theorem plain (h : Ahead literals position (used ++ more))
    (hplain : ∀ c ∈ used, Literal.isQuote c = false ∧ c ≠ '\\') :
    Ahead literals (position + Text.byteLength used) more := by
  obtain ⟨passed, hliterals, hpassed⟩ := h
  rw [Literal.scanFrom_append_plain hplain] at hliterals
  refine ⟨passed, hliterals, fun literal hmem => ?_⟩
  exact Nat.lt_add_right (Text.byteLength used) (hpassed literal hmem)

theorem space {c : Char} (h : Ahead literals position (c :: cs)) (hspace : isSpace c = true) :
    Ahead literals (position + 1) cs := by
  obtain ⟨passed, hliterals, hpassed⟩ := h
  rw [Literal.scanFrom_space hspace] at hliterals
  exact ⟨passed, hliterals, fun literal hmem => Nat.lt_succ_of_lt (hpassed literal hmem)⟩

/-- Behind a token that is written, the literals ahead are still the right ones. -/
theorem written {token : Token} (h : Ahead literals position (used ++ more))
    (hwritten : Written used more token) :
    Ahead literals (position + Text.byteLength used) more := by
  rcases hwritten.quoted_or_plain with ⟨quote, content, hquote, hcontent, rfl⟩ | hplain
  · obtain ⟨passed, hliterals, hpassed⟩ := h
    rw [Literal.scanFrom_quoted hquote hcontent] at hliterals
    refine ⟨passed ++ [⟨quote, position, content⟩], by simp [hliterals], fun literal hmem => ?_⟩
    have hpos := Char.utf8Size_pos quote
    have hstart : literal.start ≤ position := by
      rcases List.mem_append.mp hmem with hmem | hmem
      · exact Nat.le_of_lt (hpassed literal hmem)
      · exact Nat.le_of_eq (congrArg Literal.start (List.mem_singleton.mp hmem))
    simp only [Text.byteLength_cons, List.cons_append]
    omega
  · exact h.plain fun c hc => (hplain c hc).2

end Ahead

/-- Literals found ahead are cut off as if each were read in place. -/
theorem Ahead.cutAll_eq {literals : List Literal} (h : Ahead literals position cs) :
    cutAll literals position cs = cutAllInPlace position cs := by
  induction position, cs using cutting with
  | nil position => rw [cutAll, cutAllInPlace]
  | space position c cs hspace ih =>
    rw [cutAll, if_pos hspace, cutAllInPlace_space hspace, ih (h.space hspace)]
  | refused position c cs e hspace hcut =>
    have hahead := cut_eq_inPlace h.find?_eq
    rw [cutAllInPlace_of_cut_error hspace hcut, cutAll, hspace, if_neg Bool.false_ne_true]
    simp only [hahead, hcut]
  | written position used more token hwritten ih =>
    obtain ⟨hmore, hcut⟩ := cut_of_written position hwritten rfl
    have hrest := ih (h.written hwritten)
    have hhead := hwritten.isSpace_head
    rw [← cut_eq_inPlace h.find?_eq] at hcut
    rw [cutAllInPlace_written hwritten]
    cases used with
    | nil => exact absurd rfl hwritten.ne_nil
    | cons c used =>
      have hfirst : cut literals position (c :: (used ++ more)) = .ok ⟨⟨token, _⟩, more, hmore⟩ :=
        hcut
      rw [List.cons_append, cutAll, hhead c rfl, if_neg Bool.false_ne_true]
      simp only [hfirst, hrest]
      cases cutAllInPlace _ more <;> rfl

/-- A text is cut as if no literals had been found ahead. -/
theorem cutAll_scan (text : String) :
    cutAll (Literal.scan text) 0 text.toList = cutAllInPlace 0 text.toList :=
  (ahead_scan text).cutAll_eq

theorem tokenize_of_cutAllInPlace {text : String} {first : Lexeme} {rest : List Lexeme}
    (h : cutAllInPlace 0 text.toList = .ok (first :: rest)) :
    tokenize text = .ok (first :: rest) := by
  simp only [tokenize, cutAll_scan, h]

end Lexeme

end Questlog
