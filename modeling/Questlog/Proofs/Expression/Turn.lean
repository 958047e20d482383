import Mathlib
import Questlog.Proofs.Expression.Opacity

namespace Questlog

namespace Lexeme

/-- What a turn does: it passes a space, takes a token, refuses the text, or asks for a slice that
is not there. The first two go on at the next offset. A turn takes slices between offsets, which
need not be there: an offset may fall into the middle of a character. -/
inductive Turn
  | space (next : Nat)
  | token (token : Token) (next : Nat)
  | refused (e : CompileError)
  | broken

namespace Turn

/-- The offset at which the next turn starts. -/
def next? : Turn → Option Nat
  | space next | token _ next => some next
  | refused _ | broken => none

/-- Goes on with the text between two offsets. -/
def sliced (text : String) (start stop : Nat) (use : String → Turn) : Turn :=
  match Text.slice? text start stop with
  | none => .broken
  | some part => use part

/-- The turn at an offset at which the byte `b` stands, with `bs` behind it. -/
def ofOctets (text : String) (offset : Nat) (b : Char) (bs : List Char) : Turn :=
  if isSpace b then .space (offset + 1)
  else if Literal.isQuote b then
    match (Literal.scan text).find? (fun literal => literal.start = offset) with
    | none => .refused (.unterminatedString offset)
    | some literal => sliced text (offset + 1) literal.stop fun content =>
        .token (.text (String.ofList (Literal.unescape content.toList))) literal.after
  else if startsNumber (b :: bs) then
    let next := offset + (numberChars (b :: bs)).length
    sliced text offset next fun raw =>
      match Decimal.ofChars? raw.toList with
      | none => .refused (.invalidNumber raw offset)
      | some value => .token (.number (value.toBinary64 false)) next
  else if isNameStart b then
    let next := offset + ((b :: bs).takeWhile isNamePart).length
    sliced text offset next fun word => .token (ofWord word.toList) next
  else
    match sign? (b :: bs) with
    | none => sliced text offset text.utf8ByteSize fun rest =>
        .refused (.unexpectedChar (rest.toList.headD '\uFFFD') offset)
    | some symbol => .token (.symbol symbol) (offset + symbol.spelling.length)

end Turn

/-- The turn at an offset. There is none where no byte stands. -/
def turn (text : String) (offset : Nat) : Option Turn :=
  match Text.octetsFrom text offset with
  | [] => none
  | b :: bs => some (Turn.ofOctets text offset b bs)

/-- The characters `rest` stand at the offset, and the literals that are ahead are those in them.
Where characters start, all slices of a turn are there, and it does what the cutting does with the
characters. -/
structure At (text : String) (offset : Nat) (rest : List Char) : Prop where
  remains : Text.Remains text offset rest
  ahead : Ahead (Literal.scan text) offset rest

variable {text : String} {offset : Nat} {c : Char} {rest used more : List Char} {token : Token}
  {e : CompileError}

/-- Whether a number starts can be told from the bytes. -/
theorem startsNumber_octets (cs : List Char) :
    startsNumber (Text.octets cs) = startsNumber cs := by
  have hhead : ∀ cs : List Char, ((Text.octets cs).head?.map Decimal.isDigit).getD false =
      (cs.head?.map Decimal.isDigit).getD false := by
    intro cs
    cases cs with
    | nil => rfl
    | cons c cs =>
      rcases Text.octets_cons_cases c cs with ⟨-, hoctets⟩ | ⟨hwide, b, bs, hoctets, hb⟩
      · rw [hoctets]
        rfl
      · rw [hoctets]
        exact (Text.eq_false_of_wide isDigit_ascii hb).trans
          (Text.eq_false_of_wide isDigit_ascii hwide).symm
  have hfar : ∀ {c : Char} {cs : List Char}, 128 ≤ c.toNat → startsNumber (c :: cs) = false := by
    intro c cs hwide
    have hpoint : c ≠ '.' := by
      rintro rfl
      exact absurd hwide (by decide)
    simp [startsNumber, Text.eq_false_of_wide isDigit_ascii hwide, hpoint]
  cases cs with
  | nil => rfl
  | cons c cs =>
    rcases Text.octets_cons_cases c cs with ⟨-, hoctets⟩ | ⟨hwide, b, bs, hoctets, hb⟩
    · rw [hoctets, startsNumber, startsNumber, hhead]
    · rw [hoctets, hfar hb, hfar hwide]

/-- Which sign starts can be told from the bytes. -/
theorem sign?_octets (cs : List Char) : sign? (Text.octets cs) = sign? cs := by
  simp only [sign?, Text.isPrefixOf_octets (spelling_ascii _)]

/-- A token is written in front of some bytes if it is in front of the characters. -/
theorem Written.octets (h : Written used more token) : Written used (Text.octets more) token := by
  have hdigit : ∀ c : Char, 128 ≤ c.toNat → Decimal.isDigit c = false :=
    fun c hc => Text.eq_false_of_wide isDigit_ascii hc
  cases h with
  | text hquote hcontent => exact .text hquote hcontent
  | whole hne hdigits hend =>
    refine .whole hne hdigits (Text.head?_octets (fun c hc => ⟨hdigit c hc, ?_⟩) hend)
    rintro rfl
    exact absurd hc (by decide)
  | point hne hdigits hfraction hend =>
    exact .point hne hdigits hfraction (Text.head?_octets hdigit hend)
  | word hfirst hword hend =>
    have hpart : ∀ c : Char, 128 ≤ c.toNat → isNamePart c = false :=
      fun c hc => Text.eq_false_of_wide isNamePart_ascii hc
    exact .word hfirst hword (Text.head?_octets hpart hend)
  | @sign s _ hs hsign =>
    exact .sign hs (by rw [← Text.octets_append (spelling_ascii s), sign?_octets, hsign])

/-- The content of a literal is the slice between its quotes. -/
theorem slice?_quoted {quote : Char} {content : List Char}
    (h : Text.Remains text offset (quote :: content ++ [quote] ++ more))
    (hquote : Literal.isQuote quote = true) :
    Text.slice? text (offset + 1) (offset + Text.byteLength (quote :: content ++ [quote]) - 1) =
      some (String.ofList content) := by
  have hwidth : quote.utf8Size = 1 := utf8Size_of_isQuote hquote
  have hshape : quote :: content ++ [quote] ++ more = quote :: (content ++ quote :: more) := by simp
  have hstop : offset + Text.byteLength (quote :: content ++ [quote]) - 1 =
      offset + 1 + Text.byteLength content := by
    simp [hwidth]
    omega
  rw [hshape] at h
  have hslice := h.cons.slice?_eq
  rwa [hwidth, ← hstop] at hslice

/-- A number is as much of a text as it is long. -/
theorem take_numberChars (cs : List Char) : cs.take (numberChars cs).length = numberChars cs := by
  rcases numberChars_cases cs with ⟨digits, more, hcs, hused, -⟩ |
    ⟨digits, fraction, more, hcs, hused, -⟩
  · rw [hused, hcs, List.take_left]
  · have hsplit : cs = digits ++ '.' :: fraction ++ more := by
      rw [hcs, List.append_assoc, List.cons_append]
    rw [hused, hsplit, List.take_left]

/-- Where a token other than a literal is cut off the bytes, the turn takes the token, given that
the slice is there. -/
theorem Turn.ofOctets_of_cut {b : Char} {bs : List Char} {width : Nat}
    {hmore : more.length < (b :: bs).length} (hspace : isSpace b = false)
    (hquote : Literal.isQuote b = false)
    (hcut : cutInPlace offset (b :: bs) = .ok ⟨⟨token, width⟩, more, hmore⟩)
    (hslice : Text.slice? text offset (offset + width) =
      some (String.ofList ((b :: bs).take width))) :
    ofOctets text offset b bs = .token token (offset + width) := by
  unfold cutInPlace cut at hcut
  dsimp only at hcut
  rw [hquote, if_neg Bool.false_ne_true] at hcut
  rw [ofOctets, hspace, hquote, if_neg Bool.false_ne_true, if_neg Bool.false_ne_true]
  split at hcut
  · next hstarts =>
    split at hcut
    · cases hcut
    · next value hvalue =>
      cases hcut
      rw [take_numberChars] at hslice
      rw [if_pos hstarts, sliced]
      simp only [hslice, String.toList_ofList, hvalue]
  · next hstarts =>
    rw [if_neg hstarts]
    split at hcut
    · next hname =>
      cases hcut
      have hword : (b :: bs).takeWhile isNamePart <+: b :: bs := List.takeWhile_prefix isNamePart
      rw [← List.prefix_iff_eq_take.mp hword] at hslice
      rw [if_pos hname, sliced]
      simp only [hslice, String.toList_ofList]
    · next hname =>
      rw [if_neg hname]
      cases hsign : sign? (b :: bs) with
      | none =>
        rw [hsign] at hcut
        cases hcut
      | some symbol =>
        rw [hsign] at hcut
        cases hcut
        rfl

namespace At

theorem start (text : String) : At text 0 text.toList :=
  ⟨Text.remains_toList text, ahead_scan text⟩

/-- Characters start behind a space. -/
theorem space (h : At text offset (c :: rest)) (hspace : isSpace c = true) :
    At text (offset + 1) rest := by
  have hremains := h.remains.cons
  rw [utf8Size_of_isSpace hspace] at hremains
  exact ⟨hremains, h.ahead.space hspace⟩

theorem written (h : At text offset (used ++ more)) (hwritten : Written used more token) :
    At text (offset + Text.byteLength used) more :=
  ⟨h.remains.append, h.ahead.written hwritten⟩

theorem turn_nil (h : At text offset []) : turn text offset = none := by
  rw [turn, h.remains.octetsFrom_eq]
  rfl

theorem turn_ascii (h : At text offset (c :: rest)) (hc : c.toNat < 128) :
    turn text offset = some (Turn.ofOctets text offset c (Text.octets rest)) := by
  rcases Text.octets_cons_cases c rest with ⟨-, hoctets⟩ | ⟨hwide, -⟩
  · rw [turn, h.remains.octetsFrom_eq, hoctets]
  · exact absurd hc (Nat.not_lt.mpr hwide)

theorem turn_space (h : At text offset (c :: rest)) (hspace : isSpace c = true) :
    turn text offset = some (.space (offset + 1)) := by
  rw [h.turn_ascii (isSpace_ascii hspace), Turn.ofOctets, if_pos hspace]

/-- A turn at a literal takes the text that it stands for. -/
theorem turn_quoted {quote : Char} {content : List Char}
    (h : At text offset (quote :: content ++ [quote] ++ more))
    (hquote : Literal.isQuote quote = true) (hcontent : Literal.Encloses quote content) :
    turn text offset = some (.token (.text (String.ofList (Literal.unescape content)))
      (offset + Text.byteLength (quote :: content ++ [quote]))) := by
  have hslice := slice?_quoted h.remains hquote
  have hshape : quote :: content ++ [quote] ++ more = quote :: (content ++ quote :: more) := by simp
  rw [hshape] at h
  have hliteral : Literal.atHead offset (quote :: (content ++ quote :: more)) =
      some ⟨quote, offset, content⟩ :=
    Literal.atHead_eq_some.mpr ⟨rfl, hquote, hcontent, more, rfl⟩
  have hfind := h.ahead.find?_eq.trans hliteral
  have hafter : (⟨quote, offset, content⟩ : Literal).after =
      offset + Text.byteLength (quote :: content ++ [quote]) := by
    simp [Literal.after, Literal.stop]
    omega
  have hstop : (⟨quote, offset, content⟩ : Literal).stop =
      offset + Text.byteLength (quote :: content ++ [quote]) - 1 := by
    rw [← hafter, Literal.after, utf8Size_of_isQuote hquote, Nat.add_sub_cancel]
  rw [h.turn_ascii (isQuote_ascii hquote), Turn.ofOctets, isSpace_of_isQuote hquote,
    if_neg Bool.false_ne_true, if_pos hquote]
  simp only [hfind, Turn.sliced, hstop, hslice, String.toList_ofList, hafter]

/-- A turn at any token takes it. -/
theorem turn_written (h : At text offset (used ++ more)) (hwritten : Written used more token) :
    turn text offset = some (.token token (offset + Text.byteLength used)) := by
  rcases hwritten.quoted_or_plain with ⟨quote, content, hquote, hcontent, rfl⟩ | hplain
  · rw [hwritten.unique (.text hquote hcontent)]
    exact h.turn_quoted hquote hcontent
  · have hascii : ∀ c ∈ used, c.toNat < 128 := fun c hc => (hplain c hc).1
    have hhead := hwritten.isSpace_head
    have hfront : (used ++ Text.octets more).take (Text.byteLength used) = used := by
      rw [Text.byteLength_of_ascii hascii, List.take_left]
    obtain ⟨_, hcut⟩ := cut_of_written offset hwritten.octets rfl
    obtain ⟨c, used, rfl⟩ := List.exists_cons_of_ne_nil hwritten.ne_nil
    obtain ⟨hc, htail⟩ := List.forall_mem_cons.mp hascii
    have hquote : Literal.isQuote c = false := (hplain c List.mem_cons_self).2.1
    have hslice : Text.slice? text offset (offset + Text.byteLength (c :: used)) =
        some (String.ofList ((c :: used ++ Text.octets more).take
          (Text.byteLength (c :: used)))) := by
      rw [hfront]
      exact h.remains.slice?_eq
    have hturn := turn_ascii h hc
    rw [List.append_eq, Text.octets_append htail] at hturn
    exact hturn.trans (congrArg some (Turn.ofOctets_of_cut (hhead c rfl) hquote hcut hslice))

/-- A text that cannot be cut is refused, and the slice with the character to blame is there. -/
theorem turn_refused (h : At text offset (c :: rest)) (hspace : isSpace c = false)
    (hcut : cutInPlace offset (c :: rest) = .error e) :
    turn text offset = some (.refused e) := by
  rcases cut_error_cases hcut with ⟨hquote, hnone, rfl⟩ | ⟨hquote, hstarts, hname, hsign, rfl⟩
  · have hfind := h.ahead.find?_eq.trans hnone
    rw [h.turn_ascii (isQuote_ascii hquote), Turn.ofOctets, hspace, if_neg Bool.false_ne_true,
      if_pos hquote]
    simp only [hfind]
  · have hwide : ∀ c : Char, 128 ≤ c.toNat →
        isSpace c = false ∧ Literal.isQuote c = false ∧ isNameStart c = false :=
      fun c hc => ⟨Text.eq_false_of_wide isSpace_ascii hc, Text.eq_false_of_wide isQuote_ascii hc,
        Text.eq_false_of_wide isNameStart_ascii hc⟩
    have hclasses : ∀ d ∈ (c :: rest).head?,
        isSpace d = false ∧ Literal.isQuote d = false ∧ isNameStart d = false := by
      intro d hd
      obtain rfl := Option.some.inj hd
      exact ⟨hspace, hquote, hname⟩
    have hbyte := Text.head?_octets hwide hclasses
    rw [← startsNumber_octets] at hstarts
    rw [← sign?_octets] at hsign
    have hslice := h.remains.slice?_size
    obtain ⟨b, bs, hoctets⟩ : ∃ b bs, Text.octets (c :: rest) = b :: bs := by
      rcases Text.octets_cons_cases c rest with ⟨-, hoctets⟩ | ⟨-, b, bs, hoctets, -⟩
      · exact ⟨_, _, hoctets⟩
      · exact ⟨_, _, hoctets⟩
    rw [hoctets] at hbyte hstarts hsign
    obtain ⟨hspace, hquote, hname⟩ := hbyte b rfl
    rw [turn, h.remains.octetsFrom_eq, hoctets]
    simp only [Turn.ofOctets, hspace, hquote, hstarts, hname, hsign, Turn.sliced, hslice,
      Bool.false_eq_true, if_false, String.toList_ofList, List.headD_cons]

end At

end Lexeme

end Questlog
