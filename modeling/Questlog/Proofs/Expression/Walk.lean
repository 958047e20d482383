import Mathlib
import Questlog.Proofs.Expression.Turn

namespace Questlog

namespace Literal

/-- Whether the replacing of escapes comes to a backslash with nothing behind it. -/
def dangles : List Char → Bool
  | '\\' :: _ :: rest => dangles rest
  | c :: rest => c = '\\' || dangles rest
  | [] => false

theorem dangles_eq_false {content : List Char} (h : content.getLast? ≠ some '\\') :
    dangles content = false := by
  have hlast : ∀ {c : Char} {rest : List Char}, (c :: rest).getLast? ≠ some '\\' →
      rest.getLast? ≠ some '\\' := by
    intro c rest hcons hrest
    rw [List.getLast?_cons, hrest] at hcons
    exact hcons rfl
  fun_induction dangles content with
  | case1 c rest ih => exact ih (hlast (hlast h))
  | case2 c rest hescape ih =>
    have hplain : c ≠ '\\' := by
      rintro rfl
      cases rest with
      | nil => exact h rfl
      | cons d rest => exact hescape d rest rfl rfl
    rw [decide_eq_false hplain, Bool.false_or]
    exact ih (hlast h)
  | case3 => rfl

end Literal

namespace Lexeme

/-- Digits with a point among them or not, or a point with digits behind it. -/
inductive IsNumeral : List Char → Prop
  | whole {digits : List Char} : digits ≠ [] → (∀ d ∈ digits, Decimal.isDigit d = true) →
    IsNumeral digits
  | point {digits fraction : List Char} : digits ≠ [] →
    (∀ d ∈ digits, Decimal.isDigit d = true) → (∀ d ∈ fraction, Decimal.isDigit d = true) →
    IsNumeral (digits ++ '.' :: fraction)
  | fraction {fraction : List Char} : fraction ≠ [] →
    (∀ d ∈ fraction, Decimal.isDigit d = true) → IsNumeral ('.' :: fraction)

/-- The offsets at which turns start. -/
inductive Reaches (text : String) : Nat → Prop
  | start : Reaches text 0
  | next {offset next : Nat} : Reaches text offset →
    (turn text offset).bind Turn.next? = some next → Reaches text next

/-- `Runs text offset result`: the turns from the offset on come to an end, with this result. -/
inductive Runs (text : String) : Nat → Except CompileError (List Lexeme) → Prop
  | done {offset : Nat} : turn text offset = none → Runs text offset (.ok [])
  | refused {offset : Nat} {e : CompileError} : turn text offset = some (.refused e) →
    Runs text offset (.error e)
  | space {offset next : Nat} {result : Except CompileError (List Lexeme)} :
    turn text offset = some (.space next) → Runs text next result → Runs text offset result
  | token {offset next : Nat} {token : Token} {result : Except CompileError (List Lexeme)} :
    turn text offset = some (.token token next) → Runs text next result →
    Runs text offset (result.map (⟨token, offset⟩ :: ·))

/-- Refuses a text without lexemes. -/
def atLeastOne : Except CompileError (List Lexeme) → Except CompileError (List Lexeme)
  | .ok [] => .error .emptyInput
  | result => result

/-- What holds of the turn at an offset: a character starts there, or the text has ended, which is
just when no turn is left. Each slice that the turn takes is there, and it goes on at a boundary
behind. A number is a numeral and is read as one, and in the content of a literal a character stands
behind every backslash that escapes. -/
structure Proceeds (text : String) (offset : Nat) : Prop where
  boundary : Text.IsBoundary text offset
  ends : turn text offset = none ↔ offset = text.utf8ByteSize
  slices : turn text offset ≠ some .broken
  advances : ∀ next, (turn text offset).bind Turn.next? = some next →
    offset < next ∧ next ≤ text.utf8ByteSize ∧ Text.IsBoundary text next
  numeral : ∀ value next, turn text offset = some (.token (.number value) next) →
    ∃ raw decimal, Text.slice? text offset next = some raw ∧ IsNumeral raw.toList ∧
      Decimal.ofChars? raw.toList = some decimal ∧ value = decimal.toBinary64 false
  valid : ∀ raw position, turn text offset ≠ some (.refused (.invalidNumber raw position))
  unescapes : ∀ s next, turn text offset = some (.token (.text s) next) →
    ∃ content, Text.slice? text (offset + 1) (next - 1) = some content ∧
      s = String.ofList (Literal.unescape content.toList) ∧
      Literal.dangles content.toList = false

variable {text : String} {offset next : Nat} {c : Char} {rest used more : List Char} {token : Token}
  {e : CompileError}

/-- What a turn does at an offset from which on the text consists of given characters. -/
inductive Takes (text : String) (offset : Nat) : List Char → Option Turn → Prop
  | ended : Takes text offset [] none
  | refused {c : Char} {cs : List Char} :
    Takes text offset (c :: cs) (some (.refused (refusal offset c)))
  | space {c : Char} {cs : List Char} : At text (offset + 1) cs →
    Takes text offset (c :: cs) (some (.space (offset + 1)))
  | token {used more : List Char} {token : Token} : Written used more token →
    At text (offset + Text.byteLength used) more →
    Takes text offset (used ++ more) (some (.token token (offset + Text.byteLength used)))

namespace At

/-- What a turn takes where characters start. -/
theorem takes (h : At text offset rest) : Takes text offset rest (turn text offset) := by
  induction offset, rest using cutting with
  | nil offset =>
    rw [h.turn_nil]
    exact .ended
  | space offset c cs hspace =>
    rw [h.turn_space hspace]
    exact .space (h.space hspace)
  | refused offset c cs e hspace hcut =>
    rw [h.turn_refused hspace hcut, eq_refusal_of_cut hcut]
    exact .refused
  | written offset used more token hwritten =>
    rw [h.turn_written hwritten]
    exact .token hwritten (h.written hwritten)

/-- A turn that goes on does so farther behind, where characters start again. -/
theorem forward (h : At text offset rest)
    (hnext : (turn text offset).bind Turn.next? = some next) :
    offset < next ∧ ∃ more, At text next more := by
  have htakes := h.takes
  generalize turn text offset = taken at hnext htakes
  cases htakes with
  | ended | refused => cases hnext
  | space hcs =>
    cases hnext
    exact ⟨Nat.lt_succ_self offset, _, hcs⟩
  | token hwritten hmore =>
    cases hnext
    exact ⟨Nat.lt_add_of_pos_right (Text.byteLength_pos hwritten.ne_nil), _, hmore⟩

/-- A token that a turn takes is written at its offset. -/
theorem exists_written (h : At text offset rest)
    (hturn : turn text offset = some (.token token next)) :
    ∃ used more, rest = used ++ more ∧ Written used more token ∧
      next = offset + Text.byteLength used := by
  have htakes := h.takes
  rw [hturn] at htakes
  cases htakes with
  | token hwritten => exact ⟨_, _, rfl, hwritten, rfl⟩

/-- A turn refuses the character at hand. -/
theorem eq_refusal (h : At text offset rest) (hturn : turn text offset = some (.refused e)) :
    ∃ c, e = refusal offset c := by
  have htakes := h.takes
  rw [hturn] at htakes
  cases htakes with
  | refused => exact ⟨_, rfl⟩

/-- No slice is missing. -/
theorem turn_ne_broken (h : At text offset rest) : turn text offset ≠ some .broken := by
  intro hturn
  have htakes := h.takes
  rw [hturn] at htakes
  cases htakes

/-- A turn has nothing left to do at the end and only there. -/
theorem turn_eq_none_iff (h : At text offset rest) :
    turn text offset = none ↔ offset = text.utf8ByteSize := by
  have hsize := h.remains.size_eq
  constructor
  · intro hturn
    have htakes := h.takes
    rw [hturn] at htakes
    cases htakes with
    | ended => rw [hsize, Text.byteLength_nil, Nat.add_zero]
  · intro hend
    have hempty : rest = [] := by
      by_contra hne
      have hpos := Text.byteLength_pos hne
      omega
    subst hempty
    exact h.turn_nil

end At

/-- At the offsets that the walk reaches characters start. -/
theorem Reaches.exists_at (h : Reaches text offset) : ∃ rest, At text offset rest := by
  induction h with
  | start => exact ⟨text.toList, At.start text⟩
  | next _ hnext ih =>
    obtain ⟨rest, hrest⟩ := ih
    exact (hrest.forward hnext).2

section Runs

variable {result : Except CompileError (List Lexeme)}

/-- The walk ends at the end. -/
theorem runs_of_none (h : turn text offset = none) : Runs text offset result ↔ result = .ok [] := by
  constructor
  · intro hruns
    cases hruns with
    | done => rfl
    | refused hturn | space hturn | token hturn =>
      rw [h] at hturn
      cases hturn
  · rintro rfl
    exact .done h

theorem runs_of_refused (h : turn text offset = some (.refused e)) :
    Runs text offset result ↔ result = .error e := by
  constructor
  · intro hruns
    cases hruns with
    | refused hturn =>
      rw [h] at hturn
      cases hturn
      rfl
    | done hturn | space hturn | token hturn =>
      rw [h] at hturn
      cases hturn
  · rintro rfl
    exact .refused h

theorem runs_of_space (h : turn text offset = some (.space next)) :
    Runs text offset result ↔ Runs text next result := by
  constructor
  · intro hruns
    cases hruns with
    | space hturn hrest =>
      rw [h] at hturn
      cases hturn
      exact hrest
    | done hturn | refused hturn | token hturn =>
      rw [h] at hturn
      cases hturn
  · exact .space h

/-- The walk goes on behind a token, which comes first. -/
theorem runs_of_token (h : turn text offset = some (.token token next)) :
    Runs text offset result ↔
      ∃ later, Runs text next later ∧ result = later.map (⟨token, offset⟩ :: ·) := by
  constructor
  · intro hruns
    cases hruns with
    | token hturn hrest =>
      rw [h] at hturn
      cases hturn
      exact ⟨_, hrest, rfl⟩
    | done hturn | refused hturn | space hturn =>
      rw [h] at hturn
      cases hturn
  · rintro ⟨later, hrest, rfl⟩
    exact .token h hrest

/-- The turns from an offset on come to an end with what the cutting in place gives, and only with
that. -/
theorem At.runs_iff (h : At text offset rest) :
    Runs text offset result ↔ result = cutAllInPlace offset rest := by
  induction offset, rest using cutting generalizing result with
  | nil offset => rw [runs_of_none h.turn_nil, cutAllInPlace_nil]
  | space offset c cs hspace ih =>
    rw [runs_of_space (h.turn_space hspace), ih (h.space hspace), cutAllInPlace_space hspace]
  | refused offset c cs e hspace hcut =>
    rw [runs_of_refused (h.turn_refused hspace hcut), cutAllInPlace_of_cut_error hspace hcut]
  | written offset used more token hwritten ih =>
    have hrest : ∀ later, Runs text (offset + Text.byteLength used) later ↔
        later = cutAllInPlace (offset + Text.byteLength used) more :=
      fun _ => ih (h.written hwritten)
    simp only [runs_of_token (h.turn_written hwritten), hrest, exists_eq_left,
      cutAllInPlace_written hwritten]

end Runs

/-- Cutting a text is cutting it in place, with one lexeme at least. -/
theorem tokenize_eq (text : String) :
    tokenize text = atLeastOne (cutAllInPlace 0 text.toList) := by
  rw [tokenize, cutAll_scan]
  cases cutAllInPlace 0 text.toList with
  | error e => rfl
  | ok lexemes => cases lexemes <;> rfl

/-- A text that cannot be cut is blank or has a character that is refused. -/
theorem tokenize_error_cases (h : tokenize text = .error e) :
    e = .emptyInput ∨ ∃ position c, e = refusal position c := by
  rw [tokenize_eq] at h
  cases hcut : cutAllInPlace 0 text.toList with
  | error e' =>
    obtain ⟨front, c, -, -, -, -, hrefusal⟩ := spells_of_cut_error hcut
    rw [hcut] at h
    obtain rfl := Except.error.inj h
    exact .inr ⟨_, c, hrefusal⟩
  | ok lexemes =>
    rw [hcut] at h
    cases lexemes with
    | nil => exact .inl (Except.error.inj h).symm
    | cons => cases h

/-- A number is written as a numeral, and is what the numeral is read as. -/
theorem Written.numeral {value : Binary64} (h : Written used more (.number value)) :
    IsNumeral used ∧
      ∃ decimal, Decimal.ofChars? used = some decimal ∧ value = decimal.toBinary64 false := by
  generalize htoken : Token.number value = token at h
  cases h with
  | whole hne hdigits =>
    obtain rfl := Token.number.inj htoken
    exact ⟨.whole hne hdigits, _, Decimal.ofChars?_whole hne hdigits, rfl⟩
  | @point digits fraction _ hne hdigits hfraction =>
    obtain rfl := Token.number.inj htoken
    refine ⟨?_, _, Decimal.ofChars?_point hne hdigits hfraction, rfl⟩
    by_cases hdigitless : digits = []
    · subst hdigitless
      exact .fraction (fun hnil => hne ⟨rfl, hnil⟩) hfraction
    · exact .point hdigitless hdigits hfraction
  | word =>
    unfold ofWord at htoken
    split at htoken <;> cases htoken
  | text | sign => cases htoken

theorem refusal_ne_invalidNumber {raw : String} {position : Nat} :
    refusal offset c ≠ .invalidNumber raw position := by
  unfold refusal
  split <;> rintro ⟨⟩

/-- Each turn but the last goes on at such an offset behind. -/
theorem At.proceeds (h : At text offset rest) : Proceeds text offset where
  boundary := h.remains.isBoundary
  ends := h.turn_eq_none_iff
  slices := h.turn_ne_broken
  advances := by
    intro next hnext
    obtain ⟨hlt, more, hmore⟩ := h.forward hnext
    have hboundary := hmore.remains.isBoundary
    exact ⟨hlt, hboundary.le_utf8ByteSize, hboundary⟩
  numeral := by
    intro value next hturn
    obtain ⟨used, more, rfl, hwritten, rfl⟩ := h.exists_written hturn
    obtain ⟨hnumeral, decimal, hdecimal, rfl⟩ := hwritten.numeral
    refine ⟨String.ofList used, decimal, h.remains.slice?_eq, ?_⟩
    rw [String.toList_ofList]
    exact ⟨hnumeral, hdecimal, rfl⟩
  valid := by
    intro raw position hturn
    obtain ⟨c, hc⟩ := h.eq_refusal hturn
    exact refusal_ne_invalidNumber hc.symm
  unescapes := by
    intro s next hturn
    obtain ⟨used, more, rfl, hwritten, rfl⟩ := h.exists_written hturn
    obtain ⟨quote, content, hquote, hcontent, rfl, rfl⟩ := hwritten.quoted
    refine ⟨String.ofList content, slice?_quoted h.remains hquote, ?_⟩
    rw [String.toList_ofList]
    exact ⟨rfl, Literal.dangles_eq_false hcontent.last⟩

-- Within a character a turn finds no slice, which is why the offsets have to be boundaries.
example : turn "é" 1 = some .broken := by cbv

/-- The cutting of a text into lexemes is a walk over its bytes that comes to an end: at every
offset that it reaches it takes slices that are there, and refuses the text or goes on at a boundary
behind. It is never for a number that a text is refused. -/
theorem tokenize_walks_boundaries (text : String) :
    (∀ offset, Reaches text offset → Proceeds text offset) ∧
    (∃ result, (∀ other, Runs text 0 other ↔ other = result) ∧ tokenize text = atLeastOne result) ∧
    ∀ raw position, tokenize text ≠ .error (.invalidNumber raw position) := by
  refine ⟨?_, ⟨cutAllInPlace 0 text.toList, fun _ => (At.start text).runs_iff, ?_⟩, ?_⟩
  · intro offset hreaches
    obtain ⟨rest, hrest⟩ := hreaches.exists_at
    exact hrest.proceeds
  · exact tokenize_eq text
  · intro raw position herror
    rcases tokenize_error_cases herror with hempty | ⟨offset, c, hrefusal⟩
    · cases hempty
    · exact refusal_ne_invalidNumber hrefusal.symm

/-- The walk over a literal with an accented letter and an escaped quote, a sign and a number. -/
theorem tokenize_walks_boundaries_accented :
    Reaches "'é\\'' >= 1.5" 10 ∧ Proceeds "'é\\'' >= 1.5" 10 ∧
      (turn "'é\\'' >= 1.5" 10).bind Turn.next? = some 13 := by
  have hliteral : Reaches "'é\\'' >= 1.5" 6 := .next .start (by decide +kernel)
  have hsign : Reaches "'é\\'' >= 1.5" 7 := .next hliteral (by decide +kernel)
  have hspace : Reaches "'é\\'' >= 1.5" 9 := .next hsign (by decide +kernel)
  have hnumber : Reaches "'é\\'' >= 1.5" 10 := .next hspace (by decide +kernel)
  exact ⟨hnumber, (tokenize_walks_boundaries _).1 10 hnumber, by decide +kernel⟩

end Lexeme

end Questlog
