import Questlog.Json.Parser
import Questlog.Proofs.Json.Text
import Questlog.Proofs.Text.Blank

namespace Questlog.Json

/-- `Scalar cs json`: the characters are written for an integer or a text. A zero with a minus sign
is a double, since no integer has its sign. -/
inductive Scalar : List Char → Json → Prop
  | integer {n : Nat} (h : InWord n) : Scalar (Decimal.toDigits n) (.number (.integer n h))
  | negative {n : Nat} (h : InWord (-n)) : n ≠ 0 →
    Scalar ('-' :: Decimal.toDigits n) (.number (.integer (-n) h))
  | negativeZero : Scalar ('-' :: Decimal.toDigits 0) (.number (.double (.zero true) rfl))
  | text {cs : List Char} : (∀ c ∈ cs, c ≠ '"' ∧ c ≠ '\\' ∧ ¬c < ' ') →
    Scalar ('"' :: cs ++ ['"']) (.string (String.ofList cs))

/-- What may stand behind a scalar. -/
def Delimited (cs : List Char) : Prop :=
  ∀ c ∈ cs.head?, c = ',' ∨ c = ']' ∨ isSpace c = true

variable {cs more : List Char} {json : Json} {t : Token} {ts : List Token} {complete : Bool}

theorem eq_of_isSpace {c : Char} (h : isSpace c = true) : c = ' ' ∨ c = '\t' ∨ c = '\n' ∨ c = '\r' := by
  simpa [isSpace, or_assoc] using h

/-- A number ends where something delimits it. -/
theorem Delimited.ends_number (h : Delimited more) : Decimal.EndsNumeral more := by
  intro c hc
  rcases h c hc with rfl | rfl | hspace
  · decide
  · decide
  · rcases eq_of_isSpace hspace with rfl | rfl | rfl | rfl <;> decide

theorem delimited_cons {c : Char} (h : c = ',' ∨ c = ']' ∨ isSpace c = true) :
    Delimited (c :: more) := by
  intro d hd
  obtain rfl : c = d := Option.some.inj hd
  exact h

theorem delimited_append (hcs : ∀ c ∈ cs, isSpace c = true) (hmore : Delimited more) :
    Delimited (cs ++ more) := by
  cases cs with
  | nil => exact hmore
  | cons c cs => exact delimited_cons (.inr (.inr (hcs c List.mem_cons_self)))

theorem isSpace_of_not_isBlank {c : Char} (h : Text.isBlank c = false) : isSpace c = false := by
  rw [Bool.eq_false_iff]
  intro hspace
  rcases eq_of_isSpace hspace with rfl | rfl | rfl | rfl <;> exact absurd h (by decide)

theorem not_isBlank_of_isDigit {c : Char} (h : Decimal.isDigit c = true) :
    Text.isBlank c = false := by
  have hrange := Decimal.isDigit_iff.mp h
  apply Text.isBlank_of_visible
  omega

/-- A scalar has its own characters at both ends, so nothing of it is trimmed away. -/
theorem Scalar.trimmed (h : Scalar cs json) : Text.Trimmed cs := by
  have hdigits : ∀ n, ∀ d ∈ Decimal.toDigits n, Text.isBlank d = false :=
    fun n d hd => not_isBlank_of_isDigit (Decimal.isDigit_of_mem_toDigits d hd)
  have hminus : ∀ n, ∀ d ∈ '-' :: Decimal.toDigits n, Text.isBlank d = false :=
    fun n => List.forall_mem_cons.mpr ⟨by decide, hdigits n⟩
  cases h with
  | @integer n => exact Text.trimmed_of_forall (Decimal.toDigits_ne_nil n) (hdigits n)
  | @negative n => exact Text.trimmed_of_forall (List.cons_ne_nil _ _) (hminus n)
  | negativeZero => exact Text.trimmed_of_forall (List.cons_ne_nil _ _) (hminus 0)
  | @text cs =>
    have hquote : Text.Trimmed ['"'] := Text.trimmed_singleton (by decide)
    exact hquote.append hquote cs

/-- The token stands for the value wherever a value is read. -/
def Token.Denotes (t : Token) (json : Json) : Prop :=
  ∀ (inner : Option ValueReader) (rest : List Token),
    readValueWith inner (t :: rest) = some (.ofHead json t rest)

theorem denotes_number (number : Number) : (Token.number number).Denotes (.number number) :=
  fun _ _ => rfl

theorem denotes_string (s : String) : (Token.string s).Denotes (.string s) :=
  fun _ _ => rfl

/-- A scalar is read as one token wherever something stands behind it that ends a number. -/
theorem Scalar.readToken_eq (h : Scalar cs json) (hmore : Delimited more) :
    ∃ t hlt, readToken (cs ++ more) = some ⟨t, more, hlt⟩ ∧ t.Denotes json := by
  have hrenders := Decimal.renders_toDigits
  have hstrict := Decimal.isStrict_toDigits
  have hends := hmore.ends_number
  cases h with
  | @integer n h =>
    obtain ⟨hlt, hread⟩ := tokenText_unsigned (hrenders n) (hstrict n) more hends
    have htoken : numberToken false ⟨Decimal.toDigits n, false, [], none⟩ =
        .number (.integer n h) := numberToken_integer false n h (by simp)
    rw [htoken] at hread
    exact ⟨_, hlt, hread, denotes_number _⟩
  | @negative n h hn =>
    obtain ⟨hlt, hread⟩ := tokenText_minus (hrenders n) (hstrict n) more hends
    have hsigned : Binary64.signed true n ≠ 0 := by
      simpa [Binary64.signed] using hn
    have htoken : numberToken true ⟨Decimal.toDigits n, false, [], none⟩ =
        .number (.integer (-n) h) := numberToken_integer true n h (by simp [hsigned])
    rw [htoken] at hread
    exact ⟨_, hlt, hread, denotes_number _⟩
  | negativeZero =>
    obtain ⟨hlt, hread⟩ := tokenText_minus (hrenders 0) (hstrict 0) more hends
    exact ⟨_, hlt, hread, denotes_number _⟩
  | @text cs hcs =>
    have hwritten : '"' :: cs ++ ['"'] = writeString (String.ofList cs) := by
      rw [writeString, String.toList_ofList, flatMap_writeChar_plain hcs]
    obtain ⟨hlt, hread⟩ := tokenText_writeString (String.ofList cs) more hends
    rw [hwritten]
    exact ⟨_, hlt, hread, denotes_string _⟩

end Questlog.Json
