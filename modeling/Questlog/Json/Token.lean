import Questlog.Decimal.Numeral
import Questlog.Json.Basic
import Questlog.Reading
import Questlog.Text.Hexadecimal

namespace Questlog.Json

/-- A token of JSON text. Numbers outside the range of doubles and strings with a lone surrogate are
well written, but no value has them. -/
inductive Token where
  | null
  | bool (value : Bool)
  | number (value : Number)
  | string (value : String)
  /-- a number outside the range of doubles -/
  | vastNumber
  /-- a string with a lone surrogate -/
  | brokenString
  | colon
  | comma
  | openArray
  | closeArray
  | openObject
  | closeObject

/-- The characters that may stand between tokens. -/
def isSpace (c : Char) : Bool :=
  c = ' ' || c = '\t' || c = '\n' || c = '\r'

/-- The number written by four hexadecimal digits. -/
def readHex4 (cs : List Char) : Option (Reading Nat cs) :=
  match cs with
  | a :: b :: c :: d :: rest =>
    match Text.hexDigit? a, Text.hexDigit? b, Text.hexDigit? c, Text.hexDigit? d with
    | some a, some b, some c, some d =>
      some ⟨((a * 16 + b) * 16 + c) * 16 + d, rest, by simp only [List.length_cons]; omega⟩
    | _, _, _, _ => none
  | _ => none

/-- A part of a string: a character, or a code unit that an escape gives in hexadecimal. -/
inductive StringPart where
  | char (c : Char)
  | unit (n : Nat)

/-- The character of a high and a low surrogate. -/
def joinSurrogates (high low : Nat) : Char :=
  Char.ofNat (0x10000 + (high - 0xD800) * 0x400 + (low - 0xDC00))

/-- The characters of a string. A high and a low surrogate in sequence form one; any other surrogate
forms none. -/
def charsOf? : List StringPart → Option (List Char)
  | [] => some []
  | .char c :: rest => (charsOf? rest).map (c :: ·)
  | .unit high :: .unit low :: rest =>
    if 0xD800 ≤ high ∧ high < 0xDC00 then
      if 0xDC00 ≤ low ∧ low < 0xE000 then
        (charsOf? rest).map (joinSurrogates high low :: ·)
      else
        none
    else if 0xDC00 ≤ high ∧ high < 0xE000 then
      none
    else
      (charsOf? (.unit low :: rest)).map (Char.ofNat high :: ·)
  | .unit n :: rest =>
    if 0xD800 ≤ n ∧ n < 0xE000 then none else (charsOf? rest).map (Char.ofNat n :: ·)

/-- The character that a one-letter escape stands for. -/
def simpleEscape? : Char → Option Char
  | '"' => some '"'
  | '\\' => some '\\'
  | '/' => some '/'
  | 'b' => some '\x08'
  | 'f' => some '\x0C'
  | 'n' => some '\n'
  | 'r' => some '\r'
  | 't' => some '\t'
  | _ => none

/-- Reads what follows a backslash in a string. -/
def readEscape (cs : List Char) : Option (Reading StringPart cs) :=
  match cs with
  | [] => none
  | c :: rest =>
    if c = 'u' then
      (readHex4 rest).map fun r => ⟨.unit r.value, r.rest, Nat.lt_succ_of_lt r.shorter⟩
    else
      (simpleEscape? c).map fun d => .ofHead (.char d) c rest

/-- Reads a string up to its closing quote; `acc` holds what came before, last part first. Control
characters have to be escaped. The reading is one of the text `outer` that `cs` ends. -/
def readString (outer : List Char) (acc : List StringPart) (cs : List Char)
    (hcs : cs.length ≤ outer.length) : Option (Reading (List StringPart) outer) :=
  match cs with
  | [] => none
  | c :: rest =>
    if c = '"' then
      some ⟨acc.reverse, rest, hcs⟩
    else if c = '\\' then
      match readEscape rest with
      | none => none
      | some ⟨part, more, _⟩ =>
        readString outer (part :: acc) more (by simp only [List.length_cons] at hcs; omega)
    else if c < ' ' then
      none
    else
      readString outer (.char c :: acc) rest (by simp only [List.length_cons] at hcs; omega)
termination_by cs.length

/-- The token that a string is. -/
def stringToken (parts : List StringPart) : Token :=
  match charsOf? parts with
  | some cs => .string (String.ofList cs)
  | none => .brokenString

/-- The number that a written decimal stands for; a double has to be finite. Every decimal is rounded
once, to the nearest double. A reader that multiplies or divides the rounded digits by a power of ten
rounds twice: it can be off by one unit in the last place, as at `3e23`, and it refuses the greatest
double, `1.7976931348623158e308`, as too large. -/
def numberOf? (negative : Bool) (written : Decimal.Numeral) : Option Number :=
  let value := Binary64.signed negative written.value.digits
  if h : (written.point = false ∧ written.exponent = none) ∧ InWord value ∧
      ¬ (negative = true ∧ value = 0) then
    some (.integer value h.2.1)
  else
    let x := written.value.toBinary64 negative
    if h : x.isFinite = true then some (.double x h) else none

/-- The token that a number is. -/
def numberToken (negative : Bool) (written : Decimal.Numeral) : Token :=
  match numberOf? negative written with
  | some n => .number n
  | none => .vastNumber

/-- Whether a text starts with the mark of an exponent. -/
def atExponent : List Char → Bool
  | c :: _ => c = 'e' || c = 'E'
  | [] => false

/-- Reads a number without its sign: no superfluous zero in front, and digits after a point and
after the mark of an exponent. -/
def readUnsigned (negative : Bool) (cs : List Char) : Option (Reading Token cs) :=
  let fixed := Decimal.readFixed cs
  if h : fixed.1.whole = [] ∨ (fixed.1.whole.head? = some '0' ∧ fixed.1.whole.length ≠ 1) ∨
      (fixed.1.point = true ∧ fixed.1.fraction = []) then
    none
  else
    let exponent := Decimal.readExponent fixed.2
    if exponent.1 = none ∧ atExponent fixed.2 then
      none
    else
      some ⟨numberToken negative { fixed.1 with exponent := exponent.1 }, exponent.2, by
        have hfixed : fixed.1.whole.length + fixed.2.length ≤ cs.length :=
          Decimal.readFixed_length cs
        have hexponent : exponent.2.length ≤ fixed.2.length := Decimal.readExponent_length _
        have hwhole := List.length_pos_iff.2 fun hnil => h (.inl hnil)
        omega⟩

/-- Reads a number. -/
def readNumber (cs : List Char) : Option (Reading Token cs) :=
  match cs with
  | '-' :: rest => (readUnsigned true rest).map fun r => r.widen (Nat.le_succ _)
  | rest => readUnsigned false rest

/-- The token that a single character is. -/
def mark? : Char → Option Token
  | '\x7b' => some .openObject
  | '\x7d' => some .closeObject
  | '[' => some .openArray
  | ']' => some .closeArray
  | ':' => some .colon
  | ',' => some .comma
  | _ => none

/-- The tokens that are words, with their spelling. -/
def words : List (List Char × Token) :=
  [("null".toList, .null), ("true".toList, .bool true), ("false".toList, .bool false)]

/-- Reads the first token of a text that does not start with a space. -/
def readToken (cs : List Char) : Option (Reading Token cs) :=
  match cs with
  | [] => none
  | c :: rest =>
    match mark? c with
    | some token => some (.ofHead token c rest)
    | none =>
      if c = '"' then
        (readString rest [] rest (length_le_self rest)).map fun r =>
          ⟨stringToken r.value, r.rest, Nat.lt_succ_of_lt r.shorter⟩
      else
        match words.find? fun w => w.1.isPrefixOf (c :: rest) with
        | some w =>
          some ⟨w.2, rest.drop (w.1.length - 1), by
            simp only [List.length_drop, List.length_cons]
            omega⟩
        | none => readNumber (c :: rest)

/-- The tokens of a text up to the first place where none can be read, and whether the text ends
there. What stands before a fault is known too. -/
def tokens (cs : List Char) : List Token × Bool :=
  match cs with
  | [] => ([], true)
  | c :: rest =>
    if isSpace c then
      tokens rest
    else
      match readToken (c :: rest) with
      | none => ([], false)
      | some ⟨token, more, _⟩ =>
        let (later, complete) := tokens more
        (token :: later, complete)
termination_by cs.length
decreasing_by
  · exact Nat.lt_succ_self _
  · assumption

end Questlog.Json
