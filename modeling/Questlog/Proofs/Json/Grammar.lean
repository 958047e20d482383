import Questlog.Json.Token
import Questlog.Proofs.Decimal.Spelling

namespace Questlog.Json

open Decimal (Numeral)

/-- A numeral with a sign is a whole number: it has no point and no exponent, a word holds it, and it
is no zero behind a minus, as no word has its sign. -/
def IsWhole (negative : Bool) (n : Numeral) : Prop :=
  (n.point = false ∧ n.exponent = none) ∧ InWord (Binary64.signed negative n.value.digits) ∧
    ¬(negative = true ∧ Binary64.signed negative n.value.digits = 0)

/-- The number that a numeral with a sign stands for: the integer, if it is whole, and else the
nearest double, which has to be finite. -/
inductive StandsFor (negative : Bool) (n : Numeral) : Number → Prop
  | integer (h : IsWhole negative n) : StandsFor negative n (.integer _ h.2.1)
  | double (hfinite : (n.value.toBinary64 negative).isFinite = true) : ¬IsWhole negative n →
    StandsFor negative n (.double _ hfinite)

/-- A number: an optional minus and a numeral without superfluous zeros. -/
inductive IsNumber : List Char → Number → Prop
  | unsigned {cs : List Char} {n : Numeral} {number : Number} : Decimal.Spells cs n → n.IsStrict →
    StandsFor false n number → IsNumber cs number
  | minus {cs : List Char} {n : Numeral} {number : Number} : Decimal.Spells cs n → n.IsStrict →
    StandsFor true n number → IsNumber ('-' :: cs) number

/-- Four hexadecimal digits. -/
inductive IsHex4 : List Char → Nat → Prop
  | mk {a b c d : Char} {i j k l : Nat} : Text.hexDigit? a = some i → Text.hexDigit? b = some j →
    Text.hexDigit? c = some k → Text.hexDigit? d = some l →
    IsHex4 [a, b, c, d] (((i * 16 + j) * 16 + k) * 16 + l)

/-- What stands between the quotes of a string: characters as they are, but for quotes, backslashes
and control characters, and escapes of one letter or of four digits. -/
inductive SpellsParts : List Char → List StringPart → Prop
  | nil : SpellsParts [] []
  | plain {c : Char} {cs : List Char} {parts : List StringPart} : c ≠ '"' → c ≠ '\\' → ¬c < ' ' →
    SpellsParts cs parts → SpellsParts (c :: cs) (.char c :: parts)
  | letter {letter c : Char} {cs : List Char} {parts : List StringPart} :
    simpleEscape? letter = some c → SpellsParts cs parts →
    SpellsParts ('\\' :: letter :: cs) (.char c :: parts)
  | unit {ds cs : List Char} {n : Nat} {parts : List StringPart} : IsHex4 ds n →
    SpellsParts cs parts → SpellsParts ('\\' :: 'u' :: (ds ++ cs)) (.unit n :: parts)

/-- The characters that the parts of a string give. A code unit gives its own, and a high and a low
surrogate give one together. -/
inductive PartsGive : List StringPart → List Char → Prop
  | nil : PartsGive [] []
  | char {c : Char} {cs : List Char} {parts : List StringPart} : PartsGive parts cs →
    PartsGive (.char c :: parts) (c :: cs)
  | unit {n : Nat} {cs : List Char} {parts : List StringPart} : ¬(0xD800 ≤ n ∧ n < 0xE000) →
    PartsGive parts cs → PartsGive (.unit n :: parts) (Char.ofNat n :: cs)
  | pair {high low : Nat} {cs : List Char} {parts : List StringPart} :
    0xD800 ≤ high ∧ high < 0xDC00 → 0xDC00 ≤ low ∧ low < 0xE000 → PartsGive parts cs →
    PartsGive (.unit high :: .unit low :: parts) (joinSurrogates high low :: cs)

/-- A string between its quotes. -/
inductive IsString : List Char → String → Prop
  | quoted {cs ds : List Char} {parts : List StringPart} : SpellsParts cs parts →
    PartsGive parts ds → IsString ('"' :: cs ++ ['"']) (String.ofList ds)

/-- The name of a member with spaces around it. -/
inductive IsName : List Char → String → Prop
  | padded {front cs back : List Char} {name : String} : (∀ c ∈ front, isSpace c = true) →
    IsString cs name → (∀ c ∈ back, isSpace c = true) → IsName (front ++ cs ++ back) name

mutual

/-- `IsValue cs json n`: the characters are written for the value, and they nest `n` arrays and
objects. A repeated name is no fault of an object; what its value is then is settled by
`Json.ofMembers`. -/
inductive IsValue : List Char → Json → Nat → Prop
  | null : IsValue "null".toList .null 0
  | true : IsValue "true".toList (.bool true) 0
  | false : IsValue "false".toList (.bool false) 0
  | number {cs : List Char} {number : Number} : IsNumber cs number → IsValue cs (.number number) 0
  | string {cs : List Char} {s : String} : IsString cs s → IsValue cs (.string s) 0
  | emptyArray {gap : List Char} : (∀ c ∈ gap, isSpace c = true) →
    IsValue ('[' :: gap ++ [']']) (.array []) 1
  | array {cs : List Char} {items : List Json} {n : Nat} : AreItems cs items n →
    IsValue ('[' :: cs ++ [']']) (.array items) (n + 1)
  | emptyObject {gap : List Char} : (∀ c ∈ gap, isSpace c = true) →
    IsValue ('\x7b' :: gap ++ ['\x7d']) (.object []) 1
  | object {cs : List Char} {members : List (String × Json)} {n : Nat} : AreMembers cs members n →
    IsValue ('\x7b' :: cs ++ ['\x7d']) (.ofMembers members) (n + 1)

/-- A value with spaces around it, which is what a whole text is. -/
inductive IsText : List Char → Json → Nat → Prop
  | padded {front cs back : List Char} {json : Json} {n : Nat} : (∀ c ∈ front, isSpace c = true) →
    IsValue cs json n → (∀ c ∈ back, isSpace c = true) → IsText (front ++ cs ++ back) json n

/-- One or more values with commas between them. -/
inductive AreItems : List Char → List Json → Nat → Prop
  | last {cs : List Char} {json : Json} {n : Nat} : IsText cs json n → AreItems cs [json] n
  | more {cs rest : List Char} {json : Json} {items : List Json} {n m : Nat} : IsText cs json n →
    AreItems rest items m → AreItems (cs ++ ',' :: rest) (json :: items) (max n m)

/-- One or more members with commas between them. -/
inductive AreMembers : List Char → List (String × Json) → Nat → Prop
  | last {ns cs : List Char} {name : String} {json : Json} {n : Nat} : IsName ns name →
    IsText cs json n → AreMembers (ns ++ ':' :: cs) [(name, json)] n
  | more {ns cs rest : List Char} {name : String} {json : Json} {members : List (String × Json)}
    {n m : Nat} : IsName ns name → IsText cs json n → AreMembers rest members m →
    AreMembers (ns ++ ':' :: cs ++ ',' :: rest) ((name, json) :: members) (max n m)

end

end Questlog.Json
