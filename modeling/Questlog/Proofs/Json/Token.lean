import Questlog.Proofs.Json.Grammar
import Questlog.Proofs.Json.Pretty

namespace Questlog.Json

open Decimal (EndsNumeral Numeral)

variable {cs more outer : List Char} {t : Token} {parts : List StringPart} {n : Numeral}
  {negative : Bool} {number : Number}

/-- What a numeral is read as is what it stands for. -/
theorem numberOf?_eq_some_iff : numberOf? negative n = some number ↔ StandsFor negative n number := by
  by_cases hwhole : IsWhole negative n
  · have hnumber : numberOf? negative n = some (.integer _ hwhole.2.1) := dif_pos hwhole
    rw [hnumber]
    constructor
    · intro h
      obtain rfl := Option.some.inj h
      exact .integer hwhole
    · intro h
      cases h with
      | integer => rfl
      | double _ hnot => exact absurd hwhole hnot
  · have hnumber : numberOf? negative n =
        if h : (n.value.toBinary64 negative).isFinite = true then some (.double _ h) else none :=
      dif_neg hwhole
    rw [hnumber]
    constructor
    · intro h
      split at h
      · next hfinite =>
        obtain rfl := Option.some.inj h
        exact .double hfinite hwhole
      · cases h
    · intro h
      cases h with
      | integer h => exact absurd h hwhole
      | double hfinite => exact dif_pos hfinite

/-- `IsToken cs t`: the characters are written for the token. -/
inductive IsToken : List Char → Token → Prop
  | mark {c : Char} {t : Token} : mark? c = some t → IsToken [c] t
  | word {word : List Char × Token} : word ∈ words → IsToken word.1 word.2
  | string {cs : List Char} {parts : List StringPart} : SpellsParts cs parts →
    IsToken ('"' :: cs ++ ['"']) (stringToken parts)
  | unsigned {cs : List Char} {n : Numeral} : Decimal.Spells cs n → n.IsStrict →
    IsToken cs (numberToken false n)
  | minus {cs : List Char} {n : Numeral} : Decimal.Spells cs n → n.IsStrict →
    IsToken ('-' :: cs) (numberToken true n)

section Soundness

variable {hmore : more.length < cs.length}

/-- What is read as four hexadecimal digits is written so. -/
theorem isHex4_of_readHex4 {value : Nat} (h : readHex4 cs = some ⟨value, more, hmore⟩) :
    ∃ ds, cs = ds ++ more ∧ IsHex4 ds value := by
  unfold readHex4 at h
  split at h
  · next a b c d rest =>
    split at h
    · next i j k l ha hb hc hd =>
      cases h
      exact ⟨[a, b, c, d], rfl, .mk ha hb hc hd⟩
    · cases h
  · cases h

/-- What is read behind a backslash is an escape. -/
theorem spellsParts_of_readEscape {part : StringPart} {body : List Char}
    (h : readEscape cs = some ⟨part, more, hmore⟩) (hbody : SpellsParts body parts) :
    ∃ used, cs = used ++ more ∧ SpellsParts ('\\' :: (used ++ body)) (part :: parts) := by
  unfold readEscape at h
  split at h
  · cases h
  · next c rest =>
    split at h
    · next hu =>
      obtain ⟨⟨value, left, hleft⟩, hread, heq⟩ := Option.map_eq_some_iff.mp h
      cases heq
      obtain ⟨ds, rfl, hds⟩ := isHex4_of_readHex4 hread
      exact ⟨'u' :: ds, by rw [hu]; rfl, .unit hds hbody⟩
    · obtain ⟨d, hd, heq⟩ := Option.map_eq_some_iff.mp h
      cases heq
      exact ⟨[c], rfl, .letter hd hbody⟩

/-- A string is read up to its closing quote. -/
theorem spellsParts_of_readString {acc : List StringPart} {hcs : cs.length ≤ outer.length}
    {hlt : more.length < outer.length}
    (h : readString outer acc cs hcs = some ⟨parts, more, hlt⟩) :
    ∃ body read, cs = body ++ '"' :: more ∧ SpellsParts body read ∧ parts = acc.reverse ++ read := by
  fun_induction readString outer acc cs hcs with
  | case1 => cases h
  | case2 acc rest hcs =>
    cases h
    exact ⟨[], [], rfl, .nil, (List.append_nil _).symm⟩
  | case3 => cases h
  | case4 acc rest part left _ hread _ _ _ ih =>
    obtain ⟨body, read, hrest, hbody, rfl⟩ := ih h
    obtain ⟨used, rfl, hused⟩ := spellsParts_of_readEscape hread hbody
    exact ⟨_, _, by simp [hrest], hused, by simp⟩
  | case5 => cases h
  | case6 acc c rest _ hquote hbackslash hcontrol _ ih =>
    obtain ⟨body, read, rfl, hbody, rfl⟩ := ih h
    exact ⟨c :: body, .char c :: read, rfl, .plain hquote hbackslash hcontrol hbody, by simp⟩

/-- A number without its sign is a strict numeral. -/
theorem spells_of_readUnsigned (h : readUnsigned negative cs = some ⟨t, more, hmore⟩) :
    ∃ used n, cs = used ++ more ∧ Decimal.Spells used n ∧ n.IsStrict ∧ t = numberToken negative n := by
  have hmantissa := Decimal.mantissa_readFixed cs
  obtain ⟨tail, htail, hrest⟩ := Decimal.spells_readExponent (Decimal.readFixed cs).2
  unfold readUnsigned at h
  dsimp only at h
  split at h
  · cases h
  · next hwell =>
    obtain ⟨hne, hwell⟩ := not_or.mp hwell
    obtain ⟨hzeros, hfraction⟩ := not_or.mp hwell
    split at h
    · cases h
    · cases h
      refine ⟨_, _, ?_, ⟨Decimal.isWritten_readFixed (fun hnil => hne hnil.1) _, tail, htail, rfl⟩,
        ⟨hne, ?_, fun hpoint hnil => hfraction ⟨hpoint, hnil⟩⟩, rfl⟩
      · rw [List.append_assoc, ← hrest]
        exact hmantissa
      · exact fun hzero => Decidable.not_not.mp fun hlength => hzeros ⟨hzero, hlength⟩

/-- What is read as a number is written for its token. -/
theorem isToken_of_readNumber (h : readNumber cs = some ⟨t, more, hmore⟩) :
    ∃ used, cs = used ++ more ∧ IsToken used t := by
  unfold readNumber at h
  split at h
  · next rest =>
    obtain ⟨⟨token, left, hleft⟩, hread, heq⟩ := Option.map_eq_some_iff.mp h
    cases heq
    obtain ⟨used, n, rfl, hspells, hstrict, rfl⟩ := spells_of_readUnsigned hread
    exact ⟨'-' :: used, rfl, .minus hspells hstrict⟩
  · obtain ⟨used, n, rfl, hspells, hstrict, rfl⟩ := spells_of_readUnsigned h
    exact ⟨used, rfl, .unsigned hspells hstrict⟩

/-- A word that is found at the start of a text stands there. -/
theorem append_of_find?_words {c : Char} {rest : List Char} {word : List Char × Token}
    (h : words.find? (fun w => w.1.isPrefixOf (c :: rest)) = some word) :
    word ∈ words ∧ c :: rest = word.1 ++ rest.drop (word.1.length - 1) := by
  have hmem := List.mem_of_find?_eq_some h
  have hne : ∀ w ∈ words, w.1 ≠ [] := by decide
  obtain ⟨spelling, token⟩ := word
  obtain ⟨d, spelling, rfl⟩ := List.exists_cons_of_ne_nil (hne _ hmem)
  obtain ⟨tail, htail⟩ := List.isPrefixOf_iff_prefix.mp (List.find?_eq_some_iff_append.mp h).1
  obtain ⟨rfl, rfl⟩ := List.cons.inj htail
  exact ⟨hmem, by simp⟩

/-- What is read as a token is written for it. -/
theorem isToken_of_readToken (h : readToken cs = some ⟨t, more, hmore⟩) :
    ∃ used, cs = used ++ more ∧ IsToken used t := by
  unfold readToken at h
  split at h
  · cases h
  · next c rest =>
    split at h
    · next token hmark =>
      cases h
      exact ⟨[c], rfl, .mark hmark⟩
    · split at h
      · next hquote =>
        obtain ⟨⟨parts, left, hleft⟩, hread, heq⟩ := Option.map_eq_some_iff.mp h
        cases heq
        obtain ⟨body, read, rfl, hbody, rfl⟩ := spellsParts_of_readString hread
        exact ⟨'"' :: body ++ ['"'], by simp [hquote], .string hbody⟩
      · split at h
        · next w hword =>
          cases h
          obtain ⟨hmem, hsplit⟩ := append_of_find?_words hword
          exact ⟨w.1, hsplit, .word hmem⟩
        · exact isToken_of_readNumber h

end Soundness

section Completeness

/-- What is written for a token is read as it. -/
theorem IsToken.tokenText (h : IsToken cs t) : TokenText cs t := by
  cases h with
  | mark hmark => exact fun more _ => ⟨Nat.lt_succ_self _, readToken_mark hmark more⟩
  | word hword => exact tokenText_word hword
  | string hbody => exact hbody.tokenText
  | unsigned hspells hstrict => exact tokenText_unsigned hspells.renders hstrict
  | minus hspells hstrict => exact tokenText_minus hspells.renders hstrict

end Completeness

end Questlog.Json
