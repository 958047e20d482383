import Questlog.Proofs.Json.Grammar
import Questlog.Proofs.Json.Number

namespace Questlog.Json

variable {cs more outer : List Char} {parts : List StringPart} {c : Char}

/-- A code unit that is no surrogate gives its character. -/
theorem charsOf?_unit {n : Nat} (hn : ¬(0xD800 ≤ n ∧ n < 0xE000)) (rest : List StringPart) :
    charsOf? (.unit n :: rest) = (charsOf? rest).map (Char.ofNat n :: ·) := by
  have hhigh : ¬(0xD800 ≤ n ∧ n < 0xDC00) := by omega
  have hlow : ¬(0xDC00 ≤ n ∧ n < 0xE000) := by omega
  rcases rest with _ | ⟨_ | low, rest⟩
  · simp only [charsOf?, if_neg hn]
  · simp only [charsOf?, if_neg hn]
  · rw [charsOf?, if_neg hhigh, if_neg hlow]

/-- The parts of a string have characters just if each surrogate among them has its partner. -/
theorem charsOf?_eq_some_iff {ds : List Char} : charsOf? parts = some ds ↔ PartsGive parts ds := by
  constructor
  · intro h
    fun_induction charsOf? parts generalizing ds with
    | case1 =>
      obtain rfl := Option.some.inj h
      exact .nil
    | case2 c rest ih =>
      obtain ⟨ds, hds, rfl⟩ := Option.map_eq_some_iff.mp h
      exact .char (ih hds)
    | case3 high low rest hhigh hlow ih =>
      obtain ⟨ds, hds, rfl⟩ := Option.map_eq_some_iff.mp h
      exact .pair hhigh hlow (ih hds)
    | case4 | case5 => cases h
    | case6 high low rest hhigh hlow ih =>
      obtain ⟨ds, hds, rfl⟩ := Option.map_eq_some_iff.mp h
      exact .unit (by omega) (ih hds)
    | case7 => cases h
    | case8 n rest hrest hn ih =>
      obtain ⟨ds, hds, rfl⟩ := Option.map_eq_some_iff.mp h
      exact .unit hn (ih hds)
  · intro h
    induction h with
    | nil => rfl
    | char _ ih => rw [charsOf?, ih, Option.map_some]
    | unit hn _ ih => rw [charsOf?_unit hn, ih, Option.map_some]
    | @pair high low ds parts hhigh hlow _ ih =>
      rw [charsOf?, if_pos hhigh, if_pos hlow, ih, Option.map_some]

/-- An escape is read as one part of a string. -/
theorem readString_escape {rest : List Char} {part : StringPart} {hlt : more.length < rest.length}
    (acc : List StringPart) (hescape : readEscape rest = some ⟨part, more, hlt⟩)
    (hcs : ('\\' :: rest).length ≤ outer.length) :
    ∃ hmore, readString outer acc ('\\' :: rest) hcs = readString outer (part :: acc) more hmore := by
  have hbackslash : '\\' ≠ '"' := by decide
  refine ⟨Nat.le_of_lt (Nat.lt_of_lt_of_le hlt (Nat.le_of_succ_le hcs)), ?_⟩
  rw [readString, if_neg hbackslash, if_pos rfl, hescape]

/-- Four hexadecimal digits are read as their value. -/
theorem IsHex4.readHex4_eq {ds : List Char} {value : Nat} (h : IsHex4 ds value) (more : List Char) :
    ∃ hlt, readHex4 (ds ++ more) = some ⟨value, more, hlt⟩ := by
  cases h with
  | @mk a b c d i j k l ha hb hc hd =>
    have hlt : more.length < ([a, b, c, d] ++ more).length := by
      rw [List.length_append]
      exact Nat.lt_add_of_pos_left (Nat.succ_pos _)
    exact ⟨hlt, by simp only [List.cons_append, List.nil_append, readHex4, ha, hb, hc, hd]⟩

/-- The parts of a string are read up to its closing quote. -/
theorem SpellsParts.readString_eq {body : List Char} (h : SpellsParts body parts)
    (acc : List StringPart) (hcs : (body ++ '"' :: more).length ≤ outer.length) :
    ∃ hlt, readString outer acc (body ++ '"' :: more) hcs =
      some ⟨acc.reverse ++ parts, more, hlt⟩ := by
  induction h generalizing acc with
  | nil =>
    refine ⟨hcs, ?_⟩
    rw [List.append_nil]
    simp only [List.nil_append]
    rw [readString, if_pos rfl]
  | plain hquote hbackslash hcontrol _ ih =>
    obtain ⟨hlt, hread⟩ := ih (.char _ :: acc) (Nat.le_of_succ_le hcs)
    refine ⟨hlt, ?_⟩
    simp only [List.cons_append]
    rw [readString, if_neg hquote, if_neg hbackslash, if_neg hcontrol, hread]
    simp
  | @letter letter c cs parts hletter _ ih =>
    have hu : letter ≠ 'u' := by
      rintro rfl
      cases hletter
    have hescape : readEscape (letter :: (cs ++ '"' :: more)) =
        some (.ofHead (.char c) letter (cs ++ '"' :: more)) := by
      rw [readEscape, if_neg hu, hletter, Option.map_some]
    obtain ⟨hmore, hstep⟩ := readString_escape acc hescape hcs
    obtain ⟨hlt, hread⟩ := ih (.char c :: acc) hmore
    refine ⟨hlt, ?_⟩
    simp only [List.cons_append]
    rw [hstep, hread]
    simp
  | @unit ds cs value parts hds _ ih =>
    obtain ⟨hleft, hhex⟩ := hds.readHex4_eq (cs ++ '"' :: more)
    have hescape : readEscape ('u' :: (ds ++ (cs ++ '"' :: more))) =
        some ⟨.unit value, cs ++ '"' :: more, Nat.lt_succ_of_lt hleft⟩ := by
      rw [readEscape, if_pos rfl, hhex, Option.map_some]
    have hshape : '\\' :: 'u' :: (ds ++ cs) ++ '"' :: more =
        '\\' :: 'u' :: (ds ++ (cs ++ '"' :: more)) := by simp
    simp only [hshape] at hcs ⊢
    obtain ⟨hmore, hstep⟩ := readString_escape acc hescape hcs
    obtain ⟨hlt, hread⟩ := ih (.unit value :: acc) hmore
    refine ⟨hlt, ?_⟩
    rw [hstep, hread]
    simp

/-- Parts in quotes are a token. -/
theorem SpellsParts.tokenText {body : List Char} (h : SpellsParts body parts) :
    TokenText ('"' :: body ++ ['"']) (stringToken parts) := by
  intro more _
  have hshape : '"' :: body ++ ['"'] ++ more = '"' :: (body ++ '"' :: more) := by simp
  have hmark : mark? '"' = none := rfl
  obtain ⟨hlt, hread⟩ := h.readString_eq [] (length_le_self (body ++ '"' :: more))
  rw [hshape]
  refine ⟨Nat.lt_succ_of_lt hlt, ?_⟩
  unfold readToken
  simp only [hmark, hread, if_true, List.reverse_nil, List.nil_append, Option.map_some]

/-- The text of a string is its token. -/
theorem IsString.tokenText {s : String} (h : IsString cs s) : TokenText cs (.string s) := by
  cases h with
  | @quoted body ds parts hbody hds =>
    have htoken : stringToken parts = .string (String.ofList ds) := by
      rw [stringToken, charsOf?_eq_some_iff.mpr hds]
    exact htoken ▸ hbody.tokenText

theorem hexDigit?_hexDigit : ∀ n < 16, Text.hexDigit? (hexDigit n) = some n := by
  decide

/-- A character is written as one part of a string, and is what this part gives. -/
theorem exists_part_writeChar (c : Char) : ∃ part : StringPart,
    (∀ cs parts, SpellsParts cs parts → SpellsParts (writeChar c ++ cs) (part :: parts)) ∧
      ∀ parts ds, PartsGive parts ds → PartsGive (part :: parts) (c :: ds) := by
  unfold writeChar
  -- the seven characters with an escape of one letter
  iterate 7
    split
    · next h =>
      subst h
      exact ⟨_, fun _ _ => .letter rfl, fun _ _ => .char⟩
  split
  · next hcontrol =>
    have hlt : c.toNat < 32 := hcontrol
    have hhigh := hexDigit?_hexDigit (c.toNat / 16) (by omega)
    have hlow := hexDigit?_hexDigit (c.toNat % 16) (by omega)
    have hunit : ¬(0xD800 ≤ c.toNat ∧ c.toNat < 0xE000) := by omega
    have hvalue : ((0 * 16 + 0) * 16 + c.toNat / 16) * 16 + c.toNat % 16 = c.toNat := by omega
    have hzero : Text.hexDigit? '0' = some 0 := rfl
    have hhex := IsHex4.mk hzero hzero hhigh hlow
    rw [hvalue] at hhex
    refine ⟨.unit c.toNat, fun cs parts hcs => .unit hhex hcs, fun parts ds hparts => ?_⟩
    have hgive := PartsGive.unit hunit hparts
    rwa [Char.ofNat_toNat] at hgive
  · next hquote hbackslash _ _ _ _ _ hcontrol =>
    exact ⟨.char c, fun _ _ => .plain hquote hbackslash hcontrol, fun _ _ => .char⟩

/-- A string is written as a text of it. -/
theorem isString_writeString (s : String) : IsString (writeString s) s := by
  have hparts : ∀ cs : List Char, ∃ parts,
      SpellsParts (cs.flatMap writeChar) parts ∧ PartsGive parts cs := by
    intro cs
    induction cs with
    | nil => exact ⟨[], .nil, .nil⟩
    | cons c cs ih =>
      obtain ⟨parts, hspells, hgive⟩ := ih
      obtain ⟨part, hpart, hgives⟩ := exists_part_writeChar c
      exact ⟨part :: parts, hpart _ _ hspells, hgives _ _ hgive⟩
  obtain ⟨parts, hspells, hgive⟩ := hparts s.toList
  have hstring := IsString.quoted hspells hgive
  rwa [String.ofList_toList] at hstring

/-- A string is written as its token, whatever characters it has. -/
theorem tokenText_writeString (s : String) : TokenText (writeString s) (.string s) :=
  (isString_writeString s).tokenText

/-- A plain character is written as itself. -/
theorem writeChar_plain (hquote : c ≠ '"') (hbackslash : c ≠ '\\') (hcontrol : ¬c < ' ') :
    writeChar c = [c] := by
  have hne : ∀ d, d < ' ' → c ≠ d := by
    rintro d hd rfl
    exact hcontrol hd
  rw [writeChar, if_neg hquote, if_neg hbackslash, if_neg (hne _ (by decide)),
    if_neg (hne _ (by decide)), if_neg (hne _ (by decide)), if_neg (hne _ (by decide)),
    if_neg (hne _ (by decide)), if_neg hcontrol]

/-- Where nothing has to be escaped, a string is written as it is. -/
theorem flatMap_writeChar_plain {cs : List Char} (hcs : ∀ c ∈ cs, c ≠ '"' ∧ c ≠ '\\' ∧ ¬c < ' ') :
    cs.flatMap writeChar = cs := by
  induction cs with
  | nil => rfl
  | cons c cs ih =>
    obtain ⟨hquote, hbackslash, hcontrol⟩ := hcs c List.mem_cons_self
    rw [List.flatMap_cons, writeChar_plain hquote hbackslash hcontrol,
      ih fun d hd => hcs d (List.mem_cons_of_mem c hd), List.singleton_append]

end Questlog.Json
