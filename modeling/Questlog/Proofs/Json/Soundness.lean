import Questlog.Proofs.Json.Token

namespace Questlog.Json

variable {cs : List Char} {t : Token} {ts : List Token} {c d : Char}

section Tokens

/-- Every mark is of one character. -/
theorem mark?_inj (h : mark? c = some t) (h' : mark? d = some t) : c = d := by
  rcases eq_of_mark? h with rfl | rfl | rfl | rfl | rfl | rfl
  all_goals
    obtain rfl := Option.some.inj h
    rcases eq_of_mark? h' with rfl | rfl | rfl | rfl | rfl | rfl
    all_goals first | rfl | cases h'

/-- A value that is a single token is written for that token. -/
theorem IsToken.isValue {json : Json} (h : IsToken cs t) (hdenotes : t.Denotes json) :
    IsValue cs json 0 := by
  have hread : readValueWith none [t] = some (.ofHead json t []) := hdenotes none []
  cases h with
  | mark hmark =>
    rcases eq_of_mark? hmark with rfl | rfl | rfl | rfl | rfl | rfl
    all_goals
      obtain rfl := Option.some.inj hmark
      cases hread
  | word hword =>
    simp only [words, List.mem_cons, List.not_mem_nil, or_false] at hword
    rcases hword with rfl | rfl | rfl
    · cases hread
      exact .null
    · cases hread
      exact .true
    · cases hread
      exact .false
  | @string body parts hbody =>
    unfold stringToken at hread
    split at hread
    · next ds hds =>
      cases hread
      exact .string (.quoted hbody (charsOf?_eq_some_iff.mp hds))
    · cases hread
  | unsigned hspells hstrict =>
    unfold numberToken at hread
    split at hread
    · next number hnumber =>
      cases hread
      exact .number (.unsigned hspells hstrict (numberOf?_eq_some_iff.mp hnumber))
    · cases hread
  | minus hspells hstrict =>
    unfold numberToken at hread
    split at hread
    · next number hnumber =>
      cases hread
      exact .number (.minus hspells hstrict (numberOf?_eq_some_iff.mp hnumber))
    · cases hread

/-- The text of a string token is the text of the string. -/
theorem IsToken.isString {s : String} (h : IsToken cs (.string s)) : IsString cs s := by
  cases h.isValue (denotes_string s) with
  | string hstring => exact hstring

/-- Only its own character is written for a mark. -/
theorem IsToken.eq_of_mark (h : IsToken cs t) (hmark : mark? c = some t) : cs = [c] := by
  cases h with
  | mark hmark' => rw [mark?_inj hmark hmark']
  | word hword =>
    simp only [words, List.mem_cons, List.not_mem_nil, or_false] at hword
    rcases hword with rfl | rfl | rfl
    all_goals
      rcases eq_of_mark? hmark with rfl | rfl | rfl | rfl | rfl | rfl <;> cases hmark
  | string =>
    unfold stringToken at hmark
    split at hmark
    all_goals
      rcases eq_of_mark? hmark with rfl | rfl | rfl | rfl | rfl | rfl <;> cases hmark
  | unsigned | minus =>
    unfold numberToken at hmark
    split at hmark
    all_goals
      rcases eq_of_mark? hmark with rfl | rfl | rfl | rfl | rfl | rfl <;> cases hmark

/-- The first token of a text stands behind spaces, and the other tokens are those of the rest. -/
theorem exists_of_tokens_cons (h : tokens cs = (t :: ts, true)) :
    ∃ gap used more, (∀ c ∈ gap, isSpace c = true) ∧ cs = gap ++ (used ++ more) ∧ IsToken used t ∧
      tokens more = (ts, true) := by
  induction cs using tokens.induct with
  | case1 =>
    rw [tokens] at h
    cases h
  | case2 c rest hspace ih =>
    rw [tokens, if_pos hspace] at h
    obtain ⟨gap, used, more, hgap, rfl, hused, hmore⟩ := ih h
    exact ⟨c :: gap, used, more, List.forall_mem_cons.mpr ⟨hspace, hgap⟩, rfl, hused, hmore⟩
  | case3 c rest hspace hread =>
    rw [tokens, if_neg hspace] at h
    simp only [hread] at h
    cases h
  | case4 c rest hspace token more hlt hread later complete hlater ih =>
    rw [tokens_cons (Bool.eq_false_iff.mpr hspace) hread hlater] at h
    cases h
    obtain ⟨used, hcs, hused⟩ := isToken_of_readToken hread
    exact ⟨[], used, more, List.forall_mem_nil _, hcs, hused, hlater⟩

/-- A text without tokens is blank. -/
theorem spaces_of_tokens_nil (h : tokens cs = ([], true)) : ∀ c ∈ cs, isSpace c = true := by
  induction cs using tokens.induct with
  | case1 => exact List.forall_mem_nil _
  | case2 c rest hspace ih =>
    rw [tokens, if_pos hspace] at h
    exact List.forall_mem_cons.mpr ⟨hspace, ih h⟩
  | case3 c rest hspace hread =>
    rw [tokens, if_neg hspace] at h
    simp only [hread] at h
    cases h
  | case4 c rest hspace token more hlt hread later complete hlater ih =>
    rw [tokens_cons (Bool.eq_false_iff.mpr hspace) hread hlater] at h
    cases h

/-- A mark that comes first stands behind spaces only. -/
theorem exists_of_tokens_mark (h : tokens cs = (t :: ts, true)) (hmark : mark? c = some t) :
    ∃ gap more, (∀ c ∈ gap, isSpace c = true) ∧ cs = gap ++ c :: more ∧
      tokens more = (ts, true) := by
  obtain ⟨gap, used, more, hgap, rfl, hused, hmore⟩ := exists_of_tokens_cons h
  obtain rfl := hused.eq_of_mark hmark
  exact ⟨gap, more, hgap, rfl, hmore⟩

end Tokens

section Readers

variable {value : ValueReader} {room : Nat} {input : List Token}

/-- What a reader takes for a value stands at the start of the text, behind spaces, and nests no
deeper than `room`. The tokens that it leaves are those of the rest. -/
def SoundReader (room : Nat) (value : ValueReader) : Prop :=
  ∀ cs input (r : Reading Json input), tokens cs = (input, true) → value input = some r →
    ∃ gap used more n, (∀ c ∈ gap, isSpace c = true) ∧ cs = gap ++ (used ++ more) ∧
      IsValue used r.value n ∧ n ≤ room ∧ tokens more = (r.rest, true)

/-- A value up to a mark behind it, with the spaces in between. -/
theorem SoundReader.upTo (hvalue : SoundReader room value) (htokens : tokens cs = (input, true))
    {item : Json} {hlt : (t :: ts).length < input.length}
    (hread : value input = some ⟨item, t :: ts, hlt⟩) (hmark : mark? c = some t) :
    ∃ body more n, cs = body ++ c :: more ∧ IsText body item n ∧ n ≤ room ∧
      tokens more = (ts, true) := by
  obtain ⟨gap, used, more, n, hgap, rfl, hused, hn, hmore⟩ := hvalue cs input _ htokens hread
  obtain ⟨gap', more, hgap', rfl, hrest⟩ := exists_of_tokens_mark hmore hmark
  exact ⟨gap ++ used ++ gap', more, n, by simp, .padded hgap hused hgap', hn, hrest⟩

/-- What is read as items up to a closing bracket are items of the grammar. -/
theorem areItems_of_readItems (hvalue : SoundReader room value)
    (htokens : tokens cs = (input, true)) {r : Reading (List Json) input}
    (h : readItems value input = some r) :
    ∃ body more n, cs = body ++ ']' :: more ∧ AreItems body r.value n ∧ n ≤ room ∧
      tokens more = (r.rest, true) := by
  fun_induction readItems value input generalizing cs with
  | case1 => cases h
  | case2 input item rest hlt hread =>
    obtain rfl := Option.some.inj h
    obtain ⟨body, more, n, hcs, hbody, hn, hrest⟩ := hvalue.upTo htokens hread (c := ']') rfl
    exact ⟨body, more, n, hcs, .last hbody, hn, hrest⟩
  | case3 => cases h
  | case4 input item rest hlt hread items hitems ih =>
    obtain rfl := Option.some.inj h
    obtain ⟨body, more, n, rfl, hbody, hn, hrest⟩ := hvalue.upTo htokens hread (c := ',') rfl
    obtain ⟨later, more, m, rfl, hlater, hm, hrest⟩ := ih hrest hitems
    exact ⟨body ++ ',' :: later, more, max n m, by simp, .more hbody hlater,
      Nat.max_le.mpr ⟨hn, hm⟩, hrest⟩
  | case5 => cases h

/-- What is read as a name and a colon is a name of the grammar. -/
theorem isName_of_tokens {name : String} (h : tokens cs = (.string name :: .colon :: ts, true)) :
    ∃ ns more, cs = ns ++ ':' :: more ∧ IsName ns name ∧ tokens more = (ts, true) := by
  obtain ⟨gap, used, more, hgap, rfl, hused, hmore⟩ := exists_of_tokens_cons h
  obtain ⟨gap', more, hgap', rfl, hrest⟩ := exists_of_tokens_mark hmore (c := ':') rfl
  exact ⟨gap ++ used ++ gap', more, by simp, .padded hgap hused.isString hgap', hrest⟩

/-- What is read as members up to a closing brace are members of the grammar. -/
theorem areMembers_of_readMembers (hvalue : SoundReader room value)
    (htokens : tokens cs = (input, true)) {r : Reading (List (String × Json)) input}
    (h : readMembers value input = some r) :
    ∃ body more n, cs = body ++ '\x7d' :: more ∧ AreMembers body r.value n ∧ n ≤ room ∧
      tokens more = (r.rest, true) := by
  fun_induction readMembers value input generalizing cs with
  | case1 => cases h
  | case2 name input item rest hlt hread =>
    obtain rfl := Option.some.inj h
    obtain ⟨ns, more, rfl, hname, hmore⟩ := isName_of_tokens htokens
    obtain ⟨body, more, n, rfl, hbody, hn, hrest⟩ := hvalue.upTo hmore hread (c := '\x7d') rfl
    exact ⟨ns ++ ':' :: body, more, n, by simp, .last hname hbody, hn, hrest⟩
  | case3 => cases h
  | case4 name input item rest hlt hread members hmembers ih =>
    obtain rfl := Option.some.inj h
    obtain ⟨ns, more, rfl, hname, hmore⟩ := isName_of_tokens htokens
    obtain ⟨body, more, n, rfl, hbody, hn, hrest⟩ := hvalue.upTo hmore hread (c := ',') rfl
    obtain ⟨later, more, m, rfl, hlater, hm, hrest⟩ := ih hrest hmembers
    exact ⟨ns ++ ':' :: body ++ ',' :: later, more, max n m, by simp, .more hname hbody hlater,
      Nat.max_le.mpr ⟨hn, hm⟩, hrest⟩
  | case5 => cases h
  | case6 => cases h

/-- A reader is sound if the reader of the values inside is. -/
theorem soundReader_readValueWith {inner : Option ValueReader}
    (hinner : ∀ value ∈ inner, ∃ below, room = below + 1 ∧ SoundReader below value) :
    SoundReader room (readValueWith inner) := by
  intro cs input r htokens h
  fun_cases readValueWith inner input with
  | case1 | case2 | case3 | case4 =>
    obtain rfl := Option.some.inj h
    obtain ⟨gap, used, more, hgap, rfl, hused, hmore⟩ := exists_of_tokens_cons htokens
    exact ⟨gap, used, more, 0, hgap, rfl, hused.isValue fun _ _ => rfl, Nat.zero_le room, hmore⟩
  | case5 rest value =>
    obtain ⟨below, rfl, -⟩ := hinner value rfl
    obtain rfl := Option.some.inj h
    obtain ⟨gap, more, hgap, rfl, hmore⟩ := exists_of_tokens_mark htokens (c := '[') rfl
    obtain ⟨gap', more, hgap', rfl, hrest⟩ := exists_of_tokens_mark hmore (c := ']') rfl
    exact ⟨gap, '[' :: gap' ++ [']'], more, 1, hgap, by simp, .emptyArray hgap',
      Nat.le_add_left 1 below, hrest⟩
  | case6 rest value hrest =>
    obtain ⟨below, rfl, hvalue⟩ := hinner value rfl
    rw [readValueWith.eq_6 _ _ hrest, Option.map_eq_some_iff] at h
    obtain ⟨items, hitems, rfl⟩ := h
    obtain ⟨gap, more, hgap, rfl, hmore⟩ := exists_of_tokens_mark htokens (c := '[') rfl
    obtain ⟨body, more, n, rfl, hbody, hn, hrest⟩ := areItems_of_readItems hvalue hmore hitems
    exact ⟨gap, '[' :: body ++ [']'], more, n + 1, hgap, by simp, .array hbody,
      Nat.succ_le_succ hn, hrest⟩
  | case7 rest value =>
    obtain ⟨below, rfl, -⟩ := hinner value rfl
    obtain rfl := Option.some.inj h
    obtain ⟨gap, more, hgap, rfl, hmore⟩ := exists_of_tokens_mark htokens (c := '\x7b') rfl
    obtain ⟨gap', more, hgap', rfl, hrest⟩ := exists_of_tokens_mark hmore (c := '\x7d') rfl
    exact ⟨gap, '\x7b' :: gap' ++ ['\x7d'], more, 1, hgap, by simp, .emptyObject hgap',
      Nat.le_add_left 1 below, hrest⟩
  | case8 rest value hrest =>
    obtain ⟨below, rfl, hvalue⟩ := hinner value rfl
    rw [readValueWith.eq_8 _ _ hrest, Option.map_eq_some_iff] at h
    obtain ⟨members, hmembers, rfl⟩ := h
    obtain ⟨gap, more, hgap, rfl, hmore⟩ := exists_of_tokens_mark htokens (c := '\x7b') rfl
    obtain ⟨body, more, n, rfl, hbody, hn, hrest⟩ := areMembers_of_readMembers hvalue hmore hmembers
    exact ⟨gap, '\x7b' :: body ++ ['\x7d'], more, n + 1, hgap, by simp, .object hbody,
      Nat.succ_le_succ hn, hrest⟩
  | case9 =>
    rw [readValueWith.eq_9] at h
    · cases h
    all_goals assumption

/-- Every reader of values is sound, however much room it has. -/
theorem soundReader_readValue (room : Nat) : SoundReader room (readValue room) := by
  induction room with
  | zero => exact soundReader_readValueWith fun value hvalue => by cases hvalue
  | succ room ih =>
    apply soundReader_readValueWith
    intro value hvalue
    obtain rfl := Option.some.inj hvalue
    exact ⟨room, rfl, ih⟩

end Readers

/-- A text that is read as a value is the text of that value. The readers work on tokens, so each
law follows the text that the tokens were cut from. -/
theorem isText_of_parse? {text : String} {room : Nat} {json : Json}
    (h : parse? text room = some json) : ∃ n, n ≤ room ∧ IsText text.toList json n := by
  obtain ⟨input, hlt, htokens, hread⟩ := tokens_of_parse? h
  obtain ⟨gap, used, more, n, hgap, hcs, hused, hn, hmore⟩ :=
    soundReader_readValue room _ _ _ htokens hread
  rw [hcs, ← List.append_assoc]
  exact ⟨n, hn, .padded hgap hused (spaces_of_tokens_nil hmore)⟩

end Questlog.Json
