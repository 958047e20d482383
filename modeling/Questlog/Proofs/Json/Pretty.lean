import Questlog.Proofs.Json.Constant
import Questlog.Proofs.Json.Fits

namespace Questlog.Json

open Decimal (EndsNumeral)

variable {cs ds more gap gap' : List Char} {us vs ts : List Token} {c : Char} {t t' : Token}
  {json : Json}

section Lexing

/-- The characters are cut into the given tokens, whatever stands behind them that ends a number. -/
def Lexes (cs : List Char) (us : List Token) : Prop :=
  ∀ more ts complete, EndsNumeral more → tokens more = (ts, complete) →
    tokens (cs ++ more) = (us ++ ts, complete)

theorem readToken_space (rest : List Char) (hc : isSpace c = true) : readToken (c :: rest) = none := by
  rcases eq_of_isSpace hc with rfl | rfl | rfl | rfl <;> rfl

/-- The text of a token is cut into that token. -/
theorem TokenText.lexes (h : TokenText cs t) : Lexes cs [t] := by
  intro more ts complete hmore htokens
  obtain ⟨hlt, hread⟩ := h more hmore
  cases cs with
  | nil =>
    exact absurd hlt (Nat.lt_irrefl more.length)
  | cons c cs =>
    have hspace : isSpace c = false := by
      rw [Bool.eq_false_iff]
      intro hc
      have hnone := readToken_space (cs ++ more) hc
      exact absurd (hnone.symm.trans hread) (Option.some_ne_none _).symm
    exact tokens_cons hspace hread htokens

theorem eq_of_mark? (h : mark? c = some t) :
    c = '\x7b' ∨ c = '\x7d' ∨ c = '[' ∨ c = ']' ∨ c = ':' ∨ c = ',' := by
  unfold mark? at h
  split at h
  · simp
  · simp
  · simp
  · simp
  · simp
  · simp
  · cases h

theorem isSpace_of_mark? (h : mark? c = some t) : isSpace c = false := by
  rcases eq_of_mark? h with rfl | rfl | rfl | rfl | rfl | rfl <;> rfl

/-- A number ends at a mark. -/
theorem endsNumeral_mark (h : mark? c = some t) : EndsNumeral (c :: more) := by
  intro d hd
  obtain rfl : c = d := Option.some.inj hd
  rcases eq_of_mark? h with rfl | rfl | rfl | rfl | rfl | rfl <;> decide

theorem endsNumeral_spaces (hgap : ∀ c ∈ gap, isSpace c = true) (hmore : EndsNumeral more) :
    EndsNumeral (gap ++ more) := by
  cases gap with
  | nil => exact hmore
  | cons d gap =>
    have hspace : isSpace d = true := hgap d List.mem_cons_self
    have hdelimited : Delimited (d :: (gap ++ more)) := delimited_cons (.inr (.inr hspace))
    exact hdelimited.ends_number

/-- Two parts with a mark between them and spaces behind the mark. -/
theorem Lexes.join (hcs : Lexes cs us) (hds : Lexes ds vs) (hmark : mark? c = some t)
    (hgap : ∀ c ∈ gap, isSpace c = true) : Lexes (cs ++ c :: (gap ++ ds)) (us ++ t :: vs) := by
  intro more ts complete hmore htokens
  have hbehind := hds more ts complete hmore htokens
  rw [← tokens_spaces hgap] at hbehind
  have hjoint := hcs _ _ complete (endsNumeral_mark hmark)
    (tokens_mark (isSpace_of_mark? hmark) hmark hbehind)
  simpa using hjoint

/-- A part between two marks with spaces around it. -/
theorem Lexes.enclose (hcs : Lexes cs us) (hopen : mark? c = some t) {d : Char}
    (hclose : mark? d = some t') (hgap : ∀ c ∈ gap, isSpace c = true)
    (hgap' : ∀ c ∈ gap', isSpace c = true) :
    Lexes (c :: gap ++ cs ++ gap' ++ [d]) (t :: us ++ [t']) := by
  intro more ts complete hmore htokens
  have hbehind := tokens_mark (isSpace_of_mark? hclose) hclose htokens
  rw [← tokens_spaces hgap'] at hbehind
  have hinside := hcs _ _ complete (endsNumeral_spaces hgap' (endsNumeral_mark hclose)) hbehind
  rw [← tokens_spaces hgap] at hinside
  have hall := tokens_mark (isSpace_of_mark? hopen) hopen hinside
  simpa using hall

theorem lexes_empty (hopen : mark? c = some t) {closing : Char} (hclose : mark? closing = some t') :
    Lexes [c, closing] [t, t'] := by
  intro more ts complete hmore htokens
  have hbehind := tokens_mark (isSpace_of_mark? hclose) hclose htokens
  exact tokens_mark (isSpace_of_mark? hopen) hopen hbehind

theorem isSpace_newLine (level : Nat) : ∀ c ∈ newLine level, isSpace c = true := by
  intro c hc
  rcases List.mem_cons.mp hc with rfl | hspaces
  · rfl
  · rw [List.eq_of_mem_replicate hspaces]
    rfl

end Lexing

section Members

variable {value : ValueReader} {name : String} {members : List (String × Json)}

/-- What a reader of values does with the tokens of members and a closing brace behind them. -/
structure DenotesMembers (value : ValueReader) (us : List Token) (members : List (String × Json)) :
    Prop where
  starts : ∃ name us', us = .string name :: us'
  reads : ∀ rest, ∃ hlt, readMembers value (us ++ .closeObject :: rest) = some ⟨members, rest, hlt⟩

/-- A name, a colon and a value denote one member. -/
theorem Denotes.member (h : Denotes value us json) (name : String) :
    DenotesMembers value (.string name :: .colon :: us) [(name, json)] := by
  refine ⟨⟨name, _, rfl⟩, fun rest => ?_⟩
  obtain ⟨hlt, hread⟩ := h.reads (.closeObject :: rest)
  refine ⟨Nat.lt_succ_of_lt (Nat.lt_succ_of_lt (Nat.lt_of_succ_lt hlt)), ?_⟩
  simp only [List.cons_append]
  rw [readMembers]
  simp only [hread]

theorem Denotes.consMember (h : Denotes value us json) (name : String)
    (hrest : DenotesMembers value vs members) :
    DenotesMembers value (.string name :: .colon :: us ++ .comma :: vs) ((name, json) :: members) := by
  refine ⟨⟨name, _, rfl⟩, fun rest => ?_⟩
  obtain ⟨hlt, hread⟩ := h.reads (.comma :: (vs ++ .closeObject :: rest))
  obtain ⟨hltMembers, hmembers⟩ := hrest.reads rest
  have hassoc : .string name :: .colon :: us ++ .comma :: vs ++ .closeObject :: rest =
      .string name :: .colon :: (us ++ .comma :: (vs ++ .closeObject :: rest)) := by simp
  rw [hassoc]
  refine ⟨Nat.lt_succ_of_lt (Nat.lt_succ_of_lt (Nat.lt_trans hltMembers (Nat.lt_of_succ_lt hlt))), ?_⟩
  rw [readMembers]
  simp only [hread, hmembers]

theorem denotes_emptyObject (value : ValueReader) :
    Denotes (readValueWith (some value)) [.openObject, .closeObject] (.object []) := by
  refine ⟨⟨.openObject, _, rfl, Token.noConfusion⟩, fun rest => ?_⟩
  have hlt : rest.length < ([.openObject, .closeObject] ++ rest : List Token).length := by
    rw [List.length_append]
    exact Nat.lt_add_of_pos_left (Nat.succ_pos _)
  exact ⟨hlt, rfl⟩

theorem DenotesMembers.braces (h : DenotesMembers value us members) :
    Denotes (readValueWith (some value)) (.openObject :: us ++ [.closeObject])
      (.ofMembers members) := by
  refine ⟨⟨.openObject, _, rfl, Token.noConfusion⟩, fun rest => ?_⟩
  obtain ⟨hlt, hread⟩ := h.reads rest
  have hassoc : .openObject :: us ++ [.closeObject] ++ rest =
      .openObject :: (us ++ .closeObject :: rest) := by simp
  obtain ⟨name, us', rfl⟩ := h.starts
  rw [hassoc]
  refine ⟨Nat.lt_succ_of_lt hlt, ?_⟩
  simp only [List.cons_append] at hread ⊢
  simp only [readValueWith, hread, Option.map_some]

/-- Members in braces denote their object if their names are distinct. -/
theorem DenotesMembers.object (h : DenotesMembers value us members)
    (hnames : (Entries.names members).Nodup) :
    Denotes (readValueWith (some value)) (.openObject :: us ++ [.closeObject]) (.object members) := by
  have hvalue : ofMembers members = .object members := by
    rw [ofMembers, Entries.ofList_of_nodup hnames]
  exact hvalue ▸ h.braces

end Members

section Values

theorem prettyItems_eq_map (level : Nat) (items : List Json) :
    prettyItems level items = items.map (writePretty level) := by
  induction items with
  | nil => rfl
  | cons item rest ih => rw [prettyItems, ih, List.map_cons]

/-- A member on a line of its own. -/
def prettyMember (level : Nat) (member : String × Json) : List Char :=
  writeString member.1 ++ ':' :: ' ' :: writePretty level member.2

theorem prettyMembers_eq_map (level : Nat) (members : List (String × Json)) :
    prettyMembers level members = members.map (prettyMember level) := by
  induction members with
  | nil => rfl
  | cons member rest ih => rw [prettyMembers, ih, List.map_cons, prettyMember]

/-- The text is cut into tokens that the reader takes for the value. -/
def ReadAs (value : ValueReader) (cs : List Char) (json : Json) : Prop :=
  ∃ us, Lexes cs us ∧ Denotes value us json

/-- The words of JSON are tokens. -/
theorem tokenText_word {word : List Char × Token} (h : word ∈ words) : TokenText word.1 word.2 := by
  intro more _
  have hlt : more.length < (word.1 ++ more).length := by
    have hpos : ∀ w ∈ words, 0 < w.1.length := by decide
    rw [List.length_append]
    exact Nat.lt_add_of_pos_left (hpos word h)
  refine ⟨hlt, ?_⟩
  simp only [words, List.mem_cons, List.not_mem_nil, or_false] at h
  rcases h with rfl | rfl | rfl <;> rfl

theorem readValue_eq (room : Nat) : ∃ inner, readValue room = readValueWith inner := by
  cases room with
  | zero => exact ⟨none, rfl⟩
  | succ room => exact ⟨some (readValue room), rfl⟩

/-- A text of one token is read as what the token denotes. -/
theorem readAs_token (room : Nat) (htext : TokenText cs t) (hdenotes : t.Denotes json) :
    ReadAs (readValue room) cs json := by
  obtain ⟨inner, hroom⟩ := readValue_eq room
  rw [hroom]
  exact ⟨[t], htext.lexes, hdenotes.reader inner⟩

/-- A value without items and members is written as a single token. -/
theorem readAs_leaf (room level : Nat) (harray : json.array? = none)
    (hobject : json.object? = none) : ReadAs (readValue room) (writePretty level json) json := by
  cases json with
  | null => exact readAs_token room (tokenText_word (.head _)) fun _ _ => rfl
  | bool b =>
    cases b with
    | true => exact readAs_token room (tokenText_word (.tail _ (.head _))) fun _ _ => rfl
    | false => exact readAs_token room (tokenText_word (.tail _ (.tail _ (.head _)))) fun _ _ => rfl
  | number n => exact readAs_token room (tokenText_write n) (denotes_number n)
  | string s => exact readAs_token room (tokenText_writeString s) (denotes_string s)
  | array items => cases harray
  | object members => cases hobject

variable {value : ValueReader}

/-- Items that are each read are read between commas. -/
theorem readItems_joinWith {write : Json → List Char} (hgap : ∀ c ∈ gap, isSpace c = true)
    {items : List Json} (hne : items ≠ []) (h : ∀ item ∈ items, ReadAs value (write item) item) :
    ∃ us, Lexes (joinWith (',' :: gap) (items.map write)) us ∧ DenotesItems value us items := by
  induction items with
  | nil => exact absurd rfl hne
  | cons item rest ih =>
    obtain ⟨us, hlexes, hdenotes⟩ := h item List.mem_cons_self
    cases rest with
    | nil => exact ⟨us, hlexes, hdenotes.single⟩
    | cons next rest =>
      obtain ⟨vs, hlexesRest, hdenotesRest⟩ := ih (List.cons_ne_nil next rest)
        fun other hother => h other (List.mem_cons_of_mem item hother)
      refine ⟨us ++ .comma :: vs, ?_, hdenotes.cons hdenotesRest⟩
      have hjoint := hlexes.join hlexesRest (c := ',') rfl hgap
      simpa [joinWith] using hjoint

theorem readMembers_joinWith {level : Nat} (hgap : ∀ c ∈ gap, isSpace c = true)
    {members : List (String × Json)} (hne : members ≠ [])
    (h : ∀ member ∈ members, ReadAs value (writePretty level member.2) member.2) :
    ∃ us, Lexes (joinWith (',' :: gap) (members.map (prettyMember level))) us ∧
      DenotesMembers value us members := by
  induction members with
  | nil => exact absurd rfl hne
  | cons member rest ih =>
    obtain ⟨us, hlexesValue, hdenotes⟩ := h member List.mem_cons_self
    have hspace : ∀ c ∈ [' '], isSpace c = true := List.forall_mem_singleton.mpr rfl
    have hlexes : Lexes (prettyMember level member) (.string member.1 :: .colon :: us) :=
      (tokenText_writeString member.1).lexes.join hlexesValue (c := ':') rfl hspace
    cases rest with
    | nil => exact ⟨_, hlexes, hdenotes.member member.1⟩
    | cons next rest =>
      obtain ⟨vs, hlexesRest, hdenotesRest⟩ := ih (List.cons_ne_nil next rest)
        fun other hother => h other (List.mem_cons_of_mem member hother)
      refine ⟨_, ?_, hdenotes.consMember member.1 hdenotesRest⟩
      have hjoint := hlexes.join hlexesRest (c := ',') rfl hgap
      simpa [joinWith] using hjoint

theorem block_of_ne_nil (level : Nat) (opening closing : Char) {parts : List (List Char)}
    (hne : parts ≠ []) :
    block level opening closing parts =
      opening :: newLine (level + 1) ++ joinWith (',' :: newLine (level + 1)) parts ++
        newLine level ++ [closing] := by
  cases parts with
  | nil => exact absurd rfl hne
  | cons part rest => rfl

/-- A pretty array is read if its items are. -/
theorem readAs_array {items : List Json} (level : Nat)
    (h : ∀ item ∈ items, ReadAs value (writePretty (level + 1) item) item) :
    ReadAs (readValueWith (some value)) (writePretty level (.array items)) (.array items) := by
  rw [writePretty, prettyItems_eq_map]
  by_cases hne : items = []
  · subst hne
    exact ⟨_, lexes_empty (c := '[') rfl rfl, denotes_empty value⟩
  · obtain ⟨us, hlexes, hdenotes⟩ := readItems_joinWith (isSpace_newLine (level + 1)) hne h
    rw [block_of_ne_nil level '[' ']' (mt List.map_eq_nil_iff.mp hne)]
    exact ⟨_, hlexes.enclose rfl rfl (isSpace_newLine _) (isSpace_newLine _), hdenotes.array⟩

/-- The text of an object is cut into braces and the tokens of its members. -/
theorem lexes_object {members : List (String × Json)} (level : Nat) (hne : members ≠ [])
    (h : ∀ member ∈ members, ReadAs value (writePretty (level + 1) member.2) member.2) :
    ∃ us, Lexes (writePretty level (.object members)) (.openObject :: us ++ [.closeObject]) ∧
      DenotesMembers value us members := by
  obtain ⟨us, hlexes, hdenotes⟩ := readMembers_joinWith (isSpace_newLine (level + 1)) hne h
  refine ⟨us, ?_, hdenotes⟩
  rw [writePretty, prettyMembers_eq_map,
    block_of_ne_nil level '\x7b' '\x7d' (mt List.map_eq_nil_iff.mp hne)]
  exact hlexes.enclose rfl rfl (isSpace_newLine _) (isSpace_newLine _)

/-- A pretty object is read if the values of its members are. -/
theorem readAs_object {members : List (String × Json)} (level : Nat)
    (hnames : (Entries.names members).Nodup)
    (h : ∀ member ∈ members, ReadAs value (writePretty (level + 1) member.2) member.2) :
    ReadAs (readValueWith (some value)) (writePretty level (.object members)) (.object members) := by
  by_cases hne : members = []
  · subst hne
    exact ⟨_, lexes_empty (c := '\x7b') rfl rfl, denotes_emptyObject value⟩
  · obtain ⟨us, hlexes, hdenotes⟩ := lexes_object level hne h
    exact ⟨_, hlexes, hdenotes.object hnames⟩

/-- A value that fits the room of a reader is read from its pretty text. -/
theorem Fits.readAs {room : Nat} (h : Fits room json) (level : Nat) :
    ReadAs (readValue room) (writePretty level json) json := by
  -- The room carries the induction: what is inside a value has one level less, and no value has
  -- anything inside where there is no room.
  induction room generalizing json level with
  | zero =>
    cases json with
    | array items => exact h.elim
    | object members => exact h.elim
    | _ => exact readAs_leaf 0 level rfl rfl
  | succ room ih =>
    cases json with
    | array items => exact readAs_array level fun item hitem => ih (h item hitem) (level + 1)
    | object members =>
      exact readAs_object level h.1 fun member hmember => ih (h.2 member hmember) (level + 1)
    | _ => exact readAs_leaf (room + 1) level rfl rfl

end Values

theorem Lexes.tokens_eq (h : Lexes cs us) : tokens cs = (us, true) := by
  have hend : tokens [] = ([], true) := by rw [tokens]
  have htokens := h [] [] true Decimal.endsNumeral_nil hend
  rwa [List.append_nil, List.append_nil] at htokens

theorem Lexes.tokens_pretty (h : Lexes (writePretty 0 json) us) :
    tokens json.pretty.toList = (us, true) := by
  rw [pretty, String.toList_ofList]
  exact h.tokens_eq

/-- What is read as a value is read in brackets as the list of that value alone. -/
theorem ReadAs.parse?_brackets (h : ReadAs (readValue 126) cs json) :
    parse? (String.ofList ('[' :: cs ++ [']'])) = some (.array [json]) := by
  obtain ⟨us, hlexes, hdenotes⟩ := h
  have hnone : ∀ c ∈ ([] : List Char), isSpace c = true := by simp
  have hbrackets : Lexes (['['] ++ cs ++ [] ++ [']']) (.openArray :: us ++ [.closeArray]) :=
    hlexes.enclose rfl rfl hnone hnone
  rw [List.append_nil] at hbrackets
  have htokens : tokens (String.ofList ('[' :: cs ++ [']'])).toList =
      (.openArray :: us ++ [.closeArray], true) := by
    rw [String.toList_ofList]
    exact hbrackets.tokens_eq
  exact parse?_of_denotes htokens hdenotes.single.array

/-- What fits the room of the parser is the value of its pretty text. The text is cut into tokens
part by part, and the tokens of each part denote what it was written for. -/
theorem Fits.parse?_pretty (h : Fits maxNesting json) : parse? json.pretty = some json := by
  obtain ⟨us, hlexes, hdenotes⟩ := h.readAs 0
  exact parse?_of_denotes hlexes.tokens_pretty hdenotes

/-- Printing a value that was read and reading it again gives the value. -/
theorem parse?_pretty_of_parse? {text : String} (h : parse? text = some json) :
    parse? json.pretty = some json :=
  (fits_of_parse? h).parse?_pretty

end Questlog.Json
