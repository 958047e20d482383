import Questlog.Proofs.Json.Soundness

namespace Questlog.Json

open Decimal (EndsNumeral)

variable {cs front back : List Char} {us : List Token} {json : Json} {n room : Nat}

/-- The text of a number is its token. -/
theorem IsNumber.tokenText {number : Number} (h : IsNumber cs number) :
    TokenText cs (.number number) := by
  cases h with
  | @unsigned _ n _ hspells hstrict hnumber =>
    have htoken : numberToken false n = .number number := by
      rw [numberToken, numberOf?_eq_some_iff.mpr hnumber]
    exact htoken ▸ (IsToken.unsigned hspells hstrict).tokenText
  | @minus cs n _ hspells hstrict hnumber =>
    have htoken : numberToken true n = .number number := by
      rw [numberToken, numberOf?_eq_some_iff.mpr hnumber]
    exact htoken ▸ (IsToken.minus hspells hstrict).tokenText

/-- Spaces around a part have no tokens. -/
theorem Lexes.pad (h : Lexes cs us) (hfront : ∀ c ∈ front, isSpace c = true)
    (hback : ∀ c ∈ back, isSpace c = true) : Lexes (front ++ cs ++ back) us := by
  intro more ts complete hmore htokens
  rw [← tokens_spaces hback] at htokens
  have hcs := h _ ts complete (endsNumeral_spaces hback hmore) htokens
  rw [List.append_assoc, List.append_assoc, tokens_spaces hfront]
  exact hcs

theorem lexes_nil : Lexes [] [] :=
  fun _ _ _ _ htokens => htokens

theorem IsName.lexes {name : String} (h : IsName cs name) : Lexes cs [.string name] := by
  cases h with
  | padded hfront hname hback => exact hname.tokenText.lexes.pad hfront hback

mutual

/-- What is written is read: the text of a value is read as that value wherever there is room for
its arrays and objects. With the lemmas below, by the recursion over the grammar. -/
theorem IsValue.readAs : ∀ {cs : List Char} {json : Json} {n room : Nat}, IsValue cs json n →
    n ≤ room → ReadAs (readValue room) cs json
  | _, _, _, room, .null, _ => readAs_token room (tokenText_word (.head _)) fun _ _ => rfl
  | _, _, _, room, .true, _ => readAs_token room (tokenText_word (.tail _ (.head _))) fun _ _ => rfl
  | _, _, _, room, .false, _ =>
    readAs_token room (tokenText_word (.tail _ (.tail _ (.head _)))) fun _ _ => rfl
  | _, _, _, room, .number hnumber, _ => readAs_token room hnumber.tokenText (denotes_number _)
  | _, _, _, room, .string hstring, _ => readAs_token room hstring.tokenText (denotes_string _)
  | _, _, _, room + 1, .emptyArray hgap, _ => by
    have hlexes := lexes_nil.enclose (c := '[') rfl (d := ']') rfl hgap (List.forall_mem_nil _)
    rw [List.append_nil, List.append_nil] at hlexes
    exact ⟨_, hlexes, denotes_empty (readValue room)⟩
  | _, _, _, room + 1, .array hitems, hn => by
    obtain ⟨us, hlexes, hdenotes⟩ := hitems.readAs (Nat.le_of_succ_le_succ hn)
    have hnone := List.forall_mem_nil fun c => isSpace c = true
    have hbrackets := hlexes.enclose (c := '[') rfl (d := ']') rfl hnone hnone
    rw [List.append_nil] at hbrackets
    exact ⟨_, hbrackets, hdenotes.array⟩
  | _, _, _, room + 1, .emptyObject hgap, _ => by
    have hlexes := lexes_nil.enclose (c := '\x7b') rfl (d := '\x7d') rfl hgap
      (List.forall_mem_nil _)
    rw [List.append_nil, List.append_nil] at hlexes
    exact ⟨_, hlexes, denotes_emptyObject (readValue room)⟩
  | _, _, _, room + 1, .object hmembers, hn => by
    obtain ⟨us, hlexes, hdenotes⟩ := hmembers.readAs (Nat.le_of_succ_le_succ hn)
    have hnone := List.forall_mem_nil fun c => isSpace c = true
    have hbraces := hlexes.enclose (c := '\x7b') rfl (d := '\x7d') rfl hnone hnone
    rw [List.append_nil] at hbraces
    exact ⟨_, hbraces, hdenotes.braces⟩

theorem IsText.readAs : ∀ {cs : List Char} {json : Json} {n room : Nat}, IsText cs json n →
    n ≤ room → ReadAs (readValue room) cs json
  | _, _, _, _, .padded hfront hvalue hback, hn => by
    obtain ⟨us, hlexes, hdenotes⟩ := hvalue.readAs hn
    exact ⟨us, hlexes.pad hfront hback, hdenotes⟩

theorem AreItems.readAs : ∀ {cs : List Char} {items : List Json} {n room : Nat},
    AreItems cs items n → n ≤ room →
      ∃ us, Lexes cs us ∧ DenotesItems (readValue room) us items
  | _, _, _, _, .last hitem, hn => by
    obtain ⟨us, hlexes, hdenotes⟩ := hitem.readAs hn
    exact ⟨us, hlexes, hdenotes.single⟩
  | _, _, _, _, .more hitem hrest, hn => by
    obtain ⟨hitemRoom, hrestRoom⟩ := Nat.max_le.mp hn
    obtain ⟨us, hlexes, hdenotes⟩ := hitem.readAs hitemRoom
    obtain ⟨vs, hlexesRest, hdenotesRest⟩ := hrest.readAs hrestRoom
    have hjoint := hlexes.join hlexesRest (c := ',') rfl (List.forall_mem_nil _)
    exact ⟨us ++ .comma :: vs, hjoint, hdenotes.cons hdenotesRest⟩

theorem AreMembers.readAs : ∀ {cs : List Char} {members : List (String × Json)} {n room : Nat},
    AreMembers cs members n → n ≤ room →
      ∃ us, Lexes cs us ∧ DenotesMembers (readValue room) us members
  | _, _, _, _, .last hname hitem, hn => by
    obtain ⟨us, hlexes, hdenotes⟩ := hitem.readAs hn
    have hjoint := hname.lexes.join hlexes (c := ':') rfl (List.forall_mem_nil _)
    exact ⟨_, hjoint, hdenotes.member _⟩
  | _, _, _, _, .more hname hitem hrest, hn => by
    obtain ⟨hitemRoom, hrestRoom⟩ := Nat.max_le.mp hn
    obtain ⟨us, hlexes, hdenotes⟩ := hitem.readAs hitemRoom
    obtain ⟨vs, hlexesRest, hdenotesRest⟩ := hrest.readAs hrestRoom
    have hmember := hname.lexes.join hlexes (c := ':') rfl (List.forall_mem_nil _)
    have hjoint := hmember.join hlexesRest (c := ',') rfl (List.forall_mem_nil _)
    exact ⟨_, hjoint, hdenotes.consMember _ hdenotesRest⟩

end

/-- A text of a value is parsed as the value. -/
theorem parse?_of_isText {text : String} (h : IsText text.toList json n) (hn : n ≤ room) :
    parse? text room = some json := by
  obtain ⟨us, hlexes, hdenotes⟩ := h.readAs hn
  exact parse?_of_denotes hlexes.tokens_eq hdenotes

/-- A text is parsed to a value just if it is the text of the value and nests no deeper than there is
room. -/
theorem parse?_eq_some_iff {text : String} :
    parse? text room = some json ↔ ∃ n, n ≤ room ∧ IsText text.toList json n := by
  constructor
  · exact isText_of_parse?
  · rintro ⟨n, hn, htext⟩
    exact parse?_of_isText htext hn

end Questlog.Json
