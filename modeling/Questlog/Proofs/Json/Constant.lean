import Questlog.Proofs.Json.Scalar

namespace Questlog.Json

/-- Scalars with commas between them and spaces around each. -/
inductive Scalars : List Char → List Json → Prop
  | last {front cs back : List Char} {json : Json} : (∀ c ∈ front, isSpace c = true) →
    Scalar cs json → (∀ c ∈ back, isSpace c = true) → Scalars (front ++ cs ++ back) [json]
  | more {front cs back rest : List Char} {json : Json} {values : List Json} :
    (∀ c ∈ front, isSpace c = true) → Scalar cs json → (∀ c ∈ back, isSpace c = true) →
    Scalars rest values → Scalars (front ++ cs ++ back ++ ',' :: rest) (json :: values)

/-- `Constant cs json`: the characters are written for a scalar or a list of scalars. A constant is
read as its value, alone and as an item. -/
inductive Constant : List Char → Json → Prop
  | scalar {cs : List Char} {json : Json} : Scalar cs json → Constant cs json
  | empty {cs : List Char} : (∀ c ∈ cs, isSpace c = true) → Constant ('[' :: cs ++ [']']) (.array [])
  | list {cs : List Char} {values : List Json} : Scalars cs values →
    Constant ('[' :: cs ++ [']']) (.array values)

variable {cs more : List Char} {json : Json} {values : List Json} {ts : List Token}
  {complete : Bool}

/-- A constant has no blanks at its ends. -/
theorem Constant.trimmed (h : Constant cs json) : Text.Trimmed cs := by
  have hopen : Text.Trimmed ['['] := Text.trimmed_singleton (by decide)
  have hclose : Text.Trimmed [']'] := Text.trimmed_singleton (by decide)
  cases h with
  | scalar hscalar => exact hscalar.trimmed
  | @empty cs => exact hopen.append hclose cs
  | @list cs => exact hopen.append hclose cs

theorem tokens_spaces (hcs : ∀ c ∈ cs, isSpace c = true) : tokens (cs ++ more) = tokens more := by
  induction cs with
  | nil => rfl
  | cons c cs ih =>
    rw [List.cons_append, tokens, if_pos (hcs c List.mem_cons_self)]
    exact ih fun d hd => hcs d (List.mem_cons_of_mem c hd)

theorem tokens_cons {c : Char} {rest : List Char} {t : Token} {hlt : more.length < (c :: rest).length}
    (hspace : isSpace c = false) (hread : readToken (c :: rest) = some ⟨t, more, hlt⟩)
    (hmore : tokens more = (ts, complete)) : tokens (c :: rest) = (t :: ts, complete) := by
  rw [tokens, hspace, if_neg Bool.false_ne_true]
  simp only [hread, hmore]

theorem readToken_mark {c : Char} {t : Token} (hmark : mark? c = some t) (more : List Char) :
    readToken (c :: more) = some (.ofHead t c more) := by
  unfold readToken
  simp only [hmark]

theorem tokens_mark {c : Char} {t : Token} (hspace : isSpace c = false) (hmark : mark? c = some t)
    (hmore : tokens more = (ts, complete)) : tokens (c :: more) = (t :: ts, complete) :=
  tokens_cons hspace (readToken_mark hmark more) hmore

/-- A scalar is one token, which denotes it. -/
theorem Scalar.tokens_eq (h : Scalar cs json) (hdelimited : Delimited more)
    (hmore : tokens more = (ts, complete)) :
    ∃ t, tokens (cs ++ more) = (t :: ts, complete) ∧ t.Denotes json := by
  obtain ⟨t, hlt, hread, hdenotes⟩ := h.readToken_eq hdelimited
  have hhead := h.trimmed.head
  cases cs with
  | nil => exact absurd rfl h.trimmed.ne_nil
  | cons c cs =>
    have hspace : isSpace c = false := isSpace_of_not_isBlank (hhead c rfl)
    exact ⟨t, tokens_cons hspace hread hmore, hdenotes⟩

section Readers

variable {value : ValueReader} {us vs : List Token}

/-- Some tokens of which the first is no closing bracket. -/
def StartsItem (us : List Token) : Prop :=
  ∃ t us', us = t :: us' ∧ t ≠ .closeArray

theorem StartsItem.append (h : StartsItem us) (vs : List Token) : StartsItem (us ++ vs) := by
  obtain ⟨t, us', rfl, ht⟩ := h
  exact ⟨t, us' ++ vs, rfl, ht⟩

/-- What a reader of values does with the tokens of a value: it takes them all and no others. -/
structure Denotes (value : ValueReader) (us : List Token) (json : Json) : Prop where
  starts : StartsItem us
  reads : ∀ rest, ∃ hlt, value (us ++ rest) = some ⟨json, rest, hlt⟩

/-- The same of the items of an array with its closing bracket behind them. -/
structure DenotesItems (value : ValueReader) (us : List Token) (values : List Json) : Prop where
  starts : StartsItem us
  reads : ∀ rest, ∃ hlt, readItems value (us ++ .closeArray :: rest) = some ⟨values, rest, hlt⟩

theorem Token.Denotes.reader {t : Token} (h : t.Denotes json) (inner : Option ValueReader) :
    Json.Denotes (readValueWith inner) [t] json := by
  constructor
  · refine ⟨t, [], rfl, ?_⟩
    rintro rfl
    cases h none []
  · exact fun rest => ⟨Nat.lt_succ_self _, h inner rest⟩

theorem Denotes.single (h : Denotes value us json) : DenotesItems value us [json] := by
  refine ⟨h.starts, fun rest => ?_⟩
  obtain ⟨hlt, hread⟩ := h.reads (.closeArray :: rest)
  refine ⟨Nat.lt_of_succ_lt hlt, ?_⟩
  rw [readItems]
  simp only [hread]

theorem Denotes.cons (h : Denotes value us json) (hrest : DenotesItems value vs values) :
    DenotesItems value (us ++ .comma :: vs) (json :: values) := by
  constructor
  · exact h.starts.append (.comma :: vs)
  · intro rest
    obtain ⟨hlt, hread⟩ := h.reads (.comma :: (vs ++ .closeArray :: rest))
    obtain ⟨hltItems, hitems⟩ := hrest.reads rest
    have hassoc : us ++ .comma :: vs ++ .closeArray :: rest =
        us ++ .comma :: (vs ++ .closeArray :: rest) := by simp
    rw [hassoc]
    refine ⟨Nat.lt_trans hltItems (Nat.lt_of_succ_lt hlt), ?_⟩
    rw [readItems]
    simp only [hread, hitems]

theorem denotes_empty (value : ValueReader) :
    Denotes (readValueWith (some value)) [.openArray, .closeArray] (.array []) := by
  constructor
  · exact ⟨.openArray, _, rfl, by simp⟩
  · intro rest
    have hlt : rest.length < ([.openArray, .closeArray] ++ rest : List Token).length := by
      rw [List.length_append]
      exact Nat.lt_add_of_pos_left (Nat.succ_pos _)
    exact ⟨hlt, rfl⟩

/-- An opening bracket in front of an item is that of an array. -/
theorem readValueWith_array {input : List Token} (h : StartsItem input) :
    readValueWith (some value) (.openArray :: input) =
      (readItems value input).map fun r =>
        ⟨.array r.value, r.rest, Nat.lt_succ_of_lt r.shorter⟩ := by
  obtain ⟨t, rest, rfl, ht⟩ := h
  cases t <;> first | rfl | exact absurd rfl ht

/-- Items in brackets denote their array. -/
theorem DenotesItems.array (h : DenotesItems value us values) :
    Denotes (readValueWith (some value)) (.openArray :: us ++ [.closeArray]) (.array values) := by
  constructor
  · exact ⟨.openArray, _, rfl, by simp⟩
  · intro rest
    obtain ⟨hlt, hread⟩ := h.reads rest
    have hassoc : .openArray :: us ++ [.closeArray] ++ rest =
        .openArray :: (us ++ .closeArray :: rest) := by simp
    rw [hassoc, readValueWith_array (h.starts.append _), hread]
    exact ⟨Nat.lt_succ_of_lt hlt, rfl⟩

end Readers

theorem delimited_spaces {back : List Char} (hback : ∀ c ∈ back, isSpace c = true) {c : Char}
    (hc : c = ',' ∨ c = ']') (rest : List Char) : Delimited (back ++ c :: rest) :=
  delimited_append hback (delimited_cons (hc.imp_right .inl))

/-- Scalars between commas denote their list. -/
theorem Scalars.tokens_eq (h : Scalars cs values) (hmore : tokens more = (ts, complete)) :
    ∃ us, tokens (cs ++ ']' :: more) = (us ++ .closeArray :: ts, complete) ∧
      ∀ inner, DenotesItems (readValueWith inner) us values := by
  induction h with
  | @last front cs back json hfront hscalar hback =>
    have hclose : tokens (']' :: more) = (.closeArray :: ts, complete) :=
      tokens_mark (by decide) rfl hmore
    rw [← tokens_spaces hback] at hclose
    obtain ⟨t, htokens, hdenotes⟩ :=
      hscalar.tokens_eq (delimited_spaces hback (.inr rfl) more) hclose
    refine ⟨[t], ?_, fun inner => (hdenotes.reader inner).single⟩
    rw [List.append_assoc, List.append_assoc, tokens_spaces hfront, htokens]
    rfl
  | @more front cs back rest json values hfront hscalar hback _ ih =>
    obtain ⟨us, hrest, hitems⟩ := ih
    have hcomma : tokens (',' :: (rest ++ ']' :: more)) =
        (.comma :: (us ++ .closeArray :: ts), complete) := tokens_mark (by decide) rfl hrest
    rw [← tokens_spaces hback] at hcomma
    obtain ⟨t, htokens, hdenotes⟩ := hscalar.tokens_eq (delimited_spaces hback (.inl rfl) _) hcomma
    refine ⟨t :: .comma :: us, ?_, fun inner => (hdenotes.reader inner).cons (hitems inner)⟩
    have hassoc : front ++ cs ++ back ++ ',' :: rest ++ ']' :: more =
        front ++ (cs ++ (back ++ ',' :: (rest ++ ']' :: more))) := by simp
    rw [hassoc, tokens_spaces hfront, htokens]
    rfl

/-- A constant is cut into tokens that denote it. -/
theorem Constant.tokens_eq (h : Constant cs json) (hdelimited : Delimited more)
    (hmore : tokens more = (ts, complete)) :
    ∃ us, tokens (cs ++ more) = (us ++ ts, complete) ∧
      ∀ inner, Denotes (readValueWith (some (readValueWith inner))) us json := by
  cases h with
  | scalar hscalar =>
    obtain ⟨t, htokens, hdenotes⟩ := hscalar.tokens_eq hdelimited hmore
    exact ⟨[t], htokens, fun inner => hdenotes.reader (some (readValueWith inner))⟩
  | @empty cs hcs =>
    have hclose : tokens (']' :: more) = (.closeArray :: ts, complete) :=
      tokens_mark (by decide) rfl hmore
    rw [← tokens_spaces hcs] at hclose
    have hopen : tokens ('[' :: (cs ++ ']' :: more)) =
        (.openArray :: .closeArray :: ts, complete) := tokens_mark (by decide) rfl hclose
    refine ⟨[.openArray, .closeArray], ?_, fun inner => denotes_empty (readValueWith inner)⟩
    have hassoc : '[' :: cs ++ [']'] ++ more = '[' :: (cs ++ ']' :: more) := by simp
    rw [hassoc, hopen]
    rfl
  | @list cs values hscalars =>
    obtain ⟨us, hitems, hdenotes⟩ := hscalars.tokens_eq hmore
    have hopen : tokens ('[' :: (cs ++ ']' :: more)) =
        (.openArray :: (us ++ .closeArray :: ts), complete) := tokens_mark (by decide) rfl hitems
    refine ⟨.openArray :: us ++ [.closeArray], ?_, fun inner => (hdenotes inner).array⟩
    have hassoc : '[' :: cs ++ [']'] ++ more = '[' :: (cs ++ ']' :: more) := by simp
    rw [hassoc, hopen]
    simp

/-- A text is parsed as what its tokens denote. -/
theorem parse?_of_denotes {text : String} {room : Nat} {input : List Token}
    (htokens : tokens text.toList = (input, true))
    (hdenotes : Denotes (readValue room) input json) : parse? text room = some json := by
  have hreads := hdenotes.reads []
  rw [List.append_nil] at hreads
  obtain ⟨hlt, hread⟩ := hreads
  rw [parse?, htokens]
  simp only [hread]

/-- A constant in brackets is read as the list of its value alone. -/
theorem Constant.parse?_eq (h : Constant cs json) :
    parse? (String.ofList ('[' :: cs ++ [']'])) = some (.array [json]) := by
  have hend : tokens [']'] = ([.closeArray], true) := tokens_mark (by decide) rfl (by rw [tokens])
  obtain ⟨us, htokens, hdenotes⟩ := h.tokens_eq (delimited_cons (.inr (.inl rfl))) hend
  have hopen : tokens (String.ofList ('[' :: cs ++ [']'])).toList =
      (.openArray :: us ++ [.closeArray], true) := by
    rw [String.toList_ofList]
    exact tokens_mark (by decide) rfl htokens
  -- The room of 127 has place for the brackets, for a list in them and for its items.
  exact parse?_of_denotes hopen (hdenotes (some (readValue 124))).single.array

end Questlog.Json
