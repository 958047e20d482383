import Questlog.Proofs.Json.Pretty
import Questlog.Service.Body

namespace Questlog.Json

open Body (leniently)

/-- `Takes lenient input a rest`: a reader takes `a` off the front of the tokens read leniently, and
`rest` is left of the tokens. -/
def Takes {α : Type} (lenient : (input : List Token) → Option (Reading α input))
    (input : List Token) (a : α) (rest : List Token) : Prop :=
  rest <:+ input ∧ ∃ hlt, lenient (input.map leniently) = some ⟨a, rest.map leniently, hlt⟩

/-- `Relaxes bound strict lenient`: what the strict reader takes off the front of at most `bound`
tokens, the lenient one takes off the same tokens read leniently, and it is the same value. -/
def Relaxes {α : Type} (bound : Nat)
    (strict lenient : (input : List Token) → Option (Reading α input)) : Prop :=
  ∀ input (r : Reading α input), input.length ≤ bound → strict input = some r →
    Takes lenient input r.value r.rest

section Parts

variable {value : ValueReader} {input rest behind : List Token} {item : Json} {items : List Json}
  {name : String} {members : List (String × Json)}

/-- The tokens behind a mark that follows a value are fewer than those in front of the value. -/
theorem suffix_behind_mark {t : Token} (h : t :: rest <:+ input) :
    rest <:+ input ∧ rest.length + 1 ≤ input.length :=
  ⟨(List.suffix_cons t rest).trans h, h.length_le⟩

/-- An item with the closing bracket behind it is the last one. -/
theorem Takes.lastItem (h : Takes value input item (.closeArray :: rest)) :
    Takes (readItems value) input [item] rest := by
  obtain ⟨hsuffix, hlt, hread⟩ := h
  refine ⟨(suffix_behind_mark hsuffix).1, Nat.lt_of_succ_lt hlt, ?_⟩
  rw [readItems, hread]
  rfl

/-- Behind an item and a comma the other items follow. -/
theorem Takes.consItem (h : Takes value input item (.comma :: rest))
    (hmore : Takes (readItems value) rest items behind) :
    Takes (readItems value) input (item :: items) behind := by
  obtain ⟨hsuffix, hlt, hread⟩ := h
  obtain ⟨hrest, hltItems, hitems⟩ := hmore
  refine ⟨hrest.trans (suffix_behind_mark hsuffix).1,
    Nat.lt_trans hltItems (Nat.lt_of_succ_lt hlt), ?_⟩
  rw [readItems, hread]
  simp only [List.map_cons, leniently, hitems]

/-- A member with the closing brace behind it is the last one. -/
theorem Takes.lastMember (h : Takes value input item (.closeObject :: rest)) :
    Takes (readMembers value) (.string name :: .colon :: input) [(name, item)] rest := by
  obtain ⟨hsuffix, hlt, hread⟩ := h
  have hlonger : (rest.map leniently).length <
      (.string name :: .colon :: input.map leniently : List Token).length := by
    simp only [List.map_cons, List.length_cons] at hlt ⊢
    omega
  refine ⟨(suffix_behind_mark hsuffix).1.trans (List.suffix_append [_, _] input), hlonger, ?_⟩
  change readMembers value (.string name :: .colon :: input.map leniently) = _
  rw [readMembers, hread]
  rfl

/-- Behind a member and a comma the other members follow. -/
theorem Takes.consMember (h : Takes value input item (.comma :: rest))
    (hmore : Takes (readMembers value) rest members behind) :
    Takes (readMembers value) (.string name :: .colon :: input) ((name, item) :: members)
      behind := by
  obtain ⟨hsuffix, hlt, hread⟩ := h
  obtain ⟨hrest, hltMembers, hmembers⟩ := hmore
  have hlonger : (behind.map leniently).length <
      (.string name :: .colon :: input.map leniently : List Token).length := by
    simp only [List.map_cons, List.length_cons] at hlt hltMembers ⊢
    omega
  refine ⟨(hrest.trans (suffix_behind_mark hsuffix).1).trans (List.suffix_append [_, _] input),
    hlonger, ?_⟩
  change readMembers value (.string name :: .colon :: input.map leniently) = _
  rw [readMembers, hread]
  simp only [List.map_cons, leniently, hmembers]
  rfl

/-- Read leniently, no other token becomes a mark. -/
theorem map_leniently_ne_cons {t : Token} (hnull : t ≠ .null) (hstring : t ≠ .string "")
    (h : ∀ rest, input ≠ t :: rest) (rest : List Token) : input.map leniently ≠ t :: rest := by
  rintro hmap
  obtain ⟨first, more, rfl, hfirst, -⟩ := List.map_eq_cons_iff.mp hmap
  cases first with
  | vastNumber => exact hnull hfirst.symm
  | brokenString => exact hstring hfirst.symm
  | _ => exact h more (congrArg (· :: more) hfirst)

/-- Items behind an opening bracket are those of an array. -/
theorem Takes.array (h : Takes (readItems value) input items rest)
    (hopen : ∀ more, input ≠ .closeArray :: more) :
    Takes (readValueWith (some value)) (.openArray :: input) (.array items) rest := by
  obtain ⟨hsuffix, hlt, hitems⟩ := h
  refine ⟨hsuffix.trans (List.suffix_cons _ input), Nat.lt_succ_of_lt hlt, ?_⟩
  have hopen' := map_leniently_ne_cons Token.noConfusion Token.noConfusion hopen
  change readValueWith (some value) (.openArray :: input.map leniently) = _
  rw [readValueWith.eq_6 _ _ hopen', hitems]
  rfl

/-- Members behind an opening brace are those of an object. -/
theorem Takes.object (h : Takes (readMembers value) input members rest)
    (hopen : ∀ more, input ≠ .closeObject :: more) :
    Takes (readValueWith (some value)) (.openObject :: input) (.ofMembers members) rest := by
  obtain ⟨hsuffix, hlt, hmembers⟩ := h
  refine ⟨hsuffix.trans (List.suffix_cons _ input), Nat.lt_succ_of_lt hlt, ?_⟩
  have hopen' := map_leniently_ne_cons Token.noConfusion Token.noConfusion hopen
  change readValueWith (some value) (.openObject :: input.map leniently) = _
  rw [readValueWith.eq_8 _ _ hopen', hmembers]
  rfl

theorem takes_emptyArray (value : ValueReader) (rest : List Token) :
    Takes (readValueWith (some value)) (.openArray :: .closeArray :: rest) (.array []) rest := by
  refine ⟨List.suffix_append [_, _] rest, ?_, rfl⟩
  simp only [List.map_cons, List.length_cons]
  omega

theorem takes_emptyObject (value : ValueReader) (rest : List Token) :
    Takes (readValueWith (some value)) (.openObject :: .closeObject :: rest) (.object []) rest := by
  refine ⟨List.suffix_append [_, _] rest, ?_, rfl⟩
  simp only [List.map_cons, List.length_cons]
  omega

end Parts

section Readers

variable {bound : Nat} {strict lenient : ValueReader} {input : List Token}

/-- Reading items leniently relaxes reading them strictly. -/
theorem Relaxes.readItems (hvalue : Relaxes bound strict lenient) :
    Relaxes bound (Json.readItems strict) (Json.readItems lenient) := by
  intro input r hbound h
  fun_induction Json.readItems strict input with
  | case1 => cases h
  | case2 input item rest hlt hread =>
    obtain rfl := Option.some.inj h
    exact (hvalue _ _ hbound hread).lastItem
  | case3 => cases h
  | case4 input item rest hlt hread items hitems ih =>
    obtain rfl := Option.some.inj h
    have hitem := hvalue _ _ hbound hread
    have hfewer := (suffix_behind_mark hitem.1).2
    exact hitem.consItem (ih items (by omega) hitems)
  | case5 => cases h

theorem Relaxes.readMembers (hvalue : Relaxes bound strict lenient) :
    Relaxes bound (Json.readMembers strict) (Json.readMembers lenient) := by
  intro input r hbound h
  fun_induction Json.readMembers strict input with
  | case1 => cases h
  | case2 name more item rest hlt hread =>
    obtain rfl := Option.some.inj h
    simp only [List.length_cons] at hbound
    exact (hvalue _ _ (by omega) hread).lastMember
  | case3 => cases h
  | case4 name more item rest hlt hread members hmembers ih =>
    obtain rfl := Option.some.inj h
    simp only [List.length_cons] at hbound
    have hmember := hvalue _ _ (by omega) hread
    have hfewer := (suffix_behind_mark hmember.1).2
    exact hmember.consMember (ih members (by omega) hmembers)
  | case5 => cases h
  | case6 => cases h

/-- One reader relaxes another if the readers of the values inside do. -/
theorem relaxes_readValueWith {inner inner' : Option ValueReader}
    (hinner : ∀ strict ∈ inner, ∃ lenient ∈ inner', Relaxes bound strict lenient) :
    Relaxes (bound + 1) (readValueWith inner) (readValueWith inner') := by
  intro input r hbound h
  fun_cases readValueWith inner input with
  | case1 | case2 | case3 | case4 =>
    obtain rfl := Option.some.inj h
    refine ⟨List.suffix_cons _ _, ?_, ?_⟩
    · simp [Reading.ofHead]
    · cases inner' <;> rfl
  | case5 rest strict =>
    obtain rfl := Option.some.inj h
    obtain ⟨lenient, hlenient, -⟩ := hinner strict rfl
    obtain rfl := Option.mem_def.mp hlenient
    exact takes_emptyArray lenient rest
  | case6 rest strict hrest =>
    obtain ⟨lenient, hlenient, hrelaxes⟩ := hinner strict rfl
    obtain rfl := Option.mem_def.mp hlenient
    rw [readValueWith.eq_6 _ _ hrest, Option.map_eq_some_iff] at h
    obtain ⟨items, hitems, rfl⟩ := h
    exact (hrelaxes.readItems rest items (Nat.le_of_succ_le_succ hbound) hitems).array hrest
  | case7 rest strict =>
    obtain rfl := Option.some.inj h
    obtain ⟨lenient, hlenient, -⟩ := hinner strict rfl
    obtain rfl := Option.mem_def.mp hlenient
    exact takes_emptyObject lenient rest
  | case8 rest strict hrest =>
    obtain ⟨lenient, hlenient, hrelaxes⟩ := hinner strict rfl
    obtain rfl := Option.mem_def.mp hlenient
    rw [readValueWith.eq_8 _ _ hrest, Option.map_eq_some_iff] at h
    obtain ⟨members, hmembers, rfl⟩ := h
    exact (hrelaxes.readMembers rest members (Nat.le_of_succ_le_succ hbound) hmembers).object hrest
  | case9 =>
    rw [readValueWith.eq_9] at h
    · cases h
    all_goals assumption

/-- What is read at all is read leniently just the same, if there is room for as many arrays and
objects as there are tokens. -/
theorem relaxes_readValue (room bound : Nat) : Relaxes bound (readValue room) (readValue bound) := by
  induction bound generalizing room with
  | zero =>
    intro input r hbound h
    obtain rfl := List.length_eq_zero_iff.mp (Nat.le_zero.mp hbound)
    exact absurd r.shorter (Nat.not_lt_zero _)
  | succ bound ih =>
    cases room with
    | zero => exact relaxes_readValueWith fun strict hstrict => absurd hstrict (Option.not_mem_none _)
    | succ room =>
      refine relaxes_readValueWith fun strict hstrict => ⟨_, rfl, ?_⟩
      obtain rfl := Option.some.inj hstrict
      exact ih room

theorem map_leniently_map (input : List Token) :
    (input.map leniently).map leniently = input.map leniently := by
  rw [List.map_map]
  refine List.map_congr_left fun t _ => ?_
  cases t <;> rfl

/-- More room than there are tokens makes no difference. -/
theorem Takes.widen {room : Nat} {json : Json} {rest : List Token}
    (h : Takes (readValue room) input json rest) (hbound : input.length ≤ bound) :
    Takes (readValue bound) input json rest := by
  obtain ⟨hsuffix, hlt, hread⟩ := h
  have hbound' : (input.map leniently).length ≤ bound := by rwa [List.length_map]
  have hwide := (relaxes_readValue room bound _ ⟨json, _, hlt⟩ hbound' hread).2
  rw [map_leniently_map, map_leniently_map] at hwide
  exact ⟨hsuffix, hwide⟩

end Readers

section Texts

variable {text : String} {json other : Json}

/-- `ReadsLeniently text json`: the text is the JSON value, where numbers and strings that denote
nothing count as null and as the empty text. It may nest as deep as it likes. -/
def ReadsLeniently (text : String) (json : Json) : Prop :=
  ∃ input, tokens text.toList = (input, true) ∧ Takes (readValue input.length) input json []

/-- A text has one value at most. -/
theorem ReadsLeniently.unique (h : ReadsLeniently text json) (h' : ReadsLeniently text other) :
    json = other := by
  obtain ⟨input, htokens, -, hlt, hread⟩ := h
  obtain ⟨input', htokens', -, hlt', hread'⟩ := h'
  obtain rfl := (Prod.mk.inj (htokens.symm.trans htokens')).1
  exact congrArg Reading.value (Option.some.inj (hread.symm.trans hread'))

/-- A text that is JSON has its JSON value. -/
theorem readsLeniently_iff_of_parse? (h : parse? text = some json) :
    ReadsLeniently text other ↔ other = json := by
  obtain ⟨input, hlt, htokens, hread⟩ := tokens_of_parse? h
  have hstrict : ReadsLeniently text json :=
    ⟨input, htokens, relaxes_readValue _ _ input ⟨json, [], hlt⟩ (Nat.le_refl _) hread⟩
  constructor
  · exact fun hother => hother.unique hstrict
  · rintro rfl
    exact hstrict

end Texts

end Questlog.Json

namespace Questlog.Body

variable {input : List Json.Token}

/-- A value that can be read is passed over to where reading it ends. -/
theorem skipValue_of_readValue {room : Nat} {r : Reading Json input}
    (h : Json.readValue room input = some r) : skipValue input = .ok ⟨(), r.rest, r.shorter⟩ := by
  obtain ⟨hsuffix, hlt, hread⟩ :=
    Json.relaxes_readValue room input.length input r (Nat.le_refl _) h
  have hrest : input.drop (input.length - (r.rest.map leniently).length) = r.rest := by
    rw [List.length_map]
    exact (List.suffix_iff_eq_drop.mp hsuffix).symm
  simp only [skipValue, hread, hrest]

/-- What is passed over is a value, read leniently. -/
theorem takes_of_skipValue {r : Reading Unit input} (h : skipValue input = .ok r) :
    ∃ json, Json.Takes (Json.readValue input.length) input json r.rest := by
  unfold skipValue at h
  cases hread : Json.readValue input.length (input.map leniently) with
  | none =>
    rw [hread] at h
    cases h
  | some taken =>
    obtain ⟨json, rest, hlt⟩ := taken
    rw [hread] at h
    obtain rfl := Except.ok.inj h
    have hsuffix : rest <:+ input.map leniently :=
      (Json.relaxes_readValue _ input.length _ _ (Nat.le_of_eq (List.length_map _)) hread).1
    have hrest : (input.drop (input.length - rest.length)).map leniently = rest := by
      have hdrop := List.suffix_iff_eq_drop.mp hsuffix
      rw [List.length_map] at hdrop
      rw [List.map_drop]
      exact hdrop.symm
    refine ⟨json, List.drop_suffix _ _, ?_⟩
    simp only [hrest]
    exact ⟨hlt, hread⟩

end Questlog.Body
