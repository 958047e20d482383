import Questlog.Proofs.Service.Leniency

namespace Questlog

namespace Json

/-- The field of a record: an object with named members, or an array of the fields in order, the last
of which may be missing. -/
def field? (names : List String) (json : Json) (name : String) : Option Json :=
  match json with
  | object members => members.lookup name
  | array items => (names.zip items).lookup name
  | _ => none

/-- The forms of a value, each with the first of the tokens that it is read from. -/
theorem readValue_cases {room : Nat} {P : (input : List Token) → Reading Json input → Prop}
    (hnull : ∀ rest, P (.null :: rest) (.ofHead .null _ rest))
    (hbool : ∀ b rest, P (.bool b :: rest) (.ofHead (.bool b) _ rest))
    (hnumber : ∀ n rest, P (.number n :: rest) (.ofHead (.number n) _ rest))
    (hstring : ∀ s rest, P (.string s :: rest) (.ofHead (.string s) _ rest))
    (harray : ∀ items more rest hlt, P (.openArray :: more) ⟨.array items, rest, hlt⟩)
    (hobject : ∀ members more rest hlt, P (.openObject :: more) ⟨.object members, rest, hlt⟩)
    {input : List Token} {r : Reading Json input} (h : readValue room input = some r) :
    P input r := by
  obtain ⟨inner, hinner⟩ := readValue_eq room
  rw [hinner] at h
  fun_cases readValueWith inner input with
  | case1 | case2 | case3 | case4 | case5 | case7 =>
    obtain rfl := Option.some.inj h
    apply_assumption
  | case6 rest value hrest =>
    rw [readValueWith.eq_6 _ _ hrest, Option.map_eq_some_iff] at h
    obtain ⟨items, -, rfl⟩ := h
    exact harray _ _ _ _
  | case8 rest value hrest =>
    rw [readValueWith.eq_8 _ _ hrest, Option.map_eq_some_iff] at h
    obtain ⟨members, -, rfl⟩ := h
    exact hobject _ _ _ _
  | case9 =>
    rw [readValueWith.eq_9] at h
    · cases h
    all_goals assumption

end Json

namespace Body

variable {α β γ : Type} {fields : List (Field α)} {change? : String → Json → Option (α → α)}
  {bound : Nat}

/-- `Reads read says?`: the reader takes whatever value stands there, and that decides what it says or
that it is of the wrong shape. Where there is no value it reads nothing. -/
structure Reads (read : Reader Fault Json.Token γ) (says? : Json → Option γ) : Prop where
  value : ∀ input (r : Reading Json input), Json.readValue maxNesting input = some r →
    read input = (says? r.value).elim (.error .wrongShape) fun said => .ok ⟨said, r.rest, r.shorter⟩
  nothing : ∀ input, Json.readValue maxNesting input = none → ∀ r, read input ≠ .ok r

/-- What is read is a value that says it. -/
theorem Reads.takes {read : Reader Fault Json.Token γ} {says? : Json → Option γ}
    (h : Reads read says?) {input : List Json.Token} {r : Reading γ input}
    (hok : read input = .ok r) (hbound : input.length ≤ bound) :
    ∃ value, Json.Takes (Json.readValue bound) input value r.rest ∧ says? value = some r.value := by
  cases hread : Json.readValue maxNesting input with
  | none => exact absurd hok (h.nothing input hread r)
  | some taken =>
    rw [h.value input taken hread] at hok
    cases hsaid : says? taken.value with
    | none =>
      rw [hsaid] at hok
      cases hok
    | some said =>
      rw [hsaid] at hok
      obtain rfl := Except.ok.inj hok
      exact ⟨taken.value, Json.relaxes_readValue _ bound input taken hbound hread, hsaid⟩

/-- `Means fields change?`: what the members of an object change in the record, by their names and
values. Those that are no fields change nothing. -/
structure Means (fields : List (Field α)) (change? : String → Json → Option (α → α)) : Prop where
  field : ∀ field ∈ fields, Reads field.read (change? field.name)
  other : ∀ name, isField fields name = false → ∀ value, change? name value = some id

/-- The record after one more member, if it takes that. -/
def take? (change? : String → Json → Option (α → α)) (record : α) (member : String × Json) :
    Option α :=
  (change? member.1 member.2).map (· record)

/-- A field that puts what it reads into the record reads what its reader does. -/
theorem Reads.field {name : String} {read : Reader Fault Json.Token γ} {set : γ → α → α}
    {says? : Json → Option γ} (h : Reads read says?) :
    Reads (Field.of name read set).read fun value => (says? value).map set := by
  constructor
  · intro input r hread
    simp only [Field.of, h.value input r hread]
    cases says? r.value <;> rfl
  · intro input hnone r hok
    simp only [Field.of] at hok
    cases hread : read input with
    | error fault =>
      rw [hread] at hok
      cases hok
    | ok said => exact h.nothing input hnone said hread

/-- Reading one member takes what it means, and refuses what means nothing. -/
theorem Means.readMember (h : Means fields change?) (name : String) :
    ∀ input (r : Reading Json input), Json.readValue maxNesting input = some r →
      readMember fields name input = (change? name r.value).elim (.error .wrongShape) fun change =>
        .ok ⟨change, r.rest, r.shorter⟩ := by
  intro input r hread
  unfold Body.readMember
  cases hfind : fields.find? (·.name = name) with
  | some field =>
    obtain rfl : field.name = name := by simpa using List.find?_some hfind
    exact (h.field field (List.mem_of_find?_eq_some hfind)).value input r hread
  | none =>
    have hfree : isField fields name = false := by simpa [isField] using hfind
    simp only [skipValue_of_readValue hread, h.other name hfree]
    rfl

/-- No field stands twice among the members, or is one of those that are taken. -/
def Fresh (fields : List (Field α)) : (taken : List String) → List (String × Json) → Prop
  | _, [] => True
  | taken, member :: rest =>
    ¬ (isField fields member.1 ∧ member.1 ∈ taken) ∧ Fresh fields (member.1 :: taken) rest

/-- Members with distinct names are fresh. -/
theorem fresh_of_nodup {taken : List String} {members : List (String × Json)}
    (h : (Entries.names members).Nodup) (hfree : ∀ name ∈ Entries.names members, name ∉ taken) :
    Fresh fields taken members := by
  induction members generalizing taken with
  | nil => trivial
  | cons member rest ih =>
    obtain ⟨hnew, hrest⟩ := List.nodup_cons.mp h
    obtain ⟨hname, hothers⟩ := List.forall_mem_cons.mp hfree
    refine ⟨fun htaken => hname htaken.2, ih hrest fun other hother hmem => ?_⟩
    rcases List.mem_cons.mp hmem with rfl | htaken
    · exact hnew hother
    · exact hothers other hother htaken

/-- The members of an object are taken one after the other, unless a field comes twice. -/
theorem Means.readMembers_eq_ok_iff (h : Means fields change?) {input : List Json.Token}
    {r : Reading (List (String × Json)) input}
    (hread : Json.readMembers (Json.readValue maxNesting) input = some r) (taken : List String)
    {record record' : α} {rest : List Json.Token} :
    readMembers fields taken input record = .ok (record', rest) ↔
      Fresh fields taken r.value ∧ r.value.foldlM (take? change?) record = some record' ∧
        rest = r.rest := by
  fun_induction Json.readMembers (Json.readValue maxNesting) input
      generalizing taken record with
  | case1 => cases hread
  | case2 name more item rest hlt hvalue =>
    obtain rfl := Option.some.inj hread
    rw [readMembers]
    simp only [h.readMember name more _ hvalue, Fresh, take?, List.foldlM_cons, List.foldlM_nil]
    by_cases htaken : isField fields name ∧ name ∈ taken
    · simp [htaken]
    · rw [if_neg htaken]
      cases change? name item with
      | none => simp
      | some change => simpa [htaken] using fun _ => eq_comm
  | case3 => cases hread
  | case4 name more item rest hlt hvalue members hmembers ih =>
    obtain rfl := Option.some.inj hread
    rw [readMembers]
    simp only [h.readMember name more _ hvalue, Fresh, take?, List.foldlM_cons]
    by_cases htaken : isField fields name ∧ name ∈ taken
    · simp [htaken]
    · rw [if_neg htaken]
      cases hchange : change? name item with
      | none => simp
      | some change => simpa [htaken] using ih hmembers (name :: taken)
  | case5 => cases hread
  | case6 => cases hread

/-- The value of a member that is read decides what the member changes; one that is no field changes
nothing, whatever value is passed over. -/
theorem Means.takes_readMember (h : Means fields change?) {name : String}
    {input : List Json.Token} {r : Reading (α → α) input}
    (hok : Body.readMember fields name input = .ok r) (hbound : input.length ≤ bound) :
    ∃ value, Json.Takes (Json.readValue bound) input value r.rest ∧
      change? name value = some r.value := by
  unfold Body.readMember at hok
  cases hfind : fields.find? (·.name = name) with
  | some field =>
    obtain rfl : field.name = name := by simpa using List.find?_some hfind
    simp only [hfind] at hok
    exact (h.field field (List.mem_of_find?_eq_some hfind)).takes hok hbound
  | none =>
    have hfree : isField fields name = false := by simpa [isField] using hfind
    simp only [hfind] at hok
    cases hskip : skipValue input with
    | error fault =>
      rw [hskip] at hok
      cases hok
    | ok skipped =>
      rw [hskip] at hok
      obtain rfl := Except.ok.inj hok
      obtain ⟨value, htakes⟩ := takes_of_skipValue hskip
      exact ⟨value, htakes.widen hbound, h.other name hfree value⟩

/-- The members that are read are those of an object, taken one after the other. -/
theorem Means.takes_readMembers (h : Means fields change?) {taken : List String}
    {input rest : List Json.Token} {record record' : α} (hbound : input.length ≤ bound)
    (hok : readMembers fields taken input record = .ok (record', rest)) :
    ∃ members, Json.Takes (Json.readMembers (Json.readValue bound)) input members rest ∧
      members.foldlM (take? change?) record = some record' := by
  fun_induction readMembers fields taken input record with
  | case3 taken record name _ value change more hlt hmember =>
    obtain ⟨rfl, rfl⟩ := Prod.mk.inj (Except.ok.inj hok)
    have hvalue : value.length ≤ bound := by
      simp only [List.length_cons] at hbound
      omega
    obtain ⟨item, htakes, hchange⟩ := h.takes_readMember hmember hvalue
    exact ⟨[(name, item)], htakes.lastMember, by simp [take?, hchange]⟩
  | case4 taken record name _ value change more hlt hmember _ ih =>
    have hvalue : value.length ≤ bound ∧ more.length ≤ bound := by
      simp only [List.length_cons] at hbound hlt
      omega
    obtain ⟨item, htakes, hchange⟩ := h.takes_readMember hmember hvalue.1
    obtain ⟨members, hmembers, hfold⟩ := ih hvalue.2 hok
    exact ⟨(name, item) :: members, htakes.consMember hmembers, by simpa [take?, hchange] using hfold⟩
  | _ => cases hok

theorem afterComma?_eq_some {input element : List Json.Token} :
    afterComma? input = some element ↔ input = .comma :: element := by
  constructor
  · intro h
    unfold afterComma? at h
    split at h
    · cases h
      rfl
    · cases h
  · rintro rfl
    rfl

/-- The elements that are read, each behind a comma but for the first one, are the items of an array
and the values of the fields in their order. -/
theorem Means.takes_readElements (h : Means fields change?) {later : List (Field α)} {first : Bool}
    (hlater : later ⊆ fields) {input rest : List Json.Token} {record record' : α}
    (hbound : input.length ≤ bound)
    (hok : readElements later first input record = .ok (record', rest)) :
    (input = .closeArray :: rest ∧ record' = record) ∨
      (∀ more, input ≠ .closeArray :: more) ∧ ∃ element items,
        (if first then some input else afterComma? input) = some element ∧
        Json.Takes (Json.readItems (Json.readValue bound)) element items rest ∧
        ((later.map (·.name)).zip items).foldlM (take? change?) record = some record' := by
  fun_induction readElements later first input record with
  | case1 =>
    obtain ⟨rfl, rfl⟩ := Prod.mk.inj (Except.ok.inj hok)
    exact .inl ⟨rfl, rfl⟩
  | case5 first record input field later hopen element helement change after hlt hread ih =>
    have hfewer : element.length ≤ input.length := by
      cases first with
      | true => exact Nat.le_of_eq (congrArg List.length (Option.some.inj helement).symm)
      | false =>
        rw [afterComma?_eq_some.mp helement]
        exact Nat.le_succ _
    obtain ⟨hfield, hlater⟩ := List.cons_subset.mp hlater
    obtain ⟨value, htakes, hchange⟩ :=
      (h.field field hfield).takes hread (Nat.le_trans hfewer hbound)
    refine .inr ⟨hopen, element, ?_⟩
    rcases ih hlater (by omega) hok with ⟨rfl, rfl⟩ | ⟨-, next, items, hcomma, hitems, hfold⟩
    · exact ⟨[value], helement, htakes.lastItem, by simp [take?, hchange]⟩
    · obtain rfl := afterComma?_eq_some.mp hcomma
      exact ⟨value :: items, helement, htakes.consItem hitems, by simpa [take?, hchange] using hfold⟩
  | _ => cases hok

theorem names_zip_sublist (names : List String) (items : List Json) :
    (Entries.names (names.zip items)).Sublist names := by
  induction names generalizing items with
  | nil => exact List.Sublist.refl _
  | cons name rest ih =>
    cases items with
    | nil => exact List.nil_sublist _
    | cons item items => exact (ih items).cons_cons name

/-- A record that is read is an object or an array, whose members are taken one after the other. -/
theorem Means.takes_readFields (h : Means fields change?) (hnames : (fields.map (·.name)).Nodup)
    {input rest : List Json.Token} {empty record : α}
    (hok : readFields fields empty input = .ok (record, rest)) :
    ∃ json, Json.Takes (Json.readValue input.length) input json rest ∧
      ∃ members, members.foldlM (take? change?) empty = some record ∧
        ∀ name, (Entries.ofList members).lookup name = json.field? (fields.map (·.name)) name := by
  fun_cases readFields fields empty input with
  | case1 more =>
    rcases h.takes_readElements (List.Subset.refl _) (Nat.le_refl _) hok with
      ⟨rfl, rfl⟩ | ⟨hopen, element, items, helement, hitems, hfold⟩
    · exact ⟨.array [], Json.takes_emptyArray _ rest, [], rfl, fun name => by
        simp [Json.field?, Entries.ofList]⟩
    · obtain rfl := Option.some.inj helement
      refine ⟨.array items, hitems.array hopen, _, hfold, fun name => ?_⟩
      rw [Entries.ofList_of_nodup (hnames.sublist (names_zip_sublist _ _))]
      rfl
  | case2 behind =>
    cases hok
    exact ⟨.object [], Json.takes_emptyObject _ rest, [], rfl, fun name => rfl⟩
  | case3 more hmore =>
    rw [readFields.eq_3 _ _ _ hmore] at hok
    obtain ⟨members, hmembers, hfold⟩ := h.takes_readMembers (Nat.le_refl _) hok
    exact ⟨.ofMembers members, hmembers.object hmore, members, hfold, fun name => rfl⟩
  | case4 =>
    rw [readFields.eq_4] at hok
    · cases hok
    all_goals assumption

/-- A body that is accepted gives a record made of its fields. -/
theorem Means.of_parse (h : Means fields change?) (hnames : (fields.map (·.name)).Nodup)
    {empty : α} {complete : α → Option β} {text : String} {b : β}
    (hparse : parse fields empty complete text = .ok b) :
    ∃ json, Json.ReadsLeniently text json ∧
      ∃ members record, members.foldlM (take? change?) empty = some record ∧
        complete record = some b ∧ ∀ name, (Entries.ofList members).lookup name =
          json.field? (fields.map (·.name)) name := by
  rcases htokens : Json.tokens text.toList with ⟨input, whole⟩
  simp only [parse, htokens] at hparse
  cases hok : readFields fields empty input with
  | error fault =>
    rw [hok] at hparse
    cases hparse
  | ok result =>
    obtain ⟨record, rest⟩ := result
    simp only [hok] at hparse
    cases hcomplete : complete record with
    | none =>
      simp only [hcomplete] at hparse
      cases hparse
    | some made =>
      simp only [hcomplete] at hparse
      split at hparse
      · next hend =>
        obtain ⟨hwhole, hempty⟩ := hend
        obtain rfl := List.isEmpty_iff.mp hempty
        obtain ⟨json, htakes, members, hfold, hlookup⟩ := h.takes_readFields hnames hok
        cases hparse
        exact ⟨json, ⟨input, hwhole ▸ htokens, htakes⟩, members, record, hfold, hcomplete, hlookup⟩
      · cases hparse

/-- The pretty text of an object is accepted if it gives a complete record. -/
theorem Means.parse_pretty (h : Means fields change?) {members : List (String × Json)}
    (hfits : Json.Fits Json.maxNesting (.object members)) (hne : members ≠ []) {empty record : α}
    {complete : α → Option β} {b : β} (hfold : members.foldlM (take? change?) empty = some record)
    (hcomplete : complete record = some b) :
    parse fields empty complete (Json.object members).pretty = .ok b := by
  obtain ⟨hnodup, hinside⟩ := hfits
  obtain ⟨us, hlexes, hdenotes⟩ := Json.lexes_object 0 hne fun member hmember =>
    Json.Fits.readAs (hinside member hmember) 1
  obtain ⟨hlt, hread⟩ := hdenotes.reads []
  have hfresh : Fresh fields [] members := fresh_of_nodup hnodup fun _ _ => List.not_mem_nil
  have hmembers := (h.readMembers_eq_ok_iff hread []).mpr ⟨hfresh, hfold, rfl⟩
  obtain ⟨name, more, rfl⟩ := hdenotes.starts
  simp only [parse, hlexes.tokens_pretty, List.cons_append, readFields] at hmembers ⊢
  simp only [hmembers, hcomplete]
  rfl

section Views

variable {name : String} {view : α → β} {Says : Option Json → β → Prop}

/-- `Shows change? name view Says`: what a view shows of a record is what the member of one name
says, and no other member has a part in it. -/
structure Shows (change? : String → Json → Option (α → α)) (name : String) (view : α → β)
    (Says : Option Json → β → Prop) : Prop where
  own : ∀ value change, change? name value = some change → ∀ record,
    Says (some value) (view (change record))
  other : ∀ other, other ≠ name → ∀ value change, change? other value = some change →
    ∀ record, view (change record) = view record

/-- Of members with that name the last one says what the view shows, as it is the one that counts. -/
theorem Shows.of_foldlM (h : Shows change? name view Says) {members : List (String × Json)}
    {acc : List (String × Json)} {record record' : α}
    (hacc : Says (acc.lookup name) (view record))
    (hfold : members.foldlM (take? change?) record = some record') :
    Says ((members.foldl (fun acc e => Entries.put acc e.1 e.2) acc).lookup name)
      (view record') := by
  induction members generalizing acc record with
  | nil =>
    cases hfold
    exact hacc
  | cons member rest ih =>
    rw [List.foldlM_cons, take?] at hfold
    cases hchange : change? member.1 member.2 with
    | none =>
      rw [hchange] at hfold
      cases hfold
    | some change =>
      rw [hchange] at hfold
      refine ih ?_ hfold
      rw [Entries.lookup_put]
      by_cases hname : name = member.1
      · rw [if_pos hname]
        exact h.own member.2 change (hname ▸ hchange) record
      · rw [if_neg hname, h.other member.1 (Ne.symm hname) member.2 change hchange record]
        exact hacc

/-- A record shows what its last member of a name says. -/
theorem Shows.of_members (h : Shows change? name view Says) {members : List (String × Json)}
    {empty record : α} (hempty : Says none (view empty))
    (hfold : members.foldlM (take? change?) empty = some record) :
    Says ((Entries.ofList members).lookup name) (view record) :=
  h.of_foldlM hempty hfold

end Views

section TwoFields

variable {first second : String} {change₁? change₂? : Json → Option (α → α)} {view : α → β}
  {Says : Option Json → β → Prop}

/-- What the members of an object change in a record of two fields. -/
def ofTwo (first second : String) (change₁? change₂? : Json → Option (α → α)) (name : String)
    (value : Json) : Option (α → α) :=
  if name = first then change₁? value else if name = second then change₂? value else some id

/-- A record of two fields, each read in its own way. -/
theorem means_ofTwo {field₁ field₂ : Field α} (h₁ : Reads field₁.read change₁?)
    (h₂ : Reads field₂.read change₂?) (hne : field₂.name ≠ field₁.name) :
    Means [field₁, field₂] (ofTwo field₁.name field₂.name change₁? change₂?) := by
  constructor
  · refine List.forall_mem_cons.mpr ⟨?_, List.forall_mem_singleton.mpr ?_⟩
    · have hfirst : ofTwo field₁.name field₂.name change₁? change₂? field₁.name = change₁? :=
        funext fun value => if_pos rfl
      rw [hfirst]
      exact h₁
    · have hsecond : ofTwo field₁.name field₂.name change₁? change₂? field₂.name = change₂? :=
        funext fun value => (if_neg hne).trans (if_pos rfl)
      rw [hsecond]
      exact h₂
  · intro name hname value
    have hnames : field₁.name ≠ name ∧ field₂.name ≠ name := by simpa [isField] using hname
    rw [ofTwo, if_neg (Ne.symm hnames.1), if_neg (Ne.symm hnames.2)]

/-- A view of the first field, which the second one leaves alone. -/
theorem shows_first
    (hown : ∀ value change, change₁? value = some change → ∀ record,
      Says (some value) (view (change record)))
    (hother : ∀ value change, change₂? value = some change → ∀ record,
      view (change record) = view record) :
    Shows (ofTwo first second change₁? change₂?) first view Says := by
  constructor
  · intro value change hchange
    rw [ofTwo, if_pos rfl] at hchange
    exact hown value change hchange
  · intro other hne value change hchange
    rw [ofTwo, if_neg hne] at hchange
    by_cases hsecond : other = second
    · rw [if_pos hsecond] at hchange
      exact hother value change hchange
    · rw [if_neg hsecond] at hchange
      cases hchange
      exact fun record => rfl

/-- A view of the second field, which the first one leaves alone. -/
theorem shows_second (hne : second ≠ first)
    (hown : ∀ value change, change₂? value = some change → ∀ record,
      Says (some value) (view (change record)))
    (hother : ∀ value change, change₁? value = some change → ∀ record,
      view (change record) = view record) :
    Shows (ofTwo first second change₁? change₂?) second view Says := by
  constructor
  · intro value change hchange
    rw [ofTwo, if_neg hne, if_pos rfl] at hchange
    exact hown value change hchange
  · intro other hsecond value change hchange
    rw [ofTwo] at hchange
    by_cases hfirst : other = first
    · rw [if_pos hfirst] at hchange
      exact hother value change hchange
    · rw [if_neg hfirst, if_neg hsecond] at hchange
      cases hchange
      exact fun record => rfl

end TwoFields

end Body

end Questlog
