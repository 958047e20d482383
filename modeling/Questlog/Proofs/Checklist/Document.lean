import Questlog.Checklist.Reading
import Questlog.Proofs.Condition.Shape
import Questlog.Proofs.Entries

namespace Questlog

namespace Section

variable {json : Json} {body : Body} {sect : Section} {list : List (String × Section)}

/-- The groups of a section are the members of an object, name by name. -/
theorem names_ofMembers? {members : List (String × Json)} (h : ofMembers? members = some list) :
    Entries.names list = Entries.names members := by
  induction members generalizing list with
  | nil =>
    obtain rfl := Option.some.inj h
    rfl
  | cons member rest ih =>
    rw [ofMembers?] at h
    split at h
    · next sect sections _ hrest =>
      obtain rfl := Option.some.inj h
      exact congrArg (member.1 :: ·) (ih hrest)
    · cases h

/-- What makes a section of groups is an object with a member for each of them. -/
theorem names_bodyOf? (h : bodyOf? json = some body) {heading : Heading}
    (hgroups : (body heading).groups? = some list) :
    ∃ members, json = .object members ∧ Entries.names list = Entries.names members := by
  unfold bodyOf? at h
  split at h
  · obtain rfl := Option.some.inj h
    cases hgroups
  · split at h
    · obtain rfl := Option.some.inj h
      cases hgroups
    · cases h
  · next members =>
    split at h
    · next found hmembers =>
      obtain rfl := Option.some.inj h
      obtain rfl := Option.some.inj hgroups
      exact ⟨members, rfl, names_ofMembers? hmembers⟩
    · cases h
  · cases h

/-- A body that is looked for among members comes from one of them, if there is any. -/
theorem bodyOfMembers_cases {members : List (String × Json)} (h : bodyOfMembers members = some body) :
    body = bare ∨ ∃ member ∈ members, bodyOf? member.2 = some body := by
  induction members with
  | nil => exact .inl (Option.some.inj h).symm
  | cons member rest ih =>
    rw [bodyOfMembers] at h
    split at h
    · exact .inr ⟨member, List.mem_cons_self, h⟩
    · exact (ih h).imp_right fun ⟨found, hmem, hbody⟩ => ⟨found, List.mem_cons_of_mem _ hmem, hbody⟩

theorem bodyOfPlaces_cases {place : Nat} {items : List Json} (h : bodyOfPlaces place items = some body) :
    body = bare ∨ ∃ item ∈ items, bodyOf? item = some body := by
  induction items generalizing place with
  | nil =>
    rw [bodyOfPlaces] at h
    exact .inl (Option.some.inj h).symm
  | cons item rest ih =>
    cases place with
    | zero =>
      rw [bodyOfPlaces] at h
      exact .inr ⟨item, List.mem_cons_self, h⟩
    | succ place =>
      rw [bodyOfPlaces] at h
      exact (ih h).imp_right fun ⟨found, hmem, hbody⟩ => ⟨found, List.mem_cons_of_mem _ hmem, hbody⟩

/-- A section that was read has a heading and what one of the values in its record holds, if any. -/
theorem ofJson?_cases (h : ofJson? json = some sect) :
    ∃ heading body, sect = body heading ∧
      (body = bare ∨ ∃ list, bodyOf? list = some body ∧
        ((∃ items, json = .array items ∧ list ∈ items) ∨
          ∃ members, json = .object members ∧ ∃ name, (name, list) ∈ members)) := by
  unfold ofJson? at h
  split at h
  · next members =>
    split at h
    · next heading body _ hbody =>
      refine ⟨heading, body, (Option.some.inj h).symm, ?_⟩
      exact (bodyOfMembers_cases hbody).imp_right fun ⟨member, hmem, hlist⟩ =>
        ⟨member.2, hlist, .inr ⟨members, rfl, member.1, hmem⟩⟩
    · cases h
  · next items =>
    split at h
    · next heading body _ hbody =>
      refine ⟨heading, body, (Option.some.inj h).symm, ?_⟩
      exact (bodyOfPlaces_cases hbody).imp_right fun ⟨item, hmem, hlist⟩ =>
        ⟨item, hlist, .inl ⟨items, rfl, hmem⟩⟩
    · cases h
  · cases h

/-- Where no object repeats a name, no two groups of a section have the same one. -/
theorem nodup_groups (h : ofJson? json = some sect) (hjson : json.NamesDistinct)
    (hgroups : sect.groups? = some list) : (Entries.names list).Nodup := by
  obtain ⟨heading, body, rfl, rfl | ⟨value, hbody, hvalue⟩⟩ := ofJson?_cases h
  · cases hgroups
  have hdistinct : value.NamesDistinct := by
    rcases hvalue with ⟨items, rfl, hmem⟩ | ⟨members, rfl, name, hmem⟩
    · rw [Json.NamesDistinct, Json.namesDistinctInItems_iff] at hjson
      exact hjson value hmem
    · rw [Json.NamesDistinct, Json.namesDistinctInMembers_iff] at hjson
      exact hjson.2 (name, value) hmem
  obtain ⟨members, rfl, hnames⟩ := names_bodyOf? hbody hgroups
  rw [Json.NamesDistinct] at hdistinct
  exact hnames ▸ hdistinct.1

end Section

namespace Checklist

variable {checklist next : Checklist} {entries : List (String × Json)}

/-- Whether an entry of a document with this name is a section. -/
def IsSectionKey (key : String) : Prop :=
  key.toList.head? ≠ some '$'

/-- An entry leaves the sections as they are, or puts one of them under its key. -/
theorem readEntry_cases {key : String} {json : Json} (h : readEntry checklist key json = .ok next) :
    next.sections = checklist.sections ∨
      IsSectionKey key ∧ ∃ sect, Section.ofJson? json = some sect ∧
        next.sections = Entries.put checklist.sections key sect := by
  unfold readEntry at h
  split at h
  · split at h
    · exact .inl (congrArg sections (Except.ok.inj h)).symm
    · cases h
  split at h
  · split at h
    · exact .inl (congrArg sections (Except.ok.inj h)).symm
    · cases h
  split at h
  · exact .inl (congrArg sections (Except.ok.inj h)).symm
  next hkey =>
  split at h
  · next sect hsect => exact .inr ⟨hkey, sect, hsect, (congrArg sections (Except.ok.inj h)).symm⟩
  · cases h

/-- The sections of a checklist have distinct keys, and each was read from an entry of a document.
So its sections come from entries of the document, no two have the same key, and no key starts with
a dollar sign. -/
structure ReadFrom (entries : List (String × Json)) (checklist : Checklist) : Prop where
  nodup : (Entries.names checklist.sections).Nodup
  key : ∀ named ∈ checklist.sections, IsSectionKey named.1
  entry : ∀ named ∈ checklist.sections, ∃ json, (named.1, json) ∈ entries ∧
    Section.ofJson? json = some named.2

/-- Reading one more entry keeps all that. -/
theorem ReadFrom.readEntry {entry : String × Json} (h : checklist.ReadFrom entries)
    (hentry : entry ∈ entries) (hread : Checklist.readEntry checklist entry.1 entry.2 = .ok next) :
    next.ReadFrom entries := by
  rcases readEntry_cases hread with hsame | ⟨hkey, sect, hsect, hput⟩
  · exact ⟨hsame ▸ h.nodup, hsame ▸ h.key, hsame ▸ h.entry⟩
  · refine ⟨?_, ?_, ?_⟩ <;> rw [hput]
    · exact Entries.nodup_names_put h.nodup
    · intro named hnamed
      rcases Entries.mem_put hnamed with rfl | hnamed
      · exact hkey
      · exact h.key named hnamed
    · intro named hnamed
      rcases Entries.mem_put hnamed with rfl | hnamed
      · exact ⟨entry.2, hentry, hsect⟩
      · exact h.entry named hnamed

/-- All sections of a document that is read come from its entries. -/
theorem readFrom_ofEntries (h : ofEntries entries = .ok checklist) : checklist.ReadFrom entries := by
  have hfold : ∀ (more : List (String × Json)) (before after : Checklist), more ⊆ entries →
      before.ReadFrom entries →
      more.foldlM (fun checklist entry => Checklist.readEntry checklist entry.1 entry.2) before =
        .ok after → after.ReadFrom entries := by
    intro more
    induction more with
    | nil =>
      intro before after _ hbefore hfold
      obtain rfl := Except.ok.inj hfold
      exact hbefore
    | cons entry rest ih =>
      intro before after hsubset hbefore hfold
      rw [List.foldlM_cons] at hfold
      obtain ⟨hentry, hrest⟩ := List.cons_subset.mp hsubset
      cases hread : Checklist.readEntry before entry.1 entry.2 with
      | error e =>
        rw [hread] at hfold
        cases hfold
      | ok next =>
        rw [hread] at hfold
        exact ih next after hrest (hbefore.readEntry hentry hread) hfold
  refine hfold entries {} checklist (List.Subset.refl entries) ?_ h
  exact ⟨List.nodup_nil, List.forall_mem_nil _, List.forall_mem_nil _⟩

/-- A checklist that is read comes from the entries of an object. -/
theorem ofJson_eq_ok {json : Json} (h : ofJson json = .ok checklist) :
    ∃ entries, json = .object entries ∧ checklist.ReadFrom entries := by
  unfold ofJson at h
  split at h
  · next entries => exact ⟨entries, rfl, readFrom_ofEntries h⟩
  · cases h

end Checklist

end Questlog
