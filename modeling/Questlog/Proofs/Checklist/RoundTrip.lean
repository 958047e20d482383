import Mathlib
import Questlog.Checklist.Markdown
import Questlog.Checklist.Status
import Questlog.Proofs.Checklist.Document
import Questlog.Proofs.Checklist.Record

namespace Questlog

/-- No value that is given for an item is `null`. -/
structure ItemDetails.NullFree (details : ItemDetails) : Prop where
  serial : details.serial ≠ some .null
  condition : details.condition ≠ some .null

/-- No value that is given for an item or for one of its variants is `null`. -/
inductive Item.NullFree : Item → Prop
  | label (text : String) : NullFree (.label text)
  | entry {details : ItemDetails} {variants : Option (List Item)} : details.NullFree →
    (∀ list, variants = some list → ∀ item ∈ list, NullFree item) →
    NullFree (.entry details variants)

/-- No value that is given in a section, at any depth, is `null`. -/
inductive Section.NullFree : Section → Prop
  | bare {heading : Heading} : heading.condition ≠ some .null → NullFree (.bare heading)
  | items {heading : Heading} {list : List Item} : heading.condition ≠ some .null →
    (∀ item ∈ list, item.NullFree) → NullFree (.items heading list)
  | groups {heading : Heading} {list : List (String × Section)} : heading.condition ≠ some .null →
    (∀ named ∈ list, NullFree named.2) → NullFree (.groups heading list)

namespace Item

section Reading

variable {members : List (String × Json)} {details : ItemDetails}

/-- No detail of an item is read as `null`. -/
theorem nullFree_readDetails (h : readDetails members = some details) : details.NullFree := by
  rw [readDetails] at h
  -- The nine texts and two lists of texts come first, and none of them matters.
  iterate 11 obtain ⟨_, _, h⟩ := Option.bind_eq_some_iff.mp h
  obtain rfl := Option.some.inj h
  exact ⟨Record.value?_ne_null members "serial", Record.value?_ne_null members "$condition"⟩

mutual

/-- An item that is read is free of `null`. -/
theorem nullFree_ofJson? : ∀ {json : Json} {item : Item}, ofJson? json = some item → item.NullFree
  | .string text, _, h => by
    rw [ofJson?] at h
    exact Option.some.inj h ▸ .label text
  | .object members, _, h => by
    rw [ofJson?] at h
    split at h
    · next details variants hdetails hvariants =>
      obtain rfl := Option.some.inj h
      exact .entry (nullFree_readDetails hdetails) (nullFree_variantsOfMembers hvariants)
    · cases h
  | .array items, _, h => by
    rw [ofJson?] at h
    split at h
    · next details variants hdetails hvariants =>
      obtain rfl := Option.some.inj h
      obtain ⟨members, _, hread⟩ := Option.bind_eq_some_iff.mp hdetails
      exact .entry (nullFree_readDetails hread) (nullFree_variantsOfPlaces hvariants)
    · cases h
  | .null, _, h | .bool _, _, h | .number _, _, h => by
    rw [ofJson?] at h
    · cases h
    all_goals simp

/-- The items of a list are read without `null`; four lemmas by the recursion over what is read. -/
theorem nullFree_ofItems? : ∀ {items : List Json} {list : List Item}, ofItems? items = some list →
    ∀ item ∈ list, item.NullFree
  | [], _, h => by
    rw [ofItems?] at h
    obtain rfl := Option.some.inj h
    exact List.forall_mem_nil _
  | json :: rest, _, h => by
    rw [ofItems?] at h
    split at h
    · next item list hitem hlist =>
      obtain rfl := Option.some.inj h
      exact List.forall_mem_cons.mpr ⟨nullFree_ofJson? hitem, nullFree_ofItems? hlist⟩
    · cases h

theorem nullFree_variantsOf? : ∀ {json : Json} {variants : Option (List Item)},
    variantsOf? json = some variants → ∀ list, variants = some list → ∀ item ∈ list, item.NullFree
  | .array items, _, h, _, hlist => by
    rw [variantsOf?] at h
    split at h
    · next found hfound =>
      obtain rfl := Option.some.inj ((Option.some.inj h).trans hlist)
      exact nullFree_ofItems? hfound
    · cases h
  | .null, _, h, _, hlist => by
    rw [variantsOf?] at h
    cases (Option.some.inj h).trans hlist
  | .bool _, _, h, _, _ | .number _, _, h, _, _ | .string _, _, h, _, _ | .object _, _, h, _, _ => by
    rw [variantsOf?] at h
    · cases h
    all_goals simp

theorem nullFree_variantsOfMembers : ∀ {members : List (String × Json)}
    {variants : Option (List Item)}, variantsOfMembers members = some variants →
    ∀ list, variants = some list → ∀ item ∈ list, item.NullFree
  | [], _, h, _, hlist => by
    rw [variantsOfMembers] at h
    cases (Option.some.inj h).trans hlist
  | (name, value) :: rest, _, h, list, hlist => by
    rw [variantsOfMembers] at h
    split at h
    · exact nullFree_variantsOf? h list hlist
    · exact nullFree_variantsOfMembers h list hlist

theorem nullFree_variantsOfPlaces : ∀ {place : Nat} {items : List Json}
    {variants : Option (List Item)}, variantsOfPlaces place items = some variants →
    ∀ list, variants = some list → ∀ item ∈ list, item.NullFree
  | _, [], _, h, _, hlist => by
    rw [variantsOfPlaces] at h
    cases (Option.some.inj h).trans hlist
  | 0, value :: _, _, h, list, hlist => by
    rw [variantsOfPlaces] at h
    exact nullFree_variantsOf? h list hlist
  | place + 1, _ :: rest, _, h, list, hlist => by
    rw [variantsOfPlaces] at h
    exact nullFree_variantsOfPlaces h list hlist

end

end Reading

variable {item : Item} {list : List Item} {variants : Option (List Item)} {details : ItemDetails}
  {members : List (String × Json)}

/-- The fields of an entry with their values. -/
def fields (details : ItemDetails) (variants : Option (List Item)) : List (String × Option Json) :=
  [("name", details.name.map .string), ("code", details.code.map .string),
    ("title", details.title.map .string), ("key", details.key.map .string),
    ("serial", details.serial), ("location", details.location.map .string),
    ("sector", details.sector.map .string), ("locations", Record.textsValue details.locations),
    ("shop", details.shop.map .string), ("bait", details.bait.map .string),
    ("notes", details.notes.map .string), ("tags", Record.textsValue details.tags),
    ("variants", variants.map fun list => .array (toItems list)), ("$condition", details.condition)]

/-- The JSON of an item is the record of its fields. -/
theorem toJson_entry (details : ItemDetails) (variants : Option (List Item)) :
    (entry details variants).toJson = .object (Record.write (fields details variants)) := by
  have hvariants : writeVariants variants =
      Record.optional "variants" (variants.map fun list => .array (toItems list)) := by
    cases variants <;> rfl
  rw [toJson, hvariants, writeDetails]
  simp only [Record.optionalTexts_eq, Record.optionalText, Record.write, fields,
    List.flatMap_cons, List.flatMap_nil, List.append_assoc, List.append_nil]

theorem lookup_write_fields (details : ItemDetails) (variants : Option (List Item)) :
    ∀ field ∈ fields details variants,
      (Record.write (fields details variants)).lookup field.1 = field.2 :=
  fun _ hfield => Record.lookup_write (by decide : fieldNames.Nodup) hfield

/-- The details of an entry are read again from its fields. -/
theorem readDetails_fields (h : details.NullFree) (variants : Option (List Item)) :
    readDetails (Record.write (fields details variants)) = some details := by
  have hlookup := lookup_write_fields details variants
  generalize Record.write (fields details variants) = members at hlookup
  simp only [fields, List.forall_mem_cons] at hlookup
  obtain ⟨hname, hcode, htitle, hkey, hserial, hlocation, hsector, hlocations, hshop, hbait, hnotes,
    htags, -, hcondition, -⟩ := hlookup
  rw [readDetails, Record.text?_of_lookup hname, Record.text?_of_lookup hcode,
    Record.text?_of_lookup htitle, Record.text?_of_lookup hkey,
    Record.value?_of_lookup hserial h.serial, Record.text?_of_lookup hlocation,
    Record.text?_of_lookup hsector, Record.texts?_of_lookup hlocations,
    Record.text?_of_lookup hshop, Record.text?_of_lookup hbait, Record.text?_of_lookup hnotes,
    Record.texts?_of_lookup htags, Record.value?_of_lookup hcondition h.condition]
  rfl

/-- The variants are the member of that name, wherever it stands. -/
theorem variantsOfMembers_eq (members : List (String × Json)) :
    variantsOfMembers members = ((members.lookup "variants").map variantsOf?).getD (some none) :=
  Record.eq_getD_lookup rfl (fun _ _ => by rw [variantsOfMembers]) members

/-- The variants of an entry are read again from its fields if each of them is read again. -/
theorem variantsOfMembers_fields
    (h : ∀ list, variants = some list → ofItems? (toItems list) = some list) :
    variantsOfMembers (Record.write (fields details variants)) = some variants := by
  have hlookup : (Record.write (fields details variants)).lookup "variants" =
      variants.map fun list => .array (toItems list) :=
    lookup_write_fields details variants _ (List.mem_of_getElem? (i := variantsPlace) rfl)
  rw [variantsOfMembers_eq, hlookup]
  cases variants with
  | none => rfl
  | some list =>
    have hlist : variantsOf? (.array (toItems list)) = some (some list) := by
      rw [variantsOf?, h list rfl]
    exact hlist

/-- A list of items is read back if each of its items is. -/
theorem ofItems?_toItems (h : ∀ item ∈ list, ofJson? item.toJson = some item) :
    ofItems? (toItems list) = some list := by
  induction list with
  | nil => rfl
  | cons item rest ih =>
    obtain ⟨hitem, hrest⟩ := List.forall_mem_cons.mp h
    rw [toItems, ofItems?, hitem, ih hrest]

/-- An item is read back if its variants are. An entry of which nothing is said is an object
still. -/
theorem ofJson?_entry (hdetails : details.NullFree)
    (hvariants : ∀ list, variants = some list → ofItems? (toItems list) = some list) :
    ofJson? (entry details variants).toJson = some (entry details variants) := by
  rw [toJson_entry, ofJson?, readDetails_fields hdetails, variantsOfMembers_fields hvariants]

/-- An item that is free of `null` is read again from its JSON. -/
theorem NullFree.ofJson?_toJson (h : item.NullFree) : ofJson? item.toJson = some item := by
  induction h with
  | label text => rw [toJson, ofJson?]
  | entry hdetails _ ih =>
    exact ofJson?_entry hdetails fun list hlist => ofItems?_toItems (ih list hlist)

end Item

namespace Section

section Reading

variable {members : List (String × Json)} {heading : Heading}

/-- The condition of a section is never read as `null`. -/
theorem condition_readHeading (h : readHeading members = some heading) :
    heading.condition ≠ some .null := by
  rw [readHeading] at h
  iterate 3 obtain ⟨_, _, h⟩ := Option.bind_eq_some_iff.mp h
  obtain rfl := Option.some.inj h
  exact Record.value?_ne_null members "$condition"

mutual

/-- A section that is read is free of `null`. -/
theorem nullFree_ofJson? : ∀ {json : Json} {sect : Section}, ofJson? json = some sect → sect.NullFree
  | .object members, _, h => by
    rw [ofJson?] at h
    split at h
    · next heading body hheading hbody =>
      obtain rfl := Option.some.inj h
      exact nullFree_bodyOfMembers hbody (condition_readHeading hheading)
    · cases h
  | .array places, _, h => by
    rw [ofJson?] at h
    split at h
    · next heading body hheading hbody =>
      obtain rfl := Option.some.inj h
      obtain ⟨members, _, hread⟩ := Option.bind_eq_some_iff.mp hheading
      exact nullFree_bodyOfPlaces hbody (condition_readHeading hread)
    · cases h
  | .null, _, h | .bool _, _, h | .number _, _, h | .string _, _, h => by
    rw [ofJson?] at h
    · cases h
    all_goals simp

/-- The groups of a section that is read are without `null` as well; again four lemmas by the
recursion. -/
theorem nullFree_ofMembers? : ∀ {members : List (String × Json)} {list : List (String × Section)},
    ofMembers? members = some list → ∀ named ∈ list, named.2.NullFree
  | [], _, h => by
    rw [ofMembers?] at h
    obtain rfl := Option.some.inj h
    exact List.forall_mem_nil _
  | (key, json) :: rest, _, h => by
    rw [ofMembers?] at h
    split at h
    · next sect list hsect hlist =>
      obtain rfl := Option.some.inj h
      exact List.forall_mem_cons.mpr ⟨nullFree_ofJson? hsect, nullFree_ofMembers? hlist⟩
    · cases h

theorem nullFree_bodyOf? : ∀ {json : Json} {body : Body}, bodyOf? json = some body →
    ∀ {heading : Heading}, heading.condition ≠ some .null → (body heading).NullFree
  | .null, _, h, _, hheading => by
    rw [bodyOf?] at h
    obtain rfl := Option.some.inj h
    exact .bare hheading
  | .array values, _, h, _, hheading => by
    rw [bodyOf?] at h
    split at h
    · next list hlist =>
      obtain rfl := Option.some.inj h
      exact .items hheading (Item.nullFree_ofItems? hlist)
    · cases h
  | .object members, _, h, _, hheading => by
    rw [bodyOf?] at h
    split at h
    · next list hlist =>
      obtain rfl := Option.some.inj h
      exact .groups hheading (nullFree_ofMembers? hlist)
    · cases h
  | .bool _, _, h, _, _ | .number _, _, h, _, _ | .string _, _, h, _, _ => by
    rw [bodyOf?] at h
    · cases h
    all_goals simp

theorem nullFree_bodyOfMembers : ∀ {members : List (String × Json)} {body : Body},
    bodyOfMembers members = some body →
    ∀ {heading : Heading}, heading.condition ≠ some .null → (body heading).NullFree
  | [], _, h, _, hheading => by
    rw [bodyOfMembers] at h
    obtain rfl := Option.some.inj h
    exact .bare hheading
  | (name, value) :: rest, _, h, _, hheading => by
    rw [bodyOfMembers] at h
    split at h
    · exact nullFree_bodyOf? h hheading
    · exact nullFree_bodyOfMembers h hheading

theorem nullFree_bodyOfPlaces : ∀ {place : Nat} {places : List Json} {body : Body},
    bodyOfPlaces place places = some body →
    ∀ {heading : Heading}, heading.condition ≠ some .null → (body heading).NullFree
  | _, [], _, h, _, hheading => by
    rw [bodyOfPlaces] at h
    obtain rfl := Option.some.inj h
    exact .bare hheading
  | 0, value :: _, _, h, _, hheading => by
    rw [bodyOfPlaces] at h
    exact nullFree_bodyOf? h hheading
  | place + 1, _ :: rest, _, h, _, hheading => by
    rw [bodyOfPlaces] at h
    exact nullFree_bodyOfPlaces h hheading

end

end Reading

variable {sect : Section} {heading : Heading} {list : List (String × Section)} {body : Body}

/-- The fields of a section with their values; its title is always written. -/
def fields (heading : Heading) (list : Option Json) : List (String × Option Json) :=
  [("title", some (.string heading.title)), ("name", heading.name.map .string),
    ("location", heading.location.map .string), ("list", list), ("$condition", heading.condition)]

/-- The JSON of a section is the record of its fields. -/
theorem writeFields_eq (heading : Heading) (list : Option Json) :
    writeFields heading (Record.optional "list" list) =
      .object (Record.write (fields heading list)) := by
  rw [writeFields]
  simp only [Record.optionalText, Record.write, fields, List.flatMap_cons, List.flatMap_nil,
    List.append_assoc, List.append_nil]
  rfl

theorem lookup_write_fields (heading : Heading) (list : Option Json) :
    ∀ field ∈ fields heading list,
      (Record.write (fields heading list)).lookup field.1 = field.2 :=
  fun _ hfield => Record.lookup_write (by decide : fieldNames.Nodup) hfield

/-- The heading of a section is read again from its fields. -/
theorem readHeading_fields (h : heading.condition ≠ some .null) (list : Option Json) :
    readHeading (Record.write (fields heading list)) = some heading := by
  have hlookup := lookup_write_fields heading list
  generalize Record.write (fields heading list) = members at hlookup
  simp only [fields, List.forall_mem_cons] at hlookup
  obtain ⟨htitle, hname, hlocation, -, hcondition, -⟩ := hlookup
  have hread : readTitle members = some heading.title := by
    rw [readTitle, htitle]
    rfl
  rw [readHeading, hread, Record.text?_of_lookup hname, Record.text?_of_lookup hlocation,
    Record.value?_of_lookup hcondition h]
  rfl

/-- The body is the member called list, wherever it stands. -/
theorem bodyOfMembers_eq (members : List (String × Json)) :
    bodyOfMembers members = ((members.lookup "list").map bodyOf?).getD (some bare) :=
  Record.eq_getD_lookup rfl (fun _ _ => by rw [bodyOfMembers]) members

/-- A section is read again from its fields if what it holds is read again from its list. -/
theorem ofJson?_writeFields (json : Option Json) (body : Body)
    (hheading : heading.condition ≠ some .null)
    (hbody : (json.map bodyOf?).getD (some bare) = some body) :
    ofJson? (writeFields heading (Record.optional "list" json)) = some (body heading) := by
  have hlist : (Record.write (fields heading json)).lookup "list" = json :=
    lookup_write_fields heading json _ (List.mem_of_getElem? (i := listPlace) rfl)
  rw [writeFields_eq, ofJson?, readHeading_fields hheading, bodyOfMembers_eq, hlist, hbody]

theorem ofJson?_bare (hheading : heading.condition ≠ some .null) :
    ofJson? (bare heading).toJson = some (bare heading) := by
  rw [toJson]
  exact ofJson?_writeFields none bare hheading rfl

/-- A section of items is read back if its items are. An empty list of items and an empty list of
groups differ in kind. -/
theorem ofJson?_items {list : List Item} (hheading : heading.condition ≠ some .null)
    (hlist : Item.ofItems? (Item.toItems list) = some list) :
    ofJson? (items heading list).toJson = some (items heading list) := by
  have hbody : bodyOf? (.array (Item.toItems list)) = some (items · list) := by
    rw [bodyOf?, hlist]
  rw [toJson]
  exact ofJson?_writeFields (some _) (items · list) hheading hbody

/-- A section of groups is read back if its groups are. -/
theorem ofJson?_groups {list : List (String × Section)} (hheading : heading.condition ≠ some .null)
    (hlist : ofMembers? (toMembers list) = some list) :
    ofJson? (groups heading list).toJson = some (groups heading list) := by
  have hbody : bodyOf? (.object (toMembers list)) = some (groups · list) := by
    rw [bodyOf?, hlist]
  rw [toJson]
  exact ofJson?_writeFields (some _) (groups · list) hheading hbody

theorem ofMembers?_toMembers {list : List (String × Section)}
    (h : ∀ named ∈ list, ofJson? named.2.toJson = some named.2) :
    ofMembers? (toMembers list) = some list := by
  induction list with
  | nil => rfl
  | cons named rest ih =>
    obtain ⟨hnamed, hrest⟩ := List.forall_mem_cons.mp h
    rw [toMembers, ofMembers?, hnamed, ih hrest]

/-- A section that is free of `null` is read again from its JSON. -/
theorem NullFree.ofJson?_toJson (h : sect.NullFree) : ofJson? sect.toJson = some sect := by
  induction h with
  | bare hheading => exact ofJson?_bare hheading
  | items hheading hitems =>
    exact ofJson?_items hheading
      (Item.ofItems?_toItems fun item hitem => (hitems item hitem).ofJson?_toJson)
  | groups hheading _ ih => exact ofJson?_groups hheading (ofMembers?_toMembers ih)

end Section

namespace Checklist

variable {checklist : Checklist}

/-- The sections of a checklist at any depth. -/
inductive HasSection (checklist : Checklist) : Section → Prop
  | top {named : String × Section} : named ∈ checklist.sections → HasSection checklist named.2
  | group {heading : Heading} {list : List (String × Section)} {named : String × Section} :
    HasSection checklist (.groups heading list) → named ∈ list → HasSection checklist named.2

/-- No section of a checklist that was read from a document holds a `null`. -/
theorem ReadFrom.nullFree {entries : List (String × Json)} (h : checklist.ReadFrom entries)
    {sect : Section} (hsect : checklist.HasSection sect) : sect.NullFree := by
  induction hsect with
  | top hnamed =>
    obtain ⟨_, _, hread⟩ := h.entry _ hnamed
    exact Section.nullFree_ofJson? hread
  | group _ hnamed ih =>
    cases ih with
    | groups _ hlist => exact hlist _ hnamed

/-- An entry that holds a section is taken over under its key. -/
theorem readEntry_of_isSectionKey {key : String} {json : Json} {sect : Section}
    (hkey : IsSectionKey key) (h : Section.ofJson? json = some sect) :
    readEntry checklist key json =
      .ok { checklist with sections := Entries.put checklist.sections key sect } := by
  have hcompleted : key ≠ "$completed" := by
    rintro rfl
    exact hkey rfl
  have haxes : key ≠ "$axes" := by
    rintro rfl
    exact hkey rfl
  rw [readEntry, if_neg hcompleted, if_neg haxes, if_neg hkey, h]

/-- Sections as the entries of a document are put one after the other. -/
theorem foldlM_readEntry {sections : List (String × Section)}
    (hkeys : ∀ named ∈ sections, IsSectionKey named.1)
    (hread : ∀ named ∈ sections, Section.ofJson? named.2.toJson = some named.2)
    (before : Checklist) :
    (Section.toMembers sections).foldlM
        (fun checklist entry => readEntry checklist entry.1 entry.2) before =
      .ok { before with
        sections := sections.foldl (fun acc e => Entries.put acc e.1 e.2) before.sections } := by
  induction sections generalizing before with
  | nil => rfl
  | cons named rest ih =>
    obtain ⟨hkey, hkeys⟩ := List.forall_mem_cons.mp hkeys
    obtain ⟨hnamed, hread⟩ := List.forall_mem_cons.mp hread
    rw [Section.toMembers, List.foldlM_cons, readEntry_of_isSectionKey hkey hnamed]
    exact ih hkeys hread _

/-- A document made of the sections of a checklist that was read has these sections and nothing else. -/
theorem ReadFrom.ofJson_toMembers {entries : List (String × Json)} (h : checklist.ReadFrom entries) :
    ofJson (.object (Section.toMembers checklist.sections)) =
      .ok { sections := checklist.sections } := by
  have hread : ∀ named ∈ checklist.sections, Section.ofJson? named.2.toJson = some named.2 :=
    fun named hnamed => (h.nullFree (.top hnamed)).ofJson?_toJson
  have hput : checklist.sections.foldl (fun acc e => Entries.put acc e.1 e.2) [] = checklist.sections :=
    Entries.ofList_of_nodup h.nodup
  rw [ofJson, ofEntries, foldlM_readEntry h.key hread, hput]

/-- Every section of a document that was read is read again from its JSON, at whatever depth it
stands. So the document made of the sections has the same sections, and whatever the progress, its
entries are in the same states and its page is the same. So that document has the same entries and
the same page. -/
theorem sections_roundTrip {json : Json} (h : ofJson json = .ok checklist) :
    (∀ sect, checklist.HasSection sect → Section.ofJson? sect.toJson = some sect) ∧
    ∃ rebuilt, ofJson (.object (Section.toMembers checklist.sections)) = .ok rebuilt ∧
      rebuilt.sections = checklist.sections ∧
      (∀ progress, rebuilt.statuses progress = checklist.statuses progress) ∧
      ∀ progress title, rebuilt.markdown? progress title = checklist.markdown? progress title := by
  obtain ⟨entries, rfl, hfrom⟩ := ofJson_eq_ok h
  constructor
  · exact fun sect hsect => (hfrom.nullFree hsect).ofJson?_toJson
  · exact ⟨_, hfrom.ofJson_toMembers, rfl, fun _ => rfl, fun _ _ => rfl⟩

/-- A group whose condition is `null` and whose list is empty, beside one that holds no groups, and a
record given as an array, with an entry of which nothing is said and one with variants. -/
theorem sections_roundTrip_nested :
    ∃ (json : Json) (checklist rebuilt : Checklist) (red plain bank : Section),
      ofJson json = .ok checklist ∧ checklist.HasSection red ∧ checklist.HasSection plain ∧
      checklist.HasSection bank ∧
      red.toJson = .object [("title", .string "Red"), ("list", .array [])] ∧
      Section.ofJson? red.toJson = some red ∧ Section.ofJson? plain.toJson = some plain ∧
      Section.ofJson? bank.toJson = some bank ∧
      ofJson (.object (Section.toMembers checklist.sections)) = .ok rebuilt ∧
      rebuilt.sections = [("cans", .groups { title := "Cans" } [("red", red), ("plain", plain)]),
        ("bank", bank)] := by
  let json : Json := .object [
    ("cans", .object [("title", .string "Cans"), ("list", .object [
      ("red", .object [("title", .string "Red"), ("$condition", .null), ("list", .array [])]),
      ("plain", .object [("list", .object [])])])]),
    ("$note", .null),
    ("bank", .array [.string "Bank", .null, .string "Hall", .array [
      .string "Memo", .object [],
      .object [("title", .string "Key"), ("serial", .array [.null]), ("tags", .array [.string "new"]),
        ("variants", .array [.object [("code", .string "K"), ("variants", .null)]]),
        ("$condition", .string "gameMode")]]])]
  let red : Section := .items { title := "Red" } []
  let plain : Section := .groups {} []
  let bank : Section := .items { title := "Bank", location := some "Hall" } [
    .label "Memo", .entry {} none,
    .entry { title := some "Key", serial := some (.array [.null]), tags := ["new"],
             condition := some (.string "gameMode") } (some [.entry { code := some "K" } none])]
  let cans : Section := .groups { title := "Cans" } [("red", red), ("plain", plain)]
  let checklist : Checklist := { sections := [("cans", cans), ("bank", bank)] }
  have hread : ofJson json = .ok checklist := by cbv
  have hcans : ("cans", cans) ∈ checklist.sections := List.mem_cons_self
  have hred : checklist.HasSection red :=
    .group (.top hcans) (List.mem_cons_self : ("red", red) ∈ _)
  have hplain : checklist.HasSection plain :=
    .group (.top hcans) (List.mem_cons_of_mem _ List.mem_cons_self : ("plain", plain) ∈ _)
  have hlast : ("bank", bank) ∈ checklist.sections := List.mem_cons_of_mem _ List.mem_cons_self
  have hbank : checklist.HasSection bank := .top hlast
  obtain ⟨hsections, rebuilt, hrebuilt, hsame, -⟩ := sections_roundTrip hread
  exact ⟨json, checklist, rebuilt, red, plain, bank, hread, hred, hplain, hbank, by cbv,
    hsections red hred, hsections plain hplain, hsections bank hbank, hrebuilt, hsame⟩

end Checklist

end Questlog
