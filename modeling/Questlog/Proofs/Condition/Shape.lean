import Questlog.Condition.Requirement
import Questlog.Proofs.Json.Fits

namespace Questlog

namespace Json

/-- Whether a value is `null`, a truth value or a number. -/
def IsScalar : Json → Prop
  | null | bool _ | number _ => True
  | string _ | array _ | object _ => False

mutual

/-- Whether the names of the members are distinct in every object of a value. -/
def NamesDistinct : Json → Prop
  | array items => NamesDistinctInItems items
  | object members => (Entries.names members).Nodup ∧ NamesDistinctInMembers members
  | null | bool _ | number _ | string _ => True

def NamesDistinctInItems : List Json → Prop
  | [] => True
  | item :: rest => NamesDistinct item ∧ NamesDistinctInItems rest

def NamesDistinctInMembers : List (String × Json) → Prop
  | [] => True
  | (_, value) :: rest => NamesDistinct value ∧ NamesDistinctInMembers rest

end

/-- Names are distinct in an array if they are in each of its items. -/
theorem namesDistinctInItems_iff {items : List Json} :
    NamesDistinctInItems items ↔ ∀ item ∈ items, item.NamesDistinct := by
  induction items with
  | nil => simp [NamesDistinctInItems]
  | cons item rest ih => simp [NamesDistinctInItems, ih]

theorem namesDistinctInMembers_iff {members : List (String × Json)} :
    NamesDistinctInMembers members ↔ ∀ member ∈ members, member.2.NamesDistinct := by
  induction members with
  | nil => simp [NamesDistinctInMembers]
  | cons member rest ih => simp [NamesDistinctInMembers, ih]

/-- JSON that is read has distinct names in each of its objects. -/
theorem Fits.namesDistinct {room : Nat} {json : Json} (h : Fits room json) : json.NamesDistinct := by
  induction room generalizing json with
  | zero =>
    cases json with
    | array _ | object _ => exact h.elim
    | null | bool _ | number _ | string _ => trivial
  | succ room ih =>
    cases json with
    | null | bool _ | number _ | string _ => trivial
    | array items =>
      rw [NamesDistinct, namesDistinctInItems_iff]
      exact fun item hitem => ih (h item hitem)
    | object members =>
      rw [NamesDistinct, namesDistinctInMembers_iff]
      exact ⟨h.1, fun member hmember => ih (h.2 member hmember)⟩

/-- Every value that is read from a text has distinct names. -/
theorem namesDistinct_of_parse? {text : String} {room : Nat} {json : Json}
    (h : parse? text room = some json) : json.NamesDistinct :=
  (fits_of_parse? h).namesDistinct

mutual

/-- Two values that differ at most in the order of members, at any depth. -/
inductive Reordered : Json → Json → Prop
  | refl (json : Json) : Reordered json json
  | array {items items' : List Json} : ReorderedItems items items' →
    Reordered (.array items) (.array items')
  | object {members members' others : List (String × Json)} : ReorderedMembers members members' →
    members'.Perm others → Reordered (.object members) (.object others)

inductive ReorderedItems : List Json → List Json → Prop
  | nil : ReorderedItems [] []
  | cons {item item' : Json} {rest rest' : List Json} : Reordered item item' →
    ReorderedItems rest rest' → ReorderedItems (item :: rest) (item' :: rest')

inductive ReorderedMembers : List (String × Json) → List (String × Json) → Prop
  | nil : ReorderedMembers [] []
  | cons {name : String} {value value' : Json} {rest rest' : List (String × Json)} :
    Reordered value value' → ReorderedMembers rest rest' →
    ReorderedMembers ((name, value) :: rest) ((name, value') :: rest')

end

end Json

namespace Requirement

open Json (NamesDistinct NamesDistinctInItems NamesDistinctInMembers Reordered ReorderedItems
  ReorderedMembers)

section Forms

variable {read : Json → Option Requirement}

/-- Reads a list, if `read` reads its terms. -/
def readTerms (read : Json → Option Requirement) (json : Json) : Option (List Requirement) :=
  json.array?.bind fun items => items.mapM read

/-- Reads an object, if `read` reads what stands at its fields. -/
def readEntries (read : Json → Option Requirement) (json : Json) :
    Option (List (String × Requirement)) :=
  (json.object?.bind fun members =>
    members.mapM fun member => (read member.2).map (member.1, ·)).map Entries.sorted

/-- The forms of a requirement in the order in which they are tried, if `read` reads what stands inside.
The last of them takes every value. -/
def forms (read : Json → Option Requirement) : List (Json → Option Requirement) :=
  [fun json => json.string?.map clause,
    fun json => (readTerms read json).map anyOf,
    fun json => (readEntries read json).map allOf,
    fun json => some (scalar json)]

/-- Whether requirements are read as the first of their forms that takes the value. -/
def TriesForms (read : Json → Option Requirement) : Prop :=
  ∀ json, read json = (forms read).findSome? fun form => form json

/-- Reading the items of an array one by one reads the array. -/
theorem mapM_ofJson (items : List Json) :
    items.mapM (fun item => some (ofJson item)) = some (ofItems items) := by
  induction items with
  | nil => rfl
  | cons item rest ih => simp [ih, ofItems]

theorem mapM_member_ofJson (members : List (String × Json)) :
    members.mapM (fun member => (some (ofJson member.2)).map (member.1, ·)) =
      some (ofMembers members) := by
  induction members with
  | nil => rfl
  | cons member rest ih =>
    simp only [Option.map_some] at ih ⊢
    simp [ih, ofMembers]

/-- What a value is read as has the first form that takes it. -/
theorem triesForms_ofJson : TriesForms fun json => some (ofJson json) := by
  intro json
  cases json with
  | array items =>
    simp [forms, readTerms, Json.string?, Json.array?, mapM_ofJson, ofJson]
  | object members =>
    have hmembers := mapM_member_ofJson members
    simp only [Option.map_some] at hmembers
    simp [forms, readTerms, readEntries, Json.string?, Json.array?, Json.object?, hmembers, ofJson]
  | string _ | null | bool _ | number _ => rfl

mutual

/-- Trying the forms in turn is telling them apart by the kind of the value; three lemmas by the
recursion over JSON. -/
theorem TriesForms.eq_ofJson (h : TriesForms read) : ∀ json : Json, read json = some (ofJson json)
  | .string _ | .null | .bool _ | .number _ => by
    rw [h]
    rfl
  | .array items => by
    have hitems := h.mapM_eq_ofItems items
    rw [h]
    simp [forms, readTerms, Json.string?, Json.array?, hitems, ofJson]
  | .object members => by
    have hmembers := h.mapM_eq_ofMembers members
    rw [h]
    simp [forms, readTerms, readEntries, Json.string?, Json.array?, Json.object?, hmembers, ofJson]

theorem TriesForms.mapM_eq_ofItems (h : TriesForms read) :
    ∀ items : List Json, items.mapM read = some (ofItems items)
  | [] => rfl
  | item :: rest => by
    have hitem := h.eq_ofJson item
    have hrest := h.mapM_eq_ofItems rest
    simp [hitem, hrest, ofItems]

theorem TriesForms.mapM_eq_ofMembers (h : TriesForms read) : ∀ members : List (String × Json),
    members.mapM (fun member => (read member.2).map (member.1, ·)) = some (ofMembers members)
  | [] => rfl
  | (name, value) :: rest => by
    have hvalue := h.eq_ofJson value
    have hrest := h.mapM_eq_ofMembers rest
    simp [hvalue, hrest, ofMembers]

end

/-- There is one way to try the forms in their order, and it reads every value. -/
theorem triesForms_iff : TriesForms read ↔ read = fun json => some (ofJson json) := by
  constructor
  · exact fun h => funext h.eq_ofJson
  · rintro rfl
    exact triesForms_ofJson

end Forms

section RoundTrip

mutual

/-- Whether all that stands as a scalar in a requirement, at any depth, is `null`, a truth value or a
number, and the fields of every object ascend. -/
def IsWellFormed : Requirement → Prop
  | clause _ => True
  | anyOf terms => AreWellFormedTerms terms
  | allOf entries => Entries.Ascending entries ∧ AreWellFormedEntries entries
  | scalar value => value.IsScalar

def AreWellFormedTerms : List Requirement → Prop
  | [] => True
  | term :: rest => IsWellFormed term ∧ AreWellFormedTerms rest

def AreWellFormedEntries : List (String × Requirement) → Prop
  | [] => True
  | (_, r) :: rest => IsWellFormed r ∧ AreWellFormedEntries rest

end

theorem areWellFormedEntries_iff {entries : List (String × Requirement)} :
    AreWellFormedEntries entries ↔ ∀ entry ∈ entries, entry.2.IsWellFormed := by
  induction entries with
  | nil => simp [AreWellFormedEntries]
  | cons entry rest ih => simp [AreWellFormedEntries, ih]

theorem areWellFormedEntries_sorted {entries : List (String × Requirement)}
    (h : AreWellFormedEntries entries) : AreWellFormedEntries (Entries.sorted entries) := by
  rw [areWellFormedEntries_iff] at h ⊢
  exact fun entry hentry => h entry (Entries.sorted_subset entries hentry)

mutual

/-- What is read is well-formed: the form that takes every value is left with scalars. -/
theorem isWellFormed_ofJson : ∀ json : Json, IsWellFormed (ofJson json)
  | .string _ => by rw [ofJson, IsWellFormed]; trivial
  | .array items => by
    rw [ofJson, IsWellFormed]
    exact areWellFormed_ofItems items
  | .object members => by
    rw [ofJson, IsWellFormed]
    exact ⟨Entries.ascending_sorted _, areWellFormedEntries_sorted (areWellFormed_ofMembers members)⟩
  | .null | .bool _ | .number _ => by rw [ofJson, IsWellFormed]; trivial

theorem areWellFormed_ofItems : ∀ items : List Json, AreWellFormedTerms (ofItems items)
  | [] => by rw [ofItems, AreWellFormedTerms]; trivial
  | item :: rest => by
    rw [ofItems, AreWellFormedTerms]
    exact ⟨isWellFormed_ofJson item, areWellFormed_ofItems rest⟩

theorem areWellFormed_ofMembers :
    ∀ members : List (String × Json), AreWellFormedEntries (ofMembers members)
  | [] => by rw [ofMembers, AreWellFormedEntries]; trivial
  | (_, value) :: rest => by
    rw [ofMembers, AreWellFormedEntries]
    exact ⟨isWellFormed_ofJson value, areWellFormed_ofMembers rest⟩

end

/-- A scalar is read by the form that takes every value. -/
theorem ofJson_of_isScalar {value : Json} (h : value.IsScalar) : ofJson value = scalar value := by
  cases value with
  | string _ | array _ | object _ => exact h.elim
  | null | bool _ | number _ => rw [ofJson]

mutual

/-- A requirement is read again from its JSON. -/
theorem ofJson_toJson : ∀ r : Requirement, IsWellFormed r → ofJson (toJson r) = r
  | clause _, _ => by rw [toJson, ofJson]
  | anyOf terms, h => by
    rw [IsWellFormed] at h
    rw [toJson, ofJson, ofItems_toItems terms h]
  | allOf entries, h => by
    rw [IsWellFormed] at h
    rw [toJson, ofJson, ofMembers_toMembers entries h.2, Entries.sorted_of_ascending h.1]
  | scalar value, h => by
    rw [IsWellFormed] at h
    rw [toJson, ofJson_of_isScalar h]

/-- The terms of a list are read back. -/
theorem ofItems_toItems :
    ∀ terms : List Requirement, AreWellFormedTerms terms → ofItems (toItems terms) = terms
  | [], _ => by rw [toItems, ofItems]
  | term :: rest, h => by
    rw [AreWellFormedTerms] at h
    rw [toItems, ofItems, ofJson_toJson term h.1, ofItems_toItems rest h.2]

/-- The entries of an object are read back. -/
theorem ofMembers_toMembers : ∀ entries : List (String × Requirement),
    AreWellFormedEntries entries → ofMembers (toMembers entries) = entries
  | [], _ => by rw [toMembers, ofMembers]
  | (_, r) :: rest, h => by
    rw [AreWellFormedEntries] at h
    rw [toMembers, ofMembers, ofJson_toJson r h.1, ofMembers_toMembers rest h.2]

end

theorem toMembers_eq_map (entries : List (String × Requirement)) :
    toMembers entries = entries.map fun entry => (entry.1, entry.2.toJson) := by
  induction entries with
  | nil => rw [toMembers, List.map_nil]
  | cons entry rest ih => rw [toMembers, ih, List.map_cons]

/-- The entries of an object keep the names of its members. -/
theorem names_ofMembers (members : List (String × Json)) :
    Entries.names (ofMembers members) = Entries.names members := by
  induction members with
  | nil => rw [ofMembers]; rfl
  | cons member rest ih =>
    rw [ofMembers]
    exact congrArg (member.1 :: ·) ih

/-- Sorting the fields of an object rearranges the members that they are written as. -/
theorem toMembers_sorted_perm {members : List (String × Json)}
    (h : (Entries.names members).Nodup) :
    (toMembers (ofMembers members)).Perm (toMembers (Entries.sorted (ofMembers members))) := by
  rw [← names_ofMembers] at h
  rw [toMembers_eq_map, toMembers_eq_map]
  exact ((Entries.sorted_perm h).map _).symm

mutual

/-- The JSON of a value that was read is the value with the members of its objects rearranged. -/
theorem reordered_toJson : ∀ json : Json, NamesDistinct json → Reordered json (toJson (ofJson json))
  | .string s, _ => by
    rw [ofJson, toJson]
    exact .refl _
  | .array items, h => by
    rw [NamesDistinct] at h
    rw [ofJson, toJson]
    exact .array (reordered_toItems items h)
  | .object members, h => by
    rw [NamesDistinct] at h
    rw [ofJson, toJson]
    exact .object (reordered_toMembers members h.2) (toMembers_sorted_perm h.1)
  | .null, _ | .bool _, _ | .number _, _ => by
    rw [ofJson, toJson]
    exact .refl _

/-- The items of an array keep their order. -/
theorem reordered_toItems :
    ∀ items : List Json, NamesDistinctInItems items → ReorderedItems items (toItems (ofItems items))
  | [], _ => by
    rw [ofItems, toItems]
    exact .nil
  | item :: rest, h => by
    rw [NamesDistinctInItems] at h
    rw [ofItems, toItems]
    exact .cons (reordered_toJson item h.1) (reordered_toItems rest h.2)

/-- The members of an object may change theirs. -/
theorem reordered_toMembers : ∀ members : List (String × Json), NamesDistinctInMembers members →
    ReorderedMembers members (toMembers (ofMembers members))
  | [], _ => by
    rw [ofMembers, toMembers]
    exact .nil
  | (_, value) :: rest, h => by
    rw [NamesDistinctInMembers] at h
    rw [ofMembers, toMembers]
    exact .cons (reordered_toJson value h.1) (reordered_toMembers rest h.2)

end

end RoundTrip

end Requirement

namespace Condition

open Json (NamesDistinct Reordered)

/-- The forms of a condition in the order in which they are tried, if `read` reads what stands inside. -/
def forms (read : Json → Option Requirement) : List (Json → Option Condition) :=
  [fun json => json.string?.map text,
    fun json => (Requirement.readTerms read json).map anyOf,
    fun json => (Requirement.readEntries read json).map allOf]

/-- Whether all that stands as a scalar in a condition, at any depth, is `null`, a truth value or a
number, and the fields of every object ascend. -/
def IsWellFormed : Condition → Prop
  | text _ => True
  | anyOf terms => Requirement.AreWellFormedTerms terms
  | allOf entries => Entries.Ascending entries ∧ Requirement.AreWellFormedEntries entries

/-- A condition is read by the first of its forms that takes the value. -/
theorem ofJson?_eq_first {read : Json → Option Requirement} (h : Requirement.TriesForms read)
    (json : Json) : ofJson? json = (forms read).findSome? fun form => form json := by
  cases json with
  | array items =>
    simp [forms, Requirement.readTerms, Json.string?, Json.array?, h.mapM_eq_ofItems, ofJson?]
  | object members =>
    simp [forms, Requirement.readTerms, Requirement.readEntries, Json.string?, Json.array?, Json.object?,
      h.mapM_eq_ofMembers, ofJson?]
  | string _ | null | bool _ | number _ => rfl

/-- A condition is a requirement that is no scalar. -/
theorem ofJson?_eq_some {json : Json} {condition : Condition} (h : ofJson? json = some condition) :
    condition.toJson = (Requirement.ofJson json).toJson ∧ condition.IsWellFormed := by
  have hwell := Requirement.isWellFormed_ofJson json
  cases json with
  | null | bool _ | number _ => cases h
  | string s =>
    obtain rfl := Option.some.inj h
    rw [Requirement.ofJson, Requirement.toJson]
    exact ⟨rfl, trivial⟩
  | array items =>
    obtain rfl := Option.some.inj h
    rw [Requirement.ofJson, Requirement.IsWellFormed] at hwell
    rw [Requirement.ofJson, Requirement.toJson]
    exact ⟨rfl, hwell⟩
  | object members =>
    obtain rfl := Option.some.inj h
    rw [Requirement.ofJson, Requirement.IsWellFormed] at hwell
    rw [Requirement.ofJson, Requirement.toJson]
    exact ⟨rfl, hwell⟩

/-- A well-formed condition is read again from what it is written as. -/
theorem ofJson?_toJson {condition : Condition} (h : condition.IsWellFormed) :
    ofJson? condition.toJson = some condition := by
  cases condition with
  | text s => rfl
  | anyOf terms => rw [toJson, ofJson?, Requirement.ofItems_toItems terms h]
  | allOf entries =>
    rw [toJson, ofJson?, Requirement.ofMembers_toMembers entries h.2, Entries.sorted_of_ascending h.1]

/-- A value is read as the first form of a condition that takes it, what stands inside as the first
form of a requirement. It is a condition just if it is a text, an array or an object; written again,
the condition is the value but for the order of members, from which the condition is read again, and
its scalars are `null`, truth values and numbers. So a condition that was read keeps its JSON but
for the order of members. -/
theorem ofJson?_roundTrip (json : Json) :
    (∀ read, Requirement.TriesForms read →
      ofJson? json = (forms read).findSome? fun form => form json) ∧
    ((∃ condition, ofJson? json = some condition) ↔
      (∃ s, json = .string s) ∨ (∃ items, json = .array items) ∨
        ∃ members, json = .object members) ∧
    ∀ condition, ofJson? json = some condition →
      (NamesDistinct json → Reordered json condition.toJson) ∧
      ofJson? condition.toJson = some condition ∧
      condition.IsWellFormed := by
  refine ⟨fun read hread => ofJson?_eq_first hread json, ?_, fun condition hcondition => ?_⟩
  · cases json <;> simp [ofJson?]
  · obtain ⟨hjson, hwell⟩ := ofJson?_eq_some hcondition
    refine ⟨fun hnames => ?_, ofJson?_toJson hwell, hwell⟩
    rw [hjson]
    exact Requirement.reordered_toJson json hnames

/-- An object of a text and a list: its members change places, and the truth value in the list stays an
item that nothing else takes. -/
theorem ofJson?_roundTrip_nested :
    ∃ (json written : Json) (condition : Condition),
      json = .object [("region", .string "> 2"),
        ("mode", .array [.object [("cleared", .null)], .bool true])] ∧
      written = .object [("mode", .array [.object [("cleared", .null)], .bool true]),
        ("region", .string "> 2")] ∧
      ofJson? json = some condition ∧ condition.toJson = written ∧
      (forms fun json => some (Requirement.ofJson json)).findSome? (fun form => form json) =
        some condition ∧
      Reordered json written ∧ ofJson? written = some condition ∧ condition.IsWellFormed := by
  let json : Json := .object [("region", .string "> 2"),
    ("mode", .array [.object [("cleared", .null)], .bool true])]
  have hnames : NamesDistinct json := by
    simp [json, NamesDistinct, Json.NamesDistinctInItems, Json.NamesDistinctInMembers, Entries.names]
  obtain ⟨hforms, -, hread⟩ := ofJson?_roundTrip json
  obtain ⟨hreordered, hagain, hwell⟩ := hread _ rfl
  have hfirst := hforms _ Requirement.triesForms_ofJson
  exact ⟨json, _, _, rfl, rfl, rfl, rfl, hfirst.symm, hreordered hnames, hagain, hwell⟩

end Condition

end Questlog
