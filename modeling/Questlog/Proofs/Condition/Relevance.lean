import Mathlib
import Questlog.Proofs.Condition.Session
import Questlog.Proofs.Entries
import Questlog.Proofs.Expression.Relevance

namespace Questlog

namespace Json

mutual

/-- The names of the members of all objects in a value, at every depth. -/
def memberNames : Json → List String
  | .array items => memberNamesOfItems items
  | .object members => memberNamesOfMembers members
  | .null | .bool _ | .number _ | .string _ => []

def memberNamesOfItems : List Json → List String
  | [] => []
  | item :: rest => memberNames item ++ memberNamesOfItems rest

def memberNamesOfMembers : List (String × Json) → List String
  | [] => []
  | (name, value) :: rest => name :: memberNames value ++ memberNamesOfMembers rest

end

/-- The fields that a condition names: the names among the words of a text, and the names of the
members of a structured condition at every depth. -/
def fieldsNamed : Json → List String
  | .string text =>
    match Lexeme.tokenize (Text.trim text) with
    | .ok lexemes => Grammar.names (Grammar.tokens lexemes)
    | .error _ => []
  | json => json.memberNames

end Json

variable {values values' : Values}

open Values (AgreeOn)

namespace Requirement

mutual

/-- The fields at which a requirement has entries, at every depth. -/
def fields : Requirement → List String
  | anyOf terms => fieldsOfTerms terms
  | allOf entries => fieldsOfEntries entries
  | clause _ | scalar _ => []

def fieldsOfTerms : List Requirement → List String
  | [] => []
  | term :: rest => fields term ++ fieldsOfTerms rest

def fieldsOfEntries : List (String × Requirement) → List String
  | [] => []
  | (field, r) :: rest => field :: fields r ++ fieldsOfEntries rest

end

/-- The fields of an object are its names and those of what stands at them. -/
theorem mem_fieldsOfEntries {entries : List (String × Requirement)} {name : String} :
    name ∈ fieldsOfEntries entries ↔ ∃ entry ∈ entries, name = entry.1 ∨ name ∈ entry.2.fields := by
  induction entries with
  | nil => simp [fieldsOfEntries]
  | cons entry rest ih => simp [fieldsOfEntries, ih, or_assoc]

theorem fieldsOfEntries_mono {entries entries' : List (String × Requirement)}
    (h : entries ⊆ entries') : fieldsOfEntries entries ⊆ fieldsOfEntries entries' := by
  intro name hname
  obtain ⟨entry, hentry, hfield⟩ := mem_fieldsOfEntries.mp hname
  exact mem_fieldsOfEntries.mpr ⟨entry, h hentry, hfield⟩

theorem fields_sorted_subset (entries : List (String × Requirement)) :
    fieldsOfEntries (Entries.sorted entries) ⊆ fieldsOfEntries entries :=
  fieldsOfEntries_mono (Entries.sorted_subset entries)

mutual

/-- A structured condition has no field that its JSON does not name; three lemmas by the recursion
over JSON. -/
theorem fields_ofJson_subset : ∀ json : Json, (ofJson json).fields ⊆ json.memberNames
  | .array items => by
    rw [ofJson, fields, Json.memberNames]
    exact fields_ofItems_subset items
  | .object members => by
    rw [ofJson, fields, Json.memberNames]
    exact List.Subset.trans (fields_sorted_subset _) (fields_ofMembers_subset members)
  | .null | .bool _ | .number _ | .string _ => List.nil_subset _

theorem fields_ofItems_subset :
    ∀ items : List Json, fieldsOfTerms (ofItems items) ⊆ Json.memberNamesOfItems items
  | [] => List.nil_subset _
  | item :: rest => by
    rw [ofItems, fieldsOfTerms, Json.memberNamesOfItems, List.append_subset]
    exact ⟨List.subset_append_of_subset_left _ (fields_ofJson_subset item),
      List.subset_append_of_subset_right _ (fields_ofItems_subset rest)⟩

theorem fields_ofMembers_subset : ∀ members : List (String × Json),
    fieldsOfEntries (ofMembers members) ⊆ Json.memberNamesOfMembers members
  | [] => List.nil_subset _
  | (name, value) :: rest => by
    rw [ofMembers, fieldsOfEntries, Json.memberNamesOfMembers, List.append_subset]
    have hvalue := List.cons_subset_cons name (fields_ofJson_subset value)
    exact ⟨List.subset_append_of_subset_left _ hvalue,
      List.subset_append_of_subset_right _ (fields_ofMembers_subset rest)⟩

end

/-- Records that agree on a field have the same value there. -/
theorem valueOf_congr {fields : List String} (h : AgreeOn fields values values') {field : String}
    (hfield : field ∈ fields) : valueOf values field = valueOf values' field := by
  rw [valueOf, valueOf, h field hfield]

/-- A clause reads its field and no other. -/
theorem clauseHolds_congr {fields : List String} (h : AgreeOn fields values values')
    {field : String} (hfield : field ∈ fields) (wildcard : Bool) (text : String) (default : Bool) :
    clauseHolds wildcard values text field default =
      clauseHolds wildcard values' text field default := by
  rw [clauseHolds, clauseHolds, valueOf_congr h hfield]

-- An entry reads the field it stands at, and a list the field it is attached to; both are carried
-- along in front of the fields named further inside.
mutual

/-- An entry reads its field and those inside it; four lemmas by the recursion over conditions. -/
theorem entryHolds_congr (wildcard : Bool) (field : String) : ∀ r : Requirement,
    AgreeOn (field :: r.fields) values values' →
      entryHolds wildcard values field r = entryHolds wildcard values' field r
  | clause text, h => by
    rw [entryHolds, entryHolds, clauseHolds_congr h List.mem_cons_self]
  | anyOf terms, h => by
    rw [entryHolds, entryHolds]
    exact anyHolds_congr wildcard (some field) terms h
  | allOf entries, h => by
    rw [entryHolds, entryHolds]
    exact allHold_congr wildcard entries (h.mono (List.subset_cons_self _ _))
  | scalar _, h => by
    rw [entryHolds, entryHolds, valueOf_congr h List.mem_cons_self]

theorem termHolds_congr (wildcard : Bool) (field : Option String) : ∀ r : Requirement,
    AgreeOn (field.toList ++ r.fields) values values' →
      termHolds wildcard values field r = termHolds wildcard values' field r
  | clause text, h => by
    cases field with
    | none => rfl
    | some field =>
      rw [termHolds, termHolds]
      exact clauseHolds_congr h List.mem_cons_self wildcard text false
  | anyOf terms, h => by
    rw [termHolds, termHolds]
    exact anyHolds_congr wildcard none terms (h.mono (List.subset_append_right _ _))
  | allOf entries, h => by
    rw [termHolds, termHolds]
    exact allHold_congr wildcard entries (h.mono (List.subset_append_right _ _))
  | scalar _, _ => rfl

theorem anyHolds_congr (wildcard : Bool) (field : Option String) : ∀ terms : List Requirement,
    AgreeOn (field.toList ++ fieldsOfTerms terms) values values' →
      anyHolds wildcard values field terms = anyHolds wildcard values' field terms
  | [], _ => rfl
  | term :: rest, h => by
    rw [fieldsOfTerms] at h
    have hterm := termHolds_congr wildcard field term (h.mono (by simp))
    have hrest := anyHolds_congr wildcard field rest (h.mono (by simp))
    rw [anyHolds, anyHolds, hterm, hrest]

theorem allHold_congr (wildcard : Bool) : ∀ entries : List (String × Requirement),
    AgreeOn (fieldsOfEntries entries) values values' →
      allHold wildcard values entries = allHold wildcard values' entries
  | [], _ => rfl
  | (field, r) :: rest, h => by
    rw [fieldsOfEntries] at h
    have hcontains := h.contains_eq (List.mem_append_left _ List.mem_cons_self)
    have hentry := entryHolds_congr wildcard field r (h.mono (List.subset_append_left _ _))
    have hrest := allHold_congr wildcard rest (h.mono (List.subset_append_right _ _))
    rw [allHold, allHold, hcontains, hentry, hrest]

end

end Requirement

namespace GateCall

/-- A text condition is answered from the names among its words. -/
theorem verdict_congr {text : String}
    (h : AgreeOn (Json.string text).fieldsNamed values values') :
    Predicate.verdict (Predicate.compile text) values =
      Predicate.verdict (Predicate.compile text) values' := by
  cases hcompile : Predicate.compile text with
  | error e => rfl
  | ok predicate =>
    obtain ⟨lexemes, htokenize, hfields⟩ := Predicate.fields_eq_names hcompile
    simp only [Json.fieldsNamed, htokenize] at h
    have hagree : AgreeOn predicate.fields values values' := by
      rw [hfields]
      exact h.mono fun name hname => List.mem_eraseDups.mp hname
    exact Predicate.test_congr hcompile hagree

/-- A new gate answers a condition from the fields that the condition names. -/
theorem fresh_isUnlocked_congr {json : Json} (h : AgreeOn json.fieldsNamed values values')
    (anyWildcard : Bool) :
    fresh anyWildcard (.isUnlocked (some json) values) =
      fresh anyWildcard (.isUnlocked (some json) values') := by
  cases json with
  | string text =>
    have htext : ∀ values, (isUnlocked (some (.string text)) values).text? = some text :=
      fun _ => rfl
    rw [← settle_eq_fresh (htext values), ← settle_eq_fresh (htext values')]
    exact congrArg GateReply.verdict (verdict_congr h)
  | array items =>
    have hfields := Requirement.fields_ofItems_subset items
    have hagree : AgreeOn (Requirement.fieldsOfTerms (Requirement.ofItems items)) values values' :=
      h.mono hfields
    exact congrArg GateReply.verdict (Requirement.anyHolds_congr anyWildcard none _ hagree)
  | object members =>
    have hfields := Requirement.fields_ofMembers_subset members
    have hagree := h.mono (List.Subset.trans (Requirement.fields_sorted_subset _) hfields)
    exact congrArg GateReply.verdict (Requirement.allHold_congr anyWildcard _ hagree)
  | null | bool _ | number _ => rfl

end GateCall

namespace Session

variable {ι κ : Type} [DecidableEq ι] [DecidableEq κ]

/-- Two records that agree on the fields that a condition names are answered alike: by gates of the
same settings after any two histories, and wherever the calls stand in these histories. So a gate
reads the fields that a condition names and no others. -/
theorem Run.isUnlocked_reads_fieldsNamed {settings : GateSettings} {session : Session ι}
    {session' : Session κ} {history history' : List (GateCall × GateReply)}
    (h : Run settings session history) (h' : Run settings session' history') {json : Json}
    (hagree : AgreeOn json.fieldsNamed values values') :
    (Gate.isUnlocked (some json) values session.gate).1 =
        (Gate.isUnlocked (some json) values' session'.gate).1 ∧
      ∀ reply reply', (.isUnlocked (some json) values, reply) ∈ history →
        (.isUnlocked (some json) values', reply') ∈ history' → reply = reply' := by
  have hsound := h.sound
  have hsound' := h'.sound
  have hfresh := GateCall.fresh_isUnlocked_congr hagree settings.anyWildcard
  constructor
  · have hserve := GateCall.serve_sound (.isUnlocked (some json) values) hsound.compiler (by simp)
    have hserve' := GateCall.serve_sound (.isUnlocked (some json) values') hsound'.compiler (by simp)
    rw [hsound.wildcard, hfresh] at hserve
    rw [hsound'.wildcard, ← hserve] at hserve'
    exact (GateReply.verdict.inj hserve').symm
  · intro reply reply' hmem hmem'
    have hreply := hsound.history _ _ hmem (by simp)
    have hreply' := hsound'.history _ _ hmem' (by simp)
    rw [hreply, hreply', hfresh]

/-- A field that the condition does not name may come and go, also between two calls. -/
theorem Run.isUnlocked_ignores_unnamed :
    ∃ (session : Session Unit) (json : Json) (values values' : Values) (first second : GateReply),
      Run {} session [(.isUnlocked (some json) values, first),
        (.isUnlocked (some json) values', second)] ∧
      json.fieldsNamed = ["region", "world"] ∧ AgreeOn json.fieldsNamed values values' ∧
      values.fields = ["extra", "region"] ∧ values'.fields = ["region"] ∧ first = second := by
  let json : Json := .array [.object [("region", .array [.object [("world", .string "== 1")]])]]
  let values : Values := ⟨[("extra", .bool true), ("region", .null)]⟩
  let values' : Values := ⟨[("region", .null)]⟩
  have hfields : json.fieldsNamed = ["region", "world"] := rfl
  have hagree : AgreeOn json.fieldsNamed values values' := by
    intro field hfield
    rw [hfields] at hfield
    rcases List.mem_pair.mp hfield with rfl | rfl <;> rfl
  have hbegin : ∀ values gate, (GateCall.isUnlocked (some json) values).begin gate =
      (.inl ((GateCall.isUnlocked (some json) values).serve gate).1,
        ((GateCall.isUnlocked (some json) values).serve gate).2) := fun _ _ => rfl
  have unused : Run {} (⟨Gate.new {}, fun _ => none⟩ : Session Unit) [] := .start
  have once := unused.answered () rfl (hbegin values _)
  have twice := once.answered () rfl (hbegin values' _)
  obtain ⟨_, hreplies⟩ := twice.isUnlocked_reads_fieldsNamed twice hagree
  exact ⟨_, json, values, values', _, _, twice, hfields, hagree, rfl, rfl,
    hreplies _ _ (by simp) (by simp)⟩

end Session

end Questlog
