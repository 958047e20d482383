import Mathlib
import Questlog.Proofs.Checklist.Document
import Questlog.Proofs.Checklist.Marking
import Questlog.Proofs.Checklist.Path

namespace Questlog

namespace Key

/-- Whether names are found again in the path that joins them: none has a slash, and none is left out
for being empty, unless it is the only one. -/
def KeptApart (names : List String) : Prop :=
  (∀ name ∈ names, '/' ∉ name.toList) ∧ (names.length ≠ 1 → ∀ name ∈ names, name ≠ "")

instance (names : List String) : Decidable (KeptApart names) :=
  inferInstanceAs (Decidable (_ ∧ _))

theorem join_singleton (name : String) : join [name] = name := by
  rw [join]
  by_cases hname : name = ""
  · subst hname
    rfl
  · rw [List.filter_cons_of_pos (by simpa using hname), List.filter_nil, String.intercalate_singleton]

/-- The names that are kept apart are all in the path. -/
theorem KeptApart.join_eq {names : List String} (h : KeptApart names) :
    join names = "/".intercalate names := by
  by_cases hlength : names.length = 1
  · obtain ⟨name, rfl⟩ := List.length_eq_one_iff.mp hlength
    rw [join_singleton, String.intercalate_singleton]
  · exact join_of_segments fun name hname => ⟨h.2 hlength name hname, h.1 name hname⟩

end Key

namespace Checklist

variable {checklist : Checklist} {anyWildcard : Bool} {gate : Gate}

/-- What the outline has an entry for: each section, and behind it each of its groups, as the chain
of sections from the outermost one. Each section is followed by its groups. -/
def outlineChains (checklist : Checklist) : List (List (String × Section)) :=
  checklist.sections.flatMap fun named =>
    [named] :: (named.2.groups?.getD []).map fun group => [named, group]

/-- `ShowsLock anyWildcard progress chain entry`: what the outline reports of the last section of a
chain. Where the path keeps the names apart, the entry is locked if the nearest condition of the chain
is not met. -/
structure ShowsLock (anyWildcard : Bool) (progress : Progress) (chain : List (String × Section))
    (entry : SectionStatus) : Prop where
  key : entry.key = Key.join (chain.map (·.1))
  title : some entry.title = chain.getLast?.map (·.2.heading.title)
  locked : Key.KeptApart (chain.map (·.1)) →
    (entry.locked = true ↔ ∃ condition, nearestCondition chain = some condition ∧
      condition.isMet anyWildcard progress.values = false)

/-- The path and the title of the last section of a chain. -/
def pathOf (chain : List (String × Section)) : String × String :=
  (Key.join (chain.map (·.1)), (chain.getLast?.map (·.2.heading.title)).getD "")

/-- The outline asks for the locks by the paths of these chains. -/
theorem outlinePaths_eq (checklist : Checklist) :
    checklist.outlinePaths = checklist.outlineChains.map pathOf := by
  rw [outlinePaths, outlineChains, List.map_flatMap]
  refine List.flatMap_congr fun named _ => ?_
  rw [List.map_cons, List.map_map, pathOf, List.map_singleton, Key.join_singleton]
  rfl

/-- Where names are distinct, each chain of the outline is led to by the names on it. -/
theorem leads_of_mem_outlineChains {chain : List (String × Section)}
    (hsections : (Entries.names checklist.sections).Nodup)
    (hgroups : ∀ named ∈ checklist.sections, ∀ list, named.2.groups? = some list →
      (Entries.names list).Nodup)
    (h : chain ∈ checklist.outlineChains) : checklist.Leads chain := by
  obtain ⟨⟨key, sect⟩, hnamed, hchain⟩ := List.mem_flatMap.mp h
  have hlookup := Entries.lookup_of_nodup hsections hnamed
  rcases List.mem_cons.mp hchain with rfl | hchain
  · exact ⟨hlookup, .here⟩
  obtain ⟨group, hgroup, rfl⟩ := List.mem_map.mp hchain
  cases sect with
  | bare heading | items heading list => exact absurd hgroup List.not_mem_nil
  | groups heading list =>
    have hdistinct := hgroups _ hnamed list rfl
    exact ⟨hlookup, .into (Entries.lookup_of_nodup hdistinct hgroup) .here⟩

/-- The row that is shown for a chain of sections shows its lock, where the path leads back to that
chain. -/
theorem Leads.showsLock {chain : List (String × Section)} (h : checklist.Leads chain)
    (anyWildcard : Bool) (progress : Progress) :
    ShowsLock anyWildcard progress chain ⟨(pathOf chain).1, (pathOf chain).2,
      checklist.sectionVerdict anyWildcard progress (pathOf chain).1⟩ := by
  refine ⟨rfl, ?_, fun happart => ?_⟩
  · cases hlast : chain.getLast? with
    | none =>
      rw [List.getLast?_eq_none_iff.mp hlast] at h
      exact h.elim
    | some named => rw [pathOf, hlast, Option.map_some, Option.getD_some]
  · have hslash : ∀ named ∈ chain, '/' ∉ named.1.toList :=
      fun named hnamed => happart.1 named.1 (List.mem_map_of_mem hnamed)
    have hcondition : checklist.conditionAt? (pathOf chain).1 = some (nearestCondition chain) := by
      rw [pathOf, happart.join_eq]
      exact h.conditionAt?_eq hslash
    rw [sectionVerdict, hcondition, Option.any_some]
    cases nearestCondition chain <;> simp

end Checklist

namespace Session

variable {ι : Type} [DecidableEq ι]

/-- Whatever a gate has been asked before, the outline of a document that was read lists its
sections in document order, each followed by its groups, under the paths of their names. A section
is locked exactly if it has a condition that is not met, and a group exactly if the first that is
present of its own condition and that of its section is not met, provided that the path keeps the
names apart. Elsewhere the outline may show a lock as open that the entries of the same section
report as closed. -/
theorem Run.outline_shows_locks {settings : GateSettings} {session : Session ι}
    {history : List (GateCall × GateReply)} (h : Run settings session history) {json : Json}
    {checklist : Checklist} (hread : Checklist.ofJson json = .ok checklist)
    (hjson : json.NamesDistinct) (progress : Progress) :
    List.Forall₂ (Checklist.ShowsLock settings.anyWildcard progress) checklist.outlineChains
      (checklist.outline progress session.gate).1 := by
  obtain ⟨entries, rfl, hfrom⟩ := Checklist.ofJson_eq_ok hread
  rw [Json.NamesDistinct, Json.namesDistinctInMembers_iff] at hjson
  have hgroups : ∀ named ∈ checklist.sections, ∀ list, named.2.groups? = some list →
      (Entries.names list).Nodup := by
    intro named hnamed list hlist
    obtain ⟨value, hvalue, hsect⟩ := hfrom.entry named hnamed
    exact Section.nodup_groups hsect (hjson.2 _ hvalue) hlist
  rw [(Checklist.outline_eq h.gate_sound checklist progress).1, Checklist.outlinePaths_eq, List.map_map]
  apply List.forall₂_map_right_iff.mpr
  apply List.forall₂_same.mpr
  intro chain hchain
  exact (Checklist.leads_of_mem_outlineChains hfrom.nodup hgroups hchain).showsLock _ progress

/-- Below a locked section a group without a condition is locked with it, and one whose own condition
holds is open. -/
theorem Run.outline_shows_locks_of_groups :
    ∃ (json : Json) (checklist : Checklist) (progress : Progress),
      Checklist.ofJson json = .ok checklist ∧ json.NamesDistinct ∧
      (checklist.outline progress (Gate.new {})).1 =
        [⟨"bank", "Bank", true⟩, ⟨"bank/people", "People", true⟩, ⟨"bank/notes", "Notes", false⟩] ∧
      List.Forall₂ (Checklist.ShowsLock true progress) checklist.outlineChains
        [⟨"bank", "Bank", true⟩, ⟨"bank/people", "People", true⟩, ⟨"bank/notes", "Notes", false⟩] ∧
      checklist.outlineChains.map (fun chain => chain.map (·.1)) =
        [["bank"], ["bank", "people"], ["bank", "notes"]] ∧
      Key.KeptApart ["bank"] ∧ Key.KeptApart ["bank", "people"] ∧
      Key.KeptApart ["bank", "notes"] := by
  let people : Json := .object [("title", .string "People")]
  let notes : Json := .object [("title", .string "Notes"), ("$condition", .object [])]
  let json : Json := .object [("bank", .object [("title", .string "Bank"),
    ("$condition", .string "gameMode"), ("list", .object [("people", people), ("notes", notes)])])]
  let bank : Section := .groups { title := "Bank", condition := some (.string "gameMode") }
    [("people", .bare { title := "People" }),
      ("notes", .bare { title := "Notes", condition := some (.object []) })]
  let checklist : Checklist := { sections := [("bank", bank)] }
  let progress : Progress := { scope := "ns" }
  have hread : Checklist.ofJson json = .ok checklist := by cbv
  have hjson : json.NamesDistinct := by
    simp [json, people, notes, Json.NamesDistinct, Json.NamesDistinctInMembers, Entries.names]
  have houtline : (checklist.outline progress (Gate.new {})).1 =
      [⟨"bank", "Bank", true⟩, ⟨"bank/people", "People", true⟩, ⟨"bank/notes", "Notes", false⟩] := by
    cbv
  have unused : Run {} (⟨Gate.new {}, fun _ => none⟩ : Session Unit) [] := .start
  have hshows := unused.outline_shows_locks hread hjson progress
  rw [houtline] at hshows
  exact ⟨json, checklist, progress, hread, hjson, houtline, hshows, rfl, by decide, by decide,
    by decide⟩

end Session

namespace Checklist

/-- The condition of a section whose key has a slash, and that of a group without a name, are passed over
in the outline. The entries of the two are locked all the same. -/
theorem outline_overlooks_condition :
    ∃ (json : Json) (checklist : Checklist) (progress : Progress),
      ofJson json = .ok checklist ∧ json.NamesDistinct ∧
      checklist.outlineChains.map nearestCondition =
        [some (.string "gameMode"), none, some (.string "gameMode")] ∧
      (Json.string "gameMode").isMet true progress.values = false ∧
      (checklist.outline progress (Gate.new {})).1 =
        [⟨"a/b", "Bank", false⟩, ⟨"cans", "Cans", false⟩, ⟨"cans", "Red", false⟩] ∧
      (checklist.statuses progress (Gate.new {})).1.map (fun s => (s.key, s.locked)) =
        [("a/b/memo", true), ("cans/memo", true)] := by
  let closed : Heading := { title := "Bank", condition := some (.string "gameMode") }
  let json : Json := .object [
    ("a/b", .object [("title", .string "Bank"), ("$condition", .string "gameMode"),
      ("list", .array [.string "Memo"])]),
    ("cans", .object [("title", .string "Cans"), ("list", .object [("", .object [
      ("title", .string "Red"), ("$condition", .string "gameMode"),
      ("list", .array [.string "Memo"])])])])]
  let checklist : Checklist := { sections := [("a/b", .items closed [.label "Memo"]),
    ("cans", .groups { title := "Cans" } [("", .items { closed with title := "Red" } [.label "Memo"])])] }
  have hjson : json.NamesDistinct := by
    simp [json, Json.NamesDistinct, Json.NamesDistinctInMembers, Json.NamesDistinctInItems,
      Entries.names]
  refine ⟨json, checklist, { scope := "ns" }, ?_, hjson, rfl, ?_, ?_, ?_⟩ <;> cbv

end Checklist

end Questlog
