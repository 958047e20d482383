import Mathlib
import Questlog.Proofs.Checklist.Statuses

namespace Questlog

/-- The nearest of the conditions of a chain of sections, the outermost of which comes first. -/
def nearestCondition (chain : List (String × Section)) : Option Json :=
  (chain.reverse.map (·.2.heading.condition)).findSome? id

/-- The condition nearest to the entry wins over those further out. -/
theorem nearestCondition_cons (named : String × Section) (chain : List (String × Section)) :
    nearestCondition (named :: chain) =
      (nearestCondition chain).or named.2.heading.condition := by
  simp only [nearestCondition, List.reverse_cons, List.map_append, List.findSome?_append,
    List.map_cons, List.map_nil, List.findSome?_singleton]
  rfl

namespace Section

/-- `sect.Leads chain`: each name leads, among the groups of the section before it, to the section
beside it. -/
inductive Leads : Section → List (String × Section) → Prop
  | here {sect : Section} : Leads sect []
  | into {heading : Heading} {list : List (String × Section)} {name : String} {group : Section}
    {chain : List (String × Section)} : list.lookup name = some group → Leads group chain →
    Leads (.groups heading list) ((name, group) :: chain)

/-- Along a path the condition is kept that is nearest to its end. -/
theorem Leads.conditionAlong_eq {sect : Section} {chain : List (String × Section)}
    (h : sect.Leads chain) (inherited : Option Json) :
    sect.conditionAlong inherited (chain.map (·.1)) =
      (nearestCondition chain).or (sect.heading.condition.or inherited) := by
  induction h generalizing inherited with
  | @here sect =>
    rw [List.map_nil, conditionAlong, Option.orElse_eq_orElse, Option.orElse_eq_or]
    exact Option.none_or.symm
  | @into heading list name group chain hlookup _ ih =>
    have hgroup : (groups heading list).groups?.bind (·.lookup name) = some group := hlookup
    rw [List.map_cons, conditionAlong]
    simp only [hgroup, Option.orElse_eq_orElse, Option.orElse_eq_or]
    rw [ih, nearestCondition_cons, Option.or_assoc]

end Section

namespace Checklist

/-- The chain starts with a section of the checklist and leads on from there. -/
def Leads (checklist : Checklist) : List (String × Section) → Prop
  | [] => False
  | (key, sect) :: chain => checklist.sections.lookup key = some sect ∧ sect.Leads chain

/-- Looking the segments of a path up one after the other finds the chain of sections again, and
with it the condition nearest to the entry. -/
theorem Leads.conditionAt?_eq {checklist : Checklist} {chain : List (String × Section)}
    (h : checklist.Leads chain) (hkeys : ∀ named ∈ chain, '/' ∉ named.1.toList) :
    checklist.conditionAt? ("/".intercalate (chain.map (·.1))) = some (nearestCondition chain) := by
  obtain _ | ⟨⟨key, sect⟩, chain⟩ := chain
  · exact h.elim
  · obtain ⟨hlookup, hchain⟩ := h
    have hslash : ∀ s ∈ ((key, sect) :: chain).map (·.1), '/' ∉ s.toList := by
      intro s hs
      obtain ⟨named, hnamed, rfl⟩ := List.mem_map.mp hs
      exact hkeys named hnamed
    have hsplit : Key.split ("/".intercalate (((key, sect) :: chain).map (·.1))) =
        key :: chain.map (·.1) := Key.split_intercalate (List.cons_ne_nil _ _) hslash
    have hnearest : nearestCondition ((key, sect) :: chain) =
        sect.conditionAlong none (chain.map (·.1)) := by
      rw [nearestCondition_cons, hchain.conditionAlong_eq, Option.or_none]
    rw [conditionAt?, hsplit, hnearest]
    simp only [hlookup, Option.map_some]

end Checklist

/-- Without a condition of its own an entry is under that of the sections around it. -/
theorem Spot.condition?_of_none {spot : Spot} (hitem : spot.item.condition? = none)
    (hvariant : spot.variant.bind Item.condition? = none) :
    spot.condition? = nearestCondition spot.around := by
  rw [condition?, guards, hitem, hvariant]
  rfl

namespace Session

variable {ι κ : Type} [DecidableEq ι] [DecidableEq κ]

/-- Where a path of keys leads to a section, asking whether the section is locked gives what the
list of states says of every entry in that section for which neither the item nor the variant has a
condition, whatever the gate was asked before either question. -/
theorem Run.section_locked_iff_entry {settings : GateSettings} {session : Session ι}
    {session' : Session κ} {history history' : List (GateCall × GateReply)}
    (h : Run settings session history) (h' : Run settings session' history')
    {checklist : Checklist} {chain : List (String × Section)} (hchain : checklist.Leads chain)
    (hkeys : ∀ named ∈ chain, '/' ∉ named.1.toList) (progress : Progress) {k : Nat} {spot : Spot}
    {status : Status} (hspot : checklist.spots[k]? = some spot)
    (hstatus : (checklist.statuses progress session.gate).1[k]? = some status)
    (haround : spot.around = chain) (hitem : spot.item.condition? = none)
    (hvariant : spot.variant.bind Item.condition? = none) :
    (checklist.isSectionLocked ("/".intercalate (chain.map (·.1))) progress session'.gate).1 =
      status.locked := by
  have hshown := Checklist.shows_of_getElem? h.gate_sound hspot hstatus
  have hcondition := Spot.condition?_of_none hitem hvariant
  have hpath := hchain.conditionAt?_eq hkeys
  have hlocked := (Checklist.isLocked_eq h'.gate_sound (nearestCondition chain) progress).1
  rw [Checklist.isSectionLocked]
  simp only [hpath, hlocked]
  rw [Bool.eq_iff_iff, hshown.locked, hcondition, haround]
  cases nearestCondition chain <;> simp

/-- Three levels deep, where only the middle group has a condition. -/
theorem Run.section_locked_iff_entry_below_group :
    let inner : Section := .items {} [.label "X"]
    let middle : Section := .groups { condition := some (.string "region") } [("c", inner)]
    let outer : Section := .groups {} [("b", middle)]
    let checklist : Checklist := { sections := [("a", outer)] }
    let chain := [("a", outer), ("b", middle), ("c", inner)]
    let progress : Progress := { scope := "ns" }
    checklist.Leads chain ∧ (∀ named ∈ chain, '/' ∉ named.1.toList) ∧
      ∃ status, (checklist.statuses progress (Gate.new {})).1[0]? = some status ∧
        status.key = "a/b/c/x" ∧ status.locked = true ∧
        (checklist.isSectionLocked ("/".intercalate (chain.map (·.1))) progress (Gate.new {})).1 =
          status.locked := by
  intro inner middle outer checklist chain progress
  have hchain : checklist.Leads chain := ⟨rfl, .into rfl (.into rfl .here)⟩
  have hkeys : ∀ named ∈ chain, '/' ∉ named.1.toList := by simp [chain]
  have hstatuses : (checklist.statuses progress (Gate.new {})).1 =
      [⟨"a/b/c/x", "X", false, true, false⟩] := by cbv
  have unused : Run {} (⟨Gate.new {}, fun _ => none⟩ : Session Unit) [] := .start
  have hstatus := congrArg (·[0]?) hstatuses
  exact ⟨hchain, hkeys, _, hstatus, rfl, rfl,
    unused.section_locked_iff_entry unused hchain hkeys progress rfl hstatus rfl rfl rfl⟩

end Session

end Questlog
