import Questlog.Condition.Structured

namespace Questlog

/-- How an answer changes when the wildcard is enabled: what held still holds, and nothing changes
where `spared` holds. -/
structure Unlocks (spared : Prop) (disabled enabled : Bool) : Prop where
  holds : disabled = true → enabled = true
  agrees : spared → enabled = disabled

namespace Unlocks

variable {spared spared' : Prop} {disabled enabled disabled' enabled' : Bool}

theorem of_eq (h : enabled = disabled) : Unlocks spared disabled enabled :=
  ⟨fun hholds => h.trans hholds, fun _ => h⟩

theorem or (h : Unlocks spared disabled enabled) (h' : Unlocks spared' disabled' enabled') :
    Unlocks (spared ∧ spared') (disabled || disabled') (enabled || enabled') where
  holds hholds := by
    rw [Bool.or_eq_true] at hholds ⊢
    exact hholds.imp h.holds h'.holds
  agrees hspared := by rw [h.agrees hspared.1, h'.agrees hspared.2]

theorem and (h : Unlocks spared disabled enabled) (h' : Unlocks spared' disabled' enabled') :
    Unlocks (spared ∧ spared') (disabled && disabled') (enabled && enabled') where
  holds hholds := by
    rw [Bool.and_eq_true] at hholds ⊢
    exact hholds.imp h.holds h'.holds
  agrees hspared := by rw [h.agrees hspared.1, h'.agrees hspared.2]

theorem mono (h : Unlocks spared disabled enabled) (hspared : spared' → spared) :
    Unlocks spared' disabled enabled :=
  ⟨h.holds, fun hspared' => h.agrees (hspared hspared')⟩

end Unlocks

namespace Requirement

/-- Whether a requirement is a clause that the wildcard matches. -/
def IsAny : Requirement → Prop
  | clause text => Text.trim text = "any"
  | anyOf _ | allOf _ | scalar _ => False

mutual

/-- Whether no list that stands directly at a field, at any depth, has the clause `any` as a term;
`attached` tells whether the requirement itself stands at a field. -/
def SparesLists (attached : Bool) : Requirement → Prop
  | anyOf terms => TermsSpareLists attached terms
  | allOf entries => EntriesSpareLists entries
  | clause _ | scalar _ => True

def TermsSpareLists (attached : Bool) : List Requirement → Prop
  | [] => True
  | term :: rest =>
    ((attached = true → ¬term.IsAny) ∧ SparesLists false term) ∧ TermsSpareLists attached rest

def EntriesSpareLists : List (String × Requirement) → Prop
  | [] => True
  | (_, r) :: rest => SparesLists true r ∧ EntriesSpareLists rest

end

variable {values : Values} {text : String}

/-- No clause but `any` is the wildcard. -/
theorem isWildcard_of_ne (h : Text.trim text ≠ "any") (wildcard : Bool) :
    isWildcard wildcard text = false := by
  rw [isWildcard, decide_eq_false h, Bool.and_false]

/-- The word `any` splits into no operator and right-hand side. -/
theorem ofText?_of_any (h : Text.trim text = "any") : Clause.ofText? text = none := by
  have hchars : Text.trimChars text.toList = ['a', 'n', 'y'] := by
    rw [← String.toList_ofList (l := Text.trimChars text.toList)]
    exact congrArg String.toList h
  rw [Clause.ofText?, hchars]
  rfl

/-- A clause at the entry of an object has the same answer with and without the wildcard. -/
theorem entryHolds_clause (wildcard : Bool) (field : String) :
    entryHolds wildcard values field (clause text) =
      ((Clause.ofText? text).isNone || Clause.holds text (valueOf values field) true) := by
  rw [entryHolds, clauseHolds]
  by_cases hany : Text.trim text = "any"
  · rw [ofText?_of_any hany]
    cases isWildcard wildcard text <;> rfl
  · rw [isWildcard_of_ne hany, Bool.not_false, Bool.and_true, Bool.false_or]

/-- At a field, the wildcard may make a clause hold. -/
theorem unlocks_clauseHolds (field : String) (default : Bool) :
    Unlocks (Text.trim text ≠ "any") (clauseHolds false values text field default)
      (clauseHolds true values text field default) where
  holds hholds := by
    have hclause : Clause.holds text (valueOf values field) default = true := hholds
    rw [clauseHolds, hclause, Bool.or_true]
  agrees hany := by
    rw [clauseHolds, clauseHolds, isWildcard_of_ne hany, isWildcard_of_ne hany]

-- A list stands at a field only as the entry of an object: a list inside a list stands at none, so
-- the terms of a list are compared for `SparesLists false`, whatever field the list stands at.
mutual

/-- Enabling the wildcard unlocks at most; four lemmas by the recursion over conditions. -/
theorem unlocks_entryHolds (field : String) : ∀ r : Requirement,
    Unlocks (SparesLists true r) (entryHolds false values field r) (entryHolds true values field r)
  | clause text => .of_eq (by rw [entryHolds_clause, entryHolds_clause])
  | anyOf terms => by
    rw [entryHolds, entryHolds, SparesLists]
    exact unlocks_anyHolds (some field) terms
  | allOf entries => by
    rw [entryHolds, entryHolds, SparesLists]
    exact unlocks_allHold entries
  | scalar _ => .of_eq (by rw [entryHolds, entryHolds])

theorem unlocks_termHolds (field : Option String) : ∀ r : Requirement,
    Unlocks ((field.isSome = true → ¬r.IsAny) ∧ SparesLists false r)
      (termHolds false values field r) (termHolds true values field r)
  | clause text => by
    cases field with
    | none => exact .of_eq (by rw [termHolds, termHolds])
    | some field =>
      rw [termHolds, termHolds]
      exact (unlocks_clauseHolds field false).mono fun hspared => hspared.1 rfl
  | anyOf terms => by
    rw [termHolds, termHolds, SparesLists]
    exact (unlocks_anyHolds none terms).mono And.right
  | allOf entries => by
    rw [termHolds, termHolds, SparesLists]
    exact (unlocks_allHold entries).mono And.right
  | scalar _ => .of_eq (by rw [termHolds, termHolds])

theorem unlocks_anyHolds (field : Option String) : ∀ terms : List Requirement,
    Unlocks (TermsSpareLists field.isSome terms) (anyHolds false values field terms)
      (anyHolds true values field terms)
  | [] => .of_eq (by rw [anyHolds, anyHolds])
  | term :: rest => by
    rw [anyHolds, anyHolds, TermsSpareLists]
    exact (unlocks_termHolds field term).or (unlocks_anyHolds field rest)

theorem unlocks_allHold : ∀ entries : List (String × Requirement),
    Unlocks (EntriesSpareLists entries) (allHold false values entries)
      (allHold true values entries)
  | [] => .of_eq (by rw [allHold, allHold])
  | (field, r) :: rest => by
    have hmissing : Unlocks True (!values.contains field) (!values.contains field) := .of_eq rfl
    have hentry := (hmissing.or (unlocks_entryHolds field r)).mono fun hspared => ⟨trivial, hspared⟩
    rw [allHold, allHold, EntriesSpareLists]
    exact hentry.and (unlocks_allHold rest)

end

/-- A structured condition that holds without the wildcard holds with it; and unless some list that
stands directly at a field has the clause `any` as a term, the wildcard does not change its answer.
At the entry of an object the clause `any` holds as text that is no clause does, and in a list
without a field no clause holds. -/
theorem wildcard_only_unlocks (values : Values) :
    (∀ entries : List (String × Requirement),
      (allHold false values entries = true → allHold true values entries = true) ∧
      (EntriesSpareLists entries → allHold true values entries = allHold false values entries)) ∧
    (∀ (field : Option String) (terms : List Requirement),
      (anyHolds false values field terms = true → anyHolds true values field terms = true) ∧
      (TermsSpareLists field.isSome terms →
        anyHolds true values field terms = anyHolds false values field terms)) := by
  constructor
  · intro entries
    exact ⟨(unlocks_allHold entries).holds, (unlocks_allHold entries).agrees⟩
  · intro field terms
    exact ⟨(unlocks_anyHolds field terms).holds, (unlocks_anyHolds field terms).agrees⟩

/-- The term `any` of a list at a field, beside one that holds by itself; and clauses `any` at an
entry and in a list inside a list, where they make no difference. -/
theorem wildcard_only_unlocks_region :
    ∃ (values : Values) (listed : List (String × Requirement)) (terms : List Requirement),
      values = ⟨[("mode", .bool true), ("region", .string "north")]⟩ ∧
      listed = [("region", anyOf [clause " any ", allOf [("mode", clause "any")]])] ∧
      terms = [allOf [("region", clause "any"), ("mode", anyOf [anyOf [clause "any"]])]] ∧
      allHold false values listed = true ∧ allHold true values listed = true ∧
      ¬EntriesSpareLists listed ∧ TermsSpareLists true terms ∧
      anyHolds true values (some "mode") terms = anyHolds false values (some "mode") terms := by
  let values : Values := ⟨[("mode", .bool true), ("region", .string "north")]⟩
  let listed := [("region", anyOf [clause " any ", allOf [("mode", clause "any")]])]
  let terms := [allOf [("region", clause "any"), ("mode", anyOf [anyOf [clause "any"]])]]
  have hany : Text.trim " any " = "any" := by decide
  have hlisted : ¬EntriesSpareLists listed := by
    simp [listed, EntriesSpareLists, SparesLists, TermsSpareLists, IsAny, hany]
  have hterms : TermsSpareLists true terms := by
    simp [terms, EntriesSpareLists, SparesLists, TermsSpareLists, IsAny]
  have hholds : allHold false values listed = true := rfl
  obtain ⟨hentries, hlists⟩ := wildcard_only_unlocks values
  exact ⟨values, listed, terms, rfl, rfl, rfl, hholds, (hentries listed).1 hholds, hlisted, hterms,
    (hlists (some "mode") terms).2 hterms⟩

end Requirement

end Questlog
