import Questlog.Condition.Structured

namespace Questlog.Requirement

/-- Whether a clause cannot be used: it is not the wildcard, and it does not split into operator and
right-hand side, or the right-hand side is not one JSON value, or no list where membership asks
for one. -/
def isMalformed (wildcard : Bool) (text : String) : Bool :=
  !isWildcard wildcard text &&
    match Clause.ofText? text with
    | none => true
    | some parts =>
      match parts.operand? with
      | none => true
      | some operand => parts.op = .isIn && operand.array?.isNone

/-- Whether the entry of an object takes no part. -/
def isInertEntry (wildcard : Bool) (values : Values) (field : String) (r : Requirement) : Bool :=
  !values.contains field ||
    match r with
    | clause text => isMalformed wildcard text
    | anyOf _ | allOf _ | scalar _ => false

/-- Whether a term of a list takes no part; `attached` tells whether the list stands directly at a
field. -/
def isInertTerm (wildcard attached : Bool) : Requirement → Bool
  | clause text => !attached || isMalformed wildcard text
  | scalar _ => true
  | anyOf _ | allOf _ => false

section Prune

variable (wildcard : Bool) (values : Values)

mutual

/-- A requirement without the inert parts inside it; `attached` tells whether it stands directly at
a field. -/
def prune (attached : Bool) : Requirement → Requirement
  | clause text => clause text
  | anyOf terms => anyOf (pruneTerms attached terms)
  | allOf entries => allOf (pruneEntries entries)
  | scalar value => scalar value

def pruneTerms (attached : Bool) : List Requirement → List Requirement
  | [] => []
  | term :: rest =>
    if isInertTerm wildcard attached term then pruneTerms attached rest
    else prune false term :: pruneTerms attached rest

def pruneEntries : List (String × Requirement) → List (String × Requirement)
  | [] => []
  | (field, r) :: rest =>
    if isInertEntry wildcard values field r then pruneEntries rest
    else (field, prune true r) :: pruneEntries rest

end

mutual

/-- Whether nothing inside a requirement is inert. -/
def IsPruned (attached : Bool) : Requirement → Prop
  | anyOf terms => ArePrunedTerms attached terms
  | allOf entries => ArePrunedEntries entries
  | clause _ | scalar _ => True

def ArePrunedTerms (attached : Bool) : List Requirement → Prop
  | [] => True
  | term :: rest =>
    isInertTerm wildcard attached term = false ∧ IsPruned false term ∧ ArePrunedTerms attached rest

def ArePrunedEntries : List (String × Requirement) → Prop
  | [] => True
  | (field, r) :: rest =>
    isInertEntry wildcard values field r = false ∧ IsPruned true r ∧ ArePrunedEntries rest

end

end Prune

variable {wildcard : Bool} {values : Values}

/-- A clause that cannot be used gives the default of the place where it stands. -/
theorem clauseHolds_of_malformed {text : String} (h : isMalformed wildcard text = true)
    (field : String) (default : Bool) :
    clauseHolds wildcard values text field default = default := by
  simp only [isMalformed, Bool.and_eq_true, Bool.not_eq_true'] at h
  obtain ⟨hwildcard, hunusable⟩ := h
  have hclause : Clause.holds text (valueOf values field) default = default := by
    unfold Clause.holds
    cases hsplit : Clause.ofText? text with
    | none => rfl
    | some parts =>
      simp only [hsplit] at hunusable
      cases hoperand : parts.operand? with
      | none => simp only [hoperand]
      | some operand =>
        simp only [hoperand, Bool.and_eq_true, decide_eq_true_eq] at hunusable
        obtain ⟨hop, hlist⟩ := hunusable
        simp only [hoperand, hop]
        cases operand with
        | array items => cases hlist
        | _ => rfl
  rw [clauseHolds, hwildcard, hclause, Bool.false_or]

/-- A clause that cannot be used does not lock as an entry of an object. -/
theorem entryHolds_of_inert {field : String} {r : Requirement}
    (hcontains : values.contains field = true) (h : isInertEntry wildcard values field r = true) :
    entryHolds wildcard values field r = true := by
  unfold isInertEntry at h
  rw [hcontains] at h
  cases r with
  | clause text =>
    have hholds : clauseHolds wildcard values text field true = true :=
      clauseHolds_of_malformed h field true
    rw [entryHolds, hholds, Bool.or_true]
  | anyOf _ | allOf _ | scalar _ => cases h

/-- A clause that cannot be used does not unlock as a term of a list. -/
theorem termHolds_of_inert {field : Option String} {r : Requirement}
    (h : isInertTerm wildcard field.isSome r = true) :
    termHolds wildcard values field r = false := by
  cases r with
  | clause text =>
    cases field with
    | none => rfl
    | some field => exact clauseHolds_of_malformed h field false
  | scalar _ => rfl
  | anyOf _ | allOf _ => cases h

/-- What pruning does to a requirement itself does not change whether it is inert. -/
theorem isInertTerm_prune (attached attached' : Bool) (r : Requirement) :
    isInertTerm wildcard attached (prune wildcard values attached' r) =
      isInertTerm wildcard attached r := by
  cases r <;> rw [prune] <;> rfl

theorem isInertEntry_prune (field : String) (attached : Bool) (r : Requirement) :
    isInertEntry wildcard values field (prune wildcard values attached r) =
      isInertEntry wildcard values field r := by
  cases r <;> rw [prune] <;> rfl

mutual

/-- No part without effect is left, at any depth; three lemmas by the recursion over conditions. -/
theorem prune_isPruned (attached : Bool) :
    ∀ r : Requirement, IsPruned wildcard values attached (prune wildcard values attached r)
  | clause _ => by rw [prune, IsPruned]; trivial
  | anyOf terms => by
    rw [prune, IsPruned]
    exact pruneTerms_arePruned attached terms
  | allOf entries => by
    rw [prune, IsPruned]
    exact pruneEntries_arePruned entries
  | scalar _ => by rw [prune, IsPruned]; trivial

theorem pruneTerms_arePruned (attached : Bool) : ∀ terms : List Requirement,
    ArePrunedTerms wildcard values attached (pruneTerms wildcard values attached terms)
  | [] => by rw [pruneTerms, ArePrunedTerms]; trivial
  | term :: rest => by
    have hrest := pruneTerms_arePruned attached rest
    rw [pruneTerms]
    split
    · exact hrest
    · next hkept =>
      rw [ArePrunedTerms, isInertTerm_prune]
      exact ⟨Bool.eq_false_iff.mpr hkept, prune_isPruned false term, hrest⟩

theorem pruneEntries_arePruned : ∀ entries : List (String × Requirement),
    ArePrunedEntries wildcard values (pruneEntries wildcard values entries)
  | [] => by rw [pruneEntries, ArePrunedEntries]; trivial
  | (field, r) :: rest => by
    have hrest := pruneEntries_arePruned rest
    rw [pruneEntries]
    split
    · exact hrest
    · next hkept =>
      rw [ArePrunedEntries, isInertEntry_prune]
      exact ⟨Bool.eq_false_iff.mpr hkept, prune_isPruned true r, hrest⟩

end

-- Inert entries hold and inert terms do not, so each is the neutral element of the node that it is
-- taken from. What stays has the same answer by induction, a list at the field it is attached to.
mutual

/-- Taking the parts out leaves the answer of an entry; with the next three lemmas, again by the
recursion. -/
theorem entryHolds_prune (field : String) : ∀ r : Requirement,
    entryHolds wildcard values field (prune wildcard values true r) =
      entryHolds wildcard values field r
  | clause _ => by rw [prune]
  | anyOf terms => by
    rw [prune, entryHolds, entryHolds]
    exact anyHolds_pruneTerms (some field) terms
  | allOf entries => by
    rw [prune, entryHolds, entryHolds]
    exact allHold_pruneEntries entries
  | scalar _ => by rw [prune]

theorem termHolds_prune (field : Option String) : ∀ r : Requirement,
    termHolds wildcard values field (prune wildcard values false r) =
      termHolds wildcard values field r
  | clause _ => by rw [prune]
  | anyOf terms => by
    rw [prune, termHolds, termHolds]
    exact anyHolds_pruneTerms none terms
  | allOf entries => by
    rw [prune, termHolds, termHolds]
    exact allHold_pruneEntries entries
  | scalar _ => by rw [prune]

theorem anyHolds_pruneTerms (field : Option String) : ∀ terms : List Requirement,
    anyHolds wildcard values field (pruneTerms wildcard values field.isSome terms) =
      anyHolds wildcard values field terms
  | [] => by rw [pruneTerms]
  | term :: rest => by
    have hterm := termHolds_prune field term
    have hrest := anyHolds_pruneTerms field rest
    rw [pruneTerms]
    split
    · next hinert =>
      rw [anyHolds, termHolds_of_inert hinert, Bool.false_or, hrest]
    · rw [anyHolds, anyHolds, hterm, hrest]

theorem allHold_pruneEntries : ∀ entries : List (String × Requirement),
    allHold wildcard values (pruneEntries wildcard values entries) = allHold wildcard values entries
  | [] => by rw [pruneEntries]
  | (field, r) :: rest => by
    have hentry := entryHolds_prune field r
    have hrest := allHold_pruneEntries rest
    rw [pruneEntries]
    split
    · next hinert =>
      rw [allHold, hrest]
      cases hcontains : values.contains field with
      | false => rfl
      | true => rw [entryHolds_of_inert hcontains hinert]; rfl
    · rw [allHold, allHold, hentry, hrest]

end

/-- A clause that cannot be used takes no part in the answer of a structured condition. Taking
everything inert out of a structured condition leaves nothing inert in it, and leaves its answer as
it was. -/
theorem holds_without_inert (wildcard : Bool) (values : Values) :
    (∀ entries : List (String × Requirement),
      ArePrunedEntries wildcard values (pruneEntries wildcard values entries) ∧
      allHold wildcard values (pruneEntries wildcard values entries) =
        allHold wildcard values entries) ∧
    (∀ (field : Option String) (terms : List Requirement),
      ArePrunedTerms wildcard values field.isSome
        (pruneTerms wildcard values field.isSome terms) ∧
      anyHolds wildcard values field (pruneTerms wildcard values field.isSome terms) =
        anyHolds wildcard values field terms) :=
  ⟨fun entries => ⟨pruneEntries_arePruned entries, allHold_pruneEntries entries⟩,
    fun field terms => ⟨pruneTerms_arePruned field.isSome terms, anyHolds_pruneTerms field terms⟩⟩

end Questlog.Requirement
