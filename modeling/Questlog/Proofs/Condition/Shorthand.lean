import Questlog.Proofs.Condition.Agreement
import Questlog.Proofs.Condition.Shape
import Questlog.Proofs.Json.Pretty

namespace Questlog

namespace Json

variable {value : Json}

/-- The words of JSON have no blanks at their ends. -/
theorem trimmed_word {word : List Char × Token} (h : word ∈ words) : Text.Trimmed word.1 := by
  have hne : ∀ w ∈ words, w.1 ≠ [] := by decide
  have hvisible : words.all (fun w => w.1.all fun c => 33 ≤ c.toNat ∧ c.toNat ≤ 126) = true := rfl
  have hchars := List.all_eq_true.mp (List.all_eq_true.mp hvisible word h)
  exact Text.trimmed_of_forall (hne word h) fun c hc =>
    Text.isBlank_of_visible (of_decide_eq_true (hchars c hc))

/-- The compact text of a scalar has no blanks at its ends. -/
theorem trimmed_writeCompact (h : value.IsScalar) : Text.Trimmed (writeCompact value) := by
  cases value with
  | string _ | array _ | object _ => exact h.elim
  | null =>
    rw [writeCompact]
    exact trimmed_word (.head _)
  | bool b =>
    rw [writeCompact]
    cases b with
    | true => exact trimmed_word (.tail _ (.head _))
    | false => exact trimmed_word (.tail _ (.tail _ (.head _)))
  | number n =>
    rw [writeCompact]
    exact trimmed_write n

/-- A scalar is read from its compact text, which is its pretty text too. -/
theorem parse?_writeCompact (h : value.IsScalar) :
    parse? (String.ofList ('[' :: writeCompact value ++ [']'])) = some (.array [value]) := by
  have hpretty : writePretty 0 value = writeCompact value := by
    cases value with
    | string _ | array _ | object _ => exact h.elim
    | null | bool _ | number _ => rw [writePretty, writeCompact]
  have hread : ReadAs (readValue 126) (writePretty 0 value) value := by
    cases value with
    | string _ | array _ | object _ => exact h.elim
    | null | bool _ | number _ => exact readAs_leaf 126 0 rfl rfl
  rw [hpretty] at hread
  exact hread.parse?_brackets

end Json

namespace Requirement

mutual

/-- `Respelled r r'`: some of the scalars that stand at fields inside `r`, at any depth, are written
out as clauses in `r'`. -/
inductive Respelled : Requirement → Requirement → Prop
  | refl (r : Requirement) : Respelled r r
  | anyOf {terms terms' : List Requirement} : RespelledTerms terms terms' →
    Respelled (.anyOf terms) (.anyOf terms')
  | allOf {entries entries' : List (String × Requirement)} : RespelledEntries entries entries' →
    Respelled (.allOf entries) (.allOf entries')

inductive RespelledTerms : List Requirement → List Requirement → Prop
  | nil : RespelledTerms [] []
  | cons {term term' : Requirement} {rest rest' : List Requirement} : Respelled term term' →
    RespelledTerms rest rest' → RespelledTerms (term :: rest) (term' :: rest')

inductive RespelledEntries :
    List (String × Requirement) → List (String × Requirement) → Prop
  | nil : RespelledEntries [] []
  | cons {field : String} {r r' : Requirement} {rest rest' : List (String × Requirement)} :
    Respelled r r' → RespelledEntries rest rest' →
    RespelledEntries ((field, r) :: rest) ((field, r') :: rest')
  | scalar {field : String} {value : Json} {rest rest' : List (String × Requirement)} :
    value.IsScalar → RespelledEntries rest rest' →
    RespelledEntries ((field, .scalar value) :: rest)
      ((field, .clause ("== " ++ value.compact)) :: rest')

end

variable {wildcard : Bool} {values : Values}

/-- A scalar and the clause that it is written out as have the same answer at a field. -/
theorem entryHolds_equalClause {value : Json} (h : value.IsScalar) (field : String) :
    entryHolds wildcard values field (.clause ("== " ++ value.compact)) =
      entryHolds wildcard values field (.scalar value) := by
  have hclause : "== " ++ value.compact =
      String.ofList (Clause.chars (.compare .equal) (Json.writeCompact value)) := by
    apply String.toList_inj.mp
    simp [Clause.chars, Json.compact, ClauseOp.symbol, Symbol.spelling]
  rw [hclause, entryHolds_chars wildcard _ (Json.trimmed_writeCompact h)
    (Json.parse?_writeCompact h), entryHolds]

-- Lists and objects are answered from what is inside them, so the induction is on how the one
-- condition was made from the other, and only an entry that is written out needs a reason.
mutual

/-- Writing scalars out as clauses leaves the answer of an entry as it is; four lemmas by induction
over the respelling. -/
theorem Respelled.entryHolds_eq (field : String) : ∀ {r r' : Requirement}, Respelled r r' →
    entryHolds wildcard values field r' = entryHolds wildcard values field r
  | _, _, .refl _ => rfl
  | _, _, .anyOf h => by
    rw [entryHolds, entryHolds]
    exact h.anyHolds_eq (some field)
  | _, _, .allOf h => by
    rw [entryHolds, entryHolds]
    exact h.allHold_eq

theorem Respelled.termHolds_eq (field : Option String) : ∀ {r r' : Requirement}, Respelled r r' →
    termHolds wildcard values field r' = termHolds wildcard values field r
  | _, _, .refl _ => rfl
  | _, _, .anyOf h => by
    rw [termHolds, termHolds]
    exact h.anyHolds_eq none
  | _, _, .allOf h => by
    rw [termHolds, termHolds]
    exact h.allHold_eq

theorem RespelledTerms.anyHolds_eq (field : Option String) : ∀ {terms terms' : List Requirement},
    RespelledTerms terms terms' →
      anyHolds wildcard values field terms' = anyHolds wildcard values field terms
  | _, _, .nil => rfl
  | _, _, .cons hterm hrest => by
    rw [anyHolds, anyHolds, hterm.termHolds_eq, hrest.anyHolds_eq]

theorem RespelledEntries.allHold_eq : ∀ {entries entries' : List (String × Requirement)},
    RespelledEntries entries entries' →
      allHold wildcard values entries' = allHold wildcard values entries
  | _, _, .nil => rfl
  | _, _, .cons hentry hrest => by
    rw [allHold, allHold, hentry.entryHolds_eq, hrest.allHold_eq]
  | _, _, .scalar hvalue hrest => by
    rw [allHold, allHold, entryHolds_equalClause hvalue, hrest.allHold_eq]

end

/-- Writing scalars at fields out as clauses, any of them at any depth, changes no answer of a
structured condition. -/
theorem respelled_holds (wildcard : Bool) (values : Values) :
    (∀ entries entries' : List (String × Requirement), RespelledEntries entries entries' →
      allHold wildcard values entries' = allHold wildcard values entries) ∧
    (∀ (field : Option String) (terms terms' : List Requirement), RespelledTerms terms terms' →
      anyHolds wildcard values field terms' = anyHolds wildcard values field terms) :=
  ⟨fun _ _ h => h.allHold_eq, fun field _ _ h => h.anyHolds_eq field⟩

/-- A number at the top and a truth value in a list at a field, both written out, beside scalars
that are kept. -/
theorem respelled_holds_region :
    ∃ entries entries' : List (String × Requirement),
      entries = [("hard", .scalar (.bool false)),
        ("mode", .anyOf [.scalar .null, .allOf [("hard", .scalar (.bool true))]]),
        ("region", .scalar (.number (.integer (-3) (by decide))))] ∧
      entries' = [("hard", .scalar (.bool false)),
        ("mode", .anyOf [.scalar .null, .allOf [("hard", .clause "== true")]]),
        ("region", .clause "== -3")] ∧
      RespelledEntries entries entries' ∧
      ∀ wildcard values, allHold wildcard values entries' = allHold wildcard values entries := by
  let three : Json := .number (.integer (-3) (by decide))
  have htrue : "== " ++ (Json.bool true).compact = "== true" := by decide
  have hthree : "== " ++ three.compact = "== -3" := by decide
  have hinner : RespelledEntries [("hard", .scalar (.bool true))]
      [("hard", .clause ("== " ++ (Json.bool true).compact))] := .scalar trivial .nil
  have houter : RespelledEntries [("region", .scalar three)]
      [("region", .clause ("== " ++ three.compact))] := .scalar trivial .nil
  rw [htrue] at hinner
  rw [hthree] at houter
  have hlist := RespelledTerms.cons (.refl (.scalar .null)) (.cons (.allOf hinner) .nil)
  let entries : List (String × Requirement) := [("hard", .scalar (.bool false)),
    ("mode", .anyOf [.scalar .null, .allOf [("hard", .scalar (.bool true))]]),
    ("region", .scalar three)]
  let entries' : List (String × Requirement) := [("hard", .scalar (.bool false)),
    ("mode", .anyOf [.scalar .null, .allOf [("hard", .clause "== true")]]),
    ("region", .clause "== -3")]
  have hrespelled : RespelledEntries entries entries' :=
    .cons (.refl (.scalar (.bool false))) (.cons (.anyOf hlist) houter)
  exact ⟨entries, entries', rfl, rfl, hrespelled, fun wildcard values =>
    (respelled_holds wildcard values).1 entries entries' hrespelled⟩

end Requirement

end Questlog
