import Mathlib
import Questlog.Expression.Predicate
import Questlog.Proofs.Expression.Acceptance
import Questlog.Proofs.Expression.Fields

namespace Questlog.Expr

/-- What holds of the fields that are found at last holds of those that were found before. -/
theorem of_collectFields {found : List String} (e : Expr) {p : String → Prop}
    (h : ∀ f ∈ e.collectFields found, p f) : ∀ f ∈ found, p f :=
  fun f hf => h f (subset_collectFields found e hf)

theorem of_collectFieldsOfItems {found : List String} (es : List Expr) {p : String → Prop}
    (h : ∀ f ∈ collectFieldsOfItems found es, p f) : ∀ f ∈ found, p f :=
  fun f hf => h f (subset_collectFieldsOfItems found es hf)

/-- Operators between two operands read no field. -/
theorem apply_ne_unknownField (op : BinaryOp) (a b : Operand) (name : String) :
    op.apply a b ≠ .error (.unknownField name) := by
  cases op with
  | isIn => cases b <;> simp [BinaryOp.apply]
  | _ => simp [BinaryOp.apply]

variable {values : Values} {name : String}

mutual

/-- Where all fields of an expression have values, none of them is missing in its evaluation. -/
theorem eval_ne_unknownField {found : List String} : ∀ e : Expr,
    (∀ f ∈ e.collectFields found, values.contains f = true) →
      e.eval values ≠ .error (.unknownField name)
  | .number _, _, h => by cases h
  | .text _, _, h => by cases h
  | .field f, hall, h => by
    obtain ⟨json, hjson⟩ := Option.isSome_iff_exists.mp (hall f (mem_note found f))
    simp [eval, hjson] at h
  | .list items, hall, h => by
    rw [eval] at h
    split at h
    · next hitems =>
      cases h
      exact evalItems_ne_unknownField items hall hitems
    · cases h
  | .unary op operand, hall, h => by
    rw [eval] at h
    split at h
    · next hoperand =>
      cases h
      exact eval_ne_unknownField operand hall hoperand
    · cases h
  | .binary op left right, hall, h => by
    rw [eval] at h
    split at h
    · next hleft =>
      cases h
      exact eval_ne_unknownField left (of_collectFields right hall) hleft
    · split at h
      · next hright =>
        cases h
        exact eval_ne_unknownField right hall hright
      · exact apply_ne_unknownField op _ _ name h
  | .and left right, hall, h => by
    rw [eval] at h
    split at h
    · next hleft =>
      cases h
      exact eval_ne_unknownField left (of_collectFields right hall) hleft
    · split at h
      · exact eval_ne_unknownField right hall h
      · cases h
  | .or left right, hall, h => by
    rw [eval] at h
    split at h
    · next hleft =>
      cases h
      exact eval_ne_unknownField left (of_collectFields right hall) hleft
    · split at h
      · cases h
      · exact eval_ne_unknownField right hall h

/-- No item of a list misses a field. -/
theorem evalItems_ne_unknownField {found : List String} : ∀ es : List Expr,
    (∀ f ∈ collectFieldsOfItems found es, values.contains f = true) →
      evalItems values es ≠ .error (.unknownField name)
  | [], _, h => by cases h
  | item :: rest, hall, h => by
    rw [evalItems] at h
    split at h
    · next hitem =>
      cases h
      exact eval_ne_unknownField item (of_collectFieldsOfItems rest hall) hitem
    · split at h
      · next hrest =>
        cases h
        exact evalItems_ne_unknownField rest hall hrest
      · cases h

end

end Questlog.Expr

namespace Questlog

/-- The fields of a record are those that it has. -/
theorem Values.mem_fields {values : Values} {name : String} :
    name ∈ values.fields ↔ values.contains name = true := by
  rw [Values.contains, Values.get?, List.lookup_isSome_iff]
  simp only [Values.fields, Entries.names, List.mem_map, beq_iff_eq, @eq_comm _ name]

namespace Predicate

/-- A predicate is the tree of its trimmed text, with the fields of the tree. -/
theorem compile_eq_ok {text : String} {predicate : Predicate}
    (h : compile text = .ok predicate) :
    Expr.parse (Text.trim text) = .ok predicate.expr ∧
      predicate.fields = predicate.expr.fields := by
  simp only [compile] at h
  split at h
  · cases h
  · next hparse =>
    cases h
    exact ⟨hparse, rfl⟩

/-- The fields of a predicate are the names in its text, each at the place where it first stands. -/
theorem fields_eq_names {text : String} {predicate : Predicate}
    (h : compile text = .ok predicate) : ∃ lexemes,
      Lexeme.tokenize (Text.trim text) = .ok lexemes ∧
        predicate.fields = (Grammar.names (Grammar.tokens lexemes)).eraseDups := by
  obtain ⟨hparse, hfields⟩ := compile_eq_ok h
  obtain ⟨_, n, ⟨lexemes, htokenize, hphrase⟩, _⟩ := Grammar.derives_of_parse hparse
  refine ⟨lexemes, htokenize, ?_⟩
  rw [hfields, Expr.fields, hphrase.collectFields_eq, Grammar.foldl_note_eq_eraseDups]

/-- A check fails for the first field that the values do not have. -/
theorem check_eq_unknownField {predicate : Predicate} {values : Values}
    (hfields : predicate.fields = predicate.expr.fields) {x : String} :
    predicate.check values = .error (.unknownField x) ↔
      predicate.fields.find? (fun name => !values.contains name) = some x := by
  unfold check
  constructor
  · intro h
    split at h
    · next hmissing =>
      cases h
      exact hmissing
    · next hnone =>
      have hall : ∀ f ∈ predicate.expr.fields, values.contains f = true := by
        rw [← hfields]
        simpa using hnone
      split at h
      · next heval =>
        cases h
        exact absurd heval (Expr.eval_ne_unknownField _ hall)
      · cases h
  · intro h
    simp only [h]

/-- A predicate's fields are the names in its text. It is refused for a field just if that is the
first one without a value, wherever it stands, and where all have values none is missing. -/
theorem check_refuses_first_unknown {text : String} {predicate : Predicate}
    (h : compile text = .ok predicate) :
    (∃ lexemes, Lexeme.tokenize (Text.trim text) = .ok lexemes ∧
      predicate.fields = (Grammar.names (Grammar.tokens lexemes)).eraseDups) ∧
    ∀ values : Values,
      (∀ x, predicate.check values = .error (.unknownField x) ↔
        ∃ before after, predicate.fields = before ++ x :: after ∧
          (∀ f ∈ before, f ∈ values.fields) ∧ x ∉ values.fields) ∧
      ((∀ f ∈ predicate.fields, f ∈ values.fields) →
        ∀ x, predicate.expr.eval values ≠ .error (.unknownField x)) := by
  obtain ⟨hparse, hfields⟩ := compile_eq_ok h
  refine ⟨fields_eq_names h, fun values => ⟨fun x => ?_, fun hall x => ?_⟩⟩
  · rw [check_eq_unknownField hfields, List.find?_eq_some_iff_append]
    simp only [Values.mem_fields]
    constructor
    · rintro ⟨hx, before, after, hsplit, hbefore⟩
      exact ⟨before, after, hsplit, fun f hf => by simpa using hbefore f hf, by simpa using hx⟩
    · rintro ⟨before, after, hsplit, hbefore, hx⟩
      exact ⟨by simpa using hx, before, after, hsplit, fun f hf => by simpa using hbefore f hf⟩
  · rw [hfields] at hall
    exact Expr.eval_ne_unknownField _ fun f hf => Values.mem_fields.mp (hall f hf)

/-- A field without a value behind what decides already, in a list, is refused all the same. -/
theorem check_refuses_undecided :
    ∃ predicate, compile " a && !(b in ['x', c, d]) " = .ok predicate ∧
      predicate.check ⟨[("a", .bool false), ("b", .null)]⟩ = .error (.unknownField "c") := by
  have hcompile : compile " a && !(b in ['x', c, d]) " =
      .ok ⟨"a && !(b in ['x', c, d])", .and (.field "a") (.unary .not (.binary .isIn (.field "b")
        (.list [.text "x", .field "c", .field "d"]))), ["a", "b", "c", "d"]⟩ := by cbv
  refine ⟨_, hcompile, ?_⟩
  obtain ⟨_, hcheck⟩ := check_refuses_first_unknown hcompile
  exact ((hcheck ⟨[("a", .bool false), ("b", .null)]⟩).1 "c").mpr
    ⟨["a", "b"], ["d"], rfl, by decide, by decide⟩

end Predicate

end Questlog
