import Questlog.Proofs.Expression.Predicate

namespace Questlog

/-- Two records give each of some fields the same value, or both give it none. -/
def Values.AgreeOn (fields : List String) (values values' : Values) : Prop :=
  ∀ field ∈ fields, values.get? field = values'.get? field

variable {values values' : Values}

namespace Values.AgreeOn

variable {fields fewer : List String}

/-- Agreeing on some fields is agreeing on fewer. -/
theorem mono (h : AgreeOn fields values values') (hsubset : fewer ⊆ fields) :
    AgreeOn fewer values values' :=
  fun field hfield => h field (hsubset hfield)

theorem contains_eq (h : AgreeOn fields values values') {field : String} (hfield : field ∈ fields) :
    values.contains field = values'.contains field := by
  rw [contains, contains, h field hfield]

/-- The first field without a value is the same one in both records. -/
theorem find_missing_eq (h : AgreeOn fields values values') :
    fields.find? (fun name => !values.contains name) =
      fields.find? (fun name => !values'.contains name) := by
  induction fields with
  | nil => rfl
  | cons field rest ih =>
    have hhead := h.contains_eq (List.mem_cons_self ..)
    have hrest := ih (h.mono (List.subset_cons_self field rest))
    simp only [List.find?_cons, hhead, hrest]

end Values.AgreeOn

namespace Expr

open Values (AgreeOn)

-- The lists of fields grow from left to right, so what agrees on the fields at the end of a node
-- agrees on those of each of its parts.
mutual

/-- An expression reads its own fields and no others. -/
theorem eval_congr {found : List String} :
    ∀ e : Expr, AgreeOn (e.collectFields found) values values' → e.eval values = e.eval values'
  | .number _, _ => rfl
  | .text _, _ => rfl
  | .field name, h => by
    have hname := h name (mem_note found name)
    rw [eval, eval, hname]
  | .list items, h => by
    have hitems := evalItems_congr items h
    rw [eval, eval, hitems]
  | .unary _ operand, h => by
    have hoperand := eval_congr operand h
    rw [eval, eval, hoperand]
  | .binary _ left right, h => by
    have hleft := eval_congr left (of_collectFields right h)
    have hright := eval_congr right h
    rw [eval, eval, hleft, hright]
  | .and left right, h => by
    have hleft := eval_congr left (of_collectFields right h)
    have hright := eval_congr right h
    rw [eval, eval, hleft, hright]
  | .or left right, h => by
    have hleft := eval_congr left (of_collectFields right h)
    have hright := eval_congr right h
    rw [eval, eval, hleft, hright]

theorem evalItems_congr {found : List String} : ∀ es : List Expr,
    AgreeOn (collectFieldsOfItems found es) values values' →
      evalItems values es = evalItems values' es
  | [], _ => rfl
  | item :: rest, h => by
    have hitem := eval_congr item (of_collectFieldsOfItems rest h)
    have hrest := evalItems_congr rest h
    rw [evalItems, evalItems, hitem, hrest]

end

end Expr

namespace Predicate

/-- A compiled condition is tested against its fields alone, the check for missing ones included. -/
theorem test_congr {text : String} {predicate : Predicate} (hcompile : compile text = .ok predicate)
    (h : Values.AgreeOn predicate.fields values values') :
    predicate.test values = predicate.test values' := by
  obtain ⟨_, hfields⟩ := compile_eq_ok hcompile
  have heval : predicate.expr.eval values = predicate.expr.eval values' := by
    apply Expr.eval_congr
    rw [hfields] at h
    exact h
  rw [test, test, check, check, h.find_missing_eq, heval]

end Predicate

end Questlog
