import Questlog.Proofs.Expression.Grammar

namespace Questlog.Grammar

open Questlog.Expr

/-- The names among some words, in order. -/
def names (ts : List Token) : List String :=
  ts.filterMap fun
    | .name s => some s
    | _ => none

theorem names_nil : names [] = [] := rfl

theorem names_append (ts us : List Token) : names (ts ++ us) = names ts ++ names us :=
  List.filterMap_append

theorem names_symbol (s : Symbol) (ts : List Token) : names (.symbol s :: ts) = names ts := rfl

/-- The fields of two expressions that are joined: those on the left first. -/
theorem collectFields_join (found : List String) (c : Connective) (left right : Expr) :
    (c.join left right).collectFields found = right.collectFields (left.collectFields found) := by
  cases c <;> rfl

mutual

/-- The fields of a phrase are collected in the order in which its names stand. -/
theorem Phrase.collectFields_eq {level n : Nat} {ts : List Token} {e : Expr} :
    Phrase level ts e n → ∀ found, e.collectFields found = (names ts).foldl note found
  | .chain _ _ hfirst htail, found => by
    rw [htail.collectFields_eq, hfirst.collectFields_eq, names_append, List.foldl_append]
  | .number _, _ => rfl
  | .text _, _ => rfl
  | .name _, _ => rfl
  | .unary _ h, found => h.collectFields_eq found
  | .parens h, found => by
    rw [h.collectFields_eq, List.cons_append, names_symbol, names_append, names_symbol, names_nil,
      List.append_nil]
  | .list h, found => h.collectFields_eq found

theorem Tail.collectFields_eq {level n m : Nat} {left e : Expr} {ts : List Token} :
    Tail level left n ts e m → ∀ found,
      e.collectFields found = (names ts).foldl note (left.collectFields found)
  | .done, _ => rfl
  | .more _ hright hrest, found => by
    rw [hrest.collectFields_eq, collectFields_join, hright.collectFields_eq, List.cons_append,
      names_symbol, names_append, List.foldl_append]

theorem Items.collectFields_eq {ts : List Token} {es : List Expr} {n : Nat} :
    Items ts es n → ∀ found, collectFieldsOfItems found es = (names ts).foldl note found
  | .close, _ => rfl
  | .last h, found => by
    rw [collectFieldsOfItems, collectFieldsOfItems, h.collectFields_eq, names_append, names_symbol,
      names_nil, List.append_nil]
  | .more h hrest, found => by
    rw [collectFieldsOfItems, hrest.collectFields_eq, h.collectFields_eq, names_append,
      names_symbol, List.foldl_append]

end

/-- Noting names one after the other keeps each at its first place. -/
theorem foldl_note_eq_eraseDups (ns : List String) : ns.foldl note [] = ns.eraseDups := by
  have hloop : ∀ (ns found : List String),
      List.eraseDupsBy.loop (· == ·) ns found = ns.foldl note found.reverse := by
    intro ns
    induction ns with
    | nil => intro found; rfl
    | cons s ns ih =>
      intro found
      rw [List.eraseDupsBy.loop, List.foldl_cons, note]
      by_cases hmem : s ∈ found
      · have hany : found.any (s == ·) = true := List.any_eq_true.mpr ⟨s, hmem, beq_self_eq_true s⟩
        simp only [hany, List.mem_reverse, if_pos hmem]
        exact ih found
      · have hany : found.any (s == ·) = false := by
          rw [List.any_eq_false]
          rintro t ht heq
          exact hmem (eq_of_beq heq ▸ ht)
        simp only [hany, List.mem_reverse, if_neg hmem]
        rw [ih, List.reverse_cons]
  exact (hloop ns []).symm

end Questlog.Grammar

namespace Questlog.Expr

theorem subset_note (found : List String) (name : String) : found ⊆ note found name := by
  unfold note
  split
  · exact fun _ h => h
  · exact List.subset_append_left found [name]

theorem mem_note (found : List String) (name : String) : name ∈ note found name := by
  unfold note
  split
  · assumption
  · simp

mutual

/-- No field that was found is lost. -/
theorem subset_collectFields (found : List String) : ∀ e : Expr, found ⊆ e.collectFields found
  | .number _ => fun _ h => h
  | .text _ => fun _ h => h
  | .field name => subset_note found name
  | .list items => subset_collectFieldsOfItems found items
  | .unary _ operand => subset_collectFields found operand
  | .binary _ left right | .and left right | .or left right =>
    fun _ h => subset_collectFields _ right (subset_collectFields found left h)

theorem subset_collectFieldsOfItems (found : List String) :
    ∀ es : List Expr, found ⊆ collectFieldsOfItems found es
  | [] => fun _ h => h
  | item :: rest => fun _ h =>
    subset_collectFieldsOfItems _ rest (subset_collectFields found item h)

end

end Questlog.Expr
