import Mathlib
import Questlog.Operand.Comparison
import Questlog.Proofs.Text.UnitOrder

namespace Questlog.Operand

open Text (crosses units)

variable {a b : Operand} {s t : String}

/-- Operands that become texts are ordered as the texts, by characters. -/
theorem compare?_of_primitive (ha : a.primitive = text s) (hb : b.primitive = text t) :
    a.compare? b = some (compare s t) := by
  rw [compare?, ha, hb]

/-- Texts, and lists as their texts, are in the order of their code units unless the first different
characters straddle the surrogates; then they are in the opposite order. -/
theorem compare?_eq_units_iff (ha : a.primitive = text s) (hb : b.primitive = text t) :
    (a.compare? b = some (compare (units s) (units t)) ↔ crosses s.toList t.toList = false) ∧
    (crosses s.toList t.toList = true →
      a.compare? b = some (compare (units s) (units t)).swap) := by
  have horder := Text.compare_flatMap_unitsOf s.toList t.toList
  rw [compare?_of_primitive ha hb, Text.compare_toList]
  unfold units
  cases hcrosses : crosses s.toList t.toList with
  | false =>
    rw [hcrosses, if_neg Bool.false_ne_true] at horder
    rw [horder]
    exact ⟨iff_of_true rfl rfl, fun h => absurd h Bool.false_ne_true⟩
  | true =>
    rw [hcrosses, if_pos rfl] at horder
    rw [horder, Ordering.swap_swap]
    refine ⟨iff_of_false (fun hsame => ?_) Bool.noConfusion, fun _ => rfl⟩
    have heq : compare s.toList t.toList = .eq := by
      cases hcompare : compare s.toList t.toList with
      | eq => rfl
      | lt | gt => rw [hcompare] at hsame; cases hsame
    exact Text.ne_of_crosses hcrosses (Std.LawfulEqOrd.eq_of_compare heq)

/-- An operand of another kind, whose text is the one that is compared. -/
theorem compare?_eq_units_iff_mixed :
    (list [text "｡", null]).primitive = text "｡," ∧ (text "😀").primitive = text "😀" ∧
    ((list [text "｡", null]).compare? (text "😀") = some (compare (units "｡,") (units "😀")) ↔
      crosses "｡,".toList "😀".toList = false) ∧
    (crosses "｡,".toList "😀".toList = true →
      (list [text "｡", null]).compare? (text "😀") =
        some (compare (units "｡,") (units "😀")).swap) := by
  have hlist : (list [text "｡", null]).primitive = text "｡," := rfl
  have htext : (text "😀").primitive = text "😀" := rfl
  exact ⟨hlist, htext, compare?_eq_units_iff hlist htext⟩

/-- A text that starts behind the surrogates comes before one that starts with a pair of them, although
its units come later. -/
theorem compare?_opposes_units :
    (text "｡").compare? (text "😀") = some .lt ∧ compare (units "｡") (units "😀") = .gt := by
  decide

end Questlog.Operand
