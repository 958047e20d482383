import Questlog.Proofs.Expression.Climbing

namespace Questlog.Grammar

open Questlog.Expr

/-- A subtree that keeps the limits and knows its depth. -/
structure Fits (room : Nat) (subtree : Subtree) (n : Nat) : Prop where
  enclosed : n ≤ room
  depth_eq : subtree.depth = subtree.expr.depth
  depth_le : subtree.expr.depth ≤ maxDepth

/-- A node over a tree that fits is one deeper. -/
theorem Fits.node {room depth n : Nat} {expr node : Expr} (h : Fits room ⟨expr, depth⟩ n)
    (hnode : node.depth = expr.depth + 1) (hle : depth + 1 ≤ maxDepth) :
    Fits (room + 1) ⟨node, depth + 1⟩ (n + 1) := by
  have hdepth : depth = expr.depth := h.depth_eq
  refine ⟨Nat.succ_le_succ h.enclosed, ?_, ?_⟩
  · rw [hnode, hdepth]
  · rw [hnode, ← hdepth]
    exact hle

theorem leaf_fits {room : Nat} {leaf : Expr} (h : leaf.depth = 1) : Fits room ⟨leaf, 1⟩ 0 := by
  refine ⟨Nat.zero_le _, h.symm, ?_⟩
  rw [h]
  decide

/-- What a reader accepts is a phrase of the level, enclosed at most `room` times. These lexemes
make the tree that the reader gives, within both limits. -/
def SoundReader (reader : TreeReader) (level room : Nat) : Prop :=
  ∀ input subtree rest h, reader input = .ok ⟨subtree, rest, h⟩ →
    ∃ used n, input = used ++ rest ∧ Phrase level (tokens used) subtree.expr n ∧
      Fits room subtree n

/-- Going one deeper is allowed up to the limit. -/
theorem deepen_eq_ok {depth position result : Nat} (h : deepen depth position = .ok result) :
    result = depth + 1 ∧ depth + 1 ≤ maxDepth := by
  unfold deepen at h
  split at h
  · cases h
  · cases h
    exact ⟨rfl, by omega⟩

/-- What a chain goes on with is a tail of the level. -/
theorem readChain_sound {level room : Nat} {operand : TreeReader}
    (hoperand : SoundReader operand (level + 1) room) (outer : List Lexeme) (left : Subtree)
    (input : List Lexeme) (hinput : input.length < outer.length) {n : Nat}
    (hleft : Fits room left n) {subtree : Subtree} {rest : List Lexeme} {h : rest.length < outer.length}
    (hread : readChain level operand outer left input hinput = .ok ⟨subtree, rest, h⟩) :
    ∃ used m, input = used ++ rest ∧ Tail level left.expr n (tokens used) subtree.expr m ∧
      Fits room subtree m := by
  fun_induction readChain level operand outer left input hinput generalizing n with
  | case1 left hinput =>
    cases hread
    exact ⟨[], n, rfl, .done, hleft⟩
  | case2 left lexeme rest' hinput hnone =>
    cases hread
    exact ⟨[], n, rfl, .done, hleft⟩
  | case3 => cases hread
  | case4 => cases hread
  | case5 left lexeme rest' hinput c hc right more hmore hright depth hdepth _ ih =>
    obtain ⟨used, m, rfl, hphrase, hfits⟩ := hoperand _ _ _ _ hright
    obtain ⟨rfl, hle⟩ := deepen_eq_ok hdepth
    obtain ⟨s, hs, hmem⟩ := connectiveAt?_eq_some.mp hc
    have hjoin : Fits room ⟨c.join left.expr right.expr, max left.depth right.depth + 1⟩
        (max n m) := by
      refine ⟨Nat.max_le.mpr ⟨hleft.enclosed, hfits.enclosed⟩, ?_, ?_⟩
      · rw [depth_join, hleft.depth_eq, hfits.depth_eq]
      · rw [depth_join, ← hleft.depth_eq, ← hfits.depth_eq]
        exact hle
    obtain ⟨used', k, rfl, htail, hend⟩ := ih hjoin hread
    refine ⟨lexeme :: used ++ used', k, by simp, ?_, hend⟩
    rw [List.cons_append, tokens_cons, tokens_append, hs]
    exact .more hmem hphrase htail

/-- A level is sound if the next one is. -/
theorem readLevel_sound {level room : Nat} {operand : TreeReader} (hlow : 1 ≤ level)
    (hhigh : level ≤ 6) (hoperand : SoundReader operand (level + 1) room) :
    SoundReader (readLevel level operand) level room := by
  intro input subtree rest h hread
  unfold readLevel at hread
  split at hread
  · cases hread
  · next left rest' hrest hleft =>
    obtain ⟨used, n, rfl, hphrase, hfits⟩ := hoperand _ _ _ _ hleft
    obtain ⟨used', m, rfl, htail, hend⟩ := readChain_sound hoperand _ _ _ _ hfits hread
    refine ⟨used ++ used', m, (List.append_assoc _ _ _).symm, ?_, hend⟩
    rw [tokens_append]
    exact .chain hlow hhigh hphrase htail

/-- All levels are sound if reading operands is. -/
theorem readExpression_sound {room : Nat} {operand : TreeReader}
    (hoperand : SoundReader operand 7 room) : SoundReader (readExpression 0 operand) 1 room := by
  rw [readExpression_zero]
  have h6 := readLevel_sound (by decide) (by decide) hoperand
  have h5 := readLevel_sound (by decide) (by decide) h6
  have h4 := readLevel_sound (by decide) (by decide) h5
  have h3 := readLevel_sound (by decide) (by decide) h4
  have h2 := readLevel_sound (by decide) (by decide) h3
  exact readLevel_sound (by decide) (by decide) h2

end Questlog.Grammar
