import Questlog.Proofs.Expression.Climbing

namespace Questlog.Grammar

open Questlog.Expr

/-- A reading goes as the limits have it: within them it gives the value and the rest, and else it
stops because of the nesting. Beyond the limits it is refused because of its nesting and for no
other reason. -/
structure Settles {α τ : Type} {input : List τ} (result : Except CompileError (Reading α input))
    (fits : Prop) (value : α) (rest : List τ) : Prop where
  accepted : fits → ∃ h, result = .ok ⟨value, rest, h⟩
  refused : ¬fits → ∃ limit depth position,
    result = .error (.nestingTooDeep limit depth position)

section After

variable {α β σ τ : Type} {input : List σ} {input' : List τ} {fits fits' : Prop} {value : α}
  {rest : List σ} {value' : β} {rest' : List τ} {whole : Except CompileError (Reading β input')}

/-- A reading that stops where its first part stops, and goes on with what that accepts. -/
theorem Settles.after {first : Except CompileError (Reading α input)}
    (h : Settles first fits value rest) (hfits : fits' → fits)
    (hrefuse : ∀ e, first = .error e → whole = .error e)
    (haccept : fits → ∀ hmore, first = .ok ⟨value, rest, hmore⟩ →
      Settles whole fits' value' rest') : Settles whole fits' value' rest' := by
  by_cases hfirst : fits
  · obtain ⟨hmore, hread⟩ := h.accepted hfirst
    exact haccept hfirst hmore hread
  · obtain ⟨limit, depth, position, hread⟩ := h.refused hfirst
    exact ⟨fun hwhole => absurd (hfits hwhole) hfirst,
      fun _ => ⟨limit, depth, position, hrefuse _ hread⟩⟩

/-- The same for the depth of a node. -/
theorem Settles.afterDeepen (depth position : Nat) (hfits : fits' → depth + 1 ≤ maxDepth)
    (hrefuse : ∀ e, deepen depth position = .error e → whole = .error e)
    (haccept : depth + 1 ≤ maxDepth → deepen depth position = .ok (depth + 1) →
      Settles whole fits' value' rest') : Settles whole fits' value' rest' := by
  by_cases hdepth : depth + 1 ≤ maxDepth
  · exact haccept hdepth (if_neg (by omega))
  · have hread : deepen depth position = .error (.nestingTooDeep maxDepth (depth + 1) position) :=
      if_pos (by omega)
    exact ⟨fun hwhole => absurd (hfits hwhole) hdepth, fun _ => ⟨_, _, _, hrefuse _ hread⟩⟩

end After

/-- A reader takes every phrase of the level that ends where it may. -/
def CompleteReader (reader : TreeReader) (level room : Nat) : Prop :=
  ∀ used e n rest, Phrase level (tokens used) e n → Ends level rest →
    Settles (reader (used ++ rest)) (n ≤ room ∧ e.depth ≤ maxDepth) ⟨e, e.depth⟩ rest

/-- A tighter phrase may end where a chain goes on. -/
theorem Tail.ends {level n m : Nat} {left e : Expr} {used rest : List Lexeme}
    (h : Tail level left n (tokens used) e m) (hrest : Ends level rest) :
    Ends (level + 1) (used ++ rest) := by
  generalize hts : tokens used = ts at h
  cases h with
  | done =>
    obtain rfl : used = [] := List.map_eq_nil_iff.mp hts
    exact hrest.weaken
  | more hmem _ _ =>
    obtain ⟨position, used', rfl, _⟩ := tokens_eq_cons hts
    refine ends_cons fun other hle => ?_
    exact connectiveAt?_of_ne (mem_connectives.mp hmem) (by omega)

/-- A chain is gone on with as far as its tail reaches. -/
theorem readChain_complete {level room : Nat} {operand : TreeReader}
    (hoperand : CompleteReader operand (level + 1) room) {n m : Nat} {left e : Expr}
    {ts : List Token} (htail : Tail level left n ts e m) (hn : n ≤ room)
    (hdepth : left.depth ≤ maxDepth) {used rest input outer : List Lexeme}
    (hinput : input.length < outer.length) (hts : tokens used = ts) (hsplit : input = used ++ rest)
    (hends : Ends level rest) :
    Settles (readChain level operand outer ⟨left, left.depth⟩ input hinput)
      (m ≤ room ∧ e.depth ≤ maxDepth) ⟨e, e.depth⟩ rest := by
  induction htail using Tail.along generalizing used input with
  | done left n =>
    obtain rfl : used = [] := List.map_eq_nil_iff.mp hts
    obtain rfl : input = rest := hsplit
    exact ⟨fun _ => ⟨hinput, readChain_of_ends hends⟩, fun h => absurd ⟨hn, hdepth⟩ h⟩
  | @more n k m s c _ _ left right e hmem hright htail ih =>
    obtain ⟨position, used', rfl, hused⟩ := tokens_eq_cons hts
    obtain ⟨first, second, rfl, rfl, rfl⟩ := tokens_eq_append hused
    obtain ⟨hcount, hdeep⟩ := htail.mono
    rw [depth_join] at hdeep
    have hconnective : connectiveAt? level (.symbol s) = some c :=
      connectiveAt?_eq_some.mpr ⟨s, rfl, hmem⟩
    have hoperand' := hoperand first right k (second ++ rest) hright (htail.ends hends)
    obtain rfl : input = ⟨.symbol s, position⟩ :: (first ++ (second ++ rest)) := by
      simpa using hsplit
    rw [readChain]
    simp only [hconnective]
    refine hoperand'.after (fun h => by omega) (fun e he => by simp only [he]) ?_
    intro hfits hmore hread
    simp only [hread]
    refine Settles.afterDeepen (max left.depth right.depth) position (fun h => by omega)
      (fun e he => by simp only [he]) ?_
    intro hjoin hdeepen
    simp only [hdeepen]
    have hnext := ih (Nat.max_le.mpr ⟨hn, hfits.1⟩) ((depth_join c left right).symm ▸ hjoin)
      (Nat.lt_trans hmore (Nat.lt_of_succ_lt hinput)) rfl rfl
    rwa [depth_join] at hnext

/-- A level is complete if the next one is. -/
theorem readLevel_complete {level room : Nat} {operand : TreeReader} (hlevel : level ≠ 7)
    (hoperand : CompleteReader operand (level + 1) room) :
    CompleteReader (readLevel level operand) level room := by
  intro used e n rest hphrase hends
  generalize hts : tokens used = ts at hphrase
  cases hphrase with
  | @chain _ k _ _ _ first _ _ _ hfirst htail =>
    obtain ⟨front, back, rfl, rfl, rfl⟩ := tokens_eq_append hts
    obtain ⟨hcount, hdeep⟩ := htail.mono
    have hfront := hoperand front first k (back ++ rest) hfirst (htail.ends hends)
    rw [List.append_assoc, readLevel]
    refine hfront.after (fun h => by omega) (fun e he => by simp only [he]) ?_
    intro hfits hmore hread
    simp only [hread]
    exact readChain_complete hoperand htail hfits.1 hfits.2 hmore rfl rfl hends
  | _ => exact absurd rfl hlevel

/-- All levels are complete if reading operands is. -/
theorem readExpression_complete {room : Nat} {operand : TreeReader}
    (hoperand : CompleteReader operand 7 room) :
    CompleteReader (readExpression 0 operand) 1 room := by
  rw [readExpression_zero]
  have h6 := readLevel_complete (by decide) hoperand
  have h5 := readLevel_complete (by decide) h6
  have h4 := readLevel_complete (by decide) h5
  have h3 := readLevel_complete (by decide) h4
  have h2 := readLevel_complete (by decide) h3
  exact readLevel_complete (by decide) h2

end Questlog.Grammar
