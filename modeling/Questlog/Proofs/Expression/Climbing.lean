import Questlog.Proofs.Expression.Levels

namespace Questlog.Expr

variable {operand : TreeReader} {outer : List Lexeme} {least : Nat} {left : Subtree}

theorem length_lt_of_cons {τ : Type} {first : τ} {more rest outer : List τ}
    (hmore : more.length < rest.length) (h : (first :: rest).length < outer.length) :
    more.length < outer.length :=
  Nat.lt_trans hmore (Nat.lt_of_succ_lt h)

/-- Climbing over a connective that is high enough. -/
theorem climb_cons {lexeme : Lexeme} {rest : List Lexeme}
    {hinput : (lexeme :: rest).length < outer.length} {level : Nat} {c : Connective}
    (hc : connectiveOf? lexeme.token = some (level, c)) (hle : least ≤ level) :
    climb operand outer least left (lexeme :: rest) hinput =
      match readExpression (level + 1) operand rest with
      | .error e => .error e
      | .ok ⟨right, more, hmore⟩ =>
        match deepen (max left.depth right.depth) lexeme.position with
        | .error e => .error e
        | .ok depth =>
          climb operand outer least ⟨c.join left.expr right.expr, depth⟩ more
            (length_lt_of_cons hmore hinput) := by
  rw [climb, readExpression]
  simp only [hc, if_neg (Nat.not_lt.mpr hle)]
  cases operand rest with
  | error e => rfl
  | ok reading => rfl

/-- Climbing stops where no such connective stands. -/
theorem climb_of_ends {input : List Lexeme} {hinput : input.length < outer.length}
    (h : Ends least input) :
    climb operand outer least left input hinput = .ok ⟨left, input, hinput⟩ := by
  cases input with
  | nil => rw [climb]
  | cons lexeme rest =>
    rw [climb]
    cases hc : connectiveOf? lexeme.token with
    | none => rfl
    | some found =>
      obtain ⟨level, c⟩ := found
      have hlt : level < least := by
        refine Nat.lt_of_not_le fun hle => ?_
        have hnone := h lexeme rest rfl level hle
        rw [connectiveAt?_self hc] at hnone
        cases hnone
      exact if_pos hlt

/-- Climbing stops only where it may. -/
theorem climb_ends {input : List Lexeme} {hinput : input.length < outer.length} {subtree : Subtree}
    {rest : List Lexeme} {h : rest.length < outer.length}
    (hread : climb operand outer least left input hinput = .ok ⟨subtree, rest, h⟩) :
    Ends least rest := by
  fun_induction climb operand outer least left input hinput with
  | case1 =>
    cases hread
    exact ends_nil _
  | case2 outer least left lexeme rest' hinput hnone =>
    cases hread
    exact ends_cons fun other _ => connectiveAt?_of_none hnone other
  | case3 outer least left lexeme rest' hinput level c hc hlt =>
    cases hread
    exact ends_cons fun other hle => connectiveAt?_of_ne hc (by omega)
  | case4 | case5 | case6 => cases hread
  | case7 _ _ _ _ _ _ _ _ _ _ _ _ _ _ _ _ _ _ _ _ _ _ ih => exact ih hread

/-- No connective of the level is left behind an expression. -/
theorem readExpression_ends {input : List Lexeme} {subtree : Subtree} {rest : List Lexeme}
    {h : rest.length < input.length}
    (hread : readExpression least operand input = .ok ⟨subtree, rest, h⟩) : Ends least rest := by
  unfold readExpression at hread
  split at hread
  · cases hread
  · exact climb_ends hread

/-- Climbing from a level is climbing from the next one and then going on with a chain. -/
theorem climb_eq_readChain (level : Nat) (left : Subtree) (input : List Lexeme)
    (hinput : input.length < outer.length) : climb operand outer level left input hinput =
      match climb operand outer (level + 1) left input hinput with
      | .error e => .error e
      | .ok ⟨left, rest, hrest⟩ =>
        readChain level (readExpression (level + 1) operand) outer left rest hrest := by
  have stop (left : Subtree) (input : List Lexeme) (hinput : input.length < outer.length)
      (h : Ends level input) : climb operand outer level left input hinput =
        match climb operand outer (level + 1) left input hinput with
        | .error e => .error e
        | .ok ⟨left, rest, hrest⟩ =>
          readChain level (readExpression (level + 1) operand) outer left rest hrest := by
    rw [climb_of_ends h, climb_of_ends h.weaken]
    exact (readChain_of_ends h).symm
  induction hlength : input.length using Nat.strongRecOn generalizing left input with
  | ind length ih =>
    cases input with
    | nil => exact stop left [] hinput (ends_nil level)
    | cons lexeme rest =>
      cases hc : connectiveOf? lexeme.token with
      | none =>
        exact stop left _ hinput (ends_cons fun other _ => connectiveAt?_of_none hc other)
      | some found =>
        obtain ⟨other, c⟩ := found
        rcases Nat.lt_trichotomy other level with hlt | rfl | hgt
        · exact stop left _ hinput (ends_cons fun l hl => connectiveAt?_of_ne hc (by omega))
        · -- The tighter climb stops here at once, and the chain takes the connective.
          have hends : Ends (other + 1) (lexeme :: rest) :=
            ends_cons fun l hl => connectiveAt?_of_ne hc (by omega)
          rw [climb_of_ends hends, climb_cons hc (Nat.le_refl _)]
          simp only [readChain, connectiveAt?_self hc]
          cases hright : readExpression (other + 1) operand rest with
          | error e => rfl
          | ok reading =>
            obtain ⟨right, more, hmore⟩ := reading
            cases hdeep : deepen (max left.depth right.depth) lexeme.position with
            | error e => simp only [hdeep]
            | ok depth =>
              simp only [hdeep]
              have hshort : more.length < length := by
                simp only [List.length_cons] at hlength
                omega
              rw [ih more.length hshort _ more _ rfl, climb_of_ends (readExpression_ends hright)]
        · rw [climb_cons hc (Nat.le_of_lt hgt), climb_cons hc hgt]
          cases readExpression (other + 1) operand rest with
          | error e => rfl
          | ok reading =>
            obtain ⟨right, more, hmore⟩ := reading
            cases hdeep : deepen (max left.depth right.depth) lexeme.position with
            | error e => simp only [hdeep]
            | ok depth =>
              simp only [hdeep]
              have hshort : more.length < length := by
                simp only [List.length_cons] at hlength
                omega
              exact ih more.length hshort _ more _ rfl

/-- Climbing over connectives by their levels reads the same as reading level by level. -/
theorem readExpression_eq_readLevel (level : Nat) (operand : TreeReader) :
    readExpression level operand = readLevel level (readExpression (level + 1) operand) := by
  funext input
  unfold readLevel
  rw [readExpression, readExpression]
  cases operand input with
  | error e => rfl
  | ok reading =>
    obtain ⟨left, rest, hrest⟩ := reading
    exact climb_eq_readChain level left rest hrest

/-- Above the levels of all connectives stand single operands. -/
theorem readExpression_seven (operand : TreeReader) : readExpression 7 operand = operand := by
  funext input
  unfold readExpression
  cases operand input with
  | error e => rfl
  | ok reading =>
    obtain ⟨left, rest, hrest⟩ := reading
    refine climb_of_ends ?_
    rintro lexeme more rfl other hle
    exact connectiveAt?_outside (.inr hle) lexeme.token

/-- Climbing from the loosest connective reads all six levels. -/
theorem readExpression_zero (operand : TreeReader) :
    readExpression 0 operand = readLevels operand := by
  rw [readExpression_eq_readLevel, readLevel_zero, readLevels]
  simp only [Nat.reduceAdd]
  rw [readExpression_eq_readLevel 1, readExpression_eq_readLevel 2, readExpression_eq_readLevel 3,
    readExpression_eq_readLevel 4, readExpression_eq_readLevel 5, readExpression_eq_readLevel 6,
    readExpression_seven]

end Questlog.Expr
