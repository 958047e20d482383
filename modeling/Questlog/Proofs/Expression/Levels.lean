import Questlog.Proofs.Expression.Grammar

namespace Questlog.Expr

/-- The connective of a level that a token is. -/
def connectiveAt? (level : Nat) (token : Token) : Option Connective :=
  match connectiveOf? token with
  | some (l, connective) => if l = level then some connective else none
  | none => none

/-- Goes on with a chain of operands of one level, to the left of which stands `left`. -/
def readChain (level : Nat) (operand : TreeReader) (outer : List Lexeme) (left : Subtree)
    (input : List Lexeme) (hinput : input.length < outer.length) :
    Except CompileError (Reading Subtree outer) :=
  match input with
  | [] => .ok ⟨left, [], hinput⟩
  | lexeme :: rest =>
    match connectiveAt? level lexeme.token with
    | none => .ok ⟨left, lexeme :: rest, hinput⟩
    | some connective =>
      match operand rest with
      | .error e => .error e
      | .ok ⟨right, more, hmore⟩ =>
        match deepen (max left.depth right.depth) lexeme.position with
        | .error e => .error e
        | .ok depth =>
          readChain level operand outer ⟨connective.join left.expr right.expr, depth⟩ more
            (by simp only [List.length_cons] at hinput; omega)
termination_by input.length

/-- Reads a chain of operands joined by the connectives of one level. -/
def readLevel (level : Nat) (operand : TreeReader) : TreeReader := fun input =>
  match operand input with
  | .error e => .error e
  | .ok ⟨left, rest, hrest⟩ => readChain level operand input left rest hrest

/-- Reads an expression of all six levels over the given operands. -/
def readLevels (operand : TreeReader) : TreeReader :=
  readLevel 1 (readLevel 2 (readLevel 3 (readLevel 4 (readLevel 5 (readLevel 6 operand)))))

/-- Whether a phrase of a level may end before some lexemes: none of its levels goes on there. -/
def Ends (level : Nat) (rest : List Lexeme) : Prop :=
  ∀ lexeme more, rest = lexeme :: more → ∀ other, level ≤ other →
    connectiveAt? other lexeme.token = none

/-- A token that is no connective is none of any level. -/
theorem connectiveAt?_of_none {token : Token} (h : connectiveOf? token = none) (level : Nat) :
    connectiveAt? level token = none := by
  rw [connectiveAt?, h]

/-- A connective is of one level only. -/
theorem connectiveAt?_of_ne {token : Token} {level other : Nat} {c : Connective}
    (h : connectiveOf? token = some (level, c)) (hne : level ≠ other) :
    connectiveAt? other token = none := by
  rw [connectiveAt?, h]
  exact if_neg hne

theorem connectiveAt?_self {token : Token} {level : Nat} {c : Connective}
    (h : connectiveOf? token = some (level, c)) : connectiveAt? level token = some c := by
  rw [connectiveAt?, h]
  exact if_pos rfl

/-- The connectives have the levels one to six. -/
theorem connectiveOf?_level {token : Token} {level : Nat} {c : Connective}
    (h : connectiveOf? token = some (level, c)) : 1 ≤ level ∧ level ≤ 6 := by
  cases token with
  | symbol s =>
    have hmem := Grammar.mem_connectives.mpr h
    unfold Grammar.connectives at hmem
    split at hmem <;> simp at hmem ⊢
  | _ => cases h

theorem connectiveAt?_outside {level : Nat} (h : level = 0 ∨ 6 < level) (token : Token) :
    connectiveAt? level token = none := by
  cases hc : connectiveOf? token with
  | none => exact connectiveAt?_of_none hc level
  | some found =>
    have hlevel := connectiveOf?_level hc
    exact connectiveAt?_of_ne hc (by omega)

/-- The connectives of a level, as the grammar lists them. -/
theorem connectiveAt?_eq_some {level : Nat} {t : Token} {c : Connective} :
    connectiveAt? level t = some c ↔ ∃ s, t = .symbol s ∧ (s, c) ∈ Grammar.connectives level := by
  cases t with
  | symbol s =>
    simp only [connectiveAt?, connectiveOf?, Token.symbol.injEq, exists_eq_left', Grammar.mem_connectives]
    cases connective? s with
    | none => simp
    | some found =>
      obtain ⟨l, c'⟩ := found
      by_cases hl : l = level <;> simp [hl]
  | _ => simp [connectiveAt?, connectiveOf?]

theorem ends_nil (level : Nat) : Ends level [] := by
  rintro lexeme more ⟨⟩

theorem ends_cons {level : Nat} {lexeme : Lexeme} {more : List Lexeme}
    (h : ∀ other, level ≤ other → connectiveAt? other lexeme.token = none) :
    Ends level (lexeme :: more) := by
  rintro _ _ ⟨⟩
  exact h

theorem Ends.weaken {level : Nat} {rest : List Lexeme} (h : Ends level rest) :
    Ends (level + 1) rest :=
  fun lexeme more heq other hle => h lexeme more heq other (Nat.le_of_succ_le hle)

/-- A chain stops where its level ends. -/
theorem readChain_of_ends {level : Nat} {operand : TreeReader} {outer input : List Lexeme}
    {left : Subtree} {hinput : input.length < outer.length} (h : Ends level input) :
    readChain level operand outer left input hinput = .ok ⟨left, input, hinput⟩ := by
  cases input with
  | nil => rw [readChain]
  | cons lexeme rest =>
    rw [readChain]
    simp only [h lexeme rest rfl level (Nat.le_refl level)]

/-- No connective has the level zero. -/
theorem readLevel_zero (operand : TreeReader) : readLevel 0 operand = operand := by
  funext input
  unfold readLevel
  cases operand input with
  | error e => rfl
  | ok reading =>
    obtain ⟨left, rest, hrest⟩ := reading
    cases rest with
    | nil => simp only [readChain]
    | cons lexeme rest => simp only [readChain, connectiveAt?_outside (.inl rfl)]

end Questlog.Expr
