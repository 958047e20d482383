import Questlog.Proofs.Expression.Completeness.Chain
import Questlog.Proofs.Expression.Operands

namespace Questlog.Grammar

open Questlog.Expr

/-- No phrase starts with the bracket that closes a list. -/
theorem Phrase.head_ne {level k n : Nat} {ts : List Token} {e : Expr} (hseven : level + k = 7)
    (h : Phrase level ts e n) : ∃ t more, ts = t :: more ∧ t ≠ .symbol .closeBracket := by
  induction k generalizing level ts e n with
  | zero =>
    obtain rfl : level = 7 := hseven
    cases h with
    | chain _ hlevel _ _ => exact absurd hlevel (by decide)
    | unary hop _ =>
      refine ⟨_, _, rfl, ?_⟩
      rintro ⟨⟩
      simp [prefixes] at hop
    | number | text | name | parens | list => exact ⟨_, _, rfl, by simp⟩
  | succ k ih =>
    cases h with
    | chain _ _ hfirst _ =>
      obtain ⟨t, more, rfl, ht⟩ := ih (by omega) hfirst
      exact ⟨t, _, rfl, ht⟩
    | _ => omega

theorem behind?_self (s : Symbol) (position : Nat) (rest : List Lexeme) :
    behind? s (⟨.symbol s, position⟩ :: rest) = some ⟨rest, Nat.lt_succ_self _⟩ := by
  simp [behind?]

theorem behind?_of_ne {s : Symbol} {lexeme : Lexeme} (h : lexeme.token ≠ .symbol s)
    (rest : List Lexeme) : behind? s (lexeme :: rest) = none := by
  obtain ⟨token, position⟩ := lexeme
  cases token with
  | symbol t =>
    have ht : t ≠ s := fun heq => h (heq ▸ rfl)
    simp [behind?, ht]
  | _ => rfl

/-- A phrase does not start with a closing bracket. -/
theorem behind?_of_phrase {n : Nat} {used : List Lexeme} {e : Expr}
    (h : Phrase 1 (tokens used) e n) (rest : List Lexeme) :
    behind? .closeBracket (used ++ rest) = none := by
  obtain ⟨t, more, hts, ht⟩ := h.head_ne (k := 6) rfl
  obtain ⟨position, used', rfl, _⟩ := tokens_eq_cons hts
  exact behind?_of_ne ht _

/-- The items of a list are read to their closing bracket. -/
theorem readItems_complete {room : Nat} {item : TreeReader} (hitem : CompleteReader item 1 room)
    (stop : Nat) {ts : List Token} {es : List Expr} {n : Nat} (hitems : Items ts es n)
    (acc : List Expr) (depth : Nat) {used rest input outer : List Lexeme}
    (hinput : input.length ≤ outer.length) (hts : tokens used = ts)
    (hsplit : input = used ++ rest) :
    Settles (readItems stop item outer acc depth input hinput)
      (n ≤ room ∧ depthOfItems es ≤ maxDepth) (acc.reverse ++ es, max depth (depthOfItems es))
      rest := by
  induction hitems using Items.along generalizing acc depth used input with
  | close =>
    obtain ⟨position, rfl⟩ := tokens_eq_singleton hts
    obtain rfl : input = ⟨.symbol .closeBracket, position⟩ :: rest := hsplit
    rw [readItems]
    simp only [behind?_self]
    refine ⟨fun _ => ⟨hinput, ?_⟩, fun h => absurd ⟨Nat.zero_le room, Nat.zero_le maxDepth⟩ h⟩
    simp [depthOfItems]
  | @last _ e n hphrase =>
    obtain ⟨first, back, rfl, rfl, hback⟩ := tokens_eq_append hts
    obtain ⟨position, rfl⟩ := tokens_eq_singleton hback
    have hends : Ends 1 (⟨.symbol .closeBracket, position⟩ :: rest) := ends_cons fun _ _ => rfl
    have hfirst := hitem first e n _ hphrase hends
    obtain rfl : input = first ++ ⟨.symbol .closeBracket, position⟩ :: rest := by simpa using hsplit
    have hcomma : behind? .comma (⟨.symbol .closeBracket, position⟩ :: rest) = none := rfl
    have hdeepest : depthOfItems [e] = e.depth := by simp [depthOfItems]
    rw [readItems, hdeepest]
    simp only [behind?_of_phrase hphrase]
    refine hfirst.after id (fun e he => by simp only [he]) ?_
    intro hfits hmore hread
    simp only [hread, hcomma, behind?_self]
    have hlength : rest.length < outer.length := by
      simp only [List.length_append, List.length_cons] at hinput
      omega
    exact ⟨fun _ => ⟨hlength, by simp⟩, fun h => absurd hfits h⟩
  | @more _ _ e es n m hphrase hrest ih =>
    obtain ⟨first, back, rfl, rfl, hback⟩ := tokens_eq_append hts
    obtain ⟨position, used', rfl, rfl⟩ := tokens_eq_cons hback
    have hends : Ends 1 (⟨.symbol .comma, position⟩ :: (used' ++ rest)) :=
      ends_cons fun _ _ => rfl
    have hfirst := hitem first e n _ hphrase hends
    obtain rfl : input = first ++ ⟨.symbol .comma, position⟩ :: (used' ++ rest) := by
      simpa using hsplit
    rw [readItems, depthOfItems]
    simp only [behind?_of_phrase hphrase]
    refine hfirst.after (fun h => by omega) (fun e he => by simp only [he]) ?_
    intro hfits hmore hread
    simp only [hread, behind?_self]
    have hlength : (used' ++ rest).length ≤ outer.length := by
      simp only [List.length_append, List.length_cons] at hinput ⊢
      omega
    have hnext := ih (e :: acc) (max depth e.depth) hlength rfl rfl
    refine ⟨fun h => ?_, fun h => hnext.refused (by omega)⟩
    obtain ⟨hlast, hread'⟩ := hnext.accepted (by omega)
    exact ⟨hlast, by rw [hread']; simp [Nat.max_assoc]⟩

/-- An operand may end anywhere. -/
theorem ends_seven (rest : List Lexeme) : Ends 7 rest :=
  fun _ _ _ _ hle => connectiveAt?_outside (.inr hle) _

section Inside

variable {room n : Nat} {operand : TreeReader} {used : List Lexeme} {e : Expr}

/-- What the grammar derives behind an operator in front is accepted within the limits. -/
theorem readUnary_complete (hoperand : CompleteReader operand 7 room)
    (hphrase : Phrase 7 (tokens used) e n) (op : PrefixOp) (lexeme : Lexeme) (rest : List Lexeme) :
    Settles (readUnary op operand lexeme (used ++ rest))
      (n + 1 ≤ room + 1 ∧ (Expr.unary op e).depth ≤ maxDepth)
      ⟨.unary op e, (Expr.unary op e).depth⟩ rest := by
  have hinner := hoperand used e n rest hphrase (ends_seven rest)
  rw [readUnary, depth]
  refine hinner.after (fun h => by omega) (fun e he => by simp only [he]) ?_
  intro hfits hmore hread
  simp only [hread]
  refine Settles.afterDeepen e.depth lexeme.position (fun h => h.2)
    (fun e he => by simp only [he]) ?_
  intro hdepth hdeepen
  simp only [hdeepen]
  exact ⟨fun _ => ⟨Nat.lt_succ_of_lt hmore, rfl⟩, fun h => by omega⟩

/-- What the grammar derives in parentheses is accepted within the limits. -/
theorem readParens_complete (hoperand : CompleteReader operand 7 room)
    (hphrase : Phrase 1 (tokens used) e n) (stop position : Nat) (lexeme : Lexeme)
    (rest : List Lexeme) :
    Settles (readParens stop operand lexeme (used ++ ⟨.symbol .closeParen, position⟩ :: rest))
      (n + 1 ≤ room + 1 ∧ e.depth ≤ maxDepth) ⟨e, e.depth⟩ rest := by
  have hends : Ends 1 (⟨.symbol .closeParen, position⟩ :: rest) := ends_cons fun _ _ => rfl
  have hinner := readExpression_complete hoperand used e n _ hphrase hends
  rw [readParens]
  refine hinner.after (fun h => by omega) (fun e he => by simp only [he]) ?_
  intro hfits hmore hread
  simp only [hread, behind?_self]
  refine ⟨fun _ => ⟨?_, rfl⟩, fun h => by omega⟩
  simp only [List.length_append, List.length_cons]
  omega

/-- What the grammar derives in brackets is accepted within the limits. -/
theorem readList_complete (hoperand : CompleteReader operand 7 room) {es : List Expr}
    (hitems : Items (tokens used) es n) (stop : Nat) (lexeme : Lexeme) (rest : List Lexeme) :
    Settles (readList stop operand lexeme (used ++ rest))
      (n + 1 ≤ room + 1 ∧ (Expr.list es).depth ≤ maxDepth)
      ⟨.list es, (Expr.list es).depth⟩ rest := by
  have hinner := readItems_complete (readExpression_complete hoperand) stop hitems [] 0
    (length_le_self (used ++ rest)) rfl rfl
  rw [readList, depth]
  simp only [List.reverse_nil, List.nil_append, Nat.zero_max] at hinner
  refine hinner.after (fun h => by omega) (fun e he => by simp only [he]) ?_
  intro hfits hmore hread
  simp only [hread]
  refine Settles.afterDeepen (depthOfItems es) lexeme.position (fun h => h.2)
    (fun e he => by simp only [he]) ?_
  intro hdepth hdeepen
  simp only [hdeepen]
  exact ⟨fun _ => ⟨Nat.lt_succ_of_lt hmore, rfl⟩, fun h => by omega⟩

end Inside

/-- The reader of inner operands takes all of them with one enclosure less, or none may stand. -/
def CompleteInner (inner : Option TreeReader) (room : Nat) : Prop :=
  match inner with
  | none => room = 0
  | some operand => ∃ r, room = r + 1 ∧ CompleteReader operand 7 r

theorem CompleteInner.settles {α τ : Type} {input : List τ} {inner : Option TreeReader}
    {room n : Nat} (hinner : CompleteInner inner room) (lexeme : Lexeme)
    {read : TreeReader → Except CompileError (Reading α input)} {fits : Prop} {value : α}
    {rest : List τ} (hread : ∀ operand r, CompleteReader operand 7 r →
      Settles (read operand) (n + 1 ≤ r + 1 ∧ fits) value rest) :
    Settles (readInside inner lexeme read) (n + 1 ≤ room ∧ fits) value rest := by
  cases inner with
  | none =>
    obtain rfl : room = 0 := hinner
    exact ⟨fun h => absurd h.1 (Nat.not_succ_le_zero n), fun _ => ⟨_, _, _, rfl⟩⟩
  | some operand =>
    obtain ⟨r, rfl, hoperand⟩ := hinner
    exact hread operand r hoperand

theorem leaf_settles {leaf : Expr} (hleaf : leaf.depth = 1) (room : Nat) (lexeme : Lexeme)
    (rest : List Lexeme) :
    Settles (.ok (.ofHead ⟨leaf, 1⟩ lexeme rest)) (0 ≤ room ∧ leaf.depth ≤ maxDepth)
      (⟨leaf, leaf.depth⟩ : Subtree) rest := by
  rw [hleaf]
  exact ⟨fun _ => ⟨Nat.lt_succ_self _, rfl⟩, fun h => absurd ⟨Nat.zero_le room, by decide⟩ h⟩

/-- An operand whose inner operands are all taken is taken with one more enclosure. -/
theorem readOperandWith_complete (stop : Nat) {inner : Option TreeReader} {room : Nat}
    (hinner : CompleteInner inner room) : CompleteReader (readOperandWith stop inner) 7 room := by
  intro used e n rest hphrase _
  generalize hts : tokens used = ts at hphrase
  cases hphrase with
  | chain _ hlevel _ _ => exact absurd hlevel (by decide)
  | number x =>
    obtain ⟨position, rfl⟩ := tokens_eq_singleton hts
    rw [List.singleton_append, readOperandWith_cons]
    exact leaf_settles rfl room _ rest
  | text s =>
    obtain ⟨position, rfl⟩ := tokens_eq_singleton hts
    rw [List.singleton_append, readOperandWith_cons]
    exact leaf_settles rfl room _ rest
  | name s =>
    obtain ⟨position, rfl⟩ := tokens_eq_singleton hts
    rw [List.singleton_append, readOperandWith_cons]
    exact leaf_settles rfl room _ rest
  | unary hop h =>
    obtain ⟨position, used', rfl, rfl⟩ := tokens_eq_cons hts
    rw [List.cons_append, readOperandWith_cons]
    simp only [mem_prefixes.mp hop]
    exact hinner.settles _ fun operand r hoperand => readUnary_complete hoperand h _ _ rest
  | parens h =>
    obtain ⟨front, back, rfl, hfront, hback⟩ := tokens_eq_append hts
    obtain ⟨position, used', rfl, rfl⟩ := tokens_eq_cons hfront
    obtain ⟨closing, rfl⟩ := tokens_eq_singleton hback
    rw [List.append_assoc, List.cons_append, readOperandWith_cons]
    exact hinner.settles _ fun operand r hoperand =>
      readParens_complete hoperand h stop closing _ rest
  | list h =>
    obtain ⟨position, used', rfl, rfl⟩ := tokens_eq_cons hts
    rw [List.cons_append, readOperandWith_cons]
    exact hinner.settles _ fun operand r hoperand => readList_complete hoperand h stop _ rest

/-- What the grammar derives as a single operand is accepted within the limits. -/
theorem readOperand_complete (stop room : Nat) : CompleteReader (readOperand stop room) 7 room := by
  induction room with
  | zero => exact readOperandWith_complete stop rfl
  | succ room ih => exact readOperandWith_complete stop ⟨room, rfl, ih⟩

end Questlog.Grammar
