import Questlog.Proofs.Expression.Operands
import Questlog.Proofs.Expression.Soundness.Chain

namespace Questlog.Grammar

open Questlog.Expr

/-- What is passed is the symbol in front. -/
theorem behind?_eq_some {s : Symbol} {input rest : List Lexeme} {h : rest.length < input.length}
    (hbehind : behind? s input = some ⟨rest, h⟩) :
    ∃ position, input = ⟨.symbol s, position⟩ :: rest := by
  unfold behind? at hbehind
  split at hbehind
  · split at hbehind
    · next heq =>
      cases hbehind
      exact ⟨_, by rw [heq]⟩
    · cases hbehind
  · cases hbehind

/-- What is read as the rest of a list derives items, which join those that were read before. -/
theorem readItems_sound {room : Nat} {item : TreeReader} (hitem : SoundReader item 1 room)
    (stop : Nat) (outer : List Lexeme) (acc : List Expr) (depth : Nat) (input : List Lexeme)
    (hinput : input.length ≤ outer.length) {es : List Expr} {d : Nat} {rest : List Lexeme}
    {h : rest.length < outer.length}
    (hread : readItems stop item outer acc depth input hinput = .ok ⟨(es, d), rest, h⟩) :
    ∃ used items n, input = used ++ rest ∧ Items (tokens used) items n ∧ n ≤ room ∧
      es = acc.reverse ++ items ∧ d = max depth (depthOfItems items) := by
  fun_induction readItems stop item outer acc depth input hinput with
  | case1 acc depth input hinput rest' hrest hclose =>
    cases hread
    obtain ⟨position, rfl⟩ := behind?_eq_some hclose
    exact ⟨[_], [], 0, rfl, .close, Nat.zero_le _, by simp, by simp [depthOfItems]⟩
  | case2 => cases hread
  | case3 acc depth input hinput _ expr itemDepth rest' hrest hitem' more hmore hcomma ih =>
    obtain ⟨used, n, rfl, hphrase, hfits⟩ := hitem _ _ _ _ hitem'
    obtain ⟨position, rfl⟩ := behind?_eq_some hcomma
    obtain ⟨used', items, m, rfl, hitems, hm, rfl, rfl⟩ := ih hread
    have hdepth : itemDepth = expr.depth := hfits.depth_eq
    refine ⟨used ++ ⟨.symbol .comma, position⟩ :: used', expr :: items, max n m, by simp, ?_,
      Nat.max_le.mpr ⟨hfits.enclosed, hm⟩, by simp, ?_⟩
    · rw [tokens_append, tokens_cons]
      exact .more hphrase hitems
    · rw [hdepth, depthOfItems, Nat.max_assoc]
  | case4 acc depth input hinput _ expr itemDepth rest' hrest hitem' _ more hmore hclose =>
    cases hread
    obtain ⟨used, n, rfl, hphrase, hfits⟩ := hitem _ _ _ _ hitem'
    obtain ⟨position, rfl⟩ := behind?_eq_some hclose
    have hdepth : itemDepth = expr.depth := hfits.depth_eq
    refine ⟨used ++ [⟨.symbol .closeBracket, position⟩], [expr], n, by simp, ?_, hfits.enclosed,
      by simp, ?_⟩
    · rw [tokens_append, tokens_cons, tokens_nil]
      exact .last hphrase
    · simp [hdepth, depthOfItems]
  | case5 => cases hread

section Inside

variable {room : Nat} {operand : TreeReader} {lexeme : Lexeme} {input rest : List Lexeme}
  {subtree : Subtree} {h : rest.length < (lexeme :: input).length}

/-- What is accepted behind an operator in front, the grammar derives. -/
theorem readUnary_sound (hoperand : SoundReader operand 7 room) {s : Symbol} {op : PrefixOp}
    (hop : (s, op) ∈ prefixes) (htoken : lexeme.token = .symbol s)
    (hread : readUnary op operand lexeme input = .ok ⟨subtree, rest, h⟩) :
    ∃ used n, lexeme :: input = used ++ rest ∧ Phrase 7 (tokens used) subtree.expr n ∧
      Fits (room + 1) subtree n := by
  unfold readUnary at hread
  split at hread
  · cases hread
  · next expr depth more hmore hread' =>
    split at hread
    · cases hread
    · next result hdepth =>
      cases hread
      obtain ⟨used, n, rfl, hphrase, hfits⟩ := hoperand _ _ _ _ hread'
      obtain ⟨rfl, hle⟩ := deepen_eq_ok hdepth
      refine ⟨lexeme :: used, n + 1, rfl, ?_, hfits.node rfl hle⟩
      rw [tokens_cons, htoken]
      exact .unary hop hphrase

/-- What is accepted in parentheses, the grammar derives. -/
theorem readParens_sound (hoperand : SoundReader operand 7 room) {stop : Nat}
    (htoken : lexeme.token = .symbol .openParen)
    (hread : readParens stop operand lexeme input = .ok ⟨subtree, rest, h⟩) :
    ∃ used n, lexeme :: input = used ++ rest ∧ Phrase 7 (tokens used) subtree.expr n ∧
      Fits (room + 1) subtree n := by
  unfold readParens at hread
  split at hread
  · cases hread
  · next inner more hmore hread' =>
    split at hread
    · next last hlast hclose =>
      cases hread
      obtain ⟨used, n, rfl, hphrase, hfits⟩ := readExpression_sound hoperand _ _ _ _ hread'
      obtain ⟨position, rfl⟩ := behind?_eq_some hclose
      refine ⟨lexeme :: used ++ [⟨.symbol .closeParen, position⟩], n + 1, by simp, ?_,
        Nat.succ_le_succ hfits.enclosed, hfits.depth_eq, hfits.depth_le⟩
      rw [tokens_append, tokens_cons, htoken]
      exact .parens hphrase
    · cases hread

/-- What is accepted in brackets, the grammar derives. -/
theorem readList_sound (hoperand : SoundReader operand 7 room) {stop : Nat}
    (htoken : lexeme.token = .symbol .openBracket)
    (hread : readList stop operand lexeme input = .ok ⟨subtree, rest, h⟩) :
    ∃ used n, lexeme :: input = used ++ rest ∧ Phrase 7 (tokens used) subtree.expr n ∧
      Fits (room + 1) subtree n := by
  unfold readList at hread
  split at hread
  · cases hread
  · next items depth more hmore hread' =>
    split at hread
    · cases hread
    · next result hdepth =>
      cases hread
      obtain ⟨used, items', n, rfl, hitems, hn, rfl, rfl⟩ :=
        readItems_sound (readExpression_sound hoperand) _ _ _ _ _ _ hread'
      obtain ⟨rfl, hle⟩ := deepen_eq_ok hdepth
      refine ⟨lexeme :: used, n + 1, rfl, ?_, Nat.succ_le_succ hn, ?_, ?_⟩
      · rw [tokens_cons, htoken]
        exact .list hitems
      · simp [depth]
      · simpa [depth] using hle

end Inside

theorem readInside_eq_ok {α : Type} {inner : Option TreeReader} {lexeme : Lexeme}
    {read : TreeReader → Except CompileError α} {result : α}
    (h : readInside inner lexeme read = .ok result) :
    ∃ operand, inner = some operand ∧ read operand = .ok result := by
  unfold readInside at h
  split at h
  · cases h
  · exact ⟨_, rfl, h⟩

/-- An operand whose inner operands are read soundly is read soundly with one more enclosure. -/
theorem readOperandWith_sound (stop : Nat) {inner : Option TreeReader} {room : Nat}
    (hinner : ∀ operand, inner = some operand → ∃ r, room = r + 1 ∧ SoundReader operand 7 r) :
    SoundReader (readOperandWith stop inner) 7 room := by
  intro input subtree rest h hread
  cases input with
  | nil => cases hread
  | cons lexeme more =>
    rw [readOperandWith_cons] at hread
    cases htoken : lexeme.token with
    | number x =>
      simp only [htoken] at hread
      cases hread
      exact ⟨[lexeme], 0, rfl, by simpa [htoken] using Phrase.number x, leaf_fits rfl⟩
    | text x =>
      simp only [htoken] at hread
      cases hread
      exact ⟨[lexeme], 0, rfl, by simpa [htoken] using Phrase.text x, leaf_fits rfl⟩
    | name x =>
      simp only [htoken] at hread
      cases hread
      exact ⟨[lexeme], 0, rfl, by simpa [htoken] using Phrase.name x, leaf_fits rfl⟩
    | symbol s =>
      simp only [htoken] at hread
      split at hread
      · next op hop =>
        obtain ⟨operand, hsome, hread⟩ := readInside_eq_ok hread
        obtain ⟨r, rfl, hsound⟩ := hinner operand hsome
        exact readUnary_sound hsound (mem_prefixes.mpr hop) htoken hread
      · split at hread
        · next hopen =>
          obtain ⟨operand, hsome, hread⟩ := readInside_eq_ok hread
          obtain ⟨r, rfl, hsound⟩ := hinner operand hsome
          exact readParens_sound hsound (hopen ▸ htoken) hread
        · split at hread
          · next hopen =>
            obtain ⟨operand, hsome, hread⟩ := readInside_eq_ok hread
            obtain ⟨r, rfl, hsound⟩ := hinner operand hsome
            exact readList_sound hsound (hopen ▸ htoken) hread
          · cases hread

/-- What the reader of single operands accepts, the grammar derives. -/
theorem readOperand_sound (stop room : Nat) : SoundReader (readOperand stop room) 7 room := by
  induction room with
  | zero =>
    refine readOperandWith_sound stop ?_
    rintro operand ⟨⟩
  | succ room ih =>
    refine readOperandWith_sound stop ?_
    rintro operand ⟨⟩
    exact ⟨room, rfl, ih⟩

end Questlog.Grammar
