import Mathlib
import Questlog.Proofs.Expression.Completeness.Operand
import Questlog.Proofs.Expression.Soundness.Operand

namespace Questlog.Grammar

open Questlog.Expr

/-- The grammar derives a tree from the lexemes of a text, with their innermost place enclosed `n`
times. -/
def Derives (text : String) (e : Expr) (n : Nat) : Prop :=
  ∃ lexemes, Lexeme.tokenize text = .ok lexemes ∧ Phrase 1 (tokens lexemes) e n

/-- A phrase of a level is one of every looser level. -/
theorem Phrase.loosen {level k n : Nat} {ts : List Token} {e : Expr} (hlevel : 1 ≤ level)
    (hseven : level + k ≤ 7) (h : Phrase (level + k) ts e n) : Phrase level ts e n := by
  induction k generalizing level with
  | zero => exact h
  | succ k ih =>
    have hnext : Phrase (level + 1) ts e n := by
      apply ih (Nat.le_add_left 1 level) (by omega)
      rwa [Nat.add_right_comm, Nat.add_assoc]
    simpa using Phrase.chain hlevel (by omega) hnext .done

/-- A single operand is a phrase of every looser level. -/
theorem Phrase.lower {level k n : Nat} {ts : List Token} {e : Expr} (hlevel : 1 ≤ level)
    (hseven : level + k = 7) (h : Phrase 7 ts e n) : Phrase level ts e n :=
  loosen hlevel (Nat.le_of_eq hseven) (hseven ▸ h)

/-- Lexemes are parsed if the grammar derives them within the limits. -/
theorem ofLexemes_eq_ok {stop : Nat} {lexemes : List Lexeme} {e : Expr} :
    ofLexemes stop lexemes = .ok e ↔
      ∃ n, Phrase 1 (tokens lexemes) e n ∧ n ≤ maxNesting ∧ e.depth ≤ maxDepth := by
  constructor
  · intro h
    unfold ofLexemes at h
    split at h
    · cases h
    · next subtree hread =>
      cases h
      obtain ⟨used, n, rfl, hphrase, hfits⟩ :=
        readExpression_sound (readOperand_sound stop maxNesting) _ _ _ _ hread
      rw [List.append_nil]
      exact ⟨n, hphrase, hfits.enclosed, hfits.depth_le⟩
    · cases h
  · rintro ⟨n, hphrase, hfits⟩
    have hread := readExpression_complete (readOperand_complete stop maxNesting) lexemes e n []
      hphrase (ends_nil 1)
    rw [List.append_nil] at hread
    obtain ⟨_, hread⟩ := hread.accepted hfits
    simp only [ofLexemes, hread]

/-- Lexemes that it derives beyond the limits are refused because of their nesting. -/
theorem ofLexemes_of_unfit {stop n : Nat} {lexemes : List Lexeme} {e : Expr}
    (hphrase : Phrase 1 (tokens lexemes) e n) (h : ¬(n ≤ maxNesting ∧ e.depth ≤ maxDepth)) :
    ∃ limit depth position,
      ofLexemes stop lexemes = .error (.nestingTooDeep limit depth position) := by
  have hread := readExpression_complete (readOperand_complete stop maxNesting) lexemes e n []
    hphrase (ends_nil 1)
  rw [List.append_nil] at hread
  obtain ⟨limit, depth, position, hread⟩ := hread.refused h
  exact ⟨limit, depth, position, by simp only [ofLexemes, hread]⟩

/-- A text that is cut is parsed from its lexemes. -/
theorem parse_of_tokenize {text : String} {lexemes : List Lexeme}
    (hsize : text.utf8ByteSize ≤ maxBytes) (htokenize : Lexeme.tokenize text = .ok lexemes) :
    parse text = ofLexemes text.utf8ByteSize lexemes := by
  rw [parse, if_neg (Nat.not_lt.mpr hsize)]
  simp only [htokenize]

/-- A tree that is parsed is derived from the text, within all limits. -/
theorem derives_of_parse {text : String} {e : Expr} (h : parse text = .ok e) :
    text.utf8ByteSize ≤ maxBytes ∧
      ∃ n, Derives text e n ∧ n ≤ maxNesting ∧ e.depth ≤ maxDepth := by
  unfold parse at h
  split at h
  · cases h
  · next hsize =>
    split at h
    · cases h
    · next lexemes htokenize =>
      obtain ⟨n, hphrase, hfits⟩ := ofLexemes_eq_ok.mp h
      exact ⟨Nat.le_of_not_lt hsize, n, ⟨lexemes, htokenize, hphrase⟩, hfits⟩

/-- A text is parsed to a tree just if it is no larger than 65536 bytes and the grammar derives the
tree from its lexemes, with no place enclosed more than 32 times and a depth of at most 256. What
only breaks one of these two limits is refused as nested too deep. -/
theorem parse_eq_ok_iff_derives (text : String) :
    (∀ e, parse text = .ok e ↔ text.utf8ByteSize ≤ 65536 ∧
      ∃ n, Derives text e n ∧ n ≤ 32 ∧ e.depth ≤ 256) ∧
    (∀ e n, text.utf8ByteSize ≤ 65536 → Derives text e n → 32 < n ∨ 256 < e.depth →
      ∃ limit depth position, parse text = .error (.nestingTooDeep limit depth position)) := by
  refine ⟨fun e => ⟨derives_of_parse, ?_⟩, ?_⟩
  · rintro ⟨hsize, n, ⟨lexemes, htokenize, hphrase⟩, hfits⟩
    rw [parse_of_tokenize hsize htokenize]
    exact ofLexemes_eq_ok.mpr ⟨n, hphrase, hfits⟩
  · rintro e n hsize ⟨lexemes, htokenize, hphrase⟩ hunfit
    rw [parse_of_tokenize hsize htokenize]
    refine ofLexemes_of_unfit hphrase fun hfits => ?_
    have hnesting : n ≤ 32 := hfits.1
    have hdepth : e.depth ≤ 256 := hfits.2
    omega

/-- A name behind some signs in front, with its tree. -/
def denied : Nat → Expr
  | 0 => .field "a"
  | k + 1 => .unary .not (denied k)

/-- A name behind any number of exclamation marks is derived. -/
theorem phrase_denied (k : Nat) :
    Phrase 7 (List.replicate k (.symbol .bang) ++ [.name "a"]) (denied k) k := by
  induction k with
  | zero => exact .name "a"
  | succ k ih => exact .unary (by simp [prefixes]) ih

/-- One sign in front of a name is parsed, and thirty-three are nested too deep. -/
theorem parse_denied :
    parse "!a" = .ok (denied 1) ∧ ∃ limit depth position,
      parse "!!!!!!!!!!!!!!!!!!!!!!!!!!!!!!!!!a" = .error (.nestingTooDeep limit depth position) := by
  have hone : Derives "!a" (denied 1) 1 :=
    ⟨[⟨.symbol .bang, 0⟩, ⟨.name "a", 1⟩], by cbv,
      (phrase_denied 1).lower (k := 6) (by decide) rfl⟩
  have hdeep : Derives "!!!!!!!!!!!!!!!!!!!!!!!!!!!!!!!!!a" (denied 33) 33 := by
    have htokenize : Lexeme.tokenize "!!!!!!!!!!!!!!!!!!!!!!!!!!!!!!!!!a" =
        .ok ((List.range 33).map (fun i => ⟨.symbol .bang, i⟩) ++ [⟨.name "a", 33⟩]) := by cbv
    exact ⟨_, htokenize, (phrase_denied 33).lower (k := 6) (by decide) rfl⟩
  exact ⟨((parse_eq_ok_iff_derives "!a").1 (denied 1)).mpr
      ⟨by decide, 1, hone, by decide, by decide⟩,
    (parse_eq_ok_iff_derives _).2 (denied 33) 33 (by decide) hdeep (.inl (by decide))⟩

end Questlog.Grammar
