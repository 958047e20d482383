import Mathlib
import Questlog.Expression.Eval
import Questlog.Proofs.Expression.Acceptance
import Questlog.Proofs.Expression.Scan
import Questlog.Proofs.Json.Constant

namespace Questlog

open Lexeme (Spells Written)
open Grammar (Phrase)

namespace Lexeme

/-- The characters are written for the tokens, wherever they stand. -/
def Spelled (cs : List Char) (ts : List Token) : Prop :=
  ∀ position, ∃ lexemes, Spells cs position lexemes ∧ Grammar.tokens lexemes = ts

variable {cs used more : List Char} {ts : List Token} {t : Token}

theorem spelled_nil : Spelled [] [] :=
  fun _ => ⟨[], .done, rfl⟩

theorem Spelled.space {c : Char} (hspace : isSpace c = true) (h : Spelled cs ts) :
    Spelled (c :: cs) ts := by
  intro position
  obtain ⟨lexemes, hspells, htokens⟩ := h (position + 1)
  exact ⟨lexemes, .space hspace hspells, htokens⟩

theorem Spelled.spaces {front : List Char} (hfront : ∀ c ∈ front, isSpace c = true)
    (h : Spelled cs ts) : Spelled (front ++ cs) ts := by
  induction front with
  | nil => exact h
  | cons c front ih =>
    have hrest := ih fun d hd => hfront d (List.mem_cons_of_mem c hd)
    exact hrest.space (hfront c List.mem_cons_self)

theorem Spelled.token (hwritten : Written used more t) (h : Spelled more ts) :
    Spelled (used ++ more) (t :: ts) := by
  intro position
  obtain ⟨lexemes, hspells, htokens⟩ := h (position + Text.byteLength used)
  exact ⟨_, .lexeme hwritten hspells, congrArg (t :: ·) htokens⟩

/-- A sign that begins no other is a token whatever stands behind it. -/
theorem Spelled.mark {c : Char} {s : Symbol} (hs : s ≠ .isIn) (hspelling : s.spelling.toList = [c])
    (hsign : ∀ more, sign? (c :: more) = some s) (h : Spelled cs ts) :
    Spelled (c :: cs) (.symbol s :: ts) := by
  have hwritten : Written s.spelling.toList cs (.symbol s) :=
    .sign hs (by rw [hspelling]; exact hsign cs)
  rw [hspelling] at hwritten
  exact h.token hwritten

/-- A text that is spelled is cut into these tokens. -/
theorem Spelled.tokenize_eq {text : String} (h : Spelled text.toList (t :: ts)) :
    ∃ lexemes, tokenize text = .ok lexemes ∧ Grammar.tokens lexemes = t :: ts := by
  obtain ⟨lexemes, hspells, htokens⟩ := h 0
  cases lexemes with
  | nil => cases htokens
  | cons first rest =>
    have hcut := cutAllInPlace_eq_ok_iff.mpr hspells
    exact ⟨_, tokenize_of_cutAllInPlace hcut, htokens⟩

end Lexeme

namespace Expr

/-- An expression that has no fields and a value that does not depend on any. -/
structure IsConstant (e : Expr) (value : Operand) (depth : Nat) : Prop where
  depth_le : e.depth ≤ depth
  fields : ∀ found, e.collectFields found = found
  eval_eq : ∀ values, e.eval values = .ok value

end Expr

theorem Literal.unescape_plain {cs : List Char} (hcs : ∀ c ∈ cs, c ≠ '\\') :
    unescape cs = cs := by
  induction cs with
  | nil => rfl
  | cons c cs ih =>
    have hrest := ih fun d hd => hcs d (List.mem_cons_of_mem c hd)
    have hplain : ∀ d rest, c = '\\' → cs = d :: rest → False :=
      fun _ _ hc _ => hcs c List.mem_cons_self hc
    rw [unescape.eq_2 c cs hplain, hrest]

namespace Grammar

open Json (Scalar Scalars Constant Delimited)
open Lexeme (Spelled)

variable {cs more : List Char} {json : Json} {values : List Json} {ts : List Token}

/-- Tokens that are a single operand and a constant, in which little is enclosed. -/
def IsOperand (us : List Token) (value : Operand) (room : Nat) : Prop :=
  ∃ e n, Phrase 7 us e n ∧ n ≤ room ∧ e.IsConstant value (room + 1)

/-- The digits of a number are its token. -/
theorem written_digits (n : Nat) (hdelimited : Delimited more) :
    Written (Decimal.toDigits n) more (.number (.ofNat n)) := by
  have hends := hdelimited.ends_number
  have hwritten : Written (Decimal.toDigits n) more (.number (Decimal.toBinary64 false
      ⟨Decimal.ofDigits (Decimal.toDigits n), 0⟩)) :=
    .whole (Decimal.toDigits_ne_nil n) Decimal.isDigit_of_mem_toDigits
      fun c hc => ⟨(hends c hc).1, (hends c hc).2.1⟩
  rwa [Decimal.ofDigits_toDigits, Decimal.toBinary64_natCast] at hwritten

theorem isOperand_number (x : Binary64) : IsOperand [.number x] (.number x) 1 := by
  refine ⟨.number x, 0, .number x, Nat.zero_le 1, ?_, fun _ => rfl, fun _ => rfl⟩
  exact Nat.le_succ 1

/-- A minus sign in front of a number is an operator, and the value is that of the negative
number. -/
theorem isOperand_negative (x : Binary64) :
    IsOperand [.symbol .minus, .number x] (.number x.neg) 1 := by
  have hphrase : Phrase 7 [.symbol .minus, .number x] (.unary .neg (.number x)) 1 :=
    .unary (mem_prefixes.mpr rfl) (.number x)
  exact ⟨_, 1, hphrase, Nat.le_refl 1, Nat.le_refl 2, fun _ => rfl, fun _ => rfl⟩

/-- A scalar of JSON is spelled as an operand of its value. -/
theorem spelled_scalar (h : Scalar cs json) (hdelimited : Delimited more)
    (hmore : Spelled more ts) :
    ∃ us, Spelled (cs ++ more) (us ++ ts) ∧ IsOperand us (.ofJson json) 1 := by
  have hminus : ∀ more, Lexeme.sign? ('-' :: more) = some .minus := fun _ => rfl
  cases h with
  | @integer n h =>
    have hvalue : Operand.ofJson (.number (.integer n h)) = .number (.ofNat n) :=
      congrArg Operand.number (Binary64.ofInt_natCast n)
    rw [hvalue]
    exact ⟨_, hmore.token (written_digits n hdelimited), isOperand_number _⟩
  | @negative n h hn =>
    have hvalue : Operand.ofJson (.number (.integer (-n) h)) = .number (Binary64.ofNat n).neg :=
      congrArg Operand.number (Binary64.ofInt_neg hn)
    have hdigits := hmore.token (written_digits n hdelimited)
    rw [hvalue]
    refine ⟨[.symbol .minus, .number (.ofNat n)], ?_, isOperand_negative _⟩
    exact hdigits.mark (by decide) rfl hminus
  | negativeZero =>
    have hdigits := hmore.token (written_digits 0 hdelimited)
    refine ⟨[.symbol .minus, .number (.ofNat 0)], ?_, isOperand_negative _⟩
    exact hdigits.mark (by decide) rfl hminus
  | @text cs hcs =>
    have hencloses : Literal.Encloses '"' cs := by
      constructor
      · intro front back hquote
        exact absurd rfl (hcs '"' (by simp [hquote])).1
      · intro hlast
        exact (hcs '\\' (List.mem_of_getLast? hlast)).2.1 rfl
    have hwritten : Written ('"' :: cs ++ ['"']) more (.text (String.ofList cs)) := by
      have hplain := Literal.unescape_plain fun c hc => (hcs c hc).2.1
      have hescaped : Written ('"' :: cs ++ ['"']) more
          (.text (String.ofList (Literal.unescape cs))) := .text (by decide) hencloses
      rwa [hplain] at hescaped
    refine ⟨[.text (String.ofList cs)], hmore.token hwritten, ?_⟩
    exact ⟨_, 0, .text _, Nat.zero_le 1, Nat.le_succ 1, fun _ => rfl, fun _ => rfl⟩

/-- Tokens that are the items of a list with its closing bracket, all of them constants. -/
def IsItems (us : List Token) (items : List Operand) : Prop :=
  ∃ es n, Items us es n ∧ n ≤ 1 ∧ Expr.depthOfItems es ≤ 2 ∧
    (∀ found, Expr.collectFieldsOfItems found es = found) ∧
    ∀ values, Expr.evalItems values es = .ok items

theorem IsOperand.single {us : List Token} {item : Operand} (h : IsOperand us item 1) :
    IsItems (us ++ [.symbol .closeBracket]) [item] := by
  obtain ⟨e, n, hphrase, hn, hconstant⟩ := h
  refine ⟨[e], n, .last (hphrase.lower (k := 6) (Nat.le_refl 1) rfl), hn, ?_, ?_, ?_⟩
  · simpa [Expr.depthOfItems] using hconstant.depth_le
  · intro found
    exact hconstant.fields found
  · intro values
    simp [Expr.evalItems, hconstant.eval_eq]

theorem IsOperand.cons {us vs : List Token} {item : Operand} {items : List Operand}
    (h : IsOperand us item 1) (hrest : IsItems vs items) :
    IsItems (us ++ .symbol .comma :: vs) (item :: items) := by
  obtain ⟨e, n, hphrase, hn, hconstant⟩ := h
  obtain ⟨es, m, hitems, hm, hdepth, hfields, heval⟩ := hrest
  refine ⟨e :: es, max n m, .more (hphrase.lower (k := 6) (Nat.le_refl 1) rfl) hitems,
    Nat.max_le.mpr ⟨hn, hm⟩, ?_, ?_, ?_⟩
  · exact Nat.max_le.mpr ⟨hconstant.depth_le, hdepth⟩
  · intro found
    rw [Expr.collectFieldsOfItems, hconstant.fields, hfields]
  · intro values
    simp [Expr.evalItems, hconstant.eval_eq, heval]

theorem isItems_nil : IsItems [.symbol .closeBracket] [] :=
  ⟨[], 0, .close, Nat.zero_le 1, Nat.zero_le 2, fun _ => rfl, fun _ => rfl⟩

/-- Items in brackets are an operand, the list of their values. -/
theorem IsItems.list {us : List Token} {items : List Operand} (h : IsItems us items) :
    IsOperand (.symbol .openBracket :: us) (.list items) 2 := by
  obtain ⟨es, n, hitems, hn, hdepth, hfields, heval⟩ := h
  refine ⟨.list es, n + 1, .list hitems, Nat.succ_le_succ hn, ?_, hfields, ?_⟩
  · exact Nat.succ_le_succ hdepth
  · intro values
    simp [Expr.eval, heval]

/-- Scalars between commas are spelled as items. -/
theorem spelled_scalars (h : Scalars cs values) (hmore : Spelled more ts) :
    ∃ us, Spelled (cs ++ ']' :: more) (us ++ ts) ∧ IsItems us (Operand.ofJsonItems values) := by
  have hclose : Spelled (']' :: more) (.symbol .closeBracket :: ts) :=
    hmore.mark (by decide) rfl fun _ => rfl
  induction h with
  | @last front cs back json hfront hscalar hback =>
    obtain ⟨us, hspelled, hoperand⟩ := spelled_scalar hscalar
      (Json.delimited_spaces hback (.inr rfl) more) (hclose.spaces hback)
    refine ⟨us ++ [.symbol .closeBracket], ?_, hoperand.single⟩
    have hassoc : front ++ cs ++ back ++ ']' :: more =
        front ++ (cs ++ (back ++ ']' :: more)) := by simp
    rw [hassoc, List.append_assoc]
    exact hspelled.spaces hfront
  | @more front cs back rest json values hfront hscalar hback _ ih =>
    obtain ⟨vs, hrest, hitems⟩ := ih
    have hcomma : Spelled (',' :: (rest ++ ']' :: more)) (.symbol .comma :: (vs ++ ts)) :=
      hrest.mark (by decide) rfl fun _ => rfl
    obtain ⟨us, hspelled, hoperand⟩ := spelled_scalar hscalar
      (Json.delimited_spaces hback (.inl rfl) _) (hcomma.spaces hback)
    refine ⟨us ++ .symbol .comma :: vs, ?_, hoperand.cons hitems⟩
    have hassoc : front ++ cs ++ back ++ ',' :: rest ++ ']' :: more =
        front ++ (cs ++ (back ++ ',' :: (rest ++ ']' :: more))) := by simp
    rw [hassoc, List.append_assoc]
    exact hspelled.spaces hfront

/-- A constant is a single operand with the value that it has as JSON. -/
theorem spelled_constant (h : Constant cs json) (hdelimited : Delimited more)
    (hmore : Spelled more ts) :
    ∃ us, Spelled (cs ++ more) (us ++ ts) ∧ IsOperand us (.ofJson json) 2 := by
  have hopen : ∀ more, Lexeme.sign? ('[' :: more) = some .openBracket := fun _ => rfl
  cases h with
  | scalar hscalar =>
    obtain ⟨us, hspelled, e, n, hphrase, hn, hdepth, hfields, heval⟩ :=
      spelled_scalar hscalar hdelimited hmore
    exact ⟨us, hspelled, e, n, hphrase, Nat.le_succ_of_le hn, Nat.le_succ_of_le hdepth, hfields,
      heval⟩
  | @empty cs hcs =>
    have hclose : Spelled (']' :: more) (.symbol .closeBracket :: ts) :=
      hmore.mark (by decide) rfl fun _ => rfl
    have hlist := (hclose.spaces hcs).mark (by decide) rfl hopen
    refine ⟨[.symbol .openBracket, .symbol .closeBracket], ?_, isItems_nil.list⟩
    simpa using hlist
  | @list cs values hscalars =>
    obtain ⟨us, hspelled, hitems⟩ := spelled_scalars hscalars hmore
    have hlist := hspelled.mark (by decide) rfl hopen
    refine ⟨.symbol .openBracket :: us, ?_, hitems.list⟩
    simpa using hlist

end Grammar

end Questlog
