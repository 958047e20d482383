import Questlog.Proofs.Expression.Written

namespace Questlog

/-- The same error of a text before which `n` bytes are put. -/
def CompileError.shift (n : Nat) : CompileError → CompileError
  | unexpectedChar found position => unexpectedChar found (position + n)
  | unterminatedString position => unterminatedString (position + n)
  | invalidNumber raw position => invalidNumber raw (position + n)
  | unexpectedToken expected found position => unexpectedToken expected found (position + n)
  | nestingTooDeep limit depth position => nestingTooDeep limit depth (position + n)
  | trailingInput position => trailingInput (position + n)
  | emptyInput => emptyInput
  | inputTooLarge limit actual => inputTooLarge limit actual

namespace Lexeme

/-- The same lexeme of a text before which `n` bytes are put. -/
def shift (n : Nat) (lexeme : Lexeme) : Lexeme :=
  ⟨lexeme.token, lexeme.position + n⟩

/-- `Spells cs position lexemes`: the characters `cs`, which stand at `position`, are those of the
lexemes with spaces between them. -/
inductive Spells : List Char → Nat → List Lexeme → Prop
  | done {position : Nat} : Spells [] position []
  | space {c : Char} {cs : List Char} {position : Nat} {lexemes : List Lexeme} :
    isSpace c = true → Spells cs (position + 1) lexemes → Spells (c :: cs) position lexemes
  | lexeme {used more : List Char} {token : Token} {position : Nat} {lexemes : List Lexeme} :
    Written used more token → Spells more (position + Text.byteLength used) lexemes →
    Spells (used ++ more) position (⟨token, position⟩ :: lexemes)

variable {cs used more tail : List Char} {token : Token} {position : Nat} {lexemes : List Lexeme}

/-- The lexemes of a text, each cut off in place. -/
def cutAllInPlace (position : Nat) (cs : List Char) : Except CompileError (List Lexeme) :=
  match cs with
  | [] => .ok []
  | c :: rest =>
    if isSpace c then
      cutAllInPlace (position + 1) rest
    else
      match cutInPlace position (c :: rest) with
      | .error e => .error e
      | .ok ⟨⟨token, width⟩, more, _⟩ =>
        match cutAllInPlace (position + width) more with
        | .error e => .error e
        | .ok later => .ok (⟨token, position⟩ :: later)
termination_by cs.length
decreasing_by
  · exact Nat.lt_succ_self _
  · assumption

theorem cutAllInPlace_nil : cutAllInPlace position [] = .ok [] := by
  rw [cutAllInPlace]

theorem cutAllInPlace_space {c : Char} (h : isSpace c = true) :
    cutAllInPlace position (c :: cs) = cutAllInPlace (position + 1) cs := by
  rw [cutAllInPlace, if_pos h]

/-- Cutting goes on behind a token. -/
theorem cutAllInPlace_of_cut {c : Char} {width : Nat} {hmore : more.length < (c :: cs).length}
    (hspace : isSpace c = false)
    (hcut : cutInPlace position (c :: cs) = .ok ⟨⟨token, width⟩, more, hmore⟩) :
    cutAllInPlace position (c :: cs) =
      (cutAllInPlace (position + width) more).map (⟨token, position⟩ :: ·) := by
  rw [cutAllInPlace, hspace, if_neg Bool.false_ne_true]
  simp only [hcut]
  cases cutAllInPlace (position + width) more <;> rfl

theorem cutAllInPlace_of_cut_error {c : Char} {e : CompileError} (hspace : isSpace c = false)
    (hcut : cutInPlace position (c :: cs) = .error e) :
    cutAllInPlace position (c :: cs) = .error e := by
  rw [cutAllInPlace, hspace, if_neg Bool.false_ne_true]
  simp only [hcut]

/-- A token that is written is cut off. -/
theorem cutAllInPlace_written (h : Written used more token) :
    cutAllInPlace position (used ++ more) =
      (cutAllInPlace (position + Text.byteLength used) more).map (⟨token, position⟩ :: ·) := by
  obtain ⟨hmore, hcut⟩ := cut_of_written position h rfl
  have hhead := h.isSpace_head
  cases used with
  | nil => exact absurd rfl h.ne_nil
  | cons c used => exact cutAllInPlace_of_cut (hhead c rfl) hcut

/-- Induction along the cutting of a text: it ends, passes a space, is refused, or goes on behind a
token. -/
@[elab_as_elim]
theorem cutting {motive : Nat → List Char → Prop} (nil : ∀ position, motive position [])
    (space : ∀ position c cs, isSpace c = true → motive (position + 1) cs →
      motive position (c :: cs))
    (refused : ∀ position c cs e, isSpace c = false → cutInPlace position (c :: cs) = .error e →
      motive position (c :: cs))
    (written : ∀ position used more token, Written used more token →
      motive (position + Text.byteLength used) more → motive position (used ++ more))
    (position : Nat) (cs : List Char) : motive position cs := by
  induction position, cs using cutAllInPlace.induct with
  | case1 position => exact nil position
  | case2 position c cs hspace ih => exact space position c cs hspace ih
  | case3 position c cs hspace e hcut =>
    exact refused position c cs e (Bool.eq_false_iff.mpr hspace) hcut
  | case4 position c cs _ token width more _ hcut _ _ ih
  | case5 position c cs _ token width more _ hcut _ _ ih =>
    obtain ⟨used, hcs, rfl, hwritten⟩ := written_of_cut hcut
    rw [hcs]
    exact written position used more token hwritten ih

/-- A text that is spelled by lexemes can be cut, and so can it in front of any other that starts
with a space or a quote. -/
theorem Spells.cutAllInPlace_append (h : Spells cs position lexemes)
    (htail : ∀ c ∈ tail.head?, IsBreak c) :
    cutAllInPlace position (cs ++ tail) =
      (cutAllInPlace (position + Text.byteLength cs) tail).map (lexemes ++ ·) := by
  induction h with
  | done =>
    rw [List.nil_append, Text.byteLength_nil, Nat.add_zero]
    cases cutAllInPlace _ tail <;> rfl
  | @space c cs position lexemes hspace _ ih =>
    rw [List.cons_append, cutAllInPlace_space hspace, ih, Text.byteLength_cons,
      utf8Size_of_isSpace hspace, Nat.add_assoc]
  | @lexeme used more token position lexemes hwritten _ ih =>
    have hwhole := hwritten.append htail
    rw [List.append_assoc, cutAllInPlace_written hwhole, ih, Text.byteLength_append,
      Nat.add_assoc]
    cases cutAllInPlace _ tail <;> rfl

/-- A text can be cut just if it is spelled by lexemes. Such a text consists of the characters of
its lexemes, in order, with spaces between them. -/
theorem cutAllInPlace_eq_ok_iff :
    cutAllInPlace position cs = .ok lexemes ↔ Spells cs position lexemes := by
  constructor
  · intro h
    induction position, cs using cutting generalizing lexemes with
    | nil position =>
      rw [cutAllInPlace_nil] at h
      cases h
      exact .done
    | space position c cs hspace ih =>
      rw [cutAllInPlace_space hspace] at h
      exact .space hspace (ih h)
    | refused position c cs e hspace hcut =>
      rw [cutAllInPlace_of_cut_error hspace hcut] at h
      cases h
    | written position used more token hwritten ih =>
      rw [cutAllInPlace_written hwritten] at h
      cases hlater : cutAllInPlace (position + Text.byteLength used) more with
      | error e =>
        rw [hlater] at h
        cases h
      | ok later =>
        rw [hlater] at h
        cases h
        exact .lexeme hwritten (ih hlater)
  · intro h
    have hnil : ∀ c ∈ ([] : List Char).head?, IsBreak c := by simp
    have hcut := h.cutAllInPlace_append hnil
    rwa [List.append_nil, cutAllInPlace_nil, Except.map, List.append_nil] at hcut

/-- The only errors of the cutting itself: a quote that opens no literal, and a character that
starts no token. -/
def refusal (position : Nat) (c : Char) : CompileError :=
  if Literal.isQuote c then .unterminatedString position else .unexpectedChar c position

/-- A refusal farther on is the refusal, shifted. -/
theorem shift_refusal (n position : Nat) (c : Char) :
    (refusal position c).shift n = refusal (position + n) c := by
  unfold refusal
  split <;> rfl

/-- The cutting stops at a quote that no other closes, and at a character that starts neither a
number nor a name nor a sign. -/
theorem cut_error_cases {c : Char} {e : CompileError}
    (h : cutInPlace position (c :: cs) = .error e) :
    (Literal.isQuote c = true ∧ Literal.atHead position (c :: cs) = none ∧
      e = .unterminatedString position) ∨
    (Literal.isQuote c = false ∧ startsNumber (c :: cs) = false ∧ isNameStart c = false ∧
      sign? (c :: cs) = none ∧ e = .unexpectedChar c position) := by
  have hcut := h
  have hplace := find?_atHead position (c :: cs)
  unfold cutInPlace cut at h
  dsimp only at h
  split at h
  · next hquote =>
    split at h
    · next hnone =>
      cases h
      exact .inl ⟨hquote, hplace.symm.trans hnone, rfl⟩
    · cases h
  · next hquote =>
    split at h
    · next hstarts =>
      obtain ⟨used, more, token, hcs, hwritten⟩ := exists_written_number hstarts
      obtain ⟨_, hok⟩ := cut_of_written position hwritten hcs
      rw [hok] at hcut
      cases hcut
    · next hstarts =>
      split at h
      · cases h
      · next hname =>
        split at h
        · next hsign =>
          cases h
          exact .inr ⟨Bool.eq_false_iff.mpr hquote, Bool.eq_false_iff.mpr hstarts,
            Bool.eq_false_iff.mpr hname, hsign, rfl⟩
        · cases h

/-- Where cutting fails it is the first character that is refused. -/
theorem eq_refusal_of_cut {c : Char} {e : CompileError}
    (h : cutInPlace position (c :: cs) = .error e) : e = refusal position c := by
  rcases cut_error_cases h with ⟨hquote, -, rfl⟩ | ⟨hquote, -, -, -, rfl⟩
  · rw [refusal, if_pos hquote]
  · rw [refusal, if_neg (Bool.eq_false_iff.mp hquote)]

/-- A text that starts with no token is refused for its first character. -/
theorem cut_eq_error_iff {c : Char} {e : CompileError} : cutInPlace position (c :: cs) = .error e ↔
    (∀ used more token, c :: cs = used ++ more → ¬Written used more token) ∧
      e = refusal position c := by
  constructor
  · intro h
    refine ⟨fun used more token hcs hwritten => ?_, eq_refusal_of_cut h⟩
    obtain ⟨_, hok⟩ := cut_of_written position hwritten hcs
    rw [hok] at h
    cases h
  · rintro ⟨hnone, rfl⟩
    cases hcut : cutInPlace position (c :: cs) with
    | error e => rw [eq_refusal_of_cut hcut]
    | ok reading =>
      obtain ⟨used, hcs, -, hwritten⟩ := written_of_cut hcut
      exact absurd hwritten (hnone used _ _ hcs)

theorem cut_shift {c : Char} {e : CompileError} (n : Nat)
    (h : cutInPlace position (c :: cs) = .error e) :
    cutInPlace (position + n) (c :: cs) = .error (e.shift n) := by
  obtain ⟨hnone, rfl⟩ := cut_eq_error_iff.mp h
  exact cut_eq_error_iff.mpr ⟨hnone, shift_refusal n position c⟩

/-- Where a text stands only moves the positions of what comes of it. -/
theorem cutAllInPlace_shift (n position : Nat) (cs : List Char) :
    cutAllInPlace (position + n) cs =
      ((cutAllInPlace position cs).map (List.map (shift n))).mapError (CompileError.shift n) := by
  induction position, cs using cutting with
  | nil position => rw [cutAllInPlace_nil, cutAllInPlace_nil]; rfl
  | space position c cs hspace ih =>
    rw [cutAllInPlace_space hspace, cutAllInPlace_space hspace, Nat.add_right_comm, ih]
  | refused position c cs e hspace hcut =>
    have hmoved := cut_shift n hcut
    rw [cutAllInPlace_of_cut_error hspace hmoved, cutAllInPlace_of_cut_error hspace hcut]
    rfl
  | written position used more token hwritten ih =>
    rw [cutAllInPlace_written hwritten, cutAllInPlace_written hwritten, Nat.add_right_comm, ih]
    cases cutAllInPlace _ more <;> rfl

/-- A text that is not cut to its end is spelled by lexemes up to the character that it is refused
for. -/
theorem spells_of_cut_error {e : CompileError} (h : cutAllInPlace position cs = .error e) :
    ∃ front c back lexemes, cs = front ++ c :: back ∧ Spells front position lexemes ∧
      e = refusal (position + Text.byteLength front) c := by
  induction position, cs using cutting with
  | nil position =>
    rw [cutAllInPlace_nil] at h
    cases h
  | space position c cs hspace ih =>
    rw [cutAllInPlace_space hspace] at h
    obtain ⟨front, d, back, lexemes, rfl, hfront, rfl⟩ := ih h
    refine ⟨c :: front, d, back, lexemes, rfl, .space hspace hfront, ?_⟩
    rw [Text.byteLength_cons, utf8Size_of_isSpace hspace, Nat.add_assoc]
  | refused position c cs e' hspace hcut =>
    rw [cutAllInPlace_of_cut_error hspace hcut] at h
    obtain rfl := Except.error.inj h
    exact ⟨[], c, cs, [], rfl, .done, eq_refusal_of_cut hcut⟩
  | written position used more token hwritten ih =>
    rw [cutAllInPlace_written hwritten] at h
    cases hlater : cutAllInPlace (position + Text.byteLength used) more with
    | ok later =>
      rw [hlater] at h
      cases h
    | error e' =>
      rw [hlater] at h
      obtain rfl := Except.error.inj h
      obtain ⟨front, c, back, lexemes, rfl, hfront, rfl⟩ := ih hlater
      refine ⟨used ++ front, c, back, ⟨token, position⟩ :: lexemes, (List.append_assoc _ _ _).symm,
        .lexeme hwritten.of_append hfront, ?_⟩
      rw [Text.byteLength_append, Nat.add_assoc]

end Lexeme

end Questlog
