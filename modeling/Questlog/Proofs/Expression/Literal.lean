import Questlog.Expression.Literal

namespace Questlog.Literal

/-- A content that two quotes of a kind enclose: every quote of that kind in it stands right behind
a backslash, and it does not end in one. The reader goes from mark to mark with one flag for the
backslash before it; here the content is described as a whole. -/
structure Encloses (quote : Char) (content : List Char) : Prop where
  behind : ∀ front back, content = front ++ quote :: back → front.getLast? = some '\\'
  last : content.getLast? ≠ some '\\'

variable {quote : Char} {outer acc body content more : List Char} {escaped : Bool}

-- The characters passed so far are part of the content, so that the flag can be told from them.
/-- What is read behind an opening quote goes up to the first quote without a backslash before
it. -/
theorem readContent_sound {cs : List Char} {hcs : cs.length ≤ outer.length}
    {hmore : more.length < outer.length} (hescaped : escaped = true ↔ acc.head? = some '\\')
    (h : readContent quote outer acc escaped cs hcs = some ⟨content, more, hmore⟩) :
    ∃ body, content = acc.reverse ++ body ∧ cs = body ++ quote :: more ∧
      (∀ front back, body = front ++ quote :: back →
        (acc.reverse ++ front).getLast? = some '\\') ∧
      (acc.reverse ++ body).getLast? ≠ some '\\' := by
  induction cs generalizing acc escaped with
  | nil => cases h
  | cons c rest ih =>
    unfold readContent at h
    split at h
    · next hcloses =>
      obtain ⟨rfl, hopen⟩ := hcloses
      cases h
      refine ⟨[], by simp, rfl, ?_, ?_⟩
      · intro front back hnil
        exact absurd hnil.symm (List.append_ne_nil_of_right_ne_nil _ (List.cons_ne_nil _ _))
      · rw [List.append_nil, List.getLast?_reverse]
        intro hlast
        rw [hescaped.mpr hlast] at hopen
        cases hopen
    · next hpasses =>
      have hflag : decide (c = '\\') = true ↔ (c :: acc).head? = some '\\' := by simp
      obtain ⟨body, hcontent, rfl, hbehind, hlast⟩ := ih hflag h
      rw [List.reverse_cons, List.append_assoc] at hcontent hlast
      refine ⟨c :: body, hcontent, rfl, ?_, hlast⟩
      intro front back hbody
      cases front with
      | nil =>
        obtain ⟨rfl, -⟩ := List.cons.inj hbody
        have hbackslash : escaped = true := by simpa using hpasses
        rw [List.append_nil, List.getLast?_reverse]
        exact hescaped.mp hbackslash
      | cons d front =>
        obtain ⟨rfl, htail⟩ := List.cons.inj hbody
        have hbefore := hbehind front back htail
        rwa [List.reverse_cons, List.append_assoc] at hbefore

/-- Such a content is read. -/
theorem readContent_complete (hcs : (body ++ quote :: more).length ≤ outer.length)
    (hescaped : escaped = true ↔ acc.head? = some '\\')
    (hbehind : ∀ front back, body = front ++ quote :: back →
      (acc.reverse ++ front).getLast? = some '\\')
    (hlast : (acc.reverse ++ body).getLast? ≠ some '\\') :
    ∃ hmore, readContent quote outer acc escaped (body ++ quote :: more) hcs =
      some ⟨acc.reverse ++ body, more, hmore⟩ := by
  induction body generalizing acc escaped with
  | nil =>
    rw [List.append_nil, List.getLast?_reverse, ne_eq, ← hescaped] at hlast
    have hopen : escaped = false := Bool.eq_false_iff.mpr hlast
    refine ⟨hcs, ?_⟩
    simp only [List.nil_append, readContent, hopen, and_self, if_true, List.append_nil]
  | cons c body ih =>
    have hpasses : ¬(c = quote ∧ escaped = false) := by
      rintro ⟨rfl, hopen⟩
      have hbackslash := hbehind [] body rfl
      rw [List.append_nil, List.getLast?_reverse, ← hescaped, hopen] at hbackslash
      cases hbackslash
    have hflag : decide (c = '\\') = true ↔ (c :: acc).head? = some '\\' := by simp
    have hassoc : ∀ cs, (c :: acc).reverse ++ cs = acc.reverse ++ c :: cs := by simp
    obtain ⟨hmore, hread⟩ := ih (Nat.le_of_succ_le hcs) hflag
      (fun front back hbody => by
        rw [hassoc]
        exact hbehind (c :: front) back (congrArg (c :: ·) hbody))
      (by rwa [hassoc])
    refine ⟨hmore, ?_⟩
    simp only [List.cons_append, readContent]
    rw [if_neg hpasses, hread]
    simp

/-- A literal is read just if its content is enclosed by the quote. -/
theorem readContent_eq_some {cs : List Char} {hcs : cs.length ≤ outer.length}
    {hmore : more.length < outer.length} :
    readContent quote outer [] false cs hcs = some ⟨content, more, hmore⟩ ↔
      cs = content ++ quote :: more ∧ Encloses quote content := by
  constructor
  · intro h
    obtain ⟨body, rfl, hbody, hbehind, hlast⟩ := readContent_sound (by simp) h
    exact ⟨hbody, hbehind, hlast⟩
  · rintro ⟨rfl, hbehind, hlast⟩
    have hflag : false = true ↔ ([] : List Char).head? = some '\\' := by simp
    obtain ⟨_, hread⟩ := readContent_complete hcs hflag hbehind hlast
    exact hread

/-- A content that quotes enclose is read between them. -/
theorem readContent_enclosed (h : Encloses quote content) (more : List Char) :
    ∃ hmore, readContent quote (content ++ quote :: more) [] false (content ++ quote :: more)
      (length_le_self _) = some ⟨content, more, hmore⟩ := by
  have hmore : more.length < (content ++ quote :: more).length := by
    simp
    omega
  exact ⟨hmore, readContent_eq_some.mpr ⟨rfl, h⟩⟩

/-- The literal that a text standing at `position` starts with. -/
def atHead (position : Nat) : List Char → Option Literal
  | [] => none
  | c :: rest =>
    if isQuote c then
      (readContent c rest [] false rest (length_le_self rest)).map fun reading =>
        ⟨c, position, reading.value⟩
    else none

/-- A literal starts where a quote stands that has a closing one. -/
theorem atHead_eq_some {position : Nat} {cs : List Char} {literal : Literal} :
    atHead position cs = some literal ↔
      literal.start = position ∧ isQuote literal.quote = true ∧
        Encloses literal.quote literal.content ∧
        ∃ more, cs = literal.quote :: (literal.content ++ literal.quote :: more) := by
  constructor
  · intro h
    unfold atHead at h
    split at h
    · cases h
    · next c rest =>
      split at h
      · next hquote =>
        obtain ⟨⟨content, more, _⟩, hread, rfl⟩ := Option.map_eq_some_iff.mp h
        obtain ⟨rfl, hcontent⟩ := readContent_eq_some.mp hread
        exact ⟨rfl, hquote, hcontent, more, rfl⟩
      · cases h
  · obtain ⟨quote, start, content⟩ := literal
    rintro ⟨rfl, hquote, hcontent, more, rfl⟩
    obtain ⟨_, hread⟩ := readContent_enclosed hcontent more
    rw [atHead, if_pos hquote, hread]
    rfl

/-- Whether quotes enclose a content can be computed. -/
theorem encloses_iff_readContent : Encloses quote content ↔
    (readContent quote (content ++ [quote]) [] false (content ++ [quote])
      (length_le_self (content ++ [quote]))).map (·.value) = some content := by
  constructor
  · intro h
    obtain ⟨_, hread⟩ := readContent_enclosed h []
    rw [hread]
    rfl
  · intro h
    obtain ⟨⟨value, more, hmore⟩, hread, hvalue⟩ := Option.map_eq_some_iff.mp h
    have henclosed := (readContent_eq_some.mp hread).2
    exact hvalue ▸ henclosed

instance (quote : Char) (content : List Char) : Decidable (Encloses quote content) :=
  decidable_of_iff' _ encloses_iff_readContent

end Questlog.Literal
