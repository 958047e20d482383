import Mathlib
import Questlog.Proofs.Expression.Opacity

namespace Questlog

/-- Whether a lexeme is a quoted text. -/
def Lexeme.isText (lexeme : Lexeme) : Bool :=
  match lexeme.token with
  | .text _ => true
  | _ => false

namespace Literal

/-- The lexeme that a literal is cut into. -/
def lexeme (literal : Literal) : Lexeme :=
  ⟨.text (String.ofList (unescape literal.content)), literal.start⟩

/-- A text has the content of a literal between two quotes, where the literal says. -/
def StandsIn (literal : Literal) (text : String) : Prop :=
  ∃ front back, text = front ++ quoted literal.quote (String.ofList literal.content) ++ back ∧
    front.utf8ByteSize = literal.start

/-- The literals of a text stand in it. -/
theorem standsIn_of_mem_scan {text : String} {literal : Literal} (h : literal ∈ scan text) :
    literal.StandsIn text := by
  obtain ⟨front, back, htext, hstart⟩ := exists_append_of_mem_scanFrom literal h
  refine ⟨String.ofList front, String.ofList back, ?_, ?_⟩
  · rw [← String.toList_inj]
    simp [htext, quoted]
  · rw [Text.utf8ByteSize_ofList, ← hstart, Nat.zero_add]

end Literal

namespace Lexeme

/-- A word of a text and the gap in front of it. -/
structure Tile where
  gap : String
  word : String

/-- The text of some tiles, with a last gap behind them. -/
def lay : List Tile → String → String
  | [], last => last
  | tile :: rest, last => tile.gap ++ tile.word ++ lay rest last

/-- Where the words of some tiles start that are laid from `offset` on. -/
def starts (offset : Nat) : List Tile → List Nat
  | [] => []
  | tile :: rest => (offset + tile.gap.utf8ByteSize) ::
      starts (offset + tile.gap.utf8ByteSize + tile.word.utf8ByteSize) rest

/-- The word is written for the token when nothing stands behind it. -/
def IsWordOf (word : String) (token : Token) : Prop :=
  Written word.toList [] token

/-- A text that stands at `offset` consists of gaps of spaces and of the words of the lexemes, each
of which starts where its lexeme says. -/
structure Tiling (offset : Nat) (text : String) (tiles : List Tile) (last : String)
    (lexemes : List Lexeme) : Prop where
  text_eq : text = lay tiles last
  gaps : ∀ tile ∈ tiles, IsBlank tile.gap
  last : IsBlank last
  positions : lexemes.map (·.position) = starts offset tiles
  words : List.Forall₂ IsWordOf (tiles.map (·.word)) (lexemes.map (·.token))

/-- The same words with gaps of their own, of which only the first may be empty. -/
structure Respaced (tiles others : List Tile) : Prop where
  words : others.map (·.word) = tiles.map (·.word)
  gaps : ∀ tile ∈ others, IsBlank tile.gap
  apart : ∀ tile ∈ others.tail, tile.gap ≠ ""

variable {cs used more : List Char} {position : Nat} {token : Token} {lexemes : List Lexeme}

/-- A token that is written in front of something is written at the end. -/
theorem Written.alone (h : Written used more token) : Written used [] token :=
  h.before_break (by simp)

/-- One more space in front of a text is one more in front of its first word, or at its end. -/
theorem Tiling.space {c : Char} {text rest last : String} {tiles : List Tile}
    (hspace : isSpace c = true) (htext : text.toList = c :: rest.toList)
    (h : Tiling (position + 1) rest tiles last lexemes) :
    ∃ tiles last, Tiling position text tiles last lexemes := by
  have hcons : text = String.singleton c ++ rest := by
    rw [← String.toList_inj]
    simp [htext]
  have hblank : ∀ {gap : String}, IsBlank gap → IsBlank (String.singleton c ++ gap) := by
    intro gap hgap
    simpa [IsBlank, hspace] using hgap
  have hwidth : (String.singleton c).utf8ByteSize = 1 := by
    simp [utf8Size_of_isSpace hspace]
  cases tiles with
  | nil =>
    refine ⟨[], String.singleton c ++ last, ?_, h.gaps, hblank h.last, h.positions, h.words⟩
    rw [hcons, h.text_eq]
    rfl
  | cons tile tiles =>
    obtain ⟨hgap, hgaps⟩ := List.forall_mem_cons.mp h.gaps
    refine ⟨⟨String.singleton c ++ tile.gap, tile.word⟩ :: tiles, last, ?_,
      List.forall_mem_cons.mpr ⟨hblank hgap, hgaps⟩, h.last, ?_, ?_⟩
    · rw [hcons, h.text_eq, lay, lay]
      simp only [String.append_assoc]
    · rw [h.positions, starts, starts, String.utf8ByteSize_append, hwidth, Nat.add_assoc position 1]
    · exact h.words

theorem Tiling.word {text rest last : String} {tiles : List Tile}
    (hwritten : Written used more token) (htext : text.toList = used ++ rest.toList)
    (h : Tiling (position + Text.byteLength used) rest tiles last lexemes) :
    Tiling position text (⟨"", String.ofList used⟩ :: tiles) last
      (⟨token, position⟩ :: lexemes) := by
  have hword : IsWordOf (String.ofList used) token := by
    rw [IsWordOf, String.toList_ofList]
    exact hwritten.alone
  refine ⟨?_, List.forall_mem_cons.mpr ⟨by simp [IsBlank], h.gaps⟩, h.last, ?_,
    .cons hword h.words⟩
  · rw [← String.toList_inj, htext, h.text_eq]
    simp [lay]
  · rw [List.map_cons, h.positions, starts, Text.utf8ByteSize_ofList used]
    rfl

/-- A text that is spelled by lexemes is covered by their words. -/
theorem Spells.exists_tiling {text : String} (h : Spells text.toList position lexemes) :
    ∃ tiles last, Tiling position text tiles last lexemes := by
  generalize hcs : text.toList = cs at h
  induction h generalizing text with
  | done =>
    obtain rfl : text = "" := String.toList_eq_nil_iff.mp hcs
    exact ⟨[], "", rfl, by simp, by simp [IsBlank], rfl, .nil⟩
  | @space c cs position lexemes hspace _ ih =>
    have hrest : (String.ofList cs).toList = cs := String.toList_ofList
    obtain ⟨tiles, last, htiling⟩ := ih hrest
    exact htiling.space hspace (hrest.symm ▸ hcs)
  | @lexeme used more token position lexemes hwritten _ ih =>
    have hrest : (String.ofList more).toList = more := String.toList_ofList
    obtain ⟨tiles, last, htiling⟩ := ih hrest
    exact ⟨_, last, htiling.word hwritten (hrest.symm ▸ hcs)⟩

theorem Spells.spaces {gap : List Char} (hgap : ∀ c ∈ gap, isSpace c = true)
    (h : Spells cs (position + Text.byteLength gap) lexemes) :
    Spells (gap ++ cs) position lexemes := by
  induction gap generalizing position with
  | nil => exact h
  | cons c gap ih =>
    obtain ⟨hspace, hrest⟩ := List.forall_mem_cons.mp hgap
    rw [Text.byteLength_cons, utf8Size_of_isSpace hspace, ← Nat.add_assoc] at h
    exact .space hspace (ih hrest h)

/-- What is laid with a gap in front, or without a word, starts with a space. -/
theorem isSpace_head?_lay {tiles : List Tile} {last : String}
    (hgaps : ∀ tile ∈ tiles, IsBlank tile.gap) (hfirst : ∀ tile ∈ tiles.head?, tile.gap ≠ "")
    (hlast : IsBlank last) : ∀ c ∈ (lay tiles last).toList.head?, isSpace c = true := by
  intro c hc
  cases tiles with
  | nil => exact hlast c (List.mem_of_mem_head? hc)
  | cons tile tiles =>
    have hne : tile.gap.toList ≠ [] := fun hnil =>
      hfirst tile rfl (String.toList_eq_nil_iff.mp hnil)
    obtain ⟨d, gap, hgap⟩ := List.exists_cons_of_ne_nil hne
    rw [lay, String.toList_append, String.toList_append, hgap] at hc
    obtain rfl : d = c := Option.some.inj hc
    exact hgaps tile List.mem_cons_self d (by rw [hgap]; exact List.mem_cons_self)

/-- Words with spaces between them spell their tokens, wherever these come to stand. -/
theorem exists_spells_lay {tiles : List Tile} {last : String} {tokens : List Token}
    (hwords : List.Forall₂ IsWordOf (tiles.map (·.word)) tokens)
    (hgaps : ∀ tile ∈ tiles, IsBlank tile.gap) (hapart : ∀ tile ∈ tiles.tail, tile.gap ≠ "")
    (hlast : IsBlank last) (position : Nat) :
    ∃ moved, Spells (lay tiles last).toList position moved ∧
      moved.map (·.position) = starts position tiles ∧ moved.map (·.token) = tokens := by
  induction tiles generalizing tokens position with
  | nil =>
    cases hwords
    exact ⟨[], spells_nil_iff.mpr hlast, rfl, rfl⟩
  | cons tile tiles ih =>
    cases hwords with
    | @cons _ token _ tokens hword hwords =>
      obtain ⟨hgap, hgaps⟩ := List.forall_mem_cons.mp hgaps
      have hbreak : ∀ c ∈ (lay tiles last).toList.head?, IsBreak c := fun c hc =>
        .inl (isSpace_head?_lay hgaps (fun t ht => hapart t (List.mem_of_mem_head? ht)) hlast c hc)
      obtain ⟨moved, hspells, hpositions, rfl⟩ := ih hwords hgaps
        (fun t ht => hapart t (List.mem_of_mem_tail ht))
        (position + Text.byteLength tile.gap.toList + Text.byteLength tile.word.toList)
      refine ⟨⟨token, position + Text.byteLength tile.gap.toList⟩ :: moved, ?_, ?_, rfl⟩
      · rw [lay, String.toList_append, String.toList_append, List.append_assoc]
        exact .spaces hgap (.lexeme (hword.before_break hbreak) hspells)
      · rw [List.map_cons, hpositions, starts, ← Text.byteLength_toList, ← Text.byteLength_toList]

/-- A text that is cut has a lexeme. -/
theorem ne_nil_of_tokenize {text : String} (h : tokenize text = .ok lexemes) : lexemes ≠ [] := by
  rintro rfl
  simp only [tokenize] at h
  split at h
  · cases h
  · cases h
  · next hne _ => exact hne (Except.ok.inj h)

/-- A token other than a text has no quote and no backslash in it. -/
theorem Written.plain (h : Written used more token) (htoken : isText ⟨token, position⟩ = false) :
    ∀ c ∈ used, Literal.isQuote c = false ∧ c ≠ '\\' := by
  rcases h.quoted_or_plain with ⟨quote, content, hquote, hcontent, rfl⟩ | hplain
  · rw [h.unique (.text hquote hcontent)] at htoken
    cases htoken
  · exact fun c hc => (hplain c hc).2

/-- The literals of a text that is spelled are its text tokens. -/
theorem Spells.filter_isText (h : Spells cs position lexemes) :
    lexemes.filter isText = (Literal.scanFrom position false cs).map Literal.lexeme := by
  induction h with
  | done =>
    rw [Literal.scanFrom]
    rfl
  | space hspace _ ih => rw [Literal.scanFrom_space hspace, ih]
  | @lexeme used more token position lexemes hwritten _ ih =>
    cases htoken : isText ⟨token, position⟩ with
    | false =>
      rw [List.filter_cons_of_neg (by simp [htoken]), ih,
        Literal.scanFrom_append_plain (hwritten.plain htoken)]
    | true =>
      rw [List.filter_cons_of_pos htoken, ih]
      cases token with
      | text s =>
        obtain ⟨quote, content, hquote, hcontent, rfl, rfl⟩ := hwritten.quoted
        rw [Literal.scanFrom_quoted hquote hcontent]
        rfl
      | _ => cases htoken

/-- Words that are spaced anew give the same tokens, each where its word now starts. -/
theorem Tiling.respaced {text last last' : String} {tiles others : List Tile}
    (h : Tiling 0 text tiles last lexemes) (hne : lexemes ≠ []) (hothers : Respaced tiles others)
    (hlast : IsBlank last') :
    ∃ moved, tokenize (lay others last') = .ok moved ∧
      Tiling 0 (lay others last') others last' moved ∧
        moved.map (·.token) = lexemes.map (·.token) := by
  have hwords := h.words
  rw [← hothers.words] at hwords
  obtain ⟨moved, hspells, hpositions, htokens⟩ :=
    exists_spells_lay hwords hothers.gaps hothers.apart hlast 0
  have hmoved : moved ≠ [] := by
    rintro rfl
    exact hne (List.map_eq_nil_iff.mp htokens.symm)
  have hyields := yields_iff.mpr (cutAllInPlace_eq_ok_iff.mpr hspells)
  rw [← htokens] at hwords
  exact ⟨moved, hyields.resolve_right fun hblank => hmoved hblank.2,
    ⟨rfl, hothers.gaps, hlast, hpositions, hwords⟩, htokens⟩

/-- The lexemes of a text cover it but for the spaces in between, and the spaces have no bearing on
the tokens as long as they keep the words apart. A text that is cut into lexemes consists of their
words with spaces in between, and the same words with any other spaces between them are cut into the
same tokens. The text tokens are the literals of the text, in the same order and at the same
places. -/
theorem tokenize_tiles {text : String} (h : tokenize text = .ok lexemes) :
    (∃ tiles last, Tiling 0 text tiles last lexemes) ∧
    (∀ tiles last others last', Tiling 0 text tiles last lexemes → Respaced tiles others →
      IsBlank last' → ∃ moved, tokenize (lay others last') = .ok moved ∧
        Tiling 0 (lay others last') others last' moved ∧
          moved.map (·.token) = lexemes.map (·.token)) ∧
    lexemes.filter isText = (Literal.scan text).map Literal.lexeme ∧
    ∀ literal ∈ Literal.scan text, literal.StandsIn text := by
  have hspells := spells_of_tokenize h
  refine ⟨hspells.exists_tiling, fun tiles last others last' htiling hothers hlast => ?_,
    hspells.filter_isText, fun literal => Literal.standsIn_of_mem_scan⟩
  exact htiling.respaced (ne_nil_of_tokenize h) hothers hlast

/-- Signs that begin one another and a literal with a space in it stand side by side, and come apart
at any spaces between their words. -/
theorem tokenize_tiles_crowded :
    tokenize "a!==!'b c'<=in" = .ok [⟨.name "a", 0⟩, ⟨.symbol .strictNotEqual, 1⟩,
      ⟨.symbol .bang, 4⟩, ⟨.text "b c", 5⟩, ⟨.symbol .lessEqual, 10⟩, ⟨.symbol .isIn, 12⟩] ∧
    (∃ tiles last, Tiling 0 "a!==!'b c'<=in" tiles last [⟨.name "a", 0⟩,
        ⟨.symbol .strictNotEqual, 1⟩, ⟨.symbol .bang, 4⟩, ⟨.text "b c", 5⟩,
        ⟨.symbol .lessEqual, 10⟩, ⟨.symbol .isIn, 12⟩] ∧
      ∀ others last', Respaced tiles others → IsBlank last' →
        ∃ moved, tokenize (lay others last') = .ok moved ∧ moved.map (·.token) =
          [.name "a", .symbol .strictNotEqual, .symbol .bang, .text "b c", .symbol .lessEqual,
            .symbol .isIn]) ∧
    (Literal.scan "a!==!'b c'<=in").map Literal.lexeme = [⟨.text "b c", 5⟩] := by
  have hread : tokenize "a!==!'b c'<=in" = .ok [⟨.name "a", 0⟩, ⟨.symbol .strictNotEqual, 1⟩,
      ⟨.symbol .bang, 4⟩, ⟨.text "b c", 5⟩, ⟨.symbol .lessEqual, 10⟩, ⟨.symbol .isIn, 12⟩] := by cbv
  obtain ⟨⟨tiles, last, htiling⟩, hmoved, hliterals, -⟩ := tokenize_tiles hread
  refine ⟨hread, ⟨tiles, last, htiling, fun others last' hothers hlast => ?_⟩, hliterals.symm⟩
  obtain ⟨moved, htokenize, -, htokens⟩ := hmoved tiles last others last' htiling hothers hlast
  exact ⟨moved, htokenize, htokens⟩

end Lexeme

end Questlog
