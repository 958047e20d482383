import Questlog.Proofs.Expression.Scan

namespace Questlog.Literal

/-- A quote character and the offset at which it stands. -/
structure Mark where
  quote : Char
  place : Nat

/-- The quotes of a text that do not stand right behind a backslash. -/
def IsMark (cs : List Char) (mark : Mark) : Prop :=
  isQuote mark.quote = true ∧ ∃ front back, cs = front ++ mark.quote :: back ∧
    Text.byteLength front = mark.place ∧ front.getLast? ≠ some '\\'

/-- A quoted region: its quote character and the offsets of the two quotes at its ends. -/
structure Span where
  quote : Char
  start : Nat
  stop : Nat

@[inherit_doc Span]
def span (literal : Literal) : Span :=
  ⟨literal.quote, literal.start, literal.stop⟩

def Span.opening (span : Span) : Mark :=
  ⟨span.quote, span.start⟩

def Span.closing (span : Span) : Mark :=
  ⟨span.quote, span.stop⟩

/-- The spans run from left to right without touching, each from a mark to the next one of its
quote character, and a mark that lies in none of them is the last of its character. -/
structure Pairs (isMark : Mark → Prop) (spans : List Span) : Prop where
  apart : spans.Pairwise fun s t => s.stop < t.start
  forward : ∀ s ∈ spans, s.start < s.stop
  opens : ∀ s ∈ spans, isMark s.opening
  closes : ∀ s ∈ spans, isMark s.closing
  next : ∀ s ∈ spans, ∀ place, s.start < place → place < s.stop → ¬isMark ⟨s.quote, place⟩
  unpaired : ∀ mark, isMark mark → (∀ s ∈ spans, ¬(s.start ≤ mark.place ∧ mark.place ≤ s.stop)) →
    ∀ later, mark.place < later → ¬isMark ⟨mark.quote, later⟩

section Marks

variable {quote : Char} {offset : Nat} {escaped : Bool} {cs content : List Char} {mark : Mark}

/-- Whether a backslash stands right before what follows some characters; `escaped` tells it of
what follows none. -/
def endsEscaped (escaped : Bool) (front : List Char) : Bool :=
  (front.getLast?.map fun c => decide (c = '\\')).getD escaped

/-- The marks of a text that starts at `offset`, where `escaped` tells whether a backslash stands
before it. -/
def marks (offset : Nat) (escaped : Bool) : List Char → List Mark
  | [] => []
  | c :: rest =>
    (if isQuote c && !escaped then [⟨c, offset⟩] else []) ++
      marks (offset + c.utf8Size) (c = '\\') rest

theorem endsEscaped_cons (escaped : Bool) (c : Char) (front : List Char) :
    endsEscaped escaped (c :: front) = endsEscaped (c = '\\') front := by
  rw [endsEscaped, endsEscaped, List.getLast?_cons]
  cases front.getLast? <;> rfl

theorem marks_append (front back : List Char) : marks offset escaped (front ++ back) =
    marks offset escaped front ++
      marks (offset + Text.byteLength front) (endsEscaped escaped front) back := by
  induction front generalizing offset escaped with
  | nil => rfl
  | cons c front ih =>
    rw [List.cons_append, marks, marks, ih, endsEscaped_cons, Text.byteLength_cons,
      List.append_assoc, Nat.add_assoc]

/-- A quote without a backslash before it is a mark. -/
theorem marks_quote (hquote : isQuote quote = true) (rest : List Char) :
    marks offset false (quote :: rest) =
      ⟨quote, offset⟩ :: marks (offset + quote.utf8Size) false rest := by
  have hbackslash : quote ≠ '\\' := by
    rintro rfl
    exact absurd hquote (by decide)
  rw [marks, hquote, decide_eq_false hbackslash]
  rfl

/-- A character that is no such quote is no mark. -/
theorem marks_other {c : Char} (h : ¬(isQuote c && !escaped) = true) (rest : List Char) :
    marks offset escaped (c :: rest) = marks (offset + c.utf8Size) (c = '\\') rest := by
  rw [marks, if_neg h, List.nil_append]

/-- The marks, listed and characterised. -/
theorem mem_marks : mark ∈ marks offset escaped cs ↔ isQuote mark.quote = true ∧
    ∃ front back, cs = front ++ mark.quote :: back ∧
      offset + Text.byteLength front = mark.place ∧ endsEscaped escaped front = false := by
  constructor
  · intro h
    induction cs generalizing offset escaped with
    | nil => cases h
    | cons c rest ih =>
      rcases List.mem_append.mp h with hhead | hrest
      · split at hhead
        · next hmark =>
          obtain rfl := List.mem_singleton.mp hhead
          obtain ⟨hquote, hopen⟩ := Bool.and_eq_true_iff.mp hmark
          exact ⟨hquote, [], rest, rfl, rfl, (Bool.not_eq_true' escaped).mp hopen⟩
        · cases hhead
      · obtain ⟨hquote, front, back, rfl, hplace, hopen⟩ := ih hrest
        refine ⟨hquote, c :: front, back, rfl, ?_, ?_⟩
        · rw [Text.byteLength_cons, ← Nat.add_assoc, hplace]
        · rw [endsEscaped_cons, hopen]
  · rintro ⟨hquote, front, back, rfl, hplace, hopen⟩
    rw [marks_append, hopen, hplace, marks_quote hquote]
    exact List.mem_append_right _ List.mem_cons_self

theorem isMark_iff_mem_marks : IsMark cs mark ↔ mark ∈ marks 0 false cs := by
  have hflag : ∀ front : List Char,
      front.getLast? ≠ some '\\' ↔ endsEscaped false front = false := by
    intro front
    rw [endsEscaped]
    cases front.getLast? <;> simp
  simp only [mem_marks, IsMark, hflag, Nat.zero_add]

theorem le_place_of_mem_marks (h : mark ∈ marks offset escaped cs) : offset ≤ mark.place := by
  obtain ⟨-, front, back, -, hplace, -⟩ := mem_marks.mp h
  omega

/-- Marks come from left to right. -/
theorem sorted_marks : (marks offset escaped cs).Pairwise (·.place < ·.place) := by
  induction cs generalizing offset escaped with
  | nil => exact .nil
  | cons c rest ih =>
    refine List.pairwise_append.mpr ⟨by split <;> simp, ih, ?_⟩
    intro first hfirst later hlater
    have hbehind := le_place_of_mem_marks hlater
    have hwidth := Char.utf8Size_pos c
    split at hfirst
    · obtain rfl := List.mem_singleton.mp hfirst
      dsimp only
      omega
    · cases hfirst

/-- A content holds no mark of the quote that encloses it. -/
theorem quote_ne_of_encloses (h : Encloses quote content)
    (hmark : mark ∈ marks offset false content) : mark.quote ≠ quote := by
  obtain ⟨-, front, back, hcontent, -, hopen⟩ := mem_marks.mp hmark
  rintro rfl
  have hbackslash := h.behind front back hcontent
  rw [endsEscaped, hbackslash] at hopen
  cases hopen

/-- A literal that is read goes up to the next mark of its quote. -/
theorem marks_enclosed (hquote : isQuote quote = true) (h : Encloses quote content)
    (more : List Char) : marks offset false (content ++ quote :: more) =
      marks offset false content ++ ⟨quote, offset + Text.byteLength content⟩ ::
        marks (offset + Text.byteLength content + quote.utf8Size) false more := by
  have hopen : endsEscaped false content = false := by
    rw [endsEscaped]
    cases hlast : content.getLast? with
    | none => rfl
    | some c =>
      have hbackslash : c ≠ '\\' := by
        rintro rfl
        exact h.last hlast
      exact decide_eq_false hbackslash
  rw [marks_append, hopen, marks_quote hquote]

/-- A quote that opens no literal has no mark of its kind behind it. -/
theorem quote_ne_of_readContent {outer acc : List Char} {hcs : cs.length ≤ outer.length}
    (h : readContent quote outer acc escaped cs hcs = none)
    (hmark : mark ∈ marks offset escaped cs) : mark.quote ≠ quote := by
  induction cs generalizing acc escaped offset with
  | nil => cases hmark
  | cons c rest ih =>
    unfold readContent at h
    split at h
    · cases h
    · next hpasses =>
      rcases List.mem_append.mp hmark with hhead | hrest
      · split at hhead
        · next hopens =>
          obtain rfl := List.mem_singleton.mp hhead
          rintro rfl
          exact hpasses ⟨rfl, by simpa using (Bool.and_eq_true_iff.mp hopens).2⟩
        · cases hhead
      · exact ih h hrest

end Marks

section Pairing

variable {first close : Mark} {ms inside later : List Mark} {spans : List Span}

theorem le_place_of_mem (hsorted : ∀ m ∈ ms, first.place < m.place) {mark : Mark}
    (hmark : mark ∈ first :: ms) : first.place ≤ mark.place := by
  rcases List.mem_cons.mp hmark with rfl | hmark
  · exact Nat.le_refl _
  · exact Nat.le_of_lt (hsorted mark hmark)

/-- A first mark that no other of its character follows takes part in no span. -/
theorem pairs_cons_of_alone (hsorted : ∀ m ∈ ms, first.place < m.place)
    (halone : ∀ m ∈ ms, m.quote ≠ first.quote) :
    Pairs (· ∈ first :: ms) spans ↔ Pairs (· ∈ ms) spans := by
  constructor
  · intro h
    have hcloses : ∀ s ∈ spans, s.closing ∈ ms := by
      intro s hs
      refine (List.mem_cons.mp (h.closes s hs)).resolve_left fun hfirst => ?_
      have hstart : first.place ≤ s.start := le_place_of_mem hsorted (h.opens s hs)
      have hstop : s.stop = first.place := congrArg Mark.place hfirst
      have hforward := h.forward s hs
      omega
    refine ⟨h.apart, h.forward, fun s hs => ?_, hcloses, fun s hs place hlt hgt hmem => ?_,
      fun mark hmark hout place hlt hmem => ?_⟩
    · refine (List.mem_cons.mp (h.opens s hs)).resolve_left fun hfirst => ?_
      have hquote : s.quote = first.quote := congrArg Mark.quote hfirst
      exact halone _ (hcloses s hs) hquote
    · exact h.next s hs place hlt hgt (List.mem_cons_of_mem _ hmem)
    · exact h.unpaired mark (List.mem_cons_of_mem _ hmark) hout place hlt
        (List.mem_cons_of_mem _ hmem)
  · intro h
    refine ⟨h.apart, h.forward, fun s hs => List.mem_cons_of_mem _ (h.opens s hs),
      fun s hs => List.mem_cons_of_mem _ (h.closes s hs), fun s hs place hlt hgt hmem => ?_,
      fun mark hmark hout place hlt hmem => ?_⟩
    · have hstart : first.place < s.start := hsorted _ (h.opens s hs)
      rcases List.mem_cons.mp hmem with rfl | hmem
      · exact Nat.lt_asymm hstart hlt
      · exact h.next s hs place hlt hgt hmem
    · rcases List.mem_cons.mp hmark with rfl | hmark
      · rcases List.mem_cons.mp hmem with hsame | hmem
        · exact absurd (congrArg Mark.place hsame) (Nat.ne_of_gt hlt)
        · exact halone _ hmem rfl
      · have hplace := hsorted mark hmark
        rcases List.mem_cons.mp hmem with rfl | hmem
        · exact Nat.lt_asymm hplace hlt
        · exact h.unpaired mark hmark hout place hlt hmem

/-- The first of some sorted marks and the next one of its character, with other marks in between
and behind. -/
structure Meets (first : Mark) (inside : List Mark) (close : Mark) (later : List Mark) : Prop where
  sorted : (first :: (inside ++ close :: later)).Pairwise (·.place < ·.place)
  close_quote : close.quote = first.quote
  inside_quote : ∀ mark ∈ inside, mark.quote ≠ first.quote

namespace Meets

variable {mark : Mark}

theorem first_lt (h : Meets first inside close later) :
    ∀ mark ∈ inside ++ close :: later, first.place < mark.place :=
  (List.pairwise_cons.mp h.sorted).1

theorem lt_close (h : Meets first inside close later) : ∀ mark ∈ inside, mark.place < close.place :=
  fun mark hmark => (List.pairwise_append.mp (List.pairwise_cons.mp h.sorted).2).2.2 mark hmark
    close List.mem_cons_self

theorem close_lt (h : Meets first inside close later) : ∀ mark ∈ later, close.place < mark.place :=
  (List.pairwise_cons.mp (List.pairwise_append.mp (List.pairwise_cons.mp h.sorted).2).2.1).1

theorem close_mem : close ∈ inside ++ close :: later :=
  List.mem_append_right _ List.mem_cons_self

theorem first_lt_close (h : Meets first inside close later) : first.place < close.place :=
  h.first_lt close close_mem

theorem mem_of_mem_later (hmark : mark ∈ later) : mark ∈ first :: (inside ++ close :: later) :=
  List.mem_cons_of_mem _ (List.mem_append_right _ (List.mem_cons_of_mem _ hmark))

/-- A mark behind the closing one is one of the later ones. -/
theorem mem_later (h : Meets first inside close later)
    (hmark : mark ∈ first :: (inside ++ close :: later)) (hplace : close.place < mark.place) :
    mark ∈ later := by
  have hfirst := h.first_lt_close
  rcases List.mem_cons.mp hmark with rfl | hmark
  · omega
  · rcases List.mem_append.mp hmark with hmark | hmark
    · have hbefore := h.lt_close mark hmark
      omega
    · refine (List.mem_cons.mp hmark).resolve_left ?_
      rintro rfl
      exact Nat.lt_irrefl _ hplace

/-- A mark between the two is one of those inside. -/
theorem mem_inside (h : Meets first inside close later)
    (hmark : mark ∈ first :: (inside ++ close :: later)) (hafter : first.place < mark.place)
    (hbefore : mark.place < close.place) : mark ∈ inside := by
  rcases List.mem_cons.mp hmark with rfl | hmark
  · exact absurd hafter (Nat.lt_irrefl _)
  · refine (List.mem_append.mp hmark).resolve_right fun hmark => ?_
    exact absurd hbefore (Nat.not_lt.mpr (le_place_of_mem h.close_lt hmark))

end Meets

namespace Pairs

variable {s : Span}

/-- The first mark is the opening one of a span, if one starts there. -/
theorem opening_eq (hsorted : ∀ m ∈ ms, first.place < m.place)
    (h : Pairs (· ∈ first :: ms) spans) (hs : s ∈ spans) (hstart : s.start ≤ first.place) :
    s.opening = first := by
  refine (List.mem_cons.mp (h.opens s hs)).resolve_right fun hmore => ?_
  exact absurd (hsorted _ hmore) (Nat.not_lt.mpr hstart)

/-- Outside of all spans the first mark would be the last of its character. -/
theorem exists_opening (hmeets : Meets first inside close later)
    (h : Pairs (· ∈ first :: (inside ++ close :: later)) spans) :
    ∃ s ∈ spans, s.opening = first := by
  refine Classical.byContradiction fun hnone => ?_
  refine h.unpaired first List.mem_cons_self (fun s hs hin => ?_) close.place
    hmeets.first_lt_close ?_
  · exact hnone ⟨s, hs, h.opening_eq hmeets.first_lt hs hin.1⟩
  · rw [← hmeets.close_quote]
    exact List.mem_cons_of_mem _ Meets.close_mem

/-- The span that the first mark opens is closed by the next one of its character. -/
theorem stop_eq (hmeets : Meets first inside close later)
    (h : Pairs (· ∈ first :: (inside ++ close :: later)) spans) (hs : s ∈ spans)
    (hopening : s.opening = first) : s.stop = close.place := by
  have hforward := h.forward s hs
  have hquote : s.quote = first.quote := congrArg Mark.quote hopening
  have hplace : s.start = first.place := congrArg Mark.place hopening
  rcases List.mem_cons.mp (h.closes s hs) with hsame | hmark
  · have hstop : s.stop = first.place := congrArg Mark.place hsame
    omega
  · rcases List.mem_append.mp hmark with hearly | hmark
    · exact absurd hquote (hmeets.inside_quote _ hearly)
    · rcases List.mem_cons.mp hmark with hsame | hlate
      · exact congrArg Mark.place hsame
      · refine absurd ?_ (h.next s hs close.place (hplace ▸ hmeets.first_lt_close)
          (hmeets.close_lt _ hlate))
        rw [hquote, ← hmeets.close_quote]
        exact List.mem_cons_of_mem _ Meets.close_mem

/-- The first mark and the one that it meets are the ends of the first span. -/
theorem eq_cons (hmeets : Meets first inside close later)
    (h : Pairs (· ∈ first :: (inside ++ close :: later)) spans) :
    ∃ rest, spans = ⟨first.quote, first.place, close.place⟩ :: rest := by
  obtain ⟨s, hs, hopening⟩ := h.exists_opening hmeets
  obtain ⟨front, rest, rfl⟩ := List.append_of_mem hs
  have hplace : s.start = first.place := congrArg Mark.place hopening
  have hnil : front = [] := by
    refine List.eq_nil_iff_forall_not_mem.mpr fun t ht => ?_
    have hclosing := h.closes t (List.mem_append_left _ ht)
    have hstop : first.place ≤ t.stop := le_place_of_mem hmeets.first_lt hclosing
    have happart := (List.pairwise_append.mp h.apart).2.2 t ht s List.mem_cons_self
    omega
  have hspan : s = ⟨first.quote, first.place, close.place⟩ := by
    rw [← h.stop_eq hmeets hs hopening, ← hopening]
    rfl
  exact ⟨rest, by rw [hnil, List.nil_append, hspan]⟩

/-- The spans behind the first one pair the marks behind it. -/
theorem tail (hmeets : Meets first inside close later)
    (h : Pairs (· ∈ first :: (inside ++ close :: later))
      (⟨first.quote, first.place, close.place⟩ :: spans)) : Pairs (· ∈ later) spans := by
  obtain ⟨hapart, hrest⟩ := List.pairwise_cons.mp h.apart
  obtain ⟨-, hforward⟩ := List.forall_mem_cons.mp h.forward
  obtain ⟨-, hopens⟩ := List.forall_mem_cons.mp h.opens
  obtain ⟨-, hcloses⟩ := List.forall_mem_cons.mp h.closes
  obtain ⟨-, hnext⟩ := List.forall_mem_cons.mp h.next
  refine ⟨hrest, hforward, fun t ht => ?_, fun t ht => ?_, fun t ht place hlt hgt hmark => ?_,
    fun mark hmark hout place hlt hmark' => ?_⟩
  · exact hmeets.mem_later (hopens t ht) (hapart t ht)
  · exact hmeets.mem_later (hcloses t ht) (Nat.lt_trans (hapart t ht) (hforward t ht))
  · exact hnext t ht place hlt hgt (Meets.mem_of_mem_later hmark)
  · have hpast := hmeets.close_lt mark hmark
    refine h.unpaired mark (Meets.mem_of_mem_later hmark) ?_ place hlt
      (Meets.mem_of_mem_later hmark')
    exact List.forall_mem_cons.mpr ⟨fun hin => absurd hpast (Nat.not_lt.mpr hin.2), hout⟩

/-- The first mark and the one that it meets make a span in front of those behind them. -/
theorem cons (hmeets : Meets first inside close later) (h : Pairs (· ∈ later) spans) :
    Pairs (· ∈ first :: (inside ++ close :: later))
      (⟨first.quote, first.place, close.place⟩ :: spans) := by
  have hopens : ∀ t ∈ spans, close.place < t.start := fun t ht => hmeets.close_lt _ (h.opens t ht)
  constructor
  case apart => exact List.pairwise_cons.mpr ⟨hopens, h.apart⟩
  case forward => exact List.forall_mem_cons.mpr ⟨hmeets.first_lt_close, h.forward⟩
  case opens =>
    exact List.forall_mem_cons.mpr ⟨List.mem_cons_self,
      fun t ht => Meets.mem_of_mem_later (h.opens t ht)⟩
  case closes =>
    refine List.forall_mem_cons.mpr ⟨?_, fun t ht => Meets.mem_of_mem_later (h.closes t ht)⟩
    rw [Span.closing, ← hmeets.close_quote]
    exact List.mem_cons_of_mem _ Meets.close_mem
  case next =>
    refine List.forall_mem_cons.mpr ⟨fun place hlt hgt hmark => ?_,
      fun t ht place hlt hgt hmark => ?_⟩
    · exact hmeets.inside_quote _ (hmeets.mem_inside hmark hlt hgt) rfl
    · exact h.next t ht place hlt hgt (hmeets.mem_later hmark (Nat.lt_trans (hopens t ht) hlt))
  case unpaired =>
    intro mark hmark hout place hlt hmark'
    obtain ⟨hhead, htail⟩ := List.forall_mem_cons.mp hout
    have hstart := le_place_of_mem hmeets.first_lt hmark
    have hpast : close.place < mark.place := Nat.lt_of_not_le fun hle => hhead ⟨hstart, hle⟩
    exact h.unpaired mark (hmeets.mem_later hmark hpast) htail place hlt
      (hmeets.mem_later hmark' (Nat.lt_trans hpast hlt))

end Pairs

/-- The first mark is paired with the one that it meets, and the marks behind among themselves. -/
theorem pairs_cons_of_meets (hmeets : Meets first inside close later) :
    Pairs (· ∈ first :: (inside ++ close :: later)) spans ↔
      ∃ rest, spans = ⟨first.quote, first.place, close.place⟩ :: rest ∧ Pairs (· ∈ later) rest := by
  constructor
  · intro h
    obtain ⟨rest, rfl⟩ := h.eq_cons hmeets
    exact ⟨rest, rfl, h.tail hmeets⟩
  · rintro ⟨rest, rfl, h⟩
    exact h.cons hmeets

end Pairing

/-- A scan pairs the marks from where it starts, and there is no other way to pair them. -/
theorem pairs_marks_iff (offset : Nat) (escaped : Bool) (cs : List Char) : ∀ spans,
    Pairs (· ∈ marks offset escaped cs) spans ↔ spans = (scanFrom offset escaped cs).map span := by
  induction offset, escaped, cs using scanFrom.induct with
  | case1 offset escaped =>
    intro spans
    rw [scanFrom, marks]
    constructor
    · intro h
      exact List.eq_nil_iff_forall_not_mem.mpr fun s hs => List.not_mem_nil (h.opens s hs)
    · rintro rfl
      exact ⟨.nil, by simp, by simp, by simp, by simp, by simp⟩
  | case2 offset escaped c rest hmark hread ih =>
    intro spans
    obtain ⟨hquote, hopen⟩ := Bool.and_eq_true_iff.mp hmark
    obtain rfl : escaped = false := (Bool.not_eq_true' escaped).mp hopen
    have hsorted : (marks offset false (c :: rest)).Pairwise (·.place < ·.place) := sorted_marks
    rw [marks_quote hquote] at hsorted ⊢
    obtain ⟨hfirst, -⟩ := List.pairwise_cons.mp hsorted
    rw [pairs_cons_of_alone hfirst fun m => quote_ne_of_readContent hread, ih, scanFrom,
      if_pos hmark]
    simp only [hread]
  | case3 offset escaped c rest hmark content more _ hread found ih =>
    intro spans
    obtain ⟨hquote, hopen⟩ := Bool.and_eq_true_iff.mp hmark
    obtain rfl : escaped = false := (Bool.not_eq_true' escaped).mp hopen
    obtain ⟨rfl, hcontent⟩ := readContent_eq_some.mp hread
    have hsorted : (marks offset false (c :: (content ++ c :: more))).Pairwise
      (·.place < ·.place) := sorted_marks
    rw [marks_quote hquote, marks_enclosed hquote hcontent] at hsorted ⊢
    rw [pairs_cons_of_meets ⟨hsorted, rfl, fun m => quote_ne_of_encloses hcontent⟩,
      scanFrom_enclosed hquote hcontent]
    constructor
    · rintro ⟨later, rfl, hlater⟩
      rw [(ih later).mp hlater]
      rfl
    · rintro rfl
      exact ⟨_, rfl, (ih _).mpr rfl⟩
  | case4 offset escaped c rest hmark ih =>
    intro spans
    rw [marks_other hmark, ih, scanFrom, if_neg hmark]

/-- A scan goes from left to right and looks ahead for each closing quote; the description of its
spans as a whole leaves no choice. The literals of a text pair its marks, each with the next one of
its character, and no other list of spans does. -/
theorem pairs_iff_eq_scan (text : String) (spans : List Span) :
    Pairs (IsMark text.toList) spans ↔ spans = (scan text).map span := by
  have hmarks : IsMark text.toList = (· ∈ marks 0 false text.toList) :=
    funext fun _ => propext isMark_iff_mem_marks
  rw [hmarks, scan, pairs_marks_iff]

end Questlog.Literal
