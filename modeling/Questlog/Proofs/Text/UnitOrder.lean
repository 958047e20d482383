import Mathlib

namespace Questlog.Text

/-- The code units of a character in UTF-16: the character itself, or a pair of surrogates for one
that does not fit in sixteen bits. -/
def unitsOf (c : Char) : List UInt16 :=
  if c.toNat < 0x10000 then
    [.ofNat c.toNat]
  else
    [.ofNat (0xD800 + (c.toNat - 0x10000) / 0x400), .ofNat (0xDC00 + (c.toNat - 0x10000) % 0x400)]

/-- The code units of a text in UTF-16. -/
def units (s : String) : List UInt16 :=
  s.toList.flatMap unitsOf

/-- Whether the first character stands behind the surrogates and the second one needs a pair of
them. -/
def isSplit (c d : Char) : Bool :=
  0xE000 ≤ c.toNat && c.toNat < 0x10000 && 0x10000 ≤ d.toNat

/-- Whether the surrogates stand between two characters, in that one of them is written with
surrogates and the other stands behind these. -/
def straddles (c d : Char) : Bool :=
  isSplit c d || isSplit d c

/-- Whether the first characters in which two texts differ straddle the surrogates. One of these
characters stands behind the surrogates and the other is written with a pair of them. -/
def crosses : List Char → List Char → Bool
  | c :: cs, d :: ds => if c = d then crosses cs ds else straddles c d
  | _, _ => false

variable {c d : Char} {cs ds : List Char}

theorem straddles_comm (c d : Char) : straddles c d = straddles d c :=
  Bool.or_comm _ _

section Units

variable {m n : Nat} {us vs : List UInt16}

theorem compare_of_lt (h : m < n) (hn : n < 0x10000) :
    compare (UInt16.ofNat m :: us) (UInt16.ofNat n :: vs) = .lt := by
  have hlt : compare (UInt16.ofNat m) (UInt16.ofNat n) = .lt := by
    rw [UInt16.compare_eq_toNat_compare_toNat, UInt16.toNat_ofNat_of_lt' (Nat.lt_trans h hn),
      UInt16.toNat_ofNat_of_lt' hn]
    exact Nat.compare_eq_lt.mpr h
  rw [List.compare_cons_cons, hlt, Ordering.lt_then]

theorem compare_of_gt (h : n < m) (hm : m < 0x10000) :
    compare (UInt16.ofNat m :: us) (UInt16.ofNat n :: vs) = .gt := by
  rw [Std.OrientedOrd.eq_swap, compare_of_lt h hm, Ordering.swap_lt]

theorem compare_append (front : List UInt16) :
    compare (front ++ us) (front ++ vs) = compare us vs := by
  induction front with
  | nil => rfl
  | cons u front ih =>
    rw [List.cons_append, List.cons_append, List.compare_cons_cons, Std.ReflOrd.compare_self,
      Ordering.eq_then, ih]

end Units

/-- Two different characters are told apart by their units, whatever stands behind them. -/
theorem compare_unitsOf_of_lt (h : c < d) (us vs : List UInt16) :
    compare (unitsOf c ++ us) (unitsOf d ++ vs) = if straddles c d then .gt else .lt := by
  have hlt : c.toNat < d.toNat := h
  have hbound : d.toNat < 0x110000 := by
    rcases d.valid with hlow | hhigh
    · exact Nat.lt_trans hlow (by decide)
    · exact hhigh.2
  have hvalid : c.toNat < 0xD800 ∨ 0xDFFF < c.toNat := c.valid.imp_right And.left
  have hstraddles : straddles c d = true ↔
      0xE000 ≤ c.toNat ∧ c.toNat < 0x10000 ∧ 0x10000 ≤ d.toNat := by
    simp only [straddles, isSplit, Bool.or_eq_true, Bool.and_eq_true, decide_eq_true_eq]
    omega
  unfold unitsOf
  split
  · next hc =>
    split
    · next hd =>
      rw [if_neg (by rw [hstraddles]; omega)]
      exact compare_of_lt hlt hd
    · next hd =>
      by_cases hbehind : 0xE000 ≤ c.toNat
      · rw [if_pos (by rw [hstraddles]; omega)]
        exact compare_of_gt (by omega) hc
      · rw [if_neg (by rw [hstraddles]; omega)]
        exact compare_of_lt (by omega) (by omega)
  · next hc =>
    rw [if_neg (by omega), if_neg (by rw [hstraddles]; omega)]
    -- The first units may be the same, and then the second ones differ.
    by_cases hsame : (c.toNat - 0x10000) / 0x400 = (d.toNat - 0x10000) / 0x400
    · simp only [hsame, List.cons_append]
      rw [List.compare_cons_cons, Std.ReflOrd.compare_self, Ordering.eq_then]
      exact compare_of_lt (by omega) (by omega)
    · exact compare_of_lt (by omega) (by omega)

/-- The first different characters decide, and the order of their units is the opposite one where
they straddle the surrogates. -/
theorem compare_unitsOf (h : c ≠ d) (us vs : List UInt16) :
    compare (unitsOf c ++ us) (unitsOf d ++ vs) =
      if straddles c d then (compare c d).swap else compare c d := by
  rcases lt_or_gt_of_ne h with hlt | hgt
  · rw [compare_unitsOf_of_lt hlt, compare_lt_iff_lt.mpr hlt, Ordering.swap_lt]
  · rw [Std.OrientedOrd.eq_swap, compare_unitsOf_of_lt hgt, compare_gt_iff_gt.mpr hgt,
      straddles_comm d c, apply_ite Ordering.swap, Ordering.swap_lt, Ordering.swap_gt]

theorem compare_nil_units (d : Char) (ds : List Char) :
    compare [] ((d :: ds).flatMap unitsOf) = .lt := by
  rw [List.flatMap_cons, unitsOf]
  split <;> rfl

/-- The order by code units is the order by characters, or its opposite where the first different
characters straddle the surrogates. -/
theorem compare_flatMap_unitsOf (cs ds : List Char) :
    compare (cs.flatMap unitsOf) (ds.flatMap unitsOf) =
      if crosses cs ds then (compare cs ds).swap else compare cs ds := by
  induction cs generalizing ds with
  | nil =>
    cases ds with
    | nil => rfl
    | cons d ds => rw [List.flatMap_nil, compare_nil_units]; rfl
  | cons c cs ih =>
    cases ds with
    | nil => rw [Std.OrientedOrd.eq_swap, List.flatMap_nil, compare_nil_units]; rfl
    | cons d ds =>
      rw [List.flatMap_cons, List.flatMap_cons, List.compare_cons_cons, crosses]
      by_cases hsame : c = d
      · subst hsame
        rw [if_pos rfl, compare_append, ih, Std.ReflOrd.compare_self, Ordering.eq_then]
      · have hne : compare c d ≠ .eq := fun heq => hsame (compare_eq_iff_eq.mp heq)
        have hthen : (compare c d).then (compare cs ds) = compare c d := by
          cases horder : compare c d with
          | eq => exact absurd horder hne
          | lt => rfl
          | gt => rfl
        rw [if_neg hsame, compare_unitsOf hsame, hthen]

theorem compare_lt_of_lt (h : cs < ds) : compare cs ds = .lt := by
  induction h with
  | nil => rfl
  | cons _ ih => rw [List.compare_cons_cons, Std.ReflOrd.compare_self, Ordering.eq_then, ih]
  | rel hlt => rw [List.compare_cons_cons, compare_lt_iff_lt.mpr hlt, Ordering.lt_then]

/-- Texts are compared by their characters. -/
theorem compare_toList (s t : String) : compare s t = compare s.toList t.toList := by
  rcases lt_trichotomy s t with hlt | rfl | hgt
  · rw [compare_lt_iff_lt.mpr hlt, compare_lt_of_lt (String.lt_iff_toList_lt.mp hlt)]
  · rw [compare_eq_iff_eq.mpr rfl, Std.ReflOrd.compare_self]
  · rw [compare_gt_iff_gt.mpr hgt, Std.OrientedOrd.eq_swap,
      compare_lt_of_lt (String.lt_iff_toList_lt.mp hgt), Ordering.swap_lt]

/-- Texts in which some first characters straddle the surrogates are different. -/
theorem ne_of_crosses (h : crosses cs ds = true) : cs ≠ ds := by
  rintro rfl
  induction cs with
  | nil => exact Bool.false_ne_true h
  | cons c cs ih =>
    rw [crosses, if_pos rfl] at h
    exact ih h

end Questlog.Text
