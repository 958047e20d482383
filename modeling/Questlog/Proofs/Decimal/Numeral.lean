import Questlog.Decimal.Numeral

namespace Questlog

section Run

variable {α : Type} {p : α → Bool} {run rest : List α}

theorem takeWhile_run (hrun : ∀ a ∈ run, p a = true) (hrest : ∀ a ∈ rest.head?, p a = false) :
    (run ++ rest).takeWhile p = run := by
  rw [List.takeWhile_append_of_pos hrun]
  cases rest with
  | nil => simp
  | cons a rest => simp [hrest a rfl]

theorem dropWhile_run (hrun : ∀ a ∈ run, p a = true) (hrest : ∀ a ∈ rest.head?, p a = false) :
    (run ++ rest).dropWhile p = rest := by
  rw [List.dropWhile_append_of_pos hrun]
  cases rest with
  | nil => rfl
  | cons a rest => simp [hrest a rfl]

/-- What stands behind the longest run of a class starts outside of the class. -/
theorem head?_dropWhile {cs : List α} : ∀ a ∈ (cs.dropWhile p).head?, p a = false := by
  intro a ha
  have hhead := List.head?_dropWhile_not p cs
  rw [Option.mem_def.mp ha] at hhead
  exact hhead

end Run

namespace Decimal

theorem isDigit_iff {c : Char} : isDigit c = true ↔ 48 ≤ c.toNat ∧ c.toNat ≤ 57 := by
  rw [isDigit, Bool.and_eq_true, decide_eq_true_eq, decide_eq_true_eq]
  exact Iff.rfl

variable {whole fraction rest : List Char}

/-- Digits that neither a digit nor a point follows are read as a whole number. -/
theorem readFixed_whole (hwhole : ∀ d ∈ whole, isDigit d = true)
    (hrest : ∀ c ∈ rest.head?, isDigit c = false ∧ c ≠ '.') :
    readFixed (whole ++ rest) = (⟨whole, false, [], none⟩, rest) := by
  have hend : ∀ c ∈ rest.head?, isDigit c = false := fun c hc => (hrest c hc).1
  unfold readFixed
  rw [takeWhile_run hwhole hend, dropWhile_run hwhole hend]
  cases rest with
  | nil => rfl
  | cons c rest =>
    have hpoint : c ≠ '.' := (hrest c rfl).2
    split
    · next heq => exact absurd (List.cons.inj heq).1 hpoint
    · rfl

/-- Digits around a point are read with their fraction. Nothing behind them is taken. -/
theorem readFixed_point (hwhole : ∀ d ∈ whole, isDigit d = true)
    (hfraction : ∀ d ∈ fraction, isDigit d = true) (hrest : ∀ c ∈ rest.head?, isDigit c = false) :
    readFixed (whole ++ '.' :: (fraction ++ rest)) = (⟨whole, true, fraction, none⟩, rest) := by
  have hpoint : ∀ c ∈ ('.' :: (fraction ++ rest)).head?, isDigit c = false := by
    intro c hc
    obtain rfl : '.' = c := Option.some.inj hc
    decide
  unfold readFixed
  rw [takeWhile_run hwhole hpoint, dropWhile_run hwhole hpoint]
  simp only [takeWhile_run hfraction hrest, dropWhile_run hfraction hrest]

/-- Digits alone are read as their number. -/
theorem ofChars?_whole (hne : whole ≠ []) (hwhole : ∀ d ∈ whole, isDigit d = true) :
    ofChars? whole = some ⟨ofDigits whole, 0⟩ := by
  have hread : readFixed (whole ++ []) = (⟨whole, false, [], none⟩, []) :=
    readFixed_whole hwhole (by simp)
  rw [List.append_nil] at hread
  simp [ofChars?, hread, hne, readExponent, Numeral.value]

/-- Digits around a point are read as a decimal fraction. -/
theorem ofChars?_point (hne : ¬(whole = [] ∧ fraction = []))
    (hwhole : ∀ d ∈ whole, isDigit d = true) (hfraction : ∀ d ∈ fraction, isDigit d = true) :
    ofChars? (whole ++ '.' :: fraction) =
      some ⟨ofDigits (whole ++ fraction), -fraction.length⟩ := by
  have hread : readFixed (whole ++ '.' :: (fraction ++ [])) = (⟨whole, true, fraction, none⟩, []) :=
    readFixed_point hwhole hfraction (by simp)
  rw [List.append_nil] at hread
  simp only [ofChars?, hread]
  rw [if_neg hne]
  simp [readExponent, Numeral.value]

end Decimal

end Questlog
