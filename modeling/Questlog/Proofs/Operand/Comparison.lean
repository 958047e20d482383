import Mathlib
import Questlog.Expression.Eval

namespace Questlog

namespace Binary64

variable {x y : Binary64}

theorem swap_compare? (x y : Binary64) : (x.compare? y).map Ordering.swap = y.compare? x := by
  cases x with
  | nan => cases y <;> rfl
  | infinite m =>
    cases y with
    | nan => rfl
    | infinite n => exact congrArg some Std.OrientedOrd.eq_swap.symm
    | finite => cases m <;> rfl
  | finite =>
    cases y with
    | nan => rfl
    | infinite n => cases n <;> rfl
    | finite => exact congrArg some Std.OrientedOrd.eq_swap.symm

/-- Numbers are equal if neither precedes the other. -/
theorem equals_iff : x.equals y = true ↔ x.compare? y = some .eq := by
  rw [equals, beq_iff_eq]

theorem equals_comm (x y : Binary64) : x.equals y = y.equals x := by
  rw [equals, equals, ← swap_compare? x y]
  cases x.compare? y with
  | none => rfl
  | some order => cases order <;> rfl

end Binary64

namespace Operand

variable {a b : Operand}

/-- Operands are compared from either side alike. -/
theorem swap_compare? (a b : Operand) : (a.compare? b).map Ordering.swap = b.compare? a := by
  unfold compare?
  cases a.primitive with
  | text s =>
    cases b.primitive with
    | text t => exact congrArg some Std.OrientedOrd.eq_swap.symm
    | _ => exact Binary64.swap_compare? _ _
  | _ => cases b.primitive <;> exact Binary64.swap_compare? _ _

theorem compare?_eq_comm : a.compare? b = some .eq ↔ b.compare? a = some .eq := by
  rw [← swap_compare? a b]
  cases a.compare? b with
  | none => rfl
  | some order => cases order <;> simp

theorem compare?_eq_lt : a.compare? b = some .lt ↔ b.compare? a = some .gt := by
  rw [← swap_compare? a b]
  cases a.compare? b with
  | none => simp
  | some order => cases order <;> simp

/-- A truth value stands in the order where its number does. -/
theorem compare?_bool (b : Bool) (a : Operand) :
    (bool b).compare? a = (number (.ofNat b.toNat)).compare? a := by
  unfold compare?
  cases a.primitive <;> rfl

/-- Truth values are ordered as numbers, so they are equal if they are the same. -/
theorem compare?_bools (a b : Bool) : (bool a).compare? (bool b) = some .eq ↔ a = b := by
  cases a <;> cases b <;> decide +kernel

/-- Texts are equal in the order if they are the same. -/
theorem compare?_texts (s t : String) : (text s).compare? (text t) = some .eq ↔ s = t := by
  have hcompare : (text s).compare? (text t) = some (compare s t) := rfl
  rw [hcompare, Option.some_inj, Std.LawfulEqOrd.compare_eq_iff_eq]

/-- Two operands that equality brings to one kind: neither is `null`, and they are no two lists. -/
structure Meets (a b : Operand) : Prop where
  left_ne_null : a ≠ null
  right_ne_null : b ≠ null
  not_lists : ∀ items others, a = list items → b ≠ list others

/-- Whatever the left operand is converted to, it still meets the right one. -/
theorem Meets.left {p : Operand} (h : Meets a b) (hnull : p ≠ null) (hlist : ∀ items, p ≠ list items) :
    Meets p b :=
  ⟨hnull, h.right_ne_null, fun items _ hp => absurd hp (hlist items)⟩

theorem Meets.symm (h : Meets a b) : Meets b a :=
  ⟨h.right_ne_null, h.left_ne_null, fun items others hb ha => h.not_lists others items ha hb⟩

/-- The kinds that equality converts are compared as the order compares them. -/
theorem looseEq_of_meets (h : Meets a b) : a.looseEq b = true ↔ a.compare? b = some .eq := by
  fun_induction looseEq a b with
  | case1 => exact absurd rfl h.left_ne_null
  | case2 b hb => exact absurd rfl h.left_ne_null
  | case3 a ha => exact absurd rfl h.right_ne_null
  | case4 a b => rw [compare?_bools, beq_iff_eq]
  | case5 x y => exact Binary64.equals_iff
  | case6 s t => rw [compare?_texts, beq_iff_eq]
  | case7 items others => exact absurd rfl (h.not_lists items others rfl)
  | case8 x s => exact Binary64.equals_iff
  | case9 s x =>
    rw [Binary64.equals_comm]
    exact Binary64.equals_iff
  -- Each conversion leaves the place of its operand in the order as it is.
  | case10 b a hnull hbool ih =>
    rw [compare?_bool]
    exact ih (h.left Operand.noConfusion fun _ => Operand.noConfusion)
  | case11 a b hnull hbool ih =>
    rw [compare?_eq_comm, compare?_bool]
    exact ih (h.symm.left Operand.noConfusion fun _ => Operand.noConfusion)
  | case12 items a hnull hlist hbool ih =>
    exact ih (h.left Operand.noConfusion fun _ => Operand.noConfusion)
  | case13 a items hnull hlist hbool ih =>
    exact ih (h.symm.left Operand.noConfusion fun _ => Operand.noConfusion).symm

/-- Nothing is equal to `null` but itself, and no list to a list. -/
theorem looseEq_of_not_meets (h : ¬ Meets a b) : a.looseEq b = true ↔ a = null ∧ b = null := by
  cases a with
  | null => cases b <;> simp [looseEq]
  | list items =>
    cases b with
    | null => simp [looseEq]
    | list others => simp [looseEq]
    | _ => exact absurd ⟨Operand.noConfusion, Operand.noConfusion, fun _ _ _ => Operand.noConfusion⟩ h
  | _ =>
    cases b with
    | null => simp [looseEq]
    | _ => exact absurd ⟨Operand.noConfusion, Operand.noConfusion, fun _ _ => Operand.noConfusion⟩ h

/-- Loose equality is symmetric. -/
theorem looseEq_comm (a b : Operand) : a.looseEq b = b.looseEq a := by
  rw [Bool.eq_iff_iff]
  by_cases h : Meets a b
  · rw [looseEq_of_meets h, looseEq_of_meets h.symm, compare?_eq_comm]
  · have hback : ¬ Meets b a := fun hmeets => h hmeets.symm
    rw [looseEq_of_not_meets h, looseEq_of_not_meets hback, and_comm]

/-- Equal operands stand at one place in the order. -/
theorem compare?_of_looseEq (h : a.looseEq b = true) : a.compare? b = some .eq := by
  by_cases hmeets : Meets a b
  · exact (looseEq_of_meets hmeets).mp h
  · obtain ⟨rfl, rfl⟩ := (looseEq_of_not_meets hmeets).mp h
    rfl

/-- Strict equality is symmetric. -/
theorem strictEq_comm (a b : Operand) : a.strictEq b = b.strictEq a := by
  cases a with
  | null | list => cases b <;> rfl
  | bool p =>
    cases b with
    | bool q => exact BEq.comm
    | _ => rfl
  | number x =>
    cases b with
    | number y => exact Binary64.equals_comm x y
    | _ => rfl
  | text s =>
    cases b with
    | text t => exact BEq.comm
    | _ => rfl

/-- Strict equality is the finer one. -/
theorem looseEq_of_strictEq (h : a.strictEq b = true) : a.looseEq b = true := by
  cases a <;> cases b <;> simp_all [strictEq, looseEq]

end Operand

/-- Whether an operator gives `true` between two operands. -/
def BinaryOp.Holds (op : BinaryOp) (a b : Operand) : Prop :=
  op.apply a b = .ok (.bool true)

namespace Comparison

open BinaryOp (Holds)

variable {a b : Operand}

theorem holds_iff {c : Comparison} : Holds (.compare c) a b ↔ c.holds a b = true := by
  simp [Holds, BinaryOp.apply]

theorem holds_strictEqual : Holds .strictEqual a b ↔ a.strictEq b = true := by
  simp [Holds, BinaryOp.apply]

theorem holds_equal : Holds (.compare .equal) a b ↔ a.looseEq b = true :=
  holds_iff

theorem holds_less : Holds (.compare .less) a b ↔ a.compare? b = some .lt := by
  rw [holds_iff, holds, beq_iff_eq]

theorem holds_greater : Holds (.compare .greater) a b ↔ a.compare? b = some .gt := by
  rw [holds_iff, holds, beq_iff_eq]

theorem holds_lessEqual :
    Holds (.compare .lessEqual) a b ↔ a.compare? b = some .lt ∨ a.compare? b = some .eq := by
  rw [holds_iff, holds, Bool.or_eq_true, beq_iff_eq, beq_iff_eq]

theorem holds_greaterEqual :
    Holds (.compare .greaterEqual) a b ↔ a.compare? b = some .gt ∨ a.compare? b = some .eq := by
  rw [holds_iff, holds, Bool.or_eq_true, beq_iff_eq, beq_iff_eq]

/-- Equality converts its operands kind by kind and order turns both into numbers at once, and still
they agree. The comparisons of expressions fit together on all operands: equality is symmetric,
order turns round with its sides, and equal operands stand at one place in the order. -/
theorem comparisons_cohere (a b : Operand) :
    (Holds (.compare .equal) a b ↔ Holds (.compare .equal) b a) ∧
    (Holds .strictEqual a b ↔ Holds .strictEqual b a) ∧
    (Holds (.compare .less) a b ↔ Holds (.compare .greater) b a) ∧
    (Holds (.compare .lessEqual) a b ↔ Holds (.compare .greaterEqual) b a) ∧
    (Holds .strictEqual a b → Holds (.compare .equal) a b) ∧
    (Holds (.compare .equal) a b →
      Holds (.compare .lessEqual) a b ∧ Holds (.compare .greaterEqual) a b ∧
        ¬ Holds (.compare .less) a b ∧ ¬ Holds (.compare .greater) a b) ∧
    ¬ (Holds (.compare .less) a b ∧ Holds (.compare .greater) a b) := by
  simp only [holds_equal, holds_strictEqual, holds_less, holds_greater, holds_lessEqual,
    holds_greaterEqual]
  have hless : a.compare? b = some .lt ↔ b.compare? a = some .gt := Operand.compare?_eq_lt
  refine ⟨?_, ?_, hless, or_congr hless Operand.compare?_eq_comm, Operand.looseEq_of_strictEq,
    fun hequal => ?_, ?_⟩
  · rw [Operand.looseEq_comm]
  · rw [Operand.strictEq_comm]
  · rw [Operand.compare?_of_looseEq hequal]
    exact ⟨.inr rfl, .inr rfl, by simp, by simp⟩
  · rintro ⟨hlt, hgt⟩
    rw [hlt] at hgt
    cases hgt

end Comparison

end Questlog
