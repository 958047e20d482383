import Mathlib.Data.List.Nodup
import Questlog.Condition.Cache

namespace Questlog

/-- Following `next` from `a` passes the slots of `order` one after the other and arrives at `b`.
The links of a cache are two such walks through its slots. `none` stands on both ends of a walk: as
the place before the first slot and as the place behind the last one. -/
def Leads (next : Option Nat → Option Nat) (a : Option Nat) : List Nat → Option Nat → Prop
  | [], b => next a = b
  | i :: order, b => next a = some i ∧ Leads next (some i) order b

/-- The last place of a walk that starts at `a` and passes `order`. -/
def lastPlace (a : Option Nat) (order : List Nat) : Option Nat :=
  order.getLast?.or a

namespace Leads

variable {next next' : Option Nat → Option Nat} {a b c : Option Nat} {order front back : List Nat}
  {i n : Nat}

@[simp]
theorem lastPlace_nil : lastPlace a [] = a := rfl

@[simp]
theorem lastPlace_cons : lastPlace a (i :: order) = lastPlace (some i) order := by
  simp [lastPlace, List.getLast?_cons]

/-- A walk ends where it starts or at one of its slots. -/
theorem lastPlace_mem (a : Option Nat) (order : List Nat) :
    lastPlace a order = a ∨ ∃ i ∈ order, lastPlace a order = some i := by
  induction order generalizing a with
  | nil => exact Or.inl rfl
  | cons j order ih =>
    right
    rw [lastPlace_cons]
    obtain h | ⟨i, hi, h⟩ := ih (some j)
    · exact ⟨j, List.mem_cons_self, h⟩
    · exact ⟨i, List.mem_cons_of_mem j hi, h⟩

/-- A walk through two stretches is a walk through each of them, and the second one starts where
the first one ends. -/
theorem append_iff :
    Leads next a (front ++ back) b ↔
      Leads next a front (next (lastPlace a front)) ∧ Leads next (lastPlace a front) back b := by
  induction front generalizing a with
  | nil => simp [Leads]
  | cons i front ih => simp only [List.cons_append, Leads, lastPlace_cons, ih, and_assoc]

/-- Only the links of the places that a walk leaves matter to it. -/
theorem congr_from (h : Leads next a order b) (hstart : next' c = next a)
    (hrest : ∀ i ∈ order, next' (some i) = next (some i)) : Leads next' c order b := by
  induction order generalizing a c with
  | nil => exact hstart.trans h
  | cons i order ih =>
    obtain ⟨hfirst, hmore⟩ := h
    refine ⟨hstart.trans hfirst, ih hmore (hrest i List.mem_cons_self) ?_⟩
    intro j hj
    exact hrest j (List.mem_cons_of_mem i hj)

/-- The places that a walk from the end passes, with the end itself, are all different. -/
theorem lastPlace_ne_of_mem (hnodup : (front ++ back).Nodup) (hi : i ∈ back) :
    lastPlace none front ≠ some i := by
  intro h
  obtain hnone | ⟨j, hj, hlast⟩ := lastPlace_mem none front
  · rw [hnone] at h
    cases h
  · have heq : j = i := Option.some.inj (hlast.symm.trans h)
    subst heq
    exact (List.nodup_append.mp hnodup).2.2 j hj j hi rfl

/-- The link at the end of a walk leads to the place behind it. -/
theorem next_lastPlace (h : Leads next a order b) : next (lastPlace a order) = b := by
  induction order generalizing a with
  | nil => exact h
  | cons i order ih => exact lastPlace_cons ▸ ih h.2

/-- The first step of a walk to the end leads to the first slot, if there is one. -/
theorem next_eq_lastPlace (h : Leads next a order none) :
    next a = lastPlace none order.reverse := by
  cases order with
  | nil => exact h
  | cons i order => simpa [lastPlace] using h.1

/-- Linking the last place of a walk anew makes it arrive elsewhere. -/
theorem retarget (h : Leads next a front b) (hnodup : front.Nodup) (ha : ∀ i ∈ front, a ≠ some i) :
    Leads (Function.update next (lastPlace a front) c) a front c := by
  induction front generalizing a with
  | nil => simp [Leads]
  | cons j front ih =>
    obtain ⟨hfirst, hmore⟩ := h
    obtain ⟨hj, hfront⟩ := List.nodup_cons.mp hnodup
    rw [lastPlace_cons]
    refine ⟨?_, ih hmore hfront ?_⟩
    · rw [Function.update_of_ne, hfirst]
      obtain hlast | ⟨k, hk, hlast⟩ := lastPlace_mem (some j) front
      · rw [hlast]
        exact ha j List.mem_cons_self
      · rw [hlast]
        exact ha k (List.mem_cons_of_mem j hk)
    · intro i hi heq
      exact hj (Option.some.inj heq ▸ hi)

/-- A walk between the ends avoids a slot after the place before it is linked to the place behind
it. -/
theorem remove (h : Leads next none (front ++ i :: back) none)
    (hnodup : (front ++ i :: back).Nodup) :
    Leads (Function.update next (lastPlace none front) (next (some i))) none (front ++ back)
      none := by
  obtain ⟨hfront, _, hback⟩ := append_iff.mp h
  refine append_iff.mpr ⟨?_, ?_⟩
  · rw [Function.update_self]
    exact retarget hfront (List.nodup_append.mp hnodup).1 (fun j _ => by simp)
  · refine congr_from hback (Function.update_self _ _ _) ?_
    intro j hj
    exact Function.update_of_ne (lastPlace_ne_of_mem hnodup (List.mem_cons_of_mem i hj)).symm _ _

/-- A walk between the ends passes a new slot after it is linked in between two places. -/
theorem insert (h : Leads next none (front ++ back) none) (hnodup : (front ++ i :: back).Nodup) :
    Leads (Function.update (Function.update next (some i) (next (lastPlace none front)))
      (lastPlace none front) (some i)) none (front ++ i :: back) none := by
  obtain ⟨hfront, hback⟩ := append_iff.mp h
  obtain ⟨hparts, hrest, hdisjoint⟩ := List.nodup_append.mp hnodup
  have hi : i ∉ back := (List.nodup_cons.mp hrest).1
  have hlast := lastPlace_ne_of_mem hnodup List.mem_cons_self
  refine append_iff.mpr ⟨?_, Function.update_self _ _ _, ?_⟩
  · rw [Function.update_self]
    refine retarget (b := next (lastPlace none front)) ?_ hparts (fun j _ => by simp)
    refine congr_from hfront (Function.update_of_ne (by simp) _ _) ?_
    intro j hj
    have hne : j ≠ i := hdisjoint j hj i List.mem_cons_self
    exact Function.update_of_ne (by simpa using hne) _ _
  · refine congr_from hback ?_ ?_
    · rw [Function.update_of_ne hlast.symm, Function.update_self]
    · intro j hj
      have hne : j ≠ i := fun heq => hi (heq ▸ hj)
      have hplace := lastPlace_ne_of_mem hnodup (List.mem_cons_of_mem i hj)
      rw [Function.update_of_ne hplace.symm, Function.update_of_ne (by simpa using hne)]

/-- A walk between the ends passes slot `i` instead of slot `n` after `i` has taken over the links
of `n`. -/
theorem replace (h : Leads next none (front ++ n :: back) none)
    (hold : (front ++ n :: back).Nodup) (hnew : (front ++ i :: back).Nodup) :
    Leads (Function.update (Function.update next (some i) (next (some n)))
      (lastPlace none front) (some i)) none (front ++ i :: back) none := by
  have hlast := lastPlace_ne_of_mem hnew List.mem_cons_self
  have hmoved := insert (remove h hold) hnew
  rwa [Function.update_self, Function.update_comm hlast, Function.update_idem] at hmoved

/-- The same when the links of `n` are dropped on the way. -/
theorem rename (h : Leads next none (front ++ n :: back) none) (hne : i ≠ n)
    (hold : (front ++ n :: back).Nodup) (hnew : (front ++ i :: back).Nodup) :
    Leads (Function.update
      (Function.update (Function.update next (some i) (next (some n))) (some n) c)
      (lastPlace none front) (some i)) none (front ++ i :: back) none := by
  have hlast := lastPlace_ne_of_mem hold List.mem_cons_self
  have hn : n ∉ front ++ i :: back := by
    have hgone := (List.nodup_middle.mp hold).notMem
    simp only [List.mem_append, List.mem_cons, not_or] at hgone ⊢
    exact ⟨hgone.1, hne.symm, hgone.2⟩
  rw [Function.update_comm hlast.symm]
  refine congr_from (replace h hold hnew) (Function.update_of_ne (by simp) _ _) ?_
  intro j hj
  have hjn : j ≠ n := fun heq => hn (heq ▸ hj)
  exact Function.update_of_ne (by simpa using hjn) _ _

end Leads

end Questlog
