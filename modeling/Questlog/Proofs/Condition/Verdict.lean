import Questlog.Proofs.Condition.Session

namespace Questlog

/-- Whether a condition holds for the given values. -/
def Condition.verdict (anyWildcard : Bool) (values : Values) : Condition → Bool
  | .text expression => Predicate.verdict (Predicate.compile expression) values
  | .anyOf terms => Requirement.anyHolds anyWildcard values none terms
  | .allOf entries => Requirement.allHold anyWildcard values entries

/-- Whether a JSON value is a condition that holds for the given values. -/
def Json.isMet (condition : Json) (anyWildcard : Bool) (values : Values) : Bool :=
  (Condition.ofJson? condition).any (·.verdict anyWildcard values)

namespace Gate

/-- A gate that keeps only what texts compile to, and treats the wildcard as told. -/
structure Sound (gate : Gate) (anyWildcard : Bool) : Prop where
  compiler : gate.compiler.Sound
  wildcard : gate.anyWildcard = anyWildcard

variable {gate : Gate} {anyWildcard : Bool}

/-- A sound gate gives the verdict of the condition itself and stays sound, so that any number of
answers can be taken one after the other. -/
theorem Sound.holds (h : gate.Sound anyWildcard) (condition : Condition) (values : Values) :
    (Gate.holds condition values gate).1 = condition.verdict anyWildcard values ∧
      (Gate.holds condition values gate).2.Sound anyWildcard := by
  obtain ⟨hcompiler, rfl⟩ := h
  cases condition with
  | text expression =>
    obtain ⟨hanswer, hnext⟩ := hcompiler.evaluate expression values
    exact ⟨hanswer, hnext, rfl⟩
  | anyOf terms => exact ⟨rfl, hcompiler, rfl⟩
  | allOf entries => exact ⟨rfl, hcompiler, rfl⟩

/-- A sound gate answers a condition given as JSON, or not at all, by its own verdict. -/
theorem Sound.isUnlocked (h : gate.Sound anyWildcard) (condition : Option Json)
    (values : Values) :
    (Gate.isUnlocked condition values gate).1 = condition.all (·.isMet anyWildcard values) ∧
      (Gate.isUnlocked condition values gate).2.Sound anyWildcard := by
  cases condition with
  | none => exact ⟨rfl, h⟩
  | some json =>
    cases hjson : Condition.ofJson? json with
    | none =>
      simp only [Gate.isUnlocked, Option.all_some, Json.isMet, hjson]
      exact ⟨rfl, h⟩
    | some condition =>
      simp only [Gate.isUnlocked, Option.all_some, Json.isMet, hjson, Option.any_some]
      exact h.holds condition values

/-- Answers that are taken one after the other are those that a sound gate gives to each alone. -/
theorem Sound.mapM {α β : Type} {ask : α → StateM Gate β} {answer : α → β}
    (hask : ∀ a gate, gate.Sound anyWildcard →
      (ask a gate).1 = answer a ∧ (ask a gate).2.Sound anyWildcard)
    (h : gate.Sound anyWildcard) (questions : List α) :
    (questions.mapM ask gate).1 = questions.map answer ∧
      (questions.mapM ask gate).2.Sound anyWildcard := by
  induction questions generalizing gate with
  | nil => exact ⟨rfl, h⟩
  | cons a rest ih =>
    obtain ⟨hfirst, hnext⟩ := hask a gate h
    obtain ⟨hrest, hlast⟩ := ih hnext
    rw [List.mapM_cons, List.map_cons]
    exact ⟨congrArg₂ List.cons hfirst hrest, hlast⟩

end Gate

/-- A gate that callers share is sound at every moment. -/
theorem Session.Run.gate_sound {ι : Type} [DecidableEq ι] {settings : GateSettings}
    {session : Session ι} {history : List (GateCall × GateReply)}
    (h : Session.Run settings session history) : session.gate.Sound settings.anyWildcard :=
  ⟨h.sound.compiler, h.sound.wildcard⟩

end Questlog
