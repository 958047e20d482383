import Questlog.Condition.Gate
import Questlog.Proofs.Condition.Compiler

namespace Questlog

/-- What a caller asks of a gate or of its compiler. A call that needs a text compiled takes the
lock to look the text up, and, where that misses, once more to keep what it has compiled in
between. -/
inductive GateCall where
  | compile (text : String)
  | evaluate (text : String) (values : Values)
  | isCached (text : String)
  | clearCache
  | holds (condition : Condition) (values : Values)
  | isUnlocked (condition : Option Json) (values : Values)

/-- What a caller gets back. -/
inductive GateReply where
  | compiled (result : Except CompileError Predicate)
  | verdict (answer : Bool)
  | cleared

namespace GateCall

/-- The text that has to be compiled before a call can be answered. -/
def text? : GateCall → Option String
  | compile text => some text
  | evaluate text _ => some text
  | holds (.text text) _ => some text
  | isUnlocked (some json) _ =>
    match Condition.ofJson? json with
    | some (.text text) => some text
    | _ => none
  | _ => none

/-- The reply to a call once its text is compiled. -/
def settle (compiled : Except CompileError Predicate) : GateCall → GateReply
  | compile _ => .compiled compiled
  | evaluate _ values => .verdict (Predicate.verdict compiled values)
  | holds _ values => .verdict (Predicate.verdict compiled values)
  | isUnlocked _ values => .verdict (Predicate.verdict compiled values)
  | isCached _ => .cleared
  | clearCache => .cleared

/-- Serves a call without giving anyone else a turn. -/
def serve (call : GateCall) (gate : Gate) : GateReply × Gate :=
  match call with
  | compile text =>
    let (compiled, compiler) := Compiler.compile text gate.compiler
    (.compiled compiled, { gate with compiler })
  | evaluate text values =>
    let (answer, compiler) := Compiler.evaluate text values gate.compiler
    (.verdict answer, { gate with compiler })
  | isCached text => (.verdict (gate.compiler.isCached text), gate)
  | clearCache => (.cleared, { gate with compiler := gate.compiler.clear })
  | holds condition values =>
    let (answer, gate) := Gate.holds condition values gate
    (.verdict answer, gate)
  | isUnlocked condition values =>
    let (answer, gate) := Gate.isUnlocked condition values gate
    (.verdict answer, gate)

/-- The first turn of a call: its reply, or the predicate that it has compiled and not yet kept. -/
def begin (call : GateCall) (gate : Gate) : (GateReply ⊕ Predicate) × Gate :=
  match call.text? with
  | none => (.inl (call.serve gate).1, (call.serve gate).2)
  | some text =>
    match Compiler.lookup text gate.compiler with
    | (some predicate, compiler) => (.inl (call.settle (.ok predicate)), { gate with compiler })
    | (none, compiler) =>
      match Predicate.compile text with
      | .error e => (.inl (call.settle (.error e)), { gate with compiler })
      | .ok predicate => (.inr predicate, { gate with compiler })

/-- The second turn of a call that has compiled a predicate. -/
def finish (call : GateCall) (predicate : Predicate) (gate : Gate) : GateReply × Gate :=
  let (kept, compiler) := Compiler.keep predicate gate.compiler
  (call.settle (.ok kept), { gate with compiler })

/-- A text is answered by its compiler and leaves the rest of the gate alone. -/
theorem holds_text_eq (text : String) (values : Values) (gate : Gate) :
    Gate.holds (.text text) values gate =
      (Predicate.verdict (Compiler.compile text gate.compiler).1 values,
        { gate with compiler := (Compiler.compile text gate.compiler).2 }) := by
  simp only [Gate.holds, Compiler.evaluate_eq]

/-- A call that needs a text compiled is served by compiling it and settling the call. -/
theorem serve_of_text {call : GateCall} {text : String} (h : call.text? = some text) (gate : Gate) :
    call.serve gate = (call.settle (Compiler.compile text gate.compiler).1,
      { gate with compiler := (Compiler.compile text gate.compiler).2 }) := by
  cases call with
  | compile text' =>
    cases h
    rfl
  | evaluate text' values =>
    cases h
    simp only [serve, Compiler.evaluate_eq, settle]
  | isCached text' => cases h
  | clearCache => cases h
  | holds condition values =>
    cases condition with
    | text text' =>
      cases h
      simp only [serve, holds_text_eq, settle]
    | anyOf terms => cases h
    | allOf entries => cases h
  | isUnlocked condition values =>
    cases condition with
    | none => cases h
    | some json =>
      simp only [text?] at h
      split at h
      · next text' hjson =>
        cases h
        simp only [serve, Gate.isUnlocked, hjson, holds_text_eq, settle]
      · cases h

/-- The two turns of a call, one right after the other, serve it. -/
theorem serve_eq_turns (call : GateCall) (gate : Gate) :
    call.serve gate = match call.begin gate with
      | (.inl reply, next) => (reply, next)
      | (.inr predicate, next) => call.finish predicate next := by
  cases htext : call.text? with
  | none => simp only [begin, htext]
  | some text =>
    simp only [serve_of_text htext, Compiler.compile_eq, begin, htext]
    rcases Compiler.lookup text gate.compiler with ⟨found, compiler⟩
    cases found with
    | some predicate => rfl
    | none => cases Predicate.compile text <;> rfl

/-- The reply of a gate that has compiled nothing yet. -/
def fresh (anyWildcard : Bool) (call : GateCall) : GateReply :=
  (call.serve (Gate.new { anyWildcard })).1

/-- Compiling the text of a call and settling it gives what a new gate replies. -/
theorem settle_eq_fresh {call : GateCall} {text : String} (h : call.text? = some text)
    (anyWildcard : Bool) : call.settle (Predicate.compile text) = call.fresh anyWildcard := by
  have hcompile := ((Compiler.sound_new none).compile text).1
  rw [fresh, serve_of_text h]
  exact congrArg call.settle hcompile.symm

/-- A call without a text is answered from the setting of the gate alone, unless it asks for what
is kept, and of the predicates it can only forget all. -/
theorem serve_of_no_text {call : GateCall} (h : call.text? = none) {gate : Gate}
    (hsound : gate.compiler.Sound) :
    ((∀ text, call ≠ .isCached text) → (call.serve gate).1 = call.fresh gate.anyWildcard) ∧
      (call.serve gate).2.compiler.Sound ∧ (call.serve gate).2.anyWildcard = gate.anyWildcard := by
  cases call with
  | compile text => cases h
  | evaluate text values => cases h
  | isCached text => exact ⟨fun hne => absurd rfl (hne text), hsound, rfl⟩
  | clearCache => exact ⟨fun _ => rfl, Compiler.Sound.clear gate.compiler, rfl⟩
  | holds condition values =>
    cases condition with
    | text text => cases h
    | anyOf terms => exact ⟨fun _ => rfl, hsound, rfl⟩
    | allOf entries => exact ⟨fun _ => rfl, hsound, rfl⟩
  | isUnlocked condition values =>
    cases condition with
    | none => exact ⟨fun _ => rfl, hsound, rfl⟩
    | some json =>
      cases hjson : Condition.ofJson? json with
      | none =>
        simp only [serve, fresh, Gate.isUnlocked, hjson]
        exact ⟨fun _ => rfl, hsound, rfl⟩
      | some condition =>
        simp only [text?, hjson] at h
        simp only [serve, fresh, Gate.isUnlocked, hjson]
        cases condition with
        | text text => cases h
        | anyOf terms => exact ⟨fun _ => rfl, hsound, rfl⟩
        | allOf entries => exact ⟨fun _ => rfl, hsound, rfl⟩

/-- The first turn keeps the gate sound. It gives the reply of a new gate, or what the text of the
call compiles to. -/
theorem begin_sound (call : GateCall) {gate : Gate} (hsound : gate.compiler.Sound) :
    (∀ reply, (call.begin gate).1 = .inl reply → (∀ text, call ≠ .isCached text) →
        reply = call.fresh gate.anyWildcard) ∧
      (∀ predicate, (call.begin gate).1 = .inr predicate →
        ∃ text, call.text? = some text ∧ Predicate.compile text = .ok predicate) ∧
      (call.begin gate).2.compiler.Sound ∧ (call.begin gate).2.anyWildcard = gate.anyWildcard := by
  cases htext : call.text? with
  | none =>
    obtain ⟨hreply, hnext, hwildcard⟩ := serve_of_no_text htext hsound
    simp only [begin, htext]
    refine ⟨?_, ?_, hnext, hwildcard⟩
    · rintro reply ⟨⟩ hne
      exact hreply hne
    · rintro predicate ⟨⟩
  | some text =>
    obtain ⟨hfound, hnext⟩ := hsound.lookup text
    have hsettle := settle_eq_fresh htext gate.anyWildcard
    simp only [begin, htext]
    rcases hlookup : Compiler.lookup text gate.compiler with ⟨found, compiler⟩
    rw [hlookup] at hfound hnext
    cases found with
    | some predicate =>
      refine ⟨?_, ?_, hnext, rfl⟩
      · rintro reply ⟨⟩ _
        rw [← hsettle, hfound predicate rfl]
      · rintro predicate' ⟨⟩
    | none =>
      cases hcompile : Predicate.compile text with
      | error e =>
        refine ⟨?_, ?_, hnext, rfl⟩
        · rintro reply ⟨⟩ _
          rw [← hsettle, hcompile]
        · rintro predicate' ⟨⟩
      | ok predicate =>
        refine ⟨?_, ?_, hnext, rfl⟩
        · rintro reply ⟨⟩
        · rintro predicate' ⟨⟩
          exact ⟨text, rfl, hcompile⟩

/-- The second turn keeps the gate sound and gives the reply of a new gate. -/
theorem finish_sound {call : GateCall} {text : String} (htext : call.text? = some text)
    {predicate : Predicate} (hcompile : Predicate.compile text = .ok predicate) {gate : Gate}
    (hsound : gate.compiler.Sound) :
    (call.finish predicate gate).1 = call.fresh gate.anyWildcard ∧
      (call.finish predicate gate).2.compiler.Sound ∧
      (call.finish predicate gate).2.anyWildcard = gate.anyWildcard := by
  obtain ⟨hkept, hnext⟩ := hsound.keep hcompile
  refine ⟨?_, hnext, rfl⟩
  rw [← settle_eq_fresh htext gate.anyWildcard, hcompile]
  exact congrArg (fun kept => call.settle (.ok kept)) hkept

/-- Served without interruption, a call gets the reply of a new gate. -/
theorem serve_sound (call : GateCall) {gate : Gate} (hsound : gate.compiler.Sound)
    (hne : ∀ text, call ≠ .isCached text) :
    (call.serve gate).1 = call.fresh gate.anyWildcard := by
  cases htext : call.text? with
  | none => exact (serve_of_no_text htext hsound).1 hne
  | some text =>
    rw [serve_of_text htext, ← settle_eq_fresh htext gate.anyWildcard]
    exact congrArg call.settle (hsound.compile text).1

end GateCall

end Questlog
