import Mathlib
import Questlog.Proofs.Condition.Turns

namespace Questlog

/-- A gate in use, with the callers that are between their two turns and what they have compiled.
Between the two turns of a call the other callers may have any number of turns, and clear what is
kept or keep the same text themselves. -/
structure Session (ι : Type) where
  gate : Gate
  waiting : ι → Option (GateCall × Predicate)

namespace Session

variable {ι : Type} [DecidableEq ι]

/-- The sessions that begin with a new gate, each with the calls answered so far and their
replies. -/
inductive Run (settings : GateSettings) : Session ι → List (GateCall × GateReply) → Prop
  | start : Run settings ⟨Gate.new settings, fun _ => none⟩ []
  | answered {session : Session ι} {history : List (GateCall × GateReply)} (caller : ι)
      {call : GateCall} {reply : GateReply} {gate : Gate} : Run settings session history →
    session.waiting caller = none → call.begin session.gate = (.inl reply, gate) →
    Run settings { session with gate } (history ++ [(call, reply)])
  | compiled {session : Session ι} {history : List (GateCall × GateReply)} (caller : ι)
      {call : GateCall} {predicate : Predicate} {gate : Gate} : Run settings session history →
    session.waiting caller = none → call.begin session.gate = (.inr predicate, gate) →
    Run settings ⟨gate, Function.update session.waiting caller (some (call, predicate))⟩ history
  | kept {session : Session ι} {history : List (GateCall × GateReply)} (caller : ι)
      {call : GateCall} {predicate : Predicate} {reply : GateReply} {gate : Gate} :
    Run settings session history → session.waiting caller = some (call, predicate) →
    call.finish predicate session.gate = (reply, gate) →
    Run settings ⟨gate, Function.update session.waiting caller none⟩ (history ++ [(call, reply)])

/-- What holds after every step of a session: only sound predicates are kept or about to be kept,
and the replies given so far are those of a new gate. -/
structure Sound (anyWildcard : Bool) (session : Session ι)
    (history : List (GateCall × GateReply)) : Prop where
  compiler : session.gate.compiler.Sound
  wildcard : session.gate.anyWildcard = anyWildcard
  waiting : ∀ caller call predicate, session.waiting caller = some (call, predicate) →
    ∃ text, call.text? = some text ∧ Predicate.compile text = .ok predicate
  history : ∀ call reply, (call, reply) ∈ history → (∀ text, call ≠ .isCached text) →
    reply = call.fresh anyWildcard

/-- Whatever the turns, the gate stays sound, and every call that is under way still holds what it
has compiled. -/
theorem Run.sound {settings : GateSettings} {session : Session ι}
    {history : List (GateCall × GateReply)} (h : Run settings session history) :
    session.Sound settings.anyWildcard history := by
  induction h with
  | start =>
    refine ⟨Compiler.sound_new settings.cacheCapacity, rfl, ?_, by simp⟩
    rintro caller call predicate ⟨⟩
  | @answered session history caller call reply gate _ _ hbegin ih =>
    obtain ⟨hreply, _, hsound, hwildcard⟩ := call.begin_sound ih.compiler
    rw [hbegin] at hreply hsound hwildcard
    refine ⟨hsound, hwildcard.trans ih.wildcard, ih.waiting, ?_⟩
    intro other otherReply hmem hne
    obtain hold | hnew := List.mem_append.mp hmem
    · exact ih.history other otherReply hold hne
    · cases List.mem_singleton.mp hnew
      rw [← ih.wildcard]
      exact hreply _ rfl hne
  | @compiled session history caller call predicate gate _ _ hbegin ih =>
    obtain ⟨_, hpredicate, hsound, hwildcard⟩ := call.begin_sound ih.compiler
    rw [hbegin] at hpredicate hsound hwildcard
    refine ⟨hsound, hwildcard.trans ih.wildcard, ?_, ih.history⟩
    intro other otherCall otherPredicate hother
    dsimp only at hother
    rw [Function.update_apply] at hother
    split at hother
    · cases hother
      exact hpredicate _ rfl
    · exact ih.waiting other otherCall otherPredicate hother
  | @kept session history caller call predicate reply gate _ hwaiting hfinish ih =>
    obtain ⟨text, htext, hcompile⟩ := ih.waiting caller call predicate hwaiting
    obtain ⟨hreply, hsound, hwildcard⟩ := GateCall.finish_sound htext hcompile ih.compiler
    rw [hfinish] at hreply hsound hwildcard
    refine ⟨hsound, hwildcard.trans ih.wildcard, ?_, ?_⟩
    · intro other otherCall otherPredicate hother
      dsimp only at hother
      rw [Function.update_apply] at hother
      split at hother
      · cases hother
      · exact ih.waiting other otherCall otherPredicate hother
    · intro other otherReply hmem hne
      obtain hold | hnew := List.mem_append.mp hmem
      · exact ih.history other otherReply hold hne
      · cases List.mem_singleton.mp hnew
        rw [← ih.wildcard]
        exact hreply

/-- Whatever callers share a gate, and however their turns at its lock are mixed: compiling and
evaluating give what they give without any kept predicate, and whether a condition is unlocked
depends on the wildcard setting, the condition and the values alone. -/
theorem Run.answers_ignore_history {settings : GateSettings} {session : Session ι}
    {history : List (GateCall × GateReply)} (h : Run settings session history) :
    (∀ text reply, (.compile text, reply) ∈ history →
      reply = .compiled (Predicate.compile text)) ∧
    (∀ text values reply, (.evaluate text values, reply) ∈ history →
      reply = .verdict (Compiler.evaluate text values (Compiler.new none)).1) ∧
    (∀ condition values reply, (.isUnlocked condition values, reply) ∈ history →
      reply = .verdict (Gate.isUnlocked condition values
        (Gate.new { anyWildcard := settings.anyWildcard })).1) ∧
    (∀ text, (Compiler.compile text session.gate.compiler).1 = Predicate.compile text) ∧
    (∀ text values, (Compiler.evaluate text values session.gate.compiler).1 =
      (Compiler.evaluate text values (Compiler.new none)).1) ∧
    (∀ condition values, (Gate.isUnlocked condition values session.gate).1 =
      (Gate.isUnlocked condition values (Gate.new { anyWildcard := settings.anyWildcard })).1) := by
  have hsession := h.sound
  have hfresh := Compiler.sound_new none
  refine ⟨?_, ?_, ?_, fun text => (hsession.compiler.compile text).1, ?_, ?_⟩
  · intro text reply hmem
    have hreply := hsession.history _ _ hmem (by simp)
    rw [hreply]
    exact congrArg GateReply.compiled (hfresh.compile text).1
  · intro text values reply hmem
    exact hsession.history _ _ hmem (by simp)
  · intro condition values reply hmem
    exact hsession.history _ _ hmem (by simp)
  · intro text values
    exact (hsession.compiler.evaluate text values).1.trans (hfresh.evaluate text values).1.symm
  · intro condition values
    have hserve := GateCall.serve_sound (.isUnlocked condition values) hsession.compiler (by simp)
    rw [hsession.wildcard] at hserve
    exact GateReply.verdict.inj hserve

/-- Two callers that miss the same text one after the other both compile it, and the second one
gets what the first one kept. -/
theorem Run.answers_ignore_shared_miss :
    ∃ (session : Session Bool) (first second : GateReply),
      Run { cacheCapacity := some 1 } session [(.compile "a", first), (.compile " a", second)] ∧
        first = .compiled (Predicate.compile "a") ∧
        second = .compiled (Predicate.compile " a") := by
  have hcompile : Predicate.compile "a" = .ok ⟨"a", .field "a", ["a"]⟩ := by cbv
  have hcompile' : Predicate.compile " a" = .ok ⟨"a", .field "a", ["a"]⟩ := by cbv
  have hbegin : ∀ text, Predicate.compile text = .ok ⟨"a", .field "a", ["a"]⟩ →
      (GateCall.compile text).begin (Gate.new { cacheCapacity := some 1 }) =
        (.inr ⟨"a", .field "a", ["a"]⟩, Gate.new { cacheCapacity := some 1 }) := by
    intro text htext
    simp [GateCall.begin, GateCall.text?, Compiler.lookup, Cache.lookup, Gate.new, Compiler.new,
      Cache.empty, htext]
  have missed := (Run.start (ι := Bool)).compiled false rfl (hbegin "a" hcompile)
  have missedTwice := missed.compiled true rfl (hbegin " a" hcompile')
  have keptOnce := missedTwice.kept false rfl rfl
  have keptTwice := keptOnce.kept true rfl rfl
  obtain ⟨hreplies, _⟩ := keptTwice.answers_ignore_history
  exact ⟨_, _, _, keptTwice, hreplies "a" _ (by simp), hreplies " a" _ (by simp)⟩

end Session

end Questlog
