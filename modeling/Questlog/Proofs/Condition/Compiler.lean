import Questlog.Condition.Compiler
import Questlog.Proofs.Cache.History

namespace Questlog

namespace Predicate

/-- Only the trimmed text matters to what a text compiles to. -/
theorem compile_congr {text text' : String} (h : Text.trim text = Text.trim text') :
    compile text = compile text' := by
  simp only [compile, h]

/-- A predicate knows the trimmed text that it is compiled from. -/
theorem source_of_compile {text : String} {predicate : Predicate}
    (h : compile text = .ok predicate) : predicate.source = Text.trim text := by
  unfold compile at h
  dsimp only at h
  split at h
  · cases h
  · cases h
    rfl

/-- The verdict on what a text compiles to. A text that does not compile does not hold. -/
def verdict (compiled : Except CompileError Predicate) (values : Values) : Bool :=
  match compiled with
  | .ok predicate => predicate.test values
  | .error _ => false

end Predicate

namespace Compiler

/-- Every predicate that is kept is what the texts it is kept for compile to. So keeping predicates
shows in none of its answers. -/
def Sound (compiler : Compiler) : Prop :=
  ∃ order entries, compiler.cache.Represents order entries ∧
    ∀ entry ∈ entries, ∀ text, Text.trim text = entry.1 → Predicate.compile text = .ok entry.2

theorem sound_new (capacity : Option Nat) : (new capacity).Sound :=
  ⟨[], [], Cache.Represents.empty capacity, by simp⟩

/-- Compiling is a lookup, and where that misses, keeping what the text compiles to. -/
theorem compile_eq (text : String) (compiler : Compiler) : compile text compiler =
    match lookup text compiler with
    | (some predicate, next) => (.ok predicate, next)
    | (none, next) =>
      match Predicate.compile text with
      | .error e => (.error e, next)
      | .ok predicate => (.ok (keep predicate next).1, (keep predicate next).2) := by
  simp only [compile, bind, StateT.bind]
  rcases lookup text compiler with ⟨found, next⟩
  cases found with
  | some predicate => rfl
  | none => cases Predicate.compile text <;> rfl

/-- Evaluating is compiling and then testing. -/
theorem evaluate_eq (text : String) (values : Values) (compiler : Compiler) :
    evaluate text values compiler =
      (Predicate.verdict (compile text compiler).1 values, (compile text compiler).2) := by
  simp only [evaluate, bind, StateT.bind]
  rcases compile text compiler with ⟨compiled, next⟩
  cases compiled <;> rfl

namespace Sound

variable {compiler : Compiler}

theorem clear (compiler : Compiler) : compiler.clear.Sound :=
  ⟨[], [], Cache.Represents.clear compiler.cache, by simp⟩

/-- A predicate that is found is what the text compiles to. -/
theorem lookup (h : compiler.Sound) (text : String) :
    (∀ predicate, (Compiler.lookup text compiler).1 = some predicate →
      Predicate.compile text = .ok predicate) ∧ (Compiler.lookup text compiler).2.Sound := by
  obtain ⟨order, entries, hrep, hentries⟩ := h
  obtain ⟨hreply, order', hnext⟩ := hrep.lookup (Text.trim text)
  constructor
  · intro predicate hfound
    have hmem := Recent.mem_of_lookup (hreply.symm.trans hfound)
    exact hentries _ hmem text rfl
  · exact ⟨order', _, hnext, fun entry hentry => hentries entry (Recent.lookup_subset hentry)⟩

/-- Keeping what a text compiles to gives just that, whether or not another one was kept in the
meantime. -/
theorem keep (h : compiler.Sound) {text : String} {predicate : Predicate}
    (hcompile : Predicate.compile text = .ok predicate) :
    (Compiler.keep predicate compiler).1 = predicate ∧
      (Compiler.keep predicate compiler).2.Sound := by
  obtain ⟨order, entries, hrep, hentries⟩ := h
  have hsource := Predicate.source_of_compile hcompile
  obtain ⟨hreply, order', hnext⟩ := hrep.insert predicate.source predicate
  constructor
  · refine hreply.trans ?_
    have hvalue : (Recent.insert _ entries predicate.source predicate).1 = predicate ∨ _ :=
      Recent.insert_value compiler.cache.capacity predicate
    obtain hnew | hold := hvalue
    · exact hnew
    · have hkept := hentries _ hold text hsource.symm
      rw [hcompile] at hkept
      exact (Except.ok.inj hkept).symm
  · refine ⟨order', _, hnext, ?_⟩
    intro entry hentry text' htext
    obtain rfl | hold := Recent.mem_insert hentry
    · rw [← hcompile]
      exact Predicate.compile_congr (htext.trans hsource)
    · exact hentries entry hold text' htext

/-- Compiling answers as if nothing were kept, and keeps predicates only under their texts. -/
theorem compile (h : compiler.Sound) (text : String) :
    (Compiler.compile text compiler).1 = Predicate.compile text ∧
      (Compiler.compile text compiler).2.Sound := by
  obtain ⟨hfound, hnext⟩ := h.lookup text
  rw [compile_eq]
  rcases hlookup : Compiler.lookup text compiler with ⟨found, next⟩
  rw [hlookup] at hfound hnext
  cases found with
  | some predicate => exact ⟨(hfound predicate rfl).symm, hnext⟩
  | none =>
    cases hcompile : Predicate.compile text with
    | error e => exact ⟨rfl, hnext⟩
    | ok predicate =>
      obtain ⟨hkept, hlast⟩ := hnext.keep hcompile
      exact ⟨congrArg Except.ok hkept, hlast⟩

/-- Evaluating answers as if nothing were kept. -/
theorem evaluate (h : compiler.Sound) (text : String) (values : Values) :
    (Compiler.evaluate text values compiler).1 = Predicate.verdict (Predicate.compile text) values ∧
      (Compiler.evaluate text values compiler).2.Sound := by
  obtain ⟨hcompiled, hnext⟩ := h.compile text
  rw [evaluate_eq]
  exact ⟨congrArg (Predicate.verdict · values) hcompiled, hnext⟩

end Sound

end Compiler

end Questlog
