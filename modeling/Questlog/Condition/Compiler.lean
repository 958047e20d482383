import Questlog.Condition.Cache
import Questlog.Expression.Predicate

namespace Questlog

/-- A compiler with the predicates it keeps. Conditions are kept by their trimmed text, and what
fails to compile is not kept. -/
structure Compiler where
  cache : Cache Predicate

namespace Compiler

/-- A compiler that keeps at most `capacity` predicates, or all where there is none or it is
zero. -/
def new (capacity : Option Nat) : Compiler :=
  ⟨.empty capacity⟩

/-- Looks a condition up among the kept ones. -/
def lookup (text : String) : StateM Compiler (Option Predicate) := fun compiler =>
  let (found, cache) := compiler.cache.lookup (Text.trim text)
  (found, ⟨cache⟩)

/-- Keeps a predicate, unless one is kept for its text already, and gives the one that is kept. -/
def keep (predicate : Predicate) : StateM Compiler Predicate := fun compiler =>
  let (kept, cache) := compiler.cache.insert predicate.source predicate
  (kept, ⟨cache⟩)

/-- The predicate of a text condition, which is compiled only if it is not kept. -/
def compile (text : String) : StateM Compiler (Except CompileError Predicate) := do
  match ← lookup text with
  | some predicate => return .ok predicate
  | none =>
    match Predicate.compile text with
    | .error e => return .error e
    | .ok predicate => return .ok (← keep predicate)

/-- Whether a text condition holds; one that does not compile does not hold. -/
def evaluate (text : String) (values : Values) : StateM Compiler Bool := do
  match ← compile text with
  | .ok predicate => return predicate.test values
  | .error _ => return false

/-- Whether a text condition is kept. -/
def isCached (compiler : Compiler) (text : String) : Bool :=
  compiler.cache.contains (Text.trim text)

/-- The number of conditions that are kept. -/
def size (compiler : Compiler) : Nat :=
  compiler.cache.size

/-- Forgets all conditions. -/
def clear (compiler : Compiler) : Compiler :=
  ⟨compiler.cache.clear⟩

end Compiler

end Questlog
