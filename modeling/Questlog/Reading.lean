namespace Questlog

/-- A value read from the front of `input`, at least one element of which was used. The bound lets
readers repeat and call one another without further argument. -/
structure Reading (α : Type) {τ : Type} (input : List τ) where
  value : α
  rest : List τ
  shorter : rest.length < input.length

/-- What reads an `α` off the front of a list, or tells why it cannot. -/
abbrev Reader (ε τ α : Type) :=
  (input : List τ) → Except ε (Reading α input)

/-- The reading that uses the first element alone. -/
def Reading.ofHead {α τ : Type} (value : α) (first : τ) (rest : List τ) :
    Reading α (first :: rest) :=
  ⟨value, rest, Nat.lt_succ_self _⟩

/-- The bound with which reading the whole of a text starts. -/
theorem length_le_self {τ : Type} (input : List τ) : input.length ≤ input.length :=
  Nat.le_refl _

/-- The same reading seen from a longer list. -/
def Reading.widen {α τ : Type} {input outer : List τ} (r : Reading α input)
    (h : input.length ≤ outer.length) : Reading α outer :=
  ⟨r.value, r.rest, Nat.lt_of_lt_of_le r.shorter h⟩

end Questlog
