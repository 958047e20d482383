import Mathlib
import Questlog.Command.Arguments
import Questlog.Proofs.Decimal.Numeral

namespace Questlog.Arguments

/-- `Gives name value words`: the words that give an option its value. In a word of its own the
value must not look like an option. However the two are written, apart or joined by an equals sign,
reading goes on behind them with the value given. -/
inductive Gives (name value : String) : List String → Prop
  | apart : isOption value = false → Gives name value ["--" ++ name, value]
  | joined : Gives name value ["--" ++ name ++ "=" ++ value]

/-- `NamesConfig config words`: the words in front of a command that name the settings file, if there
is one. -/
inductive NamesConfig : Option String → List String → Prop
  | absent : NamesConfig none []
  | file {path : String} {words : List String} : path ≠ "" → Gives "config" path words →
    NamesConfig (some path) words

section Words

/-- A word that starts with two dashes is taken for an option. -/
theorem isOption_long (text : String) : isOption ("--" ++ text) = true := by
  have hlength : ("--" ++ text).length = 2 + text.length := String.length_append "--" text
  have hdash : ("--" ++ text).startsWith "-" = true := by
    rw [String.startsWith_string_iff, String.toList_append]
    exact ⟨'-' :: text.toList, rfl⟩
  rw [isOption, hdash, Bool.true_and, decide_eq_true_iff]
  intro h
  have hdash : "-".length = 1 := rfl
  rw [h, hdash] at hlength
  omega

/-- The word that ends the options is no option itself. -/
theorem long_ne_dashes {text : String} (h : text ≠ "") : "--" ++ text ≠ "--" := by
  intro heq
  refine h (String.append_right_inj "--" |>.mp ?_)
  rw [heq, String.append_empty]

theorem readOption_long (rules : List Rule) (given : Given) (text : String) :
    readOption rules given ("--" ++ text) = readLong rules given text.toList := by
  rw [readOption, String.toList_append]
  rfl

variable {rules : List Rule} {given : Given} {name value : String} {rule : Rule} {kind : ValueKind}
  {words rest : List String}

/-- An option of the rules that takes this value, and that has not been given yet. -/
structure Takes (rules : List Rule) (given : Given) (name value : String) (rule : Rule) : Prop where
  ne_empty : name ≠ ""
  no_equals : ∀ c ∈ name.toList, c ≠ '='
  find : rules.find? (·.long = name) = some rule
  accepts : ∃ kind, rule.value = some kind ∧ kind.accepts value = true
  fresh : given.lookup name = none

/-- A value that an option takes is given from then on. -/
theorem Takes.take (h : Takes rules given name value rule) :
    given.take rule value = .ok ((name, value) :: given) := by
  obtain ⟨kind, hkind, haccepts⟩ := h.accepts
  have hlong : rule.long = name := by simpa using List.find?_some h.find
  rw [Given.take, hlong, h.fresh, hkind]
  simp [haccepts]

/-- The name of an option ends where its value is attached. -/
theorem span_name (hequals : ∀ c ∈ name.toList, c ≠ '=') (attached : List Char)
    (hattached : ∀ c ∈ attached.head?, c = '=') :
    (name.toList ++ attached).span (· ≠ '=') = (name.toList, attached) := by
  have hname : ∀ c ∈ name.toList, decide (c ≠ '=') = true := fun c hc =>
    decide_eq_true (hequals c hc)
  have hend : ∀ c ∈ attached.head?, decide (c ≠ '=') = false := fun c hc =>
    decide_eq_false (not_not.mpr (hattached c hc))
  rw [List.span_eq_takeWhile_dropWhile, takeWhile_run hname hend, dropWhile_run hname hend]

/-- The name alone: the value is to come in the next word. -/
theorem Takes.readLong_apart (h : Takes rules given name value rule) :
    readLong rules given name.toList = .ok (given, some rule) := by
  obtain ⟨kind, hkind, -⟩ := h.accepts
  have hspan := span_name h.no_equals [] (by simp)
  rw [List.append_nil] at hspan
  simp only [readLong, hspan, String.ofList_toList, h.find, hkind]

/-- Name and value in one word, joined by an equals sign. -/
theorem Takes.readLong_joined (h : Takes rules given name value rule) :
    readLong rules given (name.toList ++ '=' :: value.toList) =
      .ok ((name, value) :: given, none) := by
  obtain ⟨kind, hkind, -⟩ := h.accepts
  have hspan := span_name h.no_equals ('=' :: value.toList) (by simp)
  simp only [readLong, hspan, String.ofList_toList, h.find, hkind, h.take]
  rfl

/-- Either way, reading goes on behind the words with the value given. -/
theorem Takes.readOptions (h : Takes rules given name value rule) (hwords : Gives name value words)
    (rest : List String) :
    readOptions rules given none (words ++ rest) =
      Arguments.readOptions rules ((name, value) :: given) none rest := by
  cases hwords with
  | apart hvalue =>
    have hread : readOption rules given ("--" ++ name) = .ok (given, some rule) := by
      rw [readOption_long, h.readLong_apart]
    simp only [List.cons_append, List.nil_append, Arguments.readOptions,
      if_neg (long_ne_dashes h.ne_empty), isOption_long, if_true, hread, hvalue, Bool.false_eq_true,
      if_false, h.take]
  | joined =>
    have hne : name ++ "=" ++ value ≠ "" := by
      simp
    have hassoc : "--" ++ name ++ "=" ++ value = "--" ++ (name ++ "=" ++ value) := by
      simp only [String.append_assoc]
    have hread : readOption rules given ("--" ++ (name ++ "=" ++ value)) =
        .ok ((name, value) :: given, none) := by
      rw [readOption_long, String.toList_append, String.toList_append, List.append_assoc]
      exact h.readLong_joined
    simp only [hassoc, List.cons_append, List.nil_append, Arguments.readOptions,
      if_neg (long_ne_dashes hne), isOption_long, if_true, hread]

/-- Reading options stops in front of any other word. -/
theorem readOptions_word (rules : List Rule) (given : Given) {word : String}
    (hword : isOption word = false) (rest : List String) :
    readOptions rules given none (word :: rest) = .ok (given, word :: rest) := by
  have hdashes : word ≠ "--" := by
    rintro rfl
    have hlong := isOption_long ""
    rw [String.append_empty, hword] at hlong
    cases hlong
  simp only [readOptions, if_neg hdashes, hword, Bool.false_eq_true, if_false]

end Words

end Questlog.Arguments
