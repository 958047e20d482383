import Questlog.Proofs.Command.Arguments
import Questlog.Proofs.Entries

namespace Questlog.Arguments

/-- `GivesBy letter value words`: the words that give an option its value by its letter. In the word of
the letter the value must not be empty or start with an equals sign, unless one comes first. -/
inductive GivesBy (letter : Char) (value : String) : List String → Prop
  | apart : isOption value = false → GivesBy letter value [String.ofList ['-', letter], value]
  | attached {first : Char} {more : List Char} : value.toList = first :: more → first ≠ '=' →
    GivesBy letter value [String.ofList ('-' :: letter :: value.toList)]
  | joined : GivesBy letter value [String.ofList ('-' :: letter :: '=' :: value.toList)]

/-- `Writes name letter value words`: the words that give an option its value by its name, or by its
letter if it has one. -/
inductive Writes (name : String) (letter : Option Char) (value : String) : List String → Prop
  | byName {words : List String} : Gives name value words → Writes name letter value words
  | byLetter {c : Char} {words : List String} : letter = some c → GivesBy c value words →
    Writes name letter value words

section Words

variable {rules : List Rule} {given : Given} {name value : String} {rule : Rule} {c : Char}
  {words : List String}

/-- A dash and a letter behind it make an option. -/
theorem isOption_short (c : Char) (cs : List Char) :
    isOption (String.ofList ('-' :: c :: cs)) = true := by
  have hdash : (String.ofList ('-' :: c :: cs)).startsWith "-" = true := by
    have hlist : (String.ofList ('-' :: c :: cs)).toList = '-' :: c :: cs := String.toList_ofList
    rw [String.startsWith_string_iff, hlist]
    exact List.prefix_append ['-'] (c :: cs)
  rw [isOption, hdash, Bool.true_and, decide_eq_true_iff]
  intro h
  have hlist := congrArg String.toList h
  rw [String.toList_ofList] at hlist
  cases hlist

theorem short_ne_dashes (hc : c ≠ '-') (cs : List Char) :
    String.ofList ('-' :: c :: cs) ≠ "--" := by
  intro h
  have hlist := congrArg String.toList h
  rw [String.toList_ofList] at hlist
  exact hc (List.cons.inj (List.cons.inj hlist).2).1

/-- An option by its letter is read letter by letter. -/
theorem readOption_short (hc : c ≠ '-') (rules : List Rule) (given : Given) (cs : List Char) :
    readOption rules given (String.ofList ('-' :: c :: cs)) = readShort rules given (c :: cs) := by
  unfold readOption
  rw [String.toList_ofList]
  split
  · next text heq => exact absurd (List.cons.inj (List.cons.inj heq).2).1 hc
  · next cluster heq =>
    obtain rfl := (List.cons.inj heq).2
    rfl
  · next hshort => exact absurd rfl (hshort (c :: cs))

/-- The option has this letter. -/
abbrev HasLetter (rules : List Rule) (rule : Rule) (c : Char) : Prop :=
  c ≠ '-' ∧ rules.find? (·.short = some c) = some rule

/-- The letter alone: the value is to come in the next word. -/
theorem Takes.readShort_apart (h : Takes rules given name value rule)
    (hletter : HasLetter rules rule c) : readShort rules given [c] = .ok (given, some rule) := by
  obtain ⟨kind, hkind, -⟩ := h.accepts
  simp only [readShort, hletter.2, hkind]

/-- The value may stand right behind the letter. -/
theorem Takes.readShort_attached (h : Takes rules given name value rule)
    (hletter : HasLetter rules rule c) {first : Char} {more : List Char}
    (hvalue : value.toList = first :: more) (hfirst : first ≠ '=') :
    readShort rules given (c :: value.toList) = .ok ((name, value) :: given, none) := by
  obtain ⟨kind, hkind, -⟩ := h.accepts
  simp only [readShort, hletter.2, hkind, hvalue]
  split
  · contradiction
  · contradiction
  · next hsome hequals =>
    exact absurd (List.cons.inj hequals).1 hfirst
  · rw [← hvalue, String.ofList_toList, h.take]
    rfl

/-- The value may stand behind an equals sign. -/
theorem Takes.readShort_joined (h : Takes rules given name value rule)
    (hletter : HasLetter rules rule c) :
    readShort rules given (c :: '=' :: value.toList) = .ok ((name, value) :: given, none) := by
  obtain ⟨kind, hkind, -⟩ := h.accepts
  simp only [readShort, hletter.2, hkind, String.ofList_toList, h.take]
  rfl

/-- However the letter and its value are written, reading goes on behind them with the value
given. -/
theorem Takes.readOptions_byLetter (h : Takes rules given name value rule)
    (hletter : HasLetter rules rule c) (hwords : GivesBy c value words) (rest : List String) :
    Arguments.readOptions rules given none (words ++ rest) =
      Arguments.readOptions rules ((name, value) :: given) none rest := by
  have hread (cs : List Char) :
      readOption rules given (String.ofList ('-' :: c :: cs)) = readShort rules given (c :: cs) :=
    readOption_short hletter.1 rules given cs
  cases hwords with
  | apart hvalue =>
    simp only [List.cons_append, List.nil_append, Arguments.readOptions,
      if_neg (short_ne_dashes hletter.1 []), isOption_short, if_true, hread,
      h.readShort_apart hletter, hvalue, Bool.false_eq_true, if_false, h.take]
  | attached hvalue hfirst =>
    simp only [List.cons_append, List.nil_append, Arguments.readOptions,
      if_neg (short_ne_dashes hletter.1 _), isOption_short, if_true, hread,
      h.readShort_attached hletter hvalue hfirst]
  | joined =>
    simp only [List.cons_append, List.nil_append, Arguments.readOptions,
      if_neg (short_ne_dashes hletter.1 _), isOption_short, if_true, hread,
      h.readShort_joined hletter]

/-- `IsRead rules name value words`: an option that has not been given yet is read from these words,
whatever stands behind them. -/
def IsRead (rules : List Rule) (name value : String) (words : List String) : Prop :=
  ∀ given rest, given.lookup name = none →
    readOptions rules given none (words ++ rest) =
      readOptions rules ((name, value) :: given) none rest

/-- An option of the rules takes a value of its kind, however the two are written. -/
theorem Writes.isRead {letter : Option Char} (hwords : Writes name letter value words)
    (htakes : ∀ given, given.lookup name = none → Takes rules given name value rule)
    (hletter : ∀ c ∈ letter, HasLetter rules rule c) : IsRead rules name value words := by
  intro given rest hfresh
  cases hwords with
  | byName hgives => exact (htakes given hfresh).readOptions hgives rest
  | byLetter hc hgives => exact (htakes given hfresh).readOptions_byLetter (hletter _ hc) hgives rest

/-- A flag is read from its name. -/
theorem isRead_flag (hne : name ≠ "") (hequals : ∀ c ∈ name.toList, c ≠ '=')
    (hfind : rules.find? (·.long = name) = some rule) (hflag : rule.value = none)
    (hhelp : name ≠ "help") (hversion : name ≠ "version") :
    IsRead rules name "" ["--" ++ name] := by
  intro given rest hfresh
  have hlong : rule.long = name := by simpa using List.find?_some hfind
  have hspan := span_name hequals [] (by simp)
  rw [List.append_nil] at hspan
  have htake : given.takeFlag rule = .ok ((name, "") :: given) := by
    rw [Given.takeFlag, hlong, if_neg hhelp, if_neg hversion, Given.take, hlong, hfresh, hflag]
    rfl
  have hread : readOption rules given ("--" ++ name) = .ok ((name, "") :: given, none) := by
    simp only [readOption_long, readLong, hspan, String.ofList_toList, hfind, hflag, htake]
    rfl
  simp only [List.cons_append, List.nil_append, readOptions, if_neg (long_ne_dashes hne),
    isOption_long, if_true, hread]

/-- `Lists IsOption given words`: options, each given once and written as it may be, one after the
other. -/
inductive Lists (IsOption : String → String → List String → Prop) : Given → List String → Prop
  | none : Lists IsOption [] []
  | option {name value : String} {words more : List String} {given : Given} :
    IsOption name value words → name ∉ Entries.names given → Lists IsOption given more →
    Lists IsOption ((name, value) :: given) (words ++ more)

/-- Options that are listed are all read, in whichever order they come. -/
theorem Lists.readOptions {IsOption : String → String → List String → Prop}
    (hread : ∀ name value words, IsOption name value words → IsRead rules name value words)
    {options : Given} (h : Lists IsOption options words) {rest : List String} {given : Given}
    (hfresh : ∀ name ∈ Entries.names options, given.lookup name = Option.none) :
    Arguments.readOptions rules given Option.none (words ++ rest) =
      Arguments.readOptions rules (options.reverse ++ given) Option.none rest := by
  induction h generalizing given with
  | none => rfl
  | @option name value words more options hoption hnew hmore ih =>
    rw [List.append_assoc, hread _ _ _ hoption given _ (hfresh name List.mem_cons_self), ih,
      List.reverse_cons, List.append_assoc]
    · rfl
    intro other hother
    have hne : other ≠ name := fun heq => hnew (heq ▸ hother)
    rw [Entries.lookup_cons_eq_ite, if_neg hne]
    exact hfresh other (List.mem_cons_of_mem name hother)

theorem Lists.readOptions_first {IsOption : String → String → List String → Prop}
    (hread : ∀ name value words, IsOption name value words → IsRead rules name value words)
    {options : Given} (h : Lists IsOption options words) (rest : List String) :
    Arguments.readOptions rules [] Option.none (words ++ rest) =
      Arguments.readOptions rules options.reverse Option.none rest := by
  rw [h.readOptions hread fun _ _ => rfl, List.append_nil]

/-- No option is listed twice. -/
theorem Lists.nodup {IsOption : String → String → List String → Prop} {options : Given}
    (h : Lists IsOption options words) : (Entries.names options).Nodup := by
  induction h with
  | none => exact List.nodup_nil
  | option _ hnew _ ih => exact List.nodup_cons.mpr ⟨hnew, ih⟩

end Words

/-- `WritesNumber text n`: decimal digits that write the number, with a sign or without one, and perhaps
with zeros in front. -/
def WritesNumber (text : String) (n : Int64) : Prop :=
  ∃ digits, digits ≠ [] ∧ (∀ c ∈ digits, Decimal.isDigit c = true) ∧
    ((text.toList = digits ∨ text.toList = '+' :: digits) ∧ n.toInt = Decimal.ofDigits digits ∨
      text.toList = '-' :: digits ∧ n.toInt = -Decimal.ofDigits digits)

/-- `GivenNumber text? number?`: the value of an option gives a number, or there is neither. -/
def GivenNumber (text? : Option String) : Option Int64 → Prop
  | none => text? = none
  | some n => ∃ text, text? = some text ∧ WritesNumber text n

/-- The option for the settings file. -/
inductive IsConfig : String → String → List String → Prop
  | config {path : String} {words : List String} : path ≠ "" →
    Writes "config" (some 'c') path words → IsConfig "config" path words

/-- The options of the command that marks an entry. -/
inductive IsMarkOption : String → String → List String → Prop
  | key {key : String} {words : List String} : Writes "key" (some 'k') key words →
    IsMarkOption "key" key words
  | undo : IsMarkOption "undo" "" ["--undo"]
  | config {name path : String} {words : List String} : IsConfig name path words →
    IsMarkOption name path words

/-- The options of the command that changes the progression. -/
inductive IsProgressionOption : String → String → List String → Prop
  | gameMode {text : String} {words : List String} {n : Int64} : WritesNumber text n →
    Writes "game-mode" none text words → IsProgressionOption "game-mode" text words
  | region {text : String} {words : List String} {n : Int64} : WritesNumber text n →
    Writes "region" none text words → IsProgressionOption "region" text words
  | config {name path : String} {words : List String} : IsConfig name path words →
    IsProgressionOption name path words

/-- The options of the command that takes over a snapshot. -/
inductive IsImportOption : String → String → List String → Prop
  | file {path : String} {words : List String} : path ≠ "" → Writes "file" (some 'f') path words →
    IsImportOption "file" path words
  | config {name path : String} {words : List String} : IsConfig name path words →
    IsImportOption name path words

/-- The options of the command that decides a condition. -/
inductive IsDecideOption : String → String → List String → Prop
  | condition {text : String} {words : List String} : Gives "condition" text words →
    IsDecideOption "condition" text words
  | values {text : String} {words : List String} : Gives "values" text words →
    IsDecideOption "values" text words

/-- `AsksFor config command words`: the words ask for an update of the progress. Its options stand
behind its name in any order, and only the settings file may be named in front. The settings file that
is named behind the name of the command wins. -/
inductive AsksFor : Option String → Command → List String → Prop
  | mark {given options : Given} {front words : List String} {key : String} :
    Lists IsConfig given front → Lists IsMarkOption options words →
    options.lookup "key" = some key →
    AsksFor (options.lookup "config" <|> given.lookup "config")
      (.mark key (options.lookup "undo").isSome) (front ++ "mark" :: words)
  | progression {given options : Given} {front words : List String} {gameMode region : Option Int64} :
    Lists IsConfig given front → Lists IsProgressionOption options words →
    GivenNumber (options.lookup "game-mode") gameMode →
    GivenNumber (options.lookup "region") region →
    AsksFor (options.lookup "config" <|> given.lookup "config") (.progression gameMode region)
      (front ++ "progression" :: words)
  | importFrom {given options : Given} {front words : List String} {file : String} :
    Lists IsConfig given front → Lists IsImportOption options words →
    options.lookup "file" = some file →
    AsksFor (options.lookup "config" <|> given.lookup "config") (.importFrom file)
      (front ++ "import" :: words)

section Commands

variable {name value : String} {words : List String} {config : Option String} {command : Command}

/-- Digits below a bound are read as their number, with or without a plus sign. -/
theorem natBelow?_of_digits {bound : Nat} {digits : List Char} (hne : digits ≠ [])
    (hdigits : ∀ c ∈ digits, Decimal.isDigit c = true) (hbound : Decimal.ofDigits digits < bound) :
    Settings.natBelow? bound ('+' :: digits) = some (Decimal.ofDigits digits) ∧
      Settings.natBelow? bound digits = some (Decimal.ofDigits digits) := by
  have hall : digits.all Decimal.isDigit = true := List.all_eq_true.mpr hdigits
  constructor
  · simp only [Settings.natBelow?, if_pos (And.intro hne hall), if_pos hbound]
  · obtain ⟨first, more, rfl⟩ := List.exists_cons_of_ne_nil hne
    have hplus : first ≠ '+' := by
      rintro rfl
      exact absurd (hdigits '+' List.mem_cons_self) (by decide)
    simp [Settings.natBelow?, hplus, hall, hbound]

/-- The number that is written is read. -/
theorem readInt64?_of_writesNumber {text : String} {n : Int64} (h : WritesNumber text n) :
    readInt64? text = some n := by
  obtain ⟨digits, hne, hdigits, hwritten⟩ := h
  have hall : digits.all Decimal.isDigit = true := List.all_eq_true.mpr hdigits
  have hlower := n.le_toInt
  have hupper := n.toInt_lt
  rcases hwritten with ⟨htext, hvalue⟩ | ⟨htext, hvalue⟩
  · have hbound : Decimal.ofDigits digits < 0x8000000000000000 := by omega
    obtain ⟨hsigned, hplain⟩ := natBelow?_of_digits hne hdigits hbound
    have hn : Int64.ofNat (Decimal.ofDigits digits) = n := by
      rw [← Int64.ofInt_eq_ofNat, ← hvalue, Int64.ofInt_toInt]
    rcases htext with htext | htext
    · obtain ⟨first, more, rfl⟩ := List.exists_cons_of_ne_nil hne
      have hminus : first ≠ '-' := by
        rintro rfl
        exact absurd (hdigits '-' List.mem_cons_self) (by decide)
      simp [readInt64?, htext, hminus, hplain, hn]
    · simp [readInt64?, htext, hsigned, hn]
  · have hbound : Decimal.ofDigits digits ≤ 0x8000000000000000 := by omega
    rw [readInt64?, htext]
    simp only [if_pos (And.intro hne (And.intro hall hbound)), ← hvalue, Int64.ofInt_toInt]

/-- A number that is given is read, and one that is not given is missing. -/
theorem GivenNumber.bind_readInt64? {text? : Option String} {number? : Option Int64}
    (h : GivenNumber text? number?) : text?.bind readInt64? = number? := by
  cases number? with
  | none =>
    rw [show text? = none from h]
    rfl
  | some n =>
    obtain ⟨text, rfl, hwrites⟩ := h
    exact readInt64?_of_writesNumber hwrites

/-- An option of the rules takes every value that its kind accepts. -/
theorem takes_of_find {rules : List Rule} {rule : Rule} {kind : ValueKind} (hne : name ≠ "")
    (hequals : ∀ c ∈ name.toList, c ≠ '=') (hfind : rules.find? (·.long = name) = some rule)
    (hkind : rule.value = some kind) (haccepts : kind.accepts value = true) (given : Given)
    (hfresh : given.lookup name = none) : Takes rules given name value rule :=
  ⟨hne, hequals, hfind, ⟨kind, hkind, haccepts⟩, hfresh⟩

theorem accepts_path {path : String} (h : path ≠ "") : ValueKind.path.accepts path = true := by
  simpa [ValueKind.accepts] using h

/-- Every spelling of a number is accepted as an integer. -/
theorem accepts_integer {text : String} {n : Int64} (h : WritesNumber text n) :
    ValueKind.integer.accepts text = true := by
  rw [ValueKind.accepts, readInt64?_of_writesNumber h]
  rfl

/-- The configuration may be named among the options of any command that has no other use for its
letter. -/
theorem IsConfig.isRead {rules : List Rule} (hfind : rules.find? (·.long = "config") = some configRule)
    (hletter : HasLetter rules configRule 'c') (h : IsConfig name value words) :
    IsRead rules name value words := by
  cases h with
  | config hpath hwords =>
    exact hwords.isRead (takes_of_find (by decide) (by simp) hfind rfl (accepts_path hpath))
      fun c hc => Option.some.inj hc ▸ hletter

/-- In front of the name of a command the settings file may be named, and behind it stand its
options. -/
theorem parse_of_lists {IsOption : String → String → List String → Prop} {rules : List Rule}
    {given options : Given} {front : List String} (hname : isOption name = false)
    (hrules : commands.lookup name = some rules)
    (hread : ∀ option value words, IsOption option value words →
      IsRead (rules ++ [configRule, helpRule]) option value words)
    (hfront : Lists IsConfig given front) (hoptions : Lists IsOption options words)
    (hcommand : commandOf? name options.reverse = some command) :
    Arguments.parse (front ++ name :: words) =
      .ok { config := options.lookup "config" <|> given.lookup "config", command } := by
  have hconfig : ∀ option value words, IsConfig option value words →
      IsRead [configRule, helpRule, versionRule] option value words :=
    fun _ _ _ hoption => hoption.isRead rfl ⟨by decide, rfl⟩
  have hbehind : readOptions (rules ++ [configRule, helpRule]) [] none words =
      .ok (options.reverse, []) := by
    have hall := hoptions.readOptions_first hread []
    rw [List.append_nil] at hall
    exact hall
  have hcarried : readCommand (given.lookup "config") name rules words =
      .ok { config := options.lookup "config" <|> given.lookup "config", command } := by
    simp only [readCommand, hbehind, hcommand, Entries.lookup_reverse hoptions.nodup]
  rw [Arguments.parse, hfront.readOptions_first hconfig, readOptions_word _ _ hname]
  simp only [hrules, Entries.lookup_reverse hfront.nodup]
  exact hcarried

/-- The settings file that is named in front of a command is an option in front of it. -/
theorem NamesConfig.lists (h : NamesConfig config words) :
    ∃ given, Lists IsConfig given words ∧ given.lookup "config" = config := by
  cases h with
  | absent => exact ⟨[], .none, rfl⟩
  | @file path words hpath hgives =>
    refine ⟨[("config", path)], ?_, rfl⟩
    have hlists : Lists IsConfig [("config", path)] (words ++ []) :=
      .option (.config hpath (.byName hgives)) List.not_mem_nil .none
    rwa [List.append_nil] at hlists

/-- The options of the command that decides a condition, as they are read. -/
def decideRules : List Rule :=
  [{ long := "condition", value := some .text }, { long := "values", value := some .text }]

/-- The options of deciding are read as they are meant. -/
theorem IsDecideOption.isRead (h : IsDecideOption name value words) :
    IsRead (decideRules ++ [configRule, helpRule]) name value words := by
  cases h with
  | condition hgives =>
    exact (Writes.byName hgives).isRead (takes_of_find (by decide) (by simp) rfl rfl rfl)
      fun c hc => absurd hc (Option.not_mem_none c)
  | values hgives =>
    exact (Writes.byName hgives).isRead (takes_of_find (by decide) (by simp) rfl rfl rfl)
      fun c hc => absurd hc (Option.not_mem_none c)

/-- A condition and values, with a settings file or without one, ask for the condition to be
decided. -/
theorem parse_decide {front first second : List String} {condition values : String}
    (hfront : NamesConfig config front) (hfirst : Gives "condition" condition first)
    (hsecond : Gives "values" values second) :
    Arguments.parse (front ++ "eval" :: (first ++ second)) =
      .ok { config, command := .decide condition (some values) } := by
  obtain ⟨given, hgiven, rfl⟩ := hfront.lists
  have hoptions : Lists IsDecideOption [("condition", condition), ("values", values)]
      (first ++ (second ++ [])) :=
    .option (.condition hfirst) (by simp [Entries.names]) (.option (.values hsecond) List.not_mem_nil .none)
  rw [List.append_nil] at hoptions
  exact parse_of_lists (by cbv) rfl (fun _ _ _ => IsDecideOption.isRead) hgiven hoptions rfl

/-- The options of the command that marks an entry, as they are read. -/
def markRules : List Rule :=
  [{ long := "key", short := some 'k', value := some .text }, { long := "undo" }]

/-- The options of marking are read as they are meant. -/
theorem IsMarkOption.isRead (h : IsMarkOption name value words) :
    IsRead (markRules ++ [configRule, helpRule]) name value words := by
  cases h with
  | key hwords =>
    refine hwords.isRead (takes_of_find (by decide) (by simp) rfl rfl rfl) fun c hc => ?_
    exact Option.some.inj hc ▸ ⟨by decide, rfl⟩
  | undo => exact isRead_flag (by decide) (by simp) rfl rfl (by decide) (by decide)
  | config hconfig => exact hconfig.isRead rfl ⟨by decide, rfl⟩

/-- The options of the command that changes the progression, as they are read. -/
def progressionRules : List Rule :=
  [{ long := "game-mode", value := some .integer }, { long := "region", value := some .integer }]

/-- The options of the progression are read as they are meant. -/
theorem IsProgressionOption.isRead (h : IsProgressionOption name value words) :
    IsRead (progressionRules ++ [configRule, helpRule]) name value words := by
  cases h with
  | gameMode hnumber hwords =>
    exact hwords.isRead (takes_of_find (by decide) (by simp) rfl rfl (accepts_integer hnumber))
      fun c hc => absurd hc (Option.not_mem_none c)
  | region hnumber hwords =>
    exact hwords.isRead (takes_of_find (by decide) (by simp) rfl rfl (accepts_integer hnumber))
      fun c hc => absurd hc (Option.not_mem_none c)
  | config hconfig => exact hconfig.isRead rfl ⟨by decide, rfl⟩

/-- The options of the command that takes over a snapshot, as they are read. -/
def importRules : List Rule :=
  [{ long := "file", short := some 'f', value := some .path }]

/-- The options of an import are read as they are meant. -/
theorem IsImportOption.isRead (h : IsImportOption name value words) :
    IsRead (importRules ++ [configRule, helpRule]) name value words := by
  cases h with
  | file hpath hwords =>
    refine hwords.isRead (takes_of_find (by decide) (by simp) rfl rfl (accepts_path hpath))
      fun c hc => ?_
    exact Option.some.inj hc ▸ ⟨by decide, rfl⟩
  | config hconfig => exact hconfig.isRead rfl ⟨by decide, rfl⟩

/-- Words that ask for an update give that command. -/
theorem AsksFor.parse (h : AsksFor config command words) :
    Arguments.parse words = .ok { config, command } := by
  cases h with
  | @mark given options front words key hfront hoptions hkey =>
    refine parse_of_lists (by cbv) rfl (fun _ _ _ => IsMarkOption.isRead) hfront hoptions ?_
    have hkey' := (Entries.lookup_reverse hoptions.nodup "key").trans hkey
    have hundo := Entries.lookup_reverse hoptions.nodup "undo"
    simp only [commandOf?, hkey', hundo]
    rfl
  | @progression given options front words gameMode region hfront hoptions hgameMode hregion =>
    refine parse_of_lists (by cbv) rfl (fun _ _ _ => IsProgressionOption.isRead) hfront hoptions ?_
    have hreverse := Entries.lookup_reverse hoptions.nodup
    simp only [commandOf?, hreverse, hgameMode.bind_readInt64?, hregion.bind_readInt64?]
  | @importFrom given options front words file hfront hoptions hfile =>
    refine parse_of_lists (by cbv) rfl (fun _ _ _ => IsImportOption.isRead) hfront hoptions ?_
    have hfile' := (Entries.lookup_reverse hoptions.nodup "file").trans hfile
    simp only [commandOf?, hfile']
    rfl

end Commands

end Questlog.Arguments
