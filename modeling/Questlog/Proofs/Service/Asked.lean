import Mathlib
import Questlog.Proofs.Progress.Snapshot
import Questlog.Proofs.Service.Events
import Questlog.Proofs.Service.Record

namespace Questlog

namespace Body

/-- A field for a text takes strings only. -/
theorem reads_text : Reads readText Json.string? := by
  constructor
  · intro input r h
    apply Json.readValue_cases _ _ _ _ _ _ h
    all_goals
      intros
      rfl
  · intro input hnone r hok
    unfold readText at hok
    split at hok
    · cases hnone
    · cases hok

/-- The truth value that a JSON value is. -/
def flag? : Json → Option Bool
  | .bool b => some b
  | _ => none

/-- A field for a truth value takes nothing else. -/
theorem reads_flag : Reads readFlag flag? := by
  constructor
  · intro input r h
    apply Json.readValue_cases _ _ _ _ _ _ h
    all_goals
      intros
      rfl
  · intro input hnone r hok
    unfold readFlag at hok
    split at hok
    · cases hnone
    · cases hok

/-- The number that a JSON value gives, which may be none if it is null. -/
def number? : Json → Option (Option Int64)
  | .null => some none
  | .number n => n.int64?.map fun n => some (Int64.ofInt n)
  | _ => none

/-- A field for a number takes integers of 64 bits and null. -/
theorem reads_int64 : Reads readInt64 number? := by
  constructor
  · intro input r h
    have hnumber : ∀ n rest, readInt64 (.number n :: rest) =
        (number? (.number n)).elim (.error .wrongShape) fun said =>
          .ok (.ofHead said (.number n) rest) := by
      intro n rest
      rw [readInt64, number?]
      cases n.int64? <;> rfl
    apply Json.readValue_cases _ _ hnumber _ _ _ h
    all_goals
      intros
      rfl
  · intro input hnone r hok
    unfold readInt64 at hok
    split at hok
    · cases hnone
    · cases hnone
    · cases hok

end Body

/-- `GivesNumber value? number?`: the field of a record gives a number, or none where it is missing or
null. -/
def GivesNumber (value? : Option Json) : Option Int64 → Prop
  | none => value? = none ∨ value? = some .null
  | some n => value? = some (.ofInt n.toInt)

namespace GivesNumber

variable {value? : Option Json} {number other : Option Int64}

theorem ofInt_ne_null (n : Int) : Json.ofInt n ≠ .null := by
  unfold Json.ofInt
  split <;> exact Json.noConfusion

theorem missing : GivesNumber none none :=
  Or.inl rfl

/-- No field gives two different numbers. -/
theorem unique (h : GivesNumber value? number) (h' : GivesNumber value? other) :
    number = other := by
  cases number with
  | none =>
    cases other with
    | none => rfl
    | some m =>
      have hvalue : value? = some (.ofInt m.toInt) := h'
      rcases h with hnone | hnull
      · cases hvalue.symm.trans hnone
      · exact absurd (Option.some.inj (hvalue.symm.trans hnull)) (ofInt_ne_null _)
  | some n =>
    have hvalue : value? = some (.ofInt n.toInt) := h
    cases other with
    | none =>
      rcases h' with hnone | hnull
      · cases hvalue.symm.trans hnone
      · exact absurd (Option.some.inj (hvalue.symm.trans hnull)) (ofInt_ne_null _)
    | some m =>
      have hsame : Json.ofInt n.toInt = Json.ofInt m.toInt := Option.some.inj (hvalue.symm.trans h')
      have hnumber := congrArg Progress.numberOf hsame
      rw [Progress.numberOf_ofInt, Progress.numberOf_ofInt] at hnumber
      rw [hnumber]

end GivesNumber

namespace ItemUpdate

/-- `update.IsIn json`: the JSON value is a record of the key and of whether it is to be completed. -/
def IsIn (json : Json) (update : ItemUpdate) : Prop :=
  json.field? ["key", "completed"] "key" = some (.string update.key) ∧
    json.field? ["key", "completed"] "completed" = some (.bool update.completed)

/-- What a member of a body changes in an update. -/
def change? : String → Json → Option (Draft → Draft) :=
  Body.ofTwo "key" "completed"
    (fun value => value.string?.map fun key draft => { draft with key := some key })
    (fun value => (Body.flag? value).map fun completed draft =>
      { draft with completed := some completed })

/-- What the members of a body say of an item. -/
theorem means_fields : Body.Means fields change? := by
  apply Body.means_ofTwo
  · exact Body.reads_text.field
  · exact Body.reads_flag.field
  · decide

/-- A body asks for one update of an item at most. -/
theorem IsIn.unique {json : Json} {update other : ItemUpdate} (h : update.IsIn json)
    (h' : other.IsIn json) : update = other := by
  obtain ⟨key, completed⟩ := update
  obtain ⟨key', completed'⟩ := other
  obtain rfl := Json.string.inj (Option.some.inj (h.1.symm.trans h'.1))
  obtain rfl := Json.bool.inj (Option.some.inj (h.2.symm.trans h'.2))
  rfl

end ItemUpdate

namespace ProgressionUpdate

/-- `update.IsIn json`: the JSON value is a record of the numbers that are to change. -/
def IsIn (json : Json) (update : ProgressionUpdate) : Prop :=
  GivesNumber (json.field? ["gameMode", "region"] "gameMode") update.gameMode ∧
    GivesNumber (json.field? ["gameMode", "region"] "region") update.region

/-- What a member of a body changes in an update. -/
def change? : String → Json → Option (ProgressionUpdate → ProgressionUpdate) :=
  Body.ofTwo "gameMode" "region"
    (fun value => (Body.number? value).map fun gameMode update => { update with gameMode })
    (fun value => (Body.number? value).map fun region update => { update with region })

/-- What the members of a body say of the progression. -/
theorem means_fields : Body.Means fields change? := by
  apply Body.means_ofTwo
  · exact Body.reads_int64.field
  · exact Body.reads_int64.field
  · decide

/-- A body asks for one update of the progression at most. -/
theorem IsIn.unique {json : Json} {update other : ProgressionUpdate} (h : update.IsIn json)
    (h' : other.IsIn json) : update = other := by
  obtain ⟨gameMode, region⟩ := update
  obtain ⟨gameMode', region'⟩ := other
  obtain rfl := h.1.unique h'.1
  obtain rfl := h.2.unique h'.2
  rfl

end ProgressionUpdate

namespace Change

/-- The method of the requests that ask for a change. -/
def method : Change → String
  | item _ | progression _ => "PUT"
  | replace _ => "POST"

/-- The path of the requests that ask for a change. -/
def path : Change → String
  | item _ => "/api/progress/items"
  | progression _ => "/api/progress/progression"
  | replace _ => "/api/progress/import"

/-- `change.IsAskedBy progressKey body`: the JSON value of the body says what is to be changed. A
record is read leniently, since its members need not denote anything if they are no fields. -/
def IsAskedBy (progressKey body : String) : Change → Prop
  | item update => ∃ json, Json.ReadsLeniently body json ∧ update.IsIn json
  | progression update => ∃ json, Json.ReadsLeniently body json ∧ update.IsIn json
  | replace keys => Progress.IsSnapshot body progressKey keys

/-- At one path a body asks for one change at most. -/
theorem IsAskedBy.unique {progressKey body : String} {change other : Change}
    (h : change.IsAskedBy progressKey body) (h' : other.IsAskedBy progressKey body)
    (hpath : change.path = other.path) : change = other := by
  cases change <;> cases other
  case item.item =>
    obtain ⟨json, hreads, hin⟩ := h
    obtain ⟨json', hreads', hin'⟩ := h'
    obtain rfl := hreads.unique hreads'
    rw [hin.unique hin']
  case progression.progression =>
    obtain ⟨json, hreads, hin⟩ := h
    obtain ⟨json', hreads', hin'⟩ := h'
    obtain rfl := hreads.unique hreads'
    rw [hin.unique hin']
  case replace.replace =>
    have hkeys := Progress.importKeys_eq_ok_iff.mpr h
    rw [Progress.importKeys_eq_ok_iff.mpr h'] at hkeys
    rw [Except.ok.inj hkeys]
  all_goals simp [path] at hpath

/-- The number of a field that may be null. -/
def numberOrNull (number? : Option Int64) : Json :=
  (number?.map fun n => Json.ofInt n.toInt).getD .null

/-- An object that says what is to be changed. -/
def toJson (progressKey : String) : Change → Json
  | item update => .object [("key", .string update.key), ("completed", .bool update.completed)]
  | progression update => .object [("gameMode", numberOrNull update.gameMode),
      ("region", numberOrNull update.region)]
  | replace keys => .object [("key", .string progressKey),
      ("completed", .array (keys.map .string))]

end Change

namespace Request

/-- `request.AsksFor progressKey change`: the method, the path and the JSON value of the body ask for
the change. -/
structure AsksFor (progressKey : String) (request : Request) (change : Change) : Prop where
  method : request.method = change.method
  path : request.path = change.path
  body : change.IsAskedBy progressKey request.body

/-- `request.SpellsOut progressKey change`: the body is the pretty text of the object that asks for the
change, of a type and a size that are accepted. -/
structure SpellsOut (progressKey : String) (request : Request) (change : Change) : Prop where
  method : request.method = change.method
  path : request.path = change.path
  type : request.contentType.any MediaType.isJson = true
  size : request.body.utf8ByteSize ≤ maxBody
  body : request.body = (change.toJson progressKey).pretty

variable {progressKey : String} {request : Request} {change other : Change}

/-- No request asks for two different changes. -/
theorem AsksFor.unique (h : request.AsksFor progressKey change)
    (h' : request.AsksFor progressKey other) : change = other :=
  h.body.unique h'.body (h.path.symm.trans h'.path)

end Request

end Questlog
