import Questlog.Proofs.Service.Record
import Questlog.Proofs.Service.Step

namespace Questlog

namespace Body

/-- What a value gives a field that may be missing: null gives nothing. -/
def given? : Json → Option Json
  | .null => none
  | value => some value

theorem given?_of_ne_null {value : Json} (h : value ≠ .null) : given? value = some value := by
  cases value with
  | null => exact absurd rfl h
  | _ => rfl

/-- A field for any value takes whatever is read. -/
theorem reads_any : Reads readAny (some <| given? ·) := by
  constructor
  · rintro input ⟨value, rest, hlt⟩ h
    rw [readAny, h]
    cases value <;> rfl
  · intro input hnone r hok
    rw [readAny, hnone] at hok
    cases hok

end Body

namespace Evaluation

/-- What a member of a body changes in an evaluation. -/
def change? : String → Json → Option (Evaluation → Evaluation) :=
  Body.ofTwo "condition" "values"
    (fun value => some fun e => { e with condition := Body.given? value })
    (fun value => some fun e => { e with values := Body.given? value })

/-- What the members of a body say of an evaluation. -/
theorem means_fields : Body.Means fields change? := by
  apply Body.means_ofTwo
  · exact Body.reads_any.field
  · exact Body.reads_any.field
  · decide

/-- The condition is the member of that name, but null is none. -/
theorem shows_condition : Body.Shows change? "condition" condition fun value? condition =>
    condition = value?.bind Body.given? := by
  apply Body.shows_first
  · rintro value change ⟨⟩ evaluation
    rfl
  · rintro value change ⟨⟩ evaluation
    rfl

theorem shows_values : Body.Shows change? "values" values fun value? values =>
    values = value?.bind Body.given? := by
  apply Body.shows_second (by decide)
  · rintro value change ⟨⟩ evaluation
    rfl
  · rintro value change ⟨⟩ evaluation
    rfl

/-- Of a body that is JSON and that is accepted the evaluation takes the two members as they are,
but null for none. No member may stand twice. -/
theorem eq_of_parse {body : String} {json : Json} {evaluation : Evaluation}
    (hbody : Json.parse? body = some json) (h : parse body = .ok evaluation) :
    evaluation.condition =
        (json.field? ["condition", "values"] "condition").bind Body.given? ∧
      evaluation.values = (json.field? ["condition", "values"] "values").bind Body.given? := by
  obtain ⟨read, hreads, members, record, hfold, hcomplete, hlookup⟩ :=
    means_fields.of_parse (by decide) h
  obtain rfl := (Json.readsLeniently_iff_of_parse? hbody).mp hreads
  obtain rfl := Option.some.inj hcomplete
  have hcondition := shows_condition.of_members rfl hfold
  have hvalues := shows_values.of_members rfl hfold
  rw [hlookup] at hcondition hvalues
  exact ⟨hcondition, hvalues⟩

/-- The object that asks for a condition to be decided by values. -/
def toJson (condition values : Json) : Json :=
  .object [("condition", condition), ("values", values)]

/-- A body that asks for a condition to be decided by values: the text of that object, whose two
members may stand in either order. -/
def IsAsked (body : String) (condition values : Json) : Prop :=
  Json.parse? body = some (toJson condition values) ∨
    Json.parse? body = some (.object [("values", values), ("condition", condition)])

/-- A body that asks for an evaluation and is read gives that evaluation. -/
theorem eq_of_isAsked {body : String} {condition values : Json} {evaluation : Evaluation}
    (h : IsAsked body condition values) (hparse : parse body = .ok evaluation) :
    evaluation = { condition := Body.given? condition, values := Body.given? values } := by
  obtain ⟨_, _⟩ := evaluation
  rcases h with hbody | hbody
  · obtain ⟨rfl, rfl⟩ := eq_of_parse hbody hparse
    rfl
  · obtain ⟨rfl, rfl⟩ := eq_of_parse hbody hparse
    rfl

end Evaluation

namespace Service

variable {anyWildcard : Bool} {service : Service} {request : Request}

/-- A question whose body is read is put to the gate. -/
theorem answer_of_parse {evaluation : Evaluation} (hroute : request.route? = some .evaluate)
    (hjson : request.contentType.any MediaType.isJson = true)
    (hsize : request.body.utf8ByteSize ≤ Request.maxBody)
    (hparse : Evaluation.parse request.body = .ok evaluation) :
    answer request service = evaluate evaluation service := by
  rw [answer_of_route hroute]
  simp only [answerAt, whenRead, read_of_parse hjson hsize hparse]

/-- A question is accepted that is written as pretty text, if it fits. -/
theorem accepted_of_pretty {condition : Json} {members : List (String × Json)}
    (hroute : request.route? = some .evaluate)
    (hjson : request.contentType.any MediaType.isJson = true)
    (hsize : request.body.utf8ByteSize ≤ Request.maxBody)
    (hbody : request.body = (Evaluation.toJson condition (.object members)).pretty)
    (hfits : Json.Fits Json.maxNesting (Evaluation.toJson condition (.object members))) :
    (answer request service).1.isSuccess = true := by
  have hparse : Evaluation.parse request.body = .ok _ :=
    hbody ▸ Evaluation.means_fields.parse_pretty hfits (List.cons_ne_nil _ _) rfl rfl
  rw [answer_of_parse hroute hjson hsize hparse]
  rfl

/-- What a condition says for given values is what a sound gate answers. -/
theorem evaluate_given (h : service.gate.Sound anyWildcard) (condition : Option Json)
    (members : List (String × Json)) :
    (evaluate { condition, values := some (.object members) } service).1 =
      .json 200 (.object [("unlocked",
        .bool (condition.all (·.isMet anyWildcard (.ofMembers members))))]) := by
  have hanswer := (h.isUnlocked condition (.ofMembers members)).1
  rw [← hanswer]
  rfl

/-- The answer to an accepted question, by any sound gate. A condition that is null counts as
none. -/
theorem answer_of_isAsked {condition : Json} {members : List (String × Json)}
    (h : service.gate.Sound anyWildcard) (hroute : request.route? = some .evaluate)
    (hasked : Evaluation.IsAsked request.body condition (.object members))
    (haccepted : (answer request service).1.isSuccess = true) :
    (answer request service).1 = .json 200 (.object [("unlocked",
      .bool ((Body.given? condition).all (·.isMet anyWildcard (.ofMembers members))))]) := by
  rw [answer_of_route hroute, answerAt, whenRead] at haccepted ⊢
  cases hread : request.read Evaluation.parse with
  | error refused =>
    have hstatus := (status_read hread).1
    simp only [hread] at haccepted
    exact absurd (of_decide_eq_true haccepted) (Nat.not_lt.mpr hstatus)
  | ok evaluation =>
    rw [Evaluation.eq_of_isAsked hasked (parse_of_read hread)]
    exact evaluate_given h _ members

end Service

end Questlog
