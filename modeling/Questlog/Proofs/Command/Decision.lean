import Mathlib
import Questlog.Proofs.Command.Program
import Questlog.Proofs.Command.Words
import Questlog.Proofs.Service.Evaluation
import Questlog.Proofs.Service.Events

namespace Questlog

namespace Arguments

/-- `AskToDecide condition values config arguments`: the arguments ask for a condition to be decided
by values, each written as JSON in some way, and name the settings file if there is one. -/
inductive AskToDecide (condition values : Json) : Option String → List String → Prop
  | words {config : Option String} {front first second : List String} {text valuesText : String} :
    NamesConfig config front → Gives "condition" text first → Gives "values" valuesText second →
    Json.parse? text = some condition → Json.parse? valuesText = some values →
    AskToDecide condition values config (front ++ "eval" :: (first ++ second))

end Arguments

namespace Program

/-- Without a settings file and without variables nothing changes the settings. -/
theorem finds_default : Finds none (fun _ => none) {} {} := by
  refine ⟨fun _ => none, ?_, fun command => rfl⟩
  cbv

end Program

namespace Command

/-- A new gate decides the condition, be it JSON or not. -/
theorem runDecide_eq (settings : Settings) {text valuesText : String}
    {members : List (String × Json)} (hvalues : Json.parse? valuesText = some (.object members))
    (disk : Disk) :
    runDecide settings text (some valuesText) disk =
      (.ok (if (readCondition text).isMet settings.gate.anyWildcard (.ofMembers members) then
        "unlocked\n" else "locked\n"), disk) := by
  have hread : valuesFor settings (some valuesText) disk = (.ok (.ofMembers members), disk) := by
    simp only [valuesFor, hvalues]
    rfl
  have hsound : (Gate.new settings.gate).Sound settings.gate.anyWildcard :=
    ⟨Compiler.sound_new settings.gate.cacheCapacity, rfl⟩
  have hanswer := (hsound.isUnlocked (some (readCondition text)) (.ofMembers members)).1
  rw [Option.all_some] at hanswer
  rw [runDecide, Run.bind_of_ok hread, ← hanswer]
  rfl

end Command

namespace Service

/-- A service without any content. -/
def contentless : Service :=
  { checklist := {}
    title := ""
    progressKey := "ns"
    gate := Gate.new {}
    progress := { scope := "ns" } }

/-- A question to the service. -/
def question (body : String) : Request :=
  ⟨"POST", "/api/evaluate", some "application/json", body⟩

/-- The service answers a question by evaluating the body, if the body can be read. -/
theorem answer_question {body : String} {evaluation : Evaluation}
    (hsize : body.utf8ByteSize ≤ Request.maxBody)
    (hparse : Evaluation.parse body = .ok evaluation) (service : Service) :
    answer (question body) service = evaluate evaluation service := by
  have hroute : (question body).route? = some .evaluate := by cbv
  have hjson : (question body).contentType.any MediaType.isJson = true := by cbv
  exact answer_of_parse hroute hjson hsize hparse

end Service

namespace Session

variable {ι : Type} [DecidableEq ι] {settings : Settings} {session : Session ι}
  {history : List (GateCall × GateReply)} {service : Service}

/-- All three give the same verdict. Let a gate, a service and a run of the program have the same
settings, whatever the gate and the service were asked before. For every condition but null and all
values, a question to the service that is accepted is answered with what the gate says, and the
program prints it and leaves the files alone. The pretty text of a question is one that is accepted,
unless it is too long or nests too deep. The doors read the condition each in a way of its own, and
agree on every condition but null, which the service takes for no condition at all. -/
theorem Run.verdict_everywhere (h : Run settings.gate session history)
    (hgate : service.gate = Gate.new settings.gate) (events : List Event) {condition : Json}
    (hnull : condition ≠ .null) (members : List (String × Json)) :
    let unlocked := (Gate.isUnlocked (some condition) (.ofMembers members) session.gate).1
    let asked := (Service.meetAll events service).2
    (∀ request, request.route? = some .evaluate →
      (Evaluation.IsAsked request.body condition (.object members) →
        (Service.answer request asked).1.isSuccess = true →
        (Service.answer request asked).1 = .json 200 (.object [("unlocked", .bool unlocked)])) ∧
      (request.contentType.any MediaType.isJson = true →
        request.body.utf8ByteSize ≤ Request.maxBody →
        request.body = (Evaluation.toJson condition (.object members)).pretty →
        Json.Fits Json.maxNesting (Evaluation.toJson condition (.object members)) →
        (Service.answer request asked).1.isSuccess = true)) ∧
    ∀ config arguments env disk,
      Arguments.AskToDecide condition (.object members) config arguments →
      Program.Finds config env disk settings →
      Program.run arguments env disk =
        (.done (if unlocked then "unlocked\n" else "locked\n"), disk) := by
  intro unlocked asked
  have hverdict : unlocked = condition.isMet settings.gate.anyWildcard (.ofMembers members) :=
    (h.gate_sound.isUnlocked (some condition) (.ofMembers members)).1
  constructor
  · intro request hroute
    refine ⟨fun hasked haccepted => ?_, Service.accepted_of_pretty hroute⟩
    have hsound : service.gate.Sound settings.gate.anyWildcard :=
      hgate ▸ ⟨Compiler.sound_new settings.gate.cacheCapacity, rfl⟩
    have hstill := ((Service.Alike.refl hsound).meetAll events).2.sound
    rw [Service.answer_of_isAsked hstill hroute hasked haccepted, Body.given?_of_ne_null hnull,
      hverdict]
    rfl
  · rintro config arguments env disk hasks ⟨env', henvironment, hsettings⟩
    obtain ⟨hfront, hfirst, hsecond, htext, hvalues⟩ := hasks
    have hparse := Arguments.parse_decide hfront hfirst hsecond
    have hasked : Program.Asks _ env disk settings _ :=
      ⟨env', config, henvironment, hparse, hsettings _⟩
    have hread : Command.readCondition _ = condition := congrArg (Option.getD · _) htext
    rw [hasked.run, Command.run, Command.runDecide_eq settings hvalues, hread, ← hverdict]
    rfl

/-- The condition is a text, which is JSON in the arguments as well. -/
theorem Run.verdict_everywhere_field :
    (Service.answer (Service.question
        "\x7b\"values\": \x7b\"open\": true\x7d, \"condition\": \"open\"\x7d")
        Service.contentless).1 = .json 200 (.object [("unlocked", .bool true)]) ∧
      Program.run ["eval", "--condition", "\"open\"", "--values=\x7b\"open\": true\x7d"]
        (fun _ => none) {} = (.done "unlocked\n", {}) := by
  have unused : Run ({} : Settings).gate (⟨Gate.new {}, fun _ => none⟩ : Session Unit) [] := .start
  have hgate : Service.contentless.gate = Gate.new ({} : Settings).gate := rfl
  have hnull : Json.string "open" ≠ .null := Json.noConfusion
  obtain ⟨hservice, hprogram⟩ :=
    Run.verdict_everywhere unused hgate [] hnull [("open", .bool true)]
  have hverdict : (Gate.isUnlocked (some (.string "open")) (.ofMembers [("open", .bool true)])
      (Gate.new {})).1 = true := by cbv
  rw [hverdict] at hservice hprogram
  constructor
  · refine (hservice _ (by cbv)).1 (.inr (by cbv)) ?_
    have hparse : Evaluation.parse
        "\x7b\"values\": \x7b\"open\": true\x7d, \"condition\": \"open\"\x7d" =
        .ok { condition := some (.string "open"), values := some (.object [("open", .bool true)]) } := by
      cbv
    rw [Service.answer_question (by decide) hparse]
    rfl
  · have hcondition : Arguments.Gives "condition" "\"open\"" ["--condition", "\"open\""] :=
      .apart (by cbv)
    have hvalues : Arguments.Gives "values" "\x7b\"open\": true\x7d"
        ["--values=\x7b\"open\": true\x7d"] := .joined
    refine hprogram none _ _ _ ?_ Program.finds_default
    exact .words .absent hcondition hvalues (by cbv) (by cbv)

/-- Null is no condition that holds: the gate says so, and so does the program. To the service it is
no condition, so that it has nothing to keep locked. -/
theorem null_opens_service :
    Evaluation.IsAsked "\x7b\"condition\": null, \"values\": \x7b\x7d\x7d" .null (.object []) ∧
      (Gate.isUnlocked (some .null) (.ofMembers []) (Gate.new {})).1 = false ∧
      (Service.answer (Service.question "\x7b\"condition\": null, \"values\": \x7b\x7d\x7d")
        Service.contentless).1 = .json 200 (.object [("unlocked", .bool true)]) ∧
      Arguments.AskToDecide .null (.object []) none
        ["eval", "--condition", "null", "--values", "\x7b\x7d"] ∧
      Program.run ["eval", "--condition", "null", "--values", "\x7b\x7d"] (fun _ => none) {} =
        (.done "locked\n", {}) := by
  have hasks : Arguments.AskToDecide .null (.object []) none
      ["eval", "--condition", "null", "--values", "\x7b\x7d"] :=
    .words .absent (.apart (by cbv)) (.apart (by cbv)) (by cbv) (by cbv)
  have hparse : Evaluation.parse "\x7b\"condition\": null, \"values\": \x7b\x7d\x7d" =
      .ok { condition := none, values := some (.object []) } := by cbv
  refine ⟨.inl (by cbv), rfl, ?_, hasks, ?_⟩
  · rw [Service.answer_question (by decide) hparse]
    rfl
  · cbv

end Session

end Questlog
