import Questlog.Service.Body

namespace Questlog

/-- A condition to be decided, by the given values or else by the progress. -/
structure Evaluation where
  condition : Option Json := none
  values : Option Json := none

/-- A mark to be set or taken off. -/
structure ItemUpdate where
  key : String
  completed : Bool

/-- The numbers of the progression that are to change. -/
structure ProgressionUpdate where
  gameMode : Option Int64 := none
  region : Option Int64 := none

namespace Evaluation

/-- The fields of an evaluation, either of which may be missing. -/
def fields : List (Body.Field Evaluation) :=
  [.of "condition" Body.readAny fun condition e => { e with condition },
    .of "values" Body.readAny fun values e => { e with values }]

/-- The evaluation that a body asks for. -/
def parse (body : String) : Except Body.Fault Evaluation :=
  Body.parse fields {} some body

end Evaluation

namespace ItemUpdate

/-- An update in the making, both fields of which have to be there in the end. -/
structure Draft where
  key : Option String := none
  completed : Option Bool := none

/-- The update, once both fields are there. -/
def Draft.complete? (draft : Draft) : Option ItemUpdate :=
  match draft with
  | ⟨some key, some completed⟩ => some { key, completed }
  | _ => none

/-- The fields of an update, in their order. -/
def fields : List (Body.Field Draft) :=
  [.of "key" Body.readText fun key draft => { draft with key := some key },
    .of "completed" Body.readFlag fun completed draft =>
      { draft with completed := some completed }]

/-- The update that a body asks for. -/
def parse (body : String) : Except Body.Fault ItemUpdate :=
  Body.parse fields {} Draft.complete? body

end ItemUpdate

namespace ProgressionUpdate

/-- The fields of an update, either of which may be missing. -/
def fields : List (Body.Field ProgressionUpdate) :=
  [.of "gameMode" Body.readInt64 fun gameMode update => { update with gameMode },
    .of "region" Body.readInt64 fun region update => { update with region }]

/-- The update that a body asks for. -/
def parse (body : String) : Except Body.Fault ProgressionUpdate :=
  Body.parse fields {} some body

end ProgressionUpdate

end Questlog
