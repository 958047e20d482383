import Questlog.Json.Printer

namespace Questlog

/-- A request. Its target is a path, perhaps with a query. Its body is text, so no bytes that are
not text can be sent. -/
structure Request where
  method : String
  target : String
  contentType : Option String := none
  body : String := ""

/-- The path of a request without its query. -/
def Request.path (request : Request) : String :=
  String.ofList (request.target.toList.takeWhile fun c => c ≠ '?' && c ≠ '#')

/-- A response. -/
structure Response where
  status : Nat
  contentType : Option String := none
  body : String := ""

namespace Response

/-- A response without a body. -/
def bare (status : Nat) : Response :=
  { status }

/-- A JSON value. -/
def json (status : Nat) (value : Json) : Response :=
  { status, contentType := some "application/json", body := value.compact }

/-- A JSON text. -/
def jsonText (status : Nat) (text : String) : Response :=
  { status, contentType := some "application/json", body := text }

/-- A Markdown page. -/
def markdown (page : String) : Response :=
  { status := 200, contentType := some "text/markdown", body := page }

/-- A refusal that says why. -/
def refusal (status : Nat) (message : String) : Response :=
  json status (.object [("error", .string message)])

/-- The response without its body, for requests that ask for the head alone. -/
def head (response : Response) : Response :=
  { response with body := "" }

/-- Whether the request was carried out. -/
def isSuccess (response : Response) : Bool :=
  response.status < 400

end Response

end Questlog
