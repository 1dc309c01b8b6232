import Rulebook.Http.Envelope
import Rulebook.Http.MediaType
import Rulebook.Http.Payload
import Rulebook.Service.Basic

/-!
# Requests and responses

Six paths have an answer, each for one method:

| path | method | answer |
|---|---|---|
| `/health` | GET | that the server is up |
| `/api/rule` | GET | all rules |
| `/api/rules` | POST | the rule that was kept |
| `/api/rules/combine` | POST | the text of joined rules |
| `/api/rules/evaluate` | POST | a verdict |
| `/api/rules/clean` | DELETE | how many rules were removed |

HEAD is answered like GET, without the body.  OPTIONS is how a browser asks whether
a page of another site may send a request.  Every page may send any, so it gets status
200 on every path, with the methods that are allowed if the path is one of the six.
Another method gets status 405 with these methods, another path gets status 404, and
none of the three has a body.

What is under `/api` always gets status 200 and an envelope, whatever goes wrong.
A body is read in three steps, and the first that fails names the error: the media
type is one of JSON, the body is not too long, and the text is the payload.  What
follows the payload is not looked at.  A body is bytes, and they need not be a text:
bytes that belong to no character may stand in a string that is passed over, and make
a body malformed elsewhere.  The service is asked only after all that, so a request
that cannot be read changes nothing.
-/

namespace Rulebook

/-- A request. -/
structure HttpRequest where
  /-- The method. -/
  method : String
  /-- The path, maybe after a scheme and a host, and maybe before a query. -/
  target : String
  /-- The media type that the request names. -/
  contentType : Option String := none
  /-- The bytes of the body. -/
  body : ByteArray := .empty

/-- A response. -/
structure HttpResponse where
  /-- The status. -/
  status : Nat
  /-- The media type that the response names. -/
  contentType : Option String := none
  /-- The methods that are allowed. -/
  allow : Option String := none
  /-- The body, unless it is empty. -/
  body : Option Json := none

namespace HttpResponse

/-- A response with JSON. -/
def ofJson (j : Json) : HttpResponse :=
  { status := 200, contentType := some "application/json", body := some j }

/-- The response with data. -/
def ofData (j : Json) : HttpResponse := ofJson ((Envelope.ok j).toJson id)

/-- The response with an error. -/
def ofError (e : ServiceError) : HttpResponse :=
  ofJson ((Envelope.failure e.message : Envelope Json).toJson id)

/-- The response with data or with an error. -/
def ofOutcome {α : Type} (data : α → Json) : Except ServiceError α → HttpResponse
  | .ok a => ofData (data a)
  | .error e => ofError e

/-- The response to a path that is not there. -/
def notFound : HttpResponse := { status := 404 }

/-- The response to the question whether a request may be sent. -/
def permitted (allow : Option String) : HttpResponse := { status := 200, allow }

/-- The response to a method that is not allowed. -/
def notAllowed (allow : String) : HttpResponse := { status := 405, allow := some allow }

end HttpResponse

namespace Http

/-! ## Routes -/

/-- What a request may be about. -/
inductive Route where
  /-- The health of the server. -/
  | health
  /-- The list of all rules. -/
  | list
  /-- A rule to keep. -/
  | create
  /-- Rules to join. -/
  | combine
  /-- A rule to evaluate. -/
  | evaluate
  /-- The removal of all rules. -/
  | clean
  deriving DecidableEq

namespace Route

/-- All routes. -/
def all : List Route := [.health, .list, .create, .combine, .evaluate, .clean]

/-- The path of a route. -/
def path : Route → String
  | .health => "/health"
  | .list => "/api/rule"
  | .create => "/api/rules"
  | .combine => "/api/rules/combine"
  | .evaluate => "/api/rules/evaluate"
  | .clean => "/api/rules/clean"

/-- The method of a route. -/
def method : Route → String
  | .health | .list => "GET"
  | .create | .combine | .evaluate => "POST"
  | .clean => "DELETE"

/-- The methods that a route allows. -/
def allow : Route → String
  | .health | .list => "GET,HEAD"
  | .create | .combine | .evaluate => "POST"
  | .clean => "DELETE"

/-- The route of a path. -/
def ofPath? (path : String) : Option Route := all.find? (·.path == path)

end Route

/-- Whether a character may be in the scheme of a target. -/
def isSchemeChar (c : Char) : Bool := c.isAlphanum || c == '+' || c == '-' || c == '.' || c == '~'

/-- What follows the scheme of a target, if it has one. -/
def afterScheme? : List Char → Option (List Char)
  | [] => none
  | ':' :: '/' :: '/' :: cs => some cs
  | c :: cs => if isSchemeChar c then afterScheme? cs else none

/-- A target up to its query or fragment. -/
def withoutQuery (cs : List Char) : List Char := cs.takeWhile fun c => c != '?' && c != '#'

/-- The path of a target.  After a scheme comes the host, and if no path follows the host it is the
root. -/
def pathOf (target : String) : String :=
  match afterScheme? target.toList with
  | none => String.ofList (withoutQuery target.toList)
  | some cs =>
    match (withoutQuery cs).dropWhile (· != '/') with
    | [] => "/"
    | path => String.ofList path

example : pathOf "/health?full" = "/health" := by decide +kernel
example : pathOf "HTTP://localhost:80/health#top" = "/health" := by decide +kernel
example : pathOf "http://localhost" = "/" := by decide +kernel

/-! ## Bodies -/

/-- The number of bytes that a body may have. -/
def maxBodySize : Nat := 2097152

/-- What stands for a byte that belongs to no character.  It begins with half a pair in escaped
form, so a string with it is refused where it is read and accepted where it is passed over, as one
with such a byte is.  The letters around keep it from being part of another escape. -/
def strayByte : List Char := ['x', '\\', 'u', 'd', '8', '0', '0', 'x']

/-- The characters of bytes from a place on, behind those that were read before, in reverse. -/
def charsFrom (bytes : ByteArray) (place : Nat) (before : List Char) : List Char :=
  if _h : place < bytes.size then
    match bytes.utf8DecodeChar? place with
    | some c => charsFrom bytes (place + c.utf8Size) (c :: before)
    | none => charsFrom bytes (place + 1) (strayByte.reverse ++ before)
  else before.reverse
termination_by bytes.size - place
decreasing_by
  · have := c.utf8Size_pos
    omega
  · omega

/-- The text of a body. -/
def bodyText (body : ByteArray) : String :=
  match String.fromUTF8? body with
  | some text => text
  | none => String.ofList (charsFrom body 0 [])

/-- The payload of a request. -/
def payload {α : Type} (reader : Json.Reader α) (request : HttpRequest) : Except ServiceError α :=
  if !request.contentType.any MediaType.isJson then
    .error (.invalidRequest "Missing 'Content-Type: application/json' header")
  else if maxBodySize < request.body.size then
    .error (.invalidRequest
      "Failed to parse JSON: Failed to buffer the request body: length limit exceeded")
  else
    match Json.Reader.leading reader (bodyText request.body) with
    | .ok a => .ok a
    | .error .mismatch => .error (.invalidRequest
        "Invalid JSON data: Failed to deserialize the JSON body into the target type")
    | .error .malformed => .error (.invalidRequest
        "JSON syntax error: Failed to parse the request body as JSON")

/-- A byte that is no text, in a string that is passed over and in one that is read. -/
example : (Json.Reader.leading RuleList.reader (bodyText
      ("\x7b\"a\":\"".toUTF8 ++ ⟨#[0xff]⟩ ++ "\",\"rule_ids\":\"é\"\x7d".toUTF8))).toOption.map
        (·.ids) = some "é" ∧
    (Json.Reader.leading RuleList.reader (bodyText
      ("\x7b\"rule_ids\":\"".toUTF8 ++ ⟨#[0xff]⟩ ++ "\"\x7d".toUTF8))).toOption.isNone := by
  decide +kernel

/-! ## Answers -/

variable {σ : Type} [Repository σ]

/-- The version that the server tells. -/
def version : String := "0.1.0"

/-- The answer about the health of the server. -/
def health : HttpResponse :=
  .ofJson (.object [("status", .string "healthy"), ("version", .string version)])

/-- Keep the rule of a payload. -/
def create (s : Service σ) (request : HttpRequest) : HttpResponse × Service σ :=
  match payload NewRule.reader request with
  | .error e => (.ofError e, s)
  | .ok new =>
    let (outcome, s) := s.create new.id new.expression
    (.ofOutcome Rule.toJson outcome, s)

/-- The rules. -/
def list (s : Service σ) : HttpResponse :=
  .ofOutcome (fun rules => .array (rules.map Rule.toJson)) s.rules

/-- Join the rules of a payload. -/
def combine (s : Service σ) (request : HttpRequest) : HttpResponse :=
  match payload RuleList.reader request with
  | .error e => .ofError e
  | .ok list => .ofOutcome (fun text => (Combined.mk text).toJson) (s.combineList list.ids)

/-- Evaluate what a payload asks for. -/
def evaluate (s : Service σ) (request : HttpRequest) (stamp : Stamp) :
    HttpResponse × Service σ :=
  match payload Query.reader request with
  | .error e => (.ofError e, s)
  | .ok query =>
    match Record.ofMembers query.data with
    | .error e => (.ofError (.ofValue e), s)
    | .ok data =>
      let (outcome, s) := s.evaluate ⟨query.expression, query.ruleIds, data⟩ stamp
      (.ofOutcome Json.bool outcome, s)

/-- Remove all rules. -/
def clean (s : Service σ) : HttpResponse × Service σ :=
  let (outcome, s) := s.clear
  let text (n : Nat) : String :=
    "Database cleaned successfully, " ++ String.ofList (Digits.digits n) ++ " rules removed"
  (.ofOutcome (fun n => .string (text n)) outcome, s)

/-- The answer of a route, and the service after it. -/
def answer (s : Service σ) (route : Route) (request : HttpRequest) (stamp : Stamp) :
    HttpResponse × Service σ :=
  match route with
  | .health => (health, s)
  | .list => (list s, s)
  | .create => create s request
  | .combine => (combine s request, s)
  | .evaluate => evaluate s request stamp
  | .clean => clean s

/-- The response of the routes to a request, and the service after it. -/
def routed (s : Service σ) (request : HttpRequest) (stamp : Stamp) :
    HttpResponse × Service σ :=
  match Route.ofPath? (pathOf request.target) with
  | none => (.notFound, s)
  | some route =>
    if request.method = route.method then answer s route request stamp
    else if request.method = "HEAD" ∧ route.method = "GET" then
      let (response, s) := answer s route request stamp
      ({ response with body := none }, s)
    else (.notAllowed route.allow, s)

/-- The response to a request, and the service after it.  What lets in the pages of other sites
stands around the routes and answers OPTIONS itself. -/
def respond (s : Service σ) (request : HttpRequest) (stamp : Stamp) :
    HttpResponse × Service σ :=
  if request.method = "OPTIONS" then
    (.permitted ((Route.ofPath? (pathOf request.target)).map Route.allow), s)
  else routed s request stamp

end Http

end Rulebook
