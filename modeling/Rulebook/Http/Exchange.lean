import Rulebook.Http.Server
import Rulebook.Run
import Rulebook.Store.Memory

/-!
# Exchanges

An exchange is a request with its response, and a client of the server sees nothing else.
What a request is about is said by its path and its method (`HttpRequest.IsTo`).  What came
of it is said by the envelope in the response: a success with data
(`HttpResponse.IsSuccess`) or a failure with a message (`HttpResponse.IsFailure`).

From this a client can tell what an exchange did to the rules of the server
(`HttpExchange.change`): a rule that was kept is in the response, and the removal of all
rules is told there too.

`Http.reached` is where requests lead from a server in memory that has no rules yet.
-/

namespace Rulebook

/-- Whether a request is about a route, by the method of this route. -/
def HttpRequest.IsTo (request : HttpRequest) (route : Http.Route) : Prop :=
  Http.pathOf request.target = route.path ∧ request.method = route.method

instance (request : HttpRequest) (route : Http.Route) : Decidable (request.IsTo route) :=
  inferInstanceAs (Decidable (_ ∧ _))

namespace HttpResponse

/-- Whether a response is the envelope of a success, with data and without a message. -/
def IsSuccess (response : HttpResponse) (data : Json) : Prop :=
  response.status = 200 ∧ response.contentType = some "application/json" ∧
    response.body = some (.object [("success", .bool true), ("data", data)])

/-- Whether a response is the envelope of a failure, with a message and without data. -/
def IsFailure (response : HttpResponse) (message : String) : Prop :=
  response.status = 200 ∧ response.contentType = some "application/json" ∧
    response.body = some (.object [("success", .bool false), ("error", .string message)])

/-- The data of a success. -/
def data? (response : HttpResponse) : Option Json :=
  match response.body with
  | some (.object [("success", .bool true), ("data", data)]) => some data
  | _ => none

end HttpResponse

/-- The rule that is written as JSON. -/
def Rule.ofJson? : Json → Option Rule
  | .object [("id", .string id), ("expression", .string expression)] => some ⟨id, expression⟩
  | _ => none

theorem Rule.ofJson?_toJson (rule : Rule) : Rule.ofJson? rule.toJson = some rule := rfl

/-- A request with its response. -/
structure HttpExchange where
  /-- The request. -/
  request : HttpRequest
  /-- The response. -/
  response : HttpResponse

/-- What an exchange did to the rules. -/
def HttpExchange.change (rules : Table Rule) (x : HttpExchange) : Table Rule :=
  match x.response.data? with
  | none => rules
  | some data =>
    if x.request.IsTo .create then
      match Rule.ofJson? data with
      | none => rules
      | some rule => rules.insert rule.id rule
    else if x.request.IsTo .clean then Table.empty
    else rules

namespace Http

/-- The exchange of a request, and the service after it.  The stamp is for the journal. -/
def exchange {σ : Type} [Repository σ] (s : Service σ) (call : HttpRequest × Stamp) :
    HttpExchange × Service σ :=
  (⟨call.1, (respond s call.1 call.2).1⟩, (respond s call.1 call.2).2)

/-- The service that requests lead to from one without rules. -/
def reached (capacity : Nat) (recording : Bool) (calls : List (HttpRequest × Stamp)) :
    Service MemoryStore :=
  Run.after exchange ⟨MemoryStore.empty capacity, recording⟩ calls

/-- The exchanges of requests to a service without rules. -/
def exchanges (capacity : Nat) (recording : Bool) (calls : List (HttpRequest × Stamp)) :
    List HttpExchange :=
  (Run.transcript exchange ⟨MemoryStore.empty capacity, recording⟩ calls).map (·.2)

end Http

end Rulebook
