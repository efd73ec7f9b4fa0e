import MetricScript.Json.Basic
import MetricScript.Table
import MetricScript.Fault

/-!
# Requests and responses

What a script sends to other hosts and what it gets back, with the bodies of responses
already decoded.  A fixed table of answers stands in for the network where there is none.
-/

namespace MetricScript

inductive HttpMethod where
  | get
  | post
deriving DecidableEq

def HttpMethod.name : HttpMethod → String
  | get => "GET"
  | post => "POST"

structure Credentials where
  user : String
  password : String
deriving DecidableEq

inductive HttpBody where
  | json (document : Json)
  | form (pairs : List (String × String))

structure HttpRequest where
  method : HttpMethod
  url : String
  query : List (String × String)
  credentials : Option Credentials
  body : Option HttpBody

/-- A response with its body decoded. -/
structure HttpResponse where
  status : Nat
  headers : Table String
  body : Json

/-- Answers to known requests, and the requests that were made so far, the latest first. -/
structure CannedAnswers where
  answers : List (HttpMethod × String × HttpResponse)
  requests : List HttpRequest := []

namespace CannedAnswers

/-- The answer to a request; of two answers to one request the later counts. -/
def answer (canned : CannedAnswers) (request : HttpRequest) :
    Except ProviderError HttpResponse :=
  let known := canned.answers.reverse.find? fun (method, url, _) =>
    method = request.method && url = request.url
  match known with
  | some (_, _, response) => .ok response
  | none =>
      .error (.http (request.method.name ++ " " ++ request.url ++ ": connection refused"))

/-- Answers a request and remembers it. -/
def send (canned : CannedAnswers) (request : HttpRequest) :
    Except ProviderError HttpResponse × CannedAnswers :=
  (canned.answer request, { canned with requests := request :: canned.requests })

end CannedAnswers

end MetricScript
