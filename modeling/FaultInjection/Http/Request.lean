import FaultInjection.Json.Basic
import FaultInjection.Selector
import FaultInjection.Text.Utf8

/-!
Requests and responses as a server sees them: a request names a resource and may carry a body, a
response has a status and may carry one of several kinds of bodies.
-/

namespace FaultInjection.Http

inductive Method where
  | get
  | head
  | post
  | put
  | delete
  | other
  deriving DecidableEq, Repr

def Method.ofText : String → Method
  | "GET" => get
  | "HEAD" => head
  | "POST" => post
  | "PUT" => put
  | "DELETE" => delete
  | _ => other

def Method.text : Method → String
  | get => "GET"
  | head => "HEAD"
  | post => "POST"
  | put => "PUT"
  | delete => "DELETE"
  | other => "OTHER"

structure Request where
  method : Method
  target : String
  contentType : Option String
  body : List UInt8

inductive Body where
  | empty
  | text (text : String)
  | json (json : Json)
  | wire (bytes : List UInt8)
  /-- The changes of the failures that a selector accepts, for as long as the client listens. -/
  | changes (selector : Selector)

def wireType : String := "application/x-protobuf"

def Body.contentType? : Body → Option String
  | empty => none
  | text _ => some "text/plain; charset=utf-8"
  | json _ => some "application/json"
  | wire _ => some wireType
  | changes _ => some "text/event-stream"

structure Response where
  status : Nat
  contentType : Option String
  allowed : List Method
  body : Body

namespace Response

def ofBody (status : Nat) (body : Body) : Response := ⟨status, body.contentType?, [], body⟩

def ofStatus (status : Nat) : Response := ofBody status .empty

def withoutBody (response : Response) : Response := { response with body := .empty }

def isSuccess (response : Response) : Bool := 200 ≤ response.status && response.status < 300

def bytes (response : Response) : List UInt8 :=
  match response.body with
  | .empty => []
  | .text text => Text.encode text
  | .json json => Text.encode json.text
  | .wire bytes => bytes
  | .changes _ => []

end Response

end FaultInjection.Http
