import FaultInjection.Http.MediaType
import FaultInjection.Http.Refusal
import FaultInjection.Http.Route
import FaultInjection.Http.Target
import FaultInjection.Instant
import FaultInjection.Json.Record

/-!
A master that is reached by requests: what it answers to each of them and what becomes of it. A
request that cannot be read is turned away before the master sees it.
-/

namespace FaultInjection

def Node.json (node : Node) : Json :=
  .object [("id", .string node.id),
    ("labels", .object (node.labels.map fun label => (label.1, .string label.2))),
    ("liveness", .string node.liveness.text),
    ("last_heartbeat", .string (Instant.text node.lastHeartbeat)),
    ("registered_at", .string (Instant.text node.registeredAt))]

namespace Http

inductive Obstacle where
  | refused (status : Nat) (refusal : Refusal)
  | unreadable (status : Nat) (text : String)

namespace Obstacle

def ofError (error : Error) : Obstacle := refused error.status error.refusal

def badMessage (text : String) : Obstacle := refused 400 ⟨text, "validation", text⟩

def malformedMessage : Obstacle := badMessage "malformed message: <protobuf>"

def oversized : Obstacle := unreadable 413 "the body of the request is too long"

def notJson : Obstacle := unreadable 415 "the body of the request should be described as JSON"

def unreadablePath : Obstacle := unreadable 400 "the path of the request is not text"

def unreadableQuery : Obstacle := unreadable 400 "the query of the request cannot be read"

def ofRecordFault : Json.RecordFault → Obstacle
  | .malformed => unreadable 400 "the body of the request is no JSON"
  | .unfit => unreadable 422 "the body of the request does not have the fields that it needs"

def response : Obstacle → Response
  | refused status refusal => .ofBody status (.json refusal.json)
  | unreadable status text => .ofBody status (.text text)

end Obstacle

namespace Response

def ofJson (status : Nat) (json : Except Yaml.JsonFault Json) : Response :=
  match json with
  | .ok json => ofBody status (.json json)
  | .error fault => ofBody 500 (.text fault.message)

end Response

def bodyLimit : Nat := 2 * 1024 * 1024

namespace Request

def bodyBytes (request : Request) : Except Obstacle (List UInt8) :=
  if bodyLimit < request.body.length then .error .oversized else .ok request.body

def message {α : Type} (request : Request) (decode? : List UInt8 → Option α) :
    Except Obstacle α := do
  let bytes ← request.bodyBytes
  match decode? bytes with
  | some message => .ok message
  | none => .error .malformedMessage

/-- The text of a body, up to the first byte that is no text. -/
def bodyText (bytes : List UInt8) : String :=
  String.ofList (((Text.decode bytes).takeWhile Option.isSome).filterMap id)

def record (request : Request) (fields : List Json.Field) : Except Obstacle Json.Record := do
  if !(request.contentType.map MediaType.isJson).getD false then .error .notJson
  else
    let bytes ← request.bodyBytes
    (Json.Record.parse fields (bodyText bytes)).mapError .ofRecordFault

end Request

structure ListQuery where
  labelSelector : Option String
  watch : Bool

namespace ListQuery

/-- The value of a name that may occur at most once. -/
def single (query : List (String × String)) (name : String) : Except Obstacle (Option String) :=
  match query.filter (·.1 == name) with
  | [] => .ok none
  | [(_, value)] => .ok (some value)
  | _ => .error .unreadableQuery

def ofPairs (query : List (String × String)) : Except Obstacle ListQuery := do
  let labelSelector ← single query "labelSelector"
  match ← single query "watch" with
  | none => .ok ⟨labelSelector, false⟩
  | some "true" => .ok ⟨labelSelector, true⟩
  | some "false" => .ok ⟨labelSelector, false⟩
  | some _ => .error .unreadableQuery

/-- Without a selector everything is listed. -/
def selector (query : ListQuery) : Except Obstacle Selector :=
  match query.labelSelector with
  | none => .ok ⟨[]⟩
  | some text => (Selector.parse text).mapError .ofError

end ListQuery

def stateWords : List String := ["unknown", "enabled", "disabled"]

def stateOfWord : String → Failure.State
  | "enabled" => .enabled
  | "disabled" => .disabled
  | _ => .unknown

def creationFields : List Json.Field :=
  [⟨"id", none, false, true⟩, ⟨"node_id", none, false, true⟩, ⟨"definition", none, false, true⟩,
    ⟨"expected_state", some stateWords, false, false⟩]

def updateFields : List Json.Field :=
  [⟨"definition", none, true, false⟩, ⟨"expected_state", some stateWords, true, false⟩]

def definition (text : String) : Except Obstacle Specification :=
  (Specification.parseDefinition text).mapError .ofError

def failureNames (node id : String) : Except Obstacle (String × String) :=
  match segmentText? node, segmentText? id with
  | some node, some id => .ok (node, id)
  | _, _ => .error .unreadablePath

end Http

namespace Master

open Http

abbrev Served := Response × Master

def turnAway (master : Master) (obstacle : Obstacle) : Served := (obstacle.response, master)

def serveOr (master : Master) (served : Except Obstacle Served) : Served :=
  match served with
  | .ok served => served
  | .error obstacle => master.turnAway obstacle

def serveCall (master : Master) (now : Int) (call : Call) : Served :=
  let reply := master.answer now call
  match reply.answer with
  | .error error => (Obstacle.response (.ofError error), reply.master)
  | .ok .done => (.ofStatus 200, reply.master)
  | .ok (.assignments assignments) =>
      (.ofBody 200 (.wire (Wire.AssignmentList.encode ⟨assignments⟩)), reply.master)

/-- Answers with a failure that was written or looked up. A new failure is answered as such even
if it has no JSON form. -/
def serveFailure (status : Nat) (reply : Reply Failure) : Served :=
  match reply.answer with
  | .error error => (Obstacle.response (.ofError error), reply.master)
  | .ok failure =>
      let response := Response.ofJson status failure.json
      (if status = 201 then { response with status } else response, reply.master)

def failuresJson : List Failure → Except Yaml.JsonFault (List Json)
  | [] => .ok []
  | failure :: rest => do
      let first ← failure.json
      let others ← failuresJson rest
      .ok (first :: others)

def serveFailures (master : Master) (failures : List Failure) : Served :=
  (.ofJson 200 ((failuresJson failures).map Json.array), master)

def serveReport (master : Master) (now : Int) (report : Wire.Report) : Served :=
  match report.assignment with
  | some assignment => master.serveCall now (.report report.reporter assignment)
  | none => master.turnAway (.badMessage "report carries no failure")

def serveNodes (master : Master) (query : List (String × String)) : Except Obstacle Served := do
  let query ← ListQuery.ofPairs query
  let selector ← query.selector
  .ok (.ofBody 200 (.json (.array ((master.listNodes selector).map Node.json))), master)

def serveNode (master : Master) (node : String) : Except Obstacle Served :=
  match segmentText? node with
  | none => .error .unreadablePath
  | some node => do
      let node ← (master.getNode node).mapError Obstacle.ofError
      .ok (.ofBody 200 (.json node.json), master)

def serveList (master : Master) (query : List (String × String)) : Except Obstacle Served := do
  let query ← ListQuery.ofPairs query
  let selector ← query.selector
  if query.watch then .ok (.ofBody 200 (.changes selector), master)
  else .ok (master.serveFailures (master.listFailures selector))

def serveCreation (master : Master) (request : Request) : Except Obstacle Served := do
  let record ← request.record creationFields
  let specification ← definition (record.get "definition")
  let expected := ((record.get? "expected_state").map stateOfWord).getD .disabled
  .ok (serveFailure 201
    (master.createFailure (record.get "node_id") (record.get "id") specification expected))

def serveUpdate (master : Master) (node id : String) (request : Request) :
    Except Obstacle Served := do
  let record ← request.record updateFields
  let specification ← (record.get? "definition").mapM definition
  let expected := (record.get? "expected_state").map stateOfWord
  .ok (serveFailure 200 (master.updateFailure node id specification expected))

def serveNamed (master : Master) (node id : String)
    (serve : String → String → Except Obstacle Served) : Served :=
  master.serveOr do
    let names ← failureNames node id
    serve names.1 names.2

def serveOperation (master : Master) (node id : String)
    (operation : String → String → Reply Failure) : Served :=
  master.serveNamed node id fun node id => .ok (serveFailure 200 (operation node id))

/-- Answers a request on a resource that allows its method; `head` is served as `get`. -/
def serveRoute (master : Master) (now : Int) (request : Request)
    (query : List (String × String)) : Route → Served
  | .health => (.ofBody 200 (.text "OK"), master)
  | .register =>
      master.serveOr ((request.message Wire.Registration.decode?).map fun registration =>
        master.serveCall now (.register registration))
  | .heartbeat =>
      master.serveOr ((request.message Wire.Heartbeat.decode?).map fun beat =>
        master.serveCall now (.heartbeat beat))
  | .deregister =>
      master.serveOr ((request.message Wire.NodeRef.decode?).map fun node =>
        master.serveCall now (.deregister node.node))
  | .pull =>
      master.serveOr ((request.message Wire.NodeRef.decode?).map fun node =>
        master.serveCall now (.pull node.node))
  | .report =>
      master.serveOr ((request.message Wire.Report.decode?).map (master.serveReport now))
  | .nodes => master.serveOr (master.serveNodes query)
  | .node node => master.serveOr (master.serveNode node)
  | .failures =>
      if request.method = .post then master.serveOr (master.serveCreation request)
      else master.serveOr (master.serveList query)
  | .drift => master.serveFailures master.drifted
  | .failure node id =>
      match request.method with
      | .put => master.serveNamed node id fun node id => master.serveUpdate node id request
      | .delete => master.serveOperation node id master.deleteFailure
      | _ => master.serveOperation node id fun node id => ⟨master.getFailure node id, master⟩
  | .apply node id => master.serveOperation node id master.apply
  | .revert node id => master.serveOperation node id master.revert

def serve (master : Master) (now : Int) (request : Request) : Served :=
  let target := Target.ofText request.target
  match Route.ofSegments? target.segments with
  | none => (.ofStatus 404, master)
  | some route =>
      if request.method ∈ route.allowed then
        let served := master.serveRoute now request target.query route
        if request.method = .head then (served.1.withoutBody, served.2) else served
      else ({ Response.ofStatus 405 with allowed := route.allowed }, master)

end Master

end FaultInjection
