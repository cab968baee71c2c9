import FaultInjection.Http.Client
import FaultInjection.Proofs.Http.Refused
import FaultInjection.Proofs.Json.Quoted
import FaultInjection.Proofs.Text.Utf8
import FaultInjection.Proofs.Wire.Message

/-!
A master that is reached over a network does what it would do at first hand, and answers the same,
except that of most errors only a reason arrives.
-/

namespace FaultInjection

/-- What arrives of an answer: all of a success and of the two errors that a node has to tell
apart, and a reason for every other error. -/
inductive Carries : Except Error CallAnswer → Except Error CallAnswer → Prop
  | answer (answer : CallAnswer) : Carries (.ok answer) (.ok answer)
  | registration (reason : String) :
      Carries (.error (.registration reason)) (.error (.registration reason))
  | nodeNotFound (node : String) :
      Carries (.error (.nodeNotFound node)) (.error (.nodeNotFound node))
  | other (error : Error) (reason : String) (admitted : ∀ why, error ≠ .registration why)
      (known : ∀ node, error ≠ .nodeNotFound node) :
      Carries (.error error) (.error (.transport reason))

def Call.Ordered : Call → Prop
  | .register registration => registration.labels.Ordered
  | _ => True

/-- The assignments that are answered take no more bytes than can be told. -/
def Answerable : Except Error CallAnswer → Prop
  | .ok (.assignments assignments) => Wire.Tellable (Wire.AssignmentList.encode ⟨assignments⟩)
  | _ => True

instance : (answer : Except Error CallAnswer) → Decidable (Answerable answer)
  | .ok (.assignments assignments) =>
      inferInstanceAs (Decidable (Wire.Tellable (Wire.AssignmentList.encode ⟨assignments⟩)))
  | .ok .done => isTrue trivial
  | .error _ => isTrue trivial

namespace Http

/-! The way of a request -/

theorem target?_append (base path : String) (master : Master) :
    Hosted.target? ⟨base, master⟩ (base ++ path) = some path := by
  have length : base.length = base.toList.length := String.length_toList.symm
  simp [Hosted.target?, length]

/-- A message that is read is served. -/
theorem serve_message {α : Type} (master : Master) (request : Http.Request)
    (decode? : List UInt8 → Option α) (message : α) (serve : α → Master.Served)
    (fits : request.body.length ≤ bodyLimit) (read : decode? request.body = some message) :
    master.serveOr ((request.message decode?).map serve) = serve message := by
  have received : request.message decode? = .ok message := by
    simp [Request.message, Request.bodyBytes, Nat.not_lt.mpr fits, read, bind, Except.bind]
  rw [received]
  rfl

def Route.ofCall : Call → Route
  | .register _ => .register
  | .heartbeat _ => .heartbeat
  | .deregister _ => .deregister
  | .pull _ => .pull
  | .report _ _ => .report

theorem ofSegments?_callPath (call : Call) :
    Route.ofSegments? (Target.ofText (Route.callPath call)).segments = some (.ofCall call) := by
  cases call <;> simp only [Route.callPath, Route.ofCall] <;> decide +kernel

theorem serve_callRequest (master : Master) (now : Int) (call : Call) :
    master.serve now (callRequest call) =
      master.serveRoute now (callRequest call) (Target.ofText (Route.callPath call)).query
        (.ofCall call) := by
  have route := ofSegments?_callPath call
  have allowed : Method.post ∈ (Route.ofCall call).allowed := by
    cases call <;> simp [Route.ofCall, Route.allowed]
  simp [Master.serve, callRequest, route, allowed]

/-- The server reads the message that the client has written, and asks its master. -/
theorem serve_call (master : Master) (now : Int) (call : Call)
    (fits : (callBytes call).length ≤ bodyLimit) (ordered : call.Ordered) :
    master.serve now (callRequest call) = master.serveCall now call := by
  have short : Wire.Tellable (callBytes call) := Nat.lt_of_le_of_lt fits (by decide)
  -- whatever the resource, its message is the one that was written
  rw [serve_callRequest]
  cases call with
  | register registration =>
      exact serve_message master _ _ _ _ fits (registration.decode?_encode short ordered)
  | heartbeat beat => exact serve_message master _ _ _ _ fits (beat.decode?_encode short)
  | deregister node | pull node =>
      exact serve_message master _ _ _ _ fits (Wire.NodeRef.decode?_encode ⟨node⟩ short)
  | report reporter assignment =>
      exact serve_message master (callRequest (.report reporter assignment)) _ _
        (master.serveReport now) fits (Wire.Report.decode?_encode reporter assignment short)

/-! The way of an answer -/

theorem parse?_refusal (refusal : Refusal) : Refusal.parse? refusal.json.text = some refusal := by
  have read := Json.read_strings
    [("error", refusal.error), ("kind", refusal.kind), ("detail", refusal.detail)] (by simp)
  have text : refusal.json = .object (Json.stringMembers
    [("error", refusal.error), ("kind", refusal.kind), ("detail", refusal.detail)]) := rfl
  simp only [Refusal.parse?, Json.Record.parse, text, read]
  rfl

theorem status_unsuccessful (error : Error) :
    (Obstacle.response (.ofError error)).isSuccess = false := by
  cases error <;>
    simp [Obstacle.ofError, Obstacle.response, Response.ofBody, Response.isSuccess, Error.status,
      Error.isValidation]

theorem bytes_refused (error : Error) :
    (Obstacle.response (.ofError error)).bytes = Text.encode error.refusal.json.text := rfl

theorem kind_eq_registration (error : Error) :
    error.kind = "registration" ↔ ∃ reason, error = .registration reason := by
  cases error <;> simp [Error.kind, Error.isValidation]

theorem kind_eq_nodeNotFound (error : Error) :
    error.kind = "node_not_found" ↔ ∃ node, error = .nodeNotFound node := by
  cases error <;> simp [Error.kind, Error.isValidation]

theorem responseError_carries (path : String) (error : Error) :
    Carries (.error error) (.error (responseError path (Obstacle.response (.ofError error)))) := by
  -- the refusal arrives as it was sent, and its kind decides what the client makes of it
  simp only [responseError, bytes_refused, Text.decodeLossy_encode, parse?_refusal]
  by_cases refused : ∃ reason, error = .registration reason
  · obtain ⟨reason, rfl⟩ := refused
    exact .registration reason
  by_cases unknown : ∃ node, error = .nodeNotFound node
  · obtain ⟨node, rfl⟩ := unknown
    exact .nodeNotFound node
  · have plain : error.refusal.kind ≠ "registration" := mt (kind_eq_registration error).mp refused
    have known : error.refusal.kind ≠ "node_not_found" := mt (kind_eq_nodeNotFound error).mp unknown
    rw [if_neg plain, if_neg known]
    exact .other error _ (not_exists.mp refused) (not_exists.mp unknown)

theorem callAnswer_unsuccessful (call : Call) (response : Response)
    (failed : response.isSuccess = false) :
    callAnswer call response = .error (responseError (Route.callPath call) response) := by
  simp [callAnswer, failed]

theorem callAnswer_assignments (node : String) (assignments : List Wire.Assignment)
    (short : Wire.Tellable (Wire.AssignmentList.encode ⟨assignments⟩)) :
    callAnswer (.pull node) (.ofBody 200 (.wire (Wire.AssignmentList.encode ⟨assignments⟩))) =
      .ok (.assignments assignments) := by
  have read := Wire.AssignmentList.decode?_encode ⟨assignments⟩ short
  simp [callAnswer, Response.ofBody, Response.isSuccess, Response.bytes, read]

theorem callAnswer_done (call : Call) (unfetched : ∀ node, call ≠ .pull node) :
    callAnswer call (.ofStatus 200) = .ok .done := by
  cases call with
  | pull node => exact absurd rfl (unfetched node)
  | register _ | heartbeat _ | deregister _ | report _ _ => rfl

theorem callAnswer_carries (master : Master) (now : Int) (call : Call)
    (answerable : Answerable (master.answer now call).answer) :
    Carries (master.answer now call).answer (callAnswer call (master.serveCall now call).1) := by
  cases master.answered now call with
  | refused error same =>
      have answered : (master.answer now call).answer = .error error := by rw [same]; rfl
      rw [master.serveCall_error now call error answered, answered,
        callAnswer_unsuccessful call _ (status_unsuccessful error)]
      exact responseError_carries _ error
  | enrolled _ same _ unfetched =>
      have answered : (master.answer now call).answer = .ok .done := by rw [same]
      rw [master.serveCall_done now call answered, answered, callAnswer_done call unfetched]
      exact .answer .done
  | fetched node assignments pulls same =>
      have answered : (master.answer now call).answer = .ok (.assignments assignments) := by
        rw [same]
      rw [answered] at answerable
      subst pulls
      rw [master.serveCall_assignments now (.pull node) assignments answered, answered,
        callAnswer_assignments node assignments answerable]
      exact .answer (.assignments assignments)
  | reported reporter assignment reports done =>
      subst reports
      have answered : (master.answer now (.report reporter assignment)).answer = .ok .done := done
      rw [master.serveCall_done now _ answered, answered,
        callAnswer_done (.report reporter assignment) fun _ => nofun]
      exact .answer .done

end Http

namespace Remote

open Http

/-- A call over the network leaves the master as a call at first hand does, and as much of the
answer arrives as a node can tell. -/
theorem ask_hosted (base : String) (master : Master) (now : Int) (call : Call)
    (fits : (callBytes call).length ≤ bodyLimit) (ordered : call.Ordered)
    (answerable : Answerable (Link.ask master now call).1) :
    let remote : Remote Hosted := ⟨base, ⟨base, master⟩⟩
    Carries (Link.ask master now call).1 (Link.ask remote now call).1 ∧
      (Link.ask remote now call).2 = ⟨base, ⟨base, (Link.ask master now call).2⟩⟩ := by
  intro remote
  -- the address is the origin with the path behind it, so that the request gets to the master
  have sent : Network.send remote.network now (remote.base ++ Route.callPath call)
      (callRequest call) =
        (.ok (master.serveCall now call).1, ⟨base, (master.serveCall now call).2⟩) := by
    rw [← serve_call master now call fits ordered]
    simp only [Network.send, remote, target?_append]
    rfl
  have asked : Link.ask remote now call = (callAnswer call (master.serveCall now call).1,
      ⟨base, ⟨base, (master.serveCall now call).2⟩⟩) := by
    simp only [Link.ask, sent]
    rfl
  rw [asked]
  constructor
  case left => exact callAnswer_carries master now call answerable
  case right => rw [master.serveCall_master now call]; rfl

/-- A failure without a JSON form reaches its node all the same. -/
theorem ask_hosted_pull :
    let master := (Master.empty .standard).after [.call 0 (.register ⟨"node", [("zone", "a")]⟩),
      .request (.create "node" "odd" Master.oddSpecification .enabled)]
    let remote : Remote Hosted := ⟨"http://master", ⟨"http://master", master⟩⟩
    (Link.ask master 0 (.pull "node")).1.isOk = true ∧
      Carries (Link.ask master 0 (.pull "node")).1 (Link.ask remote 0 (.pull "node")).1 ∧
      (Link.ask remote 0 (.pull "node")).2 =
        ⟨"http://master", ⟨"http://master", (Link.ask master 0 (.pull "node")).2⟩⟩ :=
  ⟨by decide +kernel,
    ask_hosted "http://master" _ 0 (.pull "node") (by decide +kernel) trivial (by decide +kernel)⟩

end Remote

end FaultInjection
