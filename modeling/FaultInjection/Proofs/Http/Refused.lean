import FaultInjection.Http.Server
import FaultInjection.Proofs.Master.Stream

/-!
Requests over HTTP that are turned away. A request that asks for a change of failures stands for
the request of an operator; all other requests change something only if they succeed. What can go
wrong after a change is the answer: a failure whose option values have odd keys has no JSON form.
-/

namespace FaultInjection

namespace Http

/-- The specification in a definition, whose options are in their order. -/
def orderedDefinition (text : String) : Except Obstacle OrderedSpecification :=
  match read : Specification.parseDefinition text with
  | .ok specification => .ok ⟨specification, Specification.parseDefinition_ordered text _ read⟩
  | .error error => .error (.ofError error)

def creation (request : Http.Request) : Except Obstacle FaultInjection.Request := do
  let record ← request.record creationFields
  let specification ← orderedDefinition (record.get "definition")
  .ok (.create (record.get "node_id") (record.get "id") specification
    (((record.get? "expected_state").map stateOfWord).getD .disabled))

def update (request : Http.Request) (node id : String) :
    Except Obstacle FaultInjection.Request := do
  let record ← request.record updateFields
  let specification ← (record.get? "definition").mapM orderedDefinition
  .ok (.update node id specification ((record.get? "expected_state").map stateOfWord))

def named (node id : String) (ask : String → String → Except Obstacle FaultInjection.Request) :
    Except Obstacle FaultInjection.Request := do
  let names ← failureNames node id
  ask names.1 names.2

def Request.askedAt? (request : Http.Request) : Route → Option FaultInjection.Request
  | .failures => if request.method = .post then (creation request).toOption else none
  | .failure node id =>
      match request.method with
      | .put => (named node id fun node id => update request node id).toOption
      | .delete => (named node id fun node id => .ok (.delete node id)).toOption
      | _ => none
  | .apply node id => (named node id fun node id => .ok (.apply node id)).toOption
  | .revert node id => (named node id fun node id => .ok (.revert node id)).toOption
  | _ => none

/-- The request of an operator that a request stands for. There is none if it cannot be read, or
if it is the call of a node or only asks to be shown something. -/
def Request.asked? (request : Http.Request) : Option FaultInjection.Request :=
  (Route.ofSegments? (Target.ofText request.target).segments).bind fun route =>
    if request.method ∈ route.allowed then request.askedAt? route else none

theorem definition_eq (text : String) :
    definition text = (orderedDefinition text).map (·.1) := by
  unfold definition orderedDefinition
  split
  next read => simp [read, Except.mapError, Except.map]
  next read => simp [read, Except.mapError, Except.map]

end Http

namespace Master

open Http

/-- Only a request that succeeds changes the master. -/
def Spares (master : Master) (served : Served) : Prop :=
  served.1.isSuccess = false → served.2 = master

theorem Spares.same (master : Master) (response : Response) : Spares master (response, master) :=
  fun _ => rfl

theorem Spares.ofMaster {master : Master} {served : Served} (same : served.2 = master) :
    master.Spares served :=
  fun _ => same

theorem serveOr_spares (master : Master) (served : Except Obstacle Served)
    (spares : ∀ result, served = .ok result → master.Spares result) :
    master.Spares (master.serveOr served) := by
  cases served with
  | ok result => exact spares result rfl
  | error obstacle => exact Spares.same master _

/-! What is answered to a call -/

section

variable (master : Master) (now : Int) (call : Call)

theorem serveCall_error (error : Error)
    (answered : (master.answer now call).answer = .error error) :
    master.serveCall now call =
      (Obstacle.response (.ofError error), (master.answer now call).master) := by
  simp [serveCall, answered]

theorem serveCall_done (answered : (master.answer now call).answer = .ok .done) :
    master.serveCall now call = (.ofStatus 200, (master.answer now call).master) := by
  simp [serveCall, answered]

theorem serveCall_assignments (assignments : List Wire.Assignment)
    (answered : (master.answer now call).answer = .ok (.assignments assignments)) :
    master.serveCall now call =
      (.ofBody 200 (.wire (Wire.AssignmentList.encode ⟨assignments⟩)),
        (master.answer now call).master) := by
  simp [serveCall, answered]

theorem serveCall_master : (master.serveCall now call).2 = (master.answer now call).master := by
  unfold serveCall
  dsimp only
  split <;> rfl

theorem serveCall_spares : master.Spares (master.serveCall now call) := by
  cases answered : (master.answer now call).answer with
  | error error =>
      rw [master.serveCall_error now call error answered]
      exact fun _ => master.answer_error now call error answered
  | ok answer =>
      cases answer with
      | done =>
          rw [master.serveCall_done now call answered]
          intro refused
          cases refused
      | assignments assignments =>
          rw [master.serveCall_assignments now call assignments answered]
          intro refused
          cases refused

end

theorem message_spares {α : Type} (master : Master) (read : Except Obstacle α)
    (serve : α → Served) (spares : ∀ message, master.Spares (serve message)) :
    master.Spares (master.serveOr (read.map serve)) := by
  apply serveOr_spares
  intro result served
  obtain ⟨message, _, rfl⟩ := (map_eq_ok _ _ _).mp served
  exact spares message

/-! What is answered to an operator -/

/-- A request that was read is answered by the master; one that was not leaves it alone. -/
inductive Asks (master : Master) (asked : Option FaultInjection.Request) (served : Served) : Prop
  | answered (request : FaultInjection.Request) (read : asked = some request)
      (same : served =
        serveFailure (if request.isCreate then 201 else 200) (request.reply master))
  | spared (unread : asked = none) (spares : master.Spares served)

theorem serveOr_asks (master : Master) (status : Nat)
    (read : Except Obstacle FaultInjection.Request)
    (stands : ∀ request, read = .ok request → status = if request.isCreate then 201 else 200) :
    master.Asks read.toOption (master.serveOr
      (read.map fun request => serveFailure status (request.reply master))) := by
  cases read with
  | error obstacle => exact .spared rfl (Spares.same master _)
  | ok request => exact .answered request rfl (by rw [← stands request rfl]; rfl)

theorem serveCreation_eq (master : Master) (request : Http.Request) :
    master.serveCreation request =
      (creation request).map fun asked => serveFailure 201 (asked.reply master) := by
  simp only [serveCreation, creation, definition_eq]
  cases request.record creationFields with
  | error obstacle => rfl
  | ok record =>
      cases specified : orderedDefinition (record.get "definition") with
      | error obstacle => simp [specified, bind, Except.bind, Except.map]
      | ok specification => simp [specified, bind, Except.bind, Except.map, Request.reply]

theorem mapM_definition (given : Option String) :
    given.mapM definition = (given.mapM orderedDefinition).map (Option.map (·.1)) := by
  cases given with
  | none => rfl
  | some text =>
      simp only [Option.mapM_some, definition_eq]
      cases orderedDefinition text <;> rfl

theorem serveUpdate_eq (master : Master) (node id : String) (request : Http.Request) :
    master.serveUpdate node id request =
      (update request node id).map fun asked => serveFailure 200 (asked.reply master) := by
  simp only [serveUpdate, update, mapM_definition]
  cases request.record updateFields with
  | error obstacle => rfl
  | ok record =>
      cases specified : (record.get? "definition").mapM orderedDefinition with
      | error obstacle => simp only [specified, bind, Except.bind, Except.map]
      | ok specification =>
          simp only [specified, bind, Except.bind, Except.map, Request.reply]

theorem serveNamed_eq (master : Master) (node id : String)
    (serve : String → String → Except Obstacle Served)
    (ask : String → String → Except Obstacle FaultInjection.Request)
    (law : ∀ node id, serve node id =
      (ask node id).map fun asked => serveFailure 200 (asked.reply master)) :
    master.serveNamed node id serve = master.serveOr
      ((named node id ask).map fun asked => serveFailure 200 (asked.reply master)) := by
  simp only [serveNamed, named]
  cases failureNames node id with
  | error obstacle => rfl
  | ok names => exact congrArg master.serveOr (law names.1 names.2)

theorem serveCreation_asks (master : Master) (request : Http.Request) :
    master.Asks (creation request).toOption (master.serveOr (master.serveCreation request)) := by
  rw [serveCreation_eq]
  apply serveOr_asks
  intro asked read
  obtain ⟨_, _, read⟩ := (bind_eq_ok _ _ _).mp read
  obtain ⟨_, _, read⟩ := (bind_eq_ok _ _ _).mp read
  cases read
  rfl

theorem serveUpdate_asks (master : Master) (node id : String) (request : Http.Request) :
    master.Asks (named node id fun node id => update request node id).toOption
      (master.serveNamed node id fun node id => master.serveUpdate node id request) := by
  rw [master.serveNamed_eq node id _ (fun node id => update request node id)
    fun node id => master.serveUpdate_eq node id request]
  apply serveOr_asks
  intro asked read
  obtain ⟨_, _, read⟩ := (bind_eq_ok _ _ _).mp read
  obtain ⟨_, _, read⟩ := (bind_eq_ok _ _ _).mp read
  obtain ⟨_, _, read⟩ := (bind_eq_ok _ _ _).mp read
  cases read
  rfl

theorem serveOperation_asks (master : Master) (node id : String)
    (ask : String → String → FaultInjection.Request)
    (existing : ∀ node id, (ask node id).isCreate = false) :
    master.Asks (named node id fun node id => .ok (ask node id)).toOption
      (master.serveOperation node id fun node id => (ask node id).reply master) := by
  have named := master.serveNamed_eq node id
    (fun node id => .ok (serveFailure 200 ((ask node id).reply master)))
    (fun node id => .ok (ask node id)) fun _ _ => rfl
  rw [serveOperation, named]
  apply serveOr_asks
  intro request read
  obtain ⟨names, _, asked⟩ := (bind_eq_ok _ _ _).mp read
  cases asked
  rw [existing]
  rfl

theorem serveOr_master (master : Master) (served : Except Obstacle Served)
    (same : ∀ result, served = .ok result → result.2 = master) :
    (master.serveOr served).2 = master := by
  cases served with
  | ok result => exact same result rfl
  | error obstacle => rfl

theorem serveNodes_master (master : Master) (query : List (String × String)) :
    (master.serveOr (master.serveNodes query)).2 = master := by
  apply serveOr_master
  intro result served
  obtain ⟨_, _, served⟩ := (bind_eq_ok _ _ _).mp served
  obtain ⟨_, _, served⟩ := (bind_eq_ok _ _ _).mp served
  cases served
  rfl

theorem serveNode_master (master : Master) (node : String) :
    (master.serveOr (master.serveNode node)).2 = master := by
  apply serveOr_master
  intro result served
  unfold serveNode at served
  split at served
  · cases served
  · obtain ⟨_, _, served⟩ := (bind_eq_ok _ _ _).mp served
    cases served
    rfl

theorem serveList_master (master : Master) (query : List (String × String)) :
    (master.serveOr (master.serveList query)).2 = master := by
  apply serveOr_master
  intro result served
  obtain ⟨_, _, served⟩ := (bind_eq_ok _ _ _).mp served
  obtain ⟨_, _, served⟩ := (bind_eq_ok _ _ _).mp served
  split at served <;> cases served <;> rfl

theorem serveReport_spares (master : Master) (now : Int) (report : Wire.Report) :
    master.Spares (master.serveReport now report) := by
  unfold serveReport
  split
  · exact master.serveCall_spares now _
  · exact Spares.same master _

theorem serveLookup_master (master : Master) (node id : String) :
    (master.serveOperation node id fun node id => ⟨master.getFailure node id, master⟩).2 =
      master := by
  apply serveOr_master
  intro result served
  obtain ⟨names, _, served⟩ := (bind_eq_ok _ _ _).mp served
  cases served
  unfold serveFailure
  split <;> rfl

theorem serveRoute_asks (master : Master) (now : Int) (request : Http.Request)
    (query : List (String × String)) (route : Route) :
    master.Asks (request.askedAt? route) (master.serveRoute now request query route) := by
  cases route with
  | health => exact .spared rfl (Spares.same master _)
  | register | heartbeat | deregister | pull =>
      exact .spared rfl (message_spares master _ _ fun _ => master.serveCall_spares now _)
  | report => exact .spared rfl (message_spares master _ _ fun _ => master.serveReport_spares now _)
  | nodes => exact .spared rfl (.ofMaster (master.serveNodes_master query))
  | node node => exact .spared rfl (.ofMaster (master.serveNode_master node))
  | drift => exact .spared rfl (Spares.same master _)
  | failures =>
      simp only [Request.askedAt?, serveRoute]
      split
      · exact master.serveCreation_asks request
      · exact .spared rfl (.ofMaster (master.serveList_master query))
  | failure node id =>
      simp only [Request.askedAt?, serveRoute]
      cases request.method with
      | put => exact master.serveUpdate_asks node id request
      | delete => exact master.serveOperation_asks node id .delete fun _ _ => rfl
      | get | head | post | other =>
          exact .spared rfl (.ofMaster (master.serveLookup_master node id))
  | apply node id => exact master.serveOperation_asks node id .apply fun _ _ => rfl
  | revert node id => exact master.serveOperation_asks node id .revert fun _ _ => rfl

/-- What is only described asks for nothing. -/
theorem askedAt_head (request : Http.Request) (route : Route)
    (allowed : request.method ∈ route.allowed) (head : request.method = .head) :
    request.askedAt? route = none := by
  cases route with
  | failures => simp only [Request.askedAt?, head, reduceCtorEq, if_false]
  | failure node id => simp only [Request.askedAt?, head]
  | apply node id | revert node id => simp [Route.allowed, head] at allowed
  | health | register | heartbeat | deregister | pull | report | nodes | node _ | drift => rfl

theorem serve_asks (master : Master) (now : Int) (request : Http.Request) :
    master.Asks request.asked? (master.serve now request) := by
  simp only [serve, Request.asked?]
  cases Route.ofSegments? (Target.ofText request.target).segments with
  | none => exact .spared rfl (Spares.same master _)
  | some route =>
      simp only [Option.bind_some]
      split
      next allowed =>
        have asks := master.serveRoute_asks now request (Target.ofText request.target).query route
        split
        next head =>
          -- nothing is asked here, so that it does not matter that the body is left out
          rw [askedAt_head request route allowed head] at asks ⊢
          cases asks with
          | answered _ read _ => cases read
          | spared _ spares => exact .spared rfl spares
        next => exact asks
      next => exact .spared rfl (Spares.same master _)

/-! Answers that have no form -/

/-- An existing failure is changed, and the failure that answers has no JSON form. -/
structure Unanswerable (master : Master) (request : FaultInjection.Request) : Prop where
  existing : request.isCreate = false
  changes : ((Operation.request request).change? master).isSome
  formless : ∃ failure fault,
    (request.reply master).answer = .ok failure ∧ failure.json = .error fault

theorem Unanswerable.changed {master : Master} {request : FaultInjection.Request}
    (unanswerable : master.Unanswerable request) : (request.reply master).master ≠ master := by
  obtain ⟨change, told⟩ := Option.isSome_iff_exists.mp unanswerable.changes
  obtain ⟨failure, _, accepted, _⟩ := unanswerable.formless
  have longer := (request.reply_tells master failure change told accepted).history
  intro same
  rw [same] at longer
  exact absurd (congrArg List.length longer) (by simp)

/-- A new failure is always answered with success, any other one only if it has a JSON form. -/
theorem serveFailure_success (reply : Reply Failure) (failure : Failure) (created : Bool)
    (accepted : reply.answer = .ok failure) :
    (serveFailure (if created then 201 else 200) reply).1.isSuccess =
      (created || failure.json.isOk) := by
  cases created <;> cases form : failure.json <;>
    simp [serveFailure, accepted, form, Response.ofJson, Response.ofBody, Response.isSuccess,
      Except.isOk, Except.toBool]

theorem serveFailure_master (status : Nat) (reply : Reply Failure) :
    (serveFailure status reply).2 = reply.master := by
  unfold serveFailure
  split <;> rfl

theorem serveFailure_spares_iff (master : Master) (request : FaultInjection.Request) :
    master.Spares (serveFailure (if request.isCreate then 201 else 200) (request.reply master)) ↔
      ¬ master.Unanswerable request := by
  cases answered : (request.reply master).answer with
  | error error =>
      constructor
      · rintro _ ⟨_, _, _, _, accepted, _⟩
        cases answered.symm.trans accepted
      · rintro _ _
        rw [serveFailure_master, request.reply_error master error answered]
  | ok failure =>
      have success :=
        serveFailure_success (request.reply master) failure request.isCreate answered
      constructor
      · rintro spares unanswerable
        obtain ⟨_, fault, accepted, formless⟩ := unanswerable.formless
        cases answered.symm.trans accepted
        have refused : failure.json.isOk = false := by rw [formless]; rfl
        have same := spares (by rw [success, unanswerable.existing, refused]; rfl)
        rw [serveFailure_master] at same
        exact unanswerable.changed same
      · rintro answerable refused
        rw [success, Bool.or_eq_false_iff] at refused
        rw [serveFailure_master]
        -- without success the failure has no form, so that nothing may have been told of it
        cases told : (Operation.request request).change? master with
        | none => exact request.reply_silent master told
        | some change =>
            cases form : failure.json with
            | ok json => rw [form] at refused; cases refused.2
            | error fault =>
                exact absurd ⟨refused.1, by simp [told], failure, fault, answered, form⟩ answerable

/-- A request that is turned away changes nothing, unless a failure is changed and cannot be shown
afterwards. -/
theorem serve_spares_iff (master : Master) (now : Int) (request : Http.Request) :
    ((master.serve now request).1.isSuccess = false → (master.serve now request).2 = master) ↔
      ¬ ∃ asked, request.asked? = some asked ∧ master.Unanswerable asked := by
  cases master.serve_asks now request with
  | spared unread spares =>
      rw [unread]
      exact iff_of_true spares (by simp)
  | answered asked read same =>
      rw [read, same]
      simp only [Option.some.injEq, exists_eq_left']
      exact master.serveFailure_spares_iff asked

/-- An attack with a setting whose key has no text. -/
def oddSpecification : OrderedSpecification :=
  ⟨⟨.zero, [.ofKind "custom" (some [("settings", .mapping [(.null, .integer 1)])])]⟩,
    by decide⟩

theorem turned_away_after_change :
    ¬ ∀ (policy : LivenessPolicy) (operations : List Operation) (now : Int)
        (request : Http.Request),
      let master := (Master.empty policy).after operations
      (master.serve now request).1.isSuccess = false → (master.serve now request).2 = master := by
  intro spared
  have same := spared .standard [.request (.create "node" "odd" oddSpecification .disabled)] 0
    ⟨.post, "/api/v1/nodes/node/failures/odd/apply", none, []⟩ (by decide +kernel)
  have longer := congrArg (fun master => master.history.length) same
  revert longer
  decide +kernel

end Master

end FaultInjection
