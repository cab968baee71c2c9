import FaultInjection.Proofs.Http.Refused
import FaultInjection.Proofs.Master.View
import FaultInjection.Proofs.Yaml.Json

/-!
What operators are shown of the failures. A master that was only reached by requests is one that
some operations lead to, so that its tables are in order and a list holds each failure once. It is
shown if all that is in it has a JSON form; a single failure without one is enough to hide a whole
list.
-/

namespace FaultInjection

open Http

namespace Master

/-- The master after a request is as it was, or one operation was performed. -/
def Moves (master : Master) (served : Served) : Prop :=
  served.2 = master ∨ ∃ operation, served.2 = (master.perform operation).master

theorem serveCall_moves (master : Master) (now : Int) (call : Call) :
    master.Moves (master.serveCall now call) :=
  Or.inr ⟨.call now call, master.serveCall_master now call⟩

theorem message_moves {α : Type} (master : Master) (read : Except Obstacle α) (serve : α → Served)
    (moves : ∀ message, master.Moves (serve message)) :
    master.Moves (master.serveOr (read.map serve)) := by
  cases read with
  | error obstacle => exact Or.inl rfl
  | ok message => exact moves message

theorem serveReport_moves (master : Master) (now : Int) (report : Wire.Report) :
    master.Moves (master.serveReport now report) := by
  unfold serveReport
  split
  · exact master.serveCall_moves now _
  · exact Or.inl rfl

theorem asked_moves (master : Master) (status : Nat)
    (read : Except Obstacle FaultInjection.Request) :
    master.Moves (master.serveOr
      (read.map fun asked => serveFailure status (asked.reply master))) := by
  apply message_moves
  intro asked
  exact Or.inr ⟨.request asked, serveFailure_master status _⟩

theorem serveOperation_moves (master : Master) (node id : String)
    (ask : String → String → FaultInjection.Request) :
    master.Moves (master.serveOperation node id fun node id => (ask node id).reply master) := by
  have named := master.serveNamed_eq node id
    (fun node id => .ok (serveFailure 200 ((ask node id).reply master)))
    (fun node id => .ok (ask node id)) fun _ _ => rfl
  rw [serveOperation, named]
  exact master.asked_moves 200 _

theorem serveRoute_moves (master : Master) (now : Int) (request : Http.Request)
    (query : List (String × String)) (route : Route) :
    master.Moves (master.serveRoute now request query route) := by
  cases route with
  | health | drift => exact Or.inl rfl
  | register | heartbeat | deregister | pull =>
      exact master.message_moves _ _ fun _ => master.serveCall_moves now _
  | report => exact master.message_moves _ _ fun _ => master.serveReport_moves now _
  | nodes => exact Or.inl (master.serveNodes_master query)
  | node node => exact Or.inl (master.serveNode_master node)
  | failures =>
      simp only [serveRoute]
      split
      · rw [serveCreation_eq]
        exact master.asked_moves 201 _
      · exact Or.inl (master.serveList_master query)
  | failure node id =>
      simp only [serveRoute]
      cases request.method with
      | put =>
          rw [master.serveNamed_eq node id _ (fun node id => update request node id)
            fun node id => master.serveUpdate_eq node id request]
          exact master.asked_moves 200 _
      | delete => exact master.serveOperation_moves node id .delete
      | get | head | post | other => exact Or.inl (master.serveLookup_master node id)
  | apply node id => exact master.serveOperation_moves node id .apply
  | revert node id => exact master.serveOperation_moves node id .revert

theorem serve_moves (master : Master) (now : Int) (request : Http.Request) :
    master.Moves (master.serve now request) := by
  simp only [serve]
  cases Route.ofSegments? (Target.ofText request.target).segments with
  | none => exact Or.inl rfl
  | some route =>
      have moves := master.serveRoute_moves now request (Target.ofText request.target).query route
      dsimp only
      split
      · split <;> exact moves
      · exact Or.inl rfl

/-- Masters that requests lead to. Their rosters are swept from time to time. -/
inductive Reachable (policy : LivenessPolicy) : Master → Prop
  | empty : Reachable policy (.empty policy)
  | serve (master : Master) (before : Reachable policy master) (now : Int)
      (request : Http.Request) : Reachable policy (master.serve now request).2
  | sweep (master : Master) (before : Reachable policy master) (now : Int) :
      Reachable policy (master.sweep now).1

theorem Reachable.operations {policy : LivenessPolicy} {master : Master}
    (reachable : Reachable policy master) :
    ∃ operations, master = (Master.empty policy).after operations := by
  induction reachable with
  | empty => exact ⟨[], rfl⟩
  | serve master before now request ih =>
      obtain ⟨operations, same⟩ := ih
      rcases master.serve_moves now request with stays | ⟨operation, moves⟩
      · exact ⟨operations, stays.trans same⟩
      · exact ⟨operations ++ [operation], by rw [moves, after_append, ← same]; rfl⟩
  | sweep master before now ih =>
      obtain ⟨operations, same⟩ := ih
      exact ⟨operations ++ [.sweep now], by rw [after_append, ← same]; rfl⟩

theorem Reachable.inOrder {policy : LivenessPolicy} {master : Master}
    (reachable : Reachable policy master) : master.InOrder := by
  obtain ⟨operations, rfl⟩ := reachable.operations
  exact after_inOrder _ _ (empty_inOrder policy)

theorem Reachable.filed {policy : LivenessPolicy} {master : Master}
    (reachable : Reachable policy master) : master.ledger.Filed := by
  have nodes := reachable.inOrder.nodes
  obtain ⟨operations, rfl⟩ := reachable.operations
  exact (after_ledger_sound _ _ Ledger.empty_sound).filed nodes

end Master

namespace Http

inductive Showing where
  | selection (selector : Selector)
  | drift
  | single (node id : String)
  deriving DecidableEq

def Request.shows? (request : Http.Request) : Option Showing :=
  let target := Target.ofText request.target
  if request.method = .get then
    match Route.ofSegments? target.segments with
    | some .failures =>
        match ListQuery.ofPairs target.query with
        | .ok query => if query.watch then none else query.selector.toOption.map .selection
        | .error _ => none
    | some .drift => some .drift
    | some (.failure node id) =>
        (failureNames node id).toOption.map fun names => .single names.1 names.2
    | _ => none
  else none

namespace Showing

def Wants (showing : Showing) (master : Master) (failure : Failure) : Prop :=
  match showing with
  | selection selector => master.admits selector failure.node = true
  | drift => failure.current ≠ failure.expected
  | single node id => failure.node = node ∧ failure.id = id

def Picks (showing : Showing) (master : Master) (failure : Failure) : Prop :=
  master.contents failure.node failure.id = some failure ∧ showing.Wants master failure

/-- A list of all failures that are asked for, each of them once. -/
structure Lists (showing : Showing) (master : Master) (failures : List Failure) : Prop where
  sorted : failures.Pairwise Failure.Precedes
  picked : ∀ failure, failure ∈ failures ↔ showing.Picks master failure

/-- Lists are shown as arrays, a single failure by itself. -/
inductive Lays : Showing → List Json → Json → Prop
  | selection (selector : Selector) (forms : List Json) :
      Lays (selection selector) forms (.array forms)
  | drift (forms : List Json) : Lays drift forms (.array forms)
  | single (node id : String) (form : Json) : Lays (single node id) [form] form

/-- A response that shows what is asked for and nothing else. -/
def Shown (showing : Showing) (master : Master) (response : Response) : Prop :=
  ∃ failures forms body, showing.Lists master failures ∧
    List.Forall₂ (fun failure form => failure.json = .ok form) failures forms ∧
    showing.Lays forms body ∧ response = .ofBody 200 (.json body)

/-- What is asked for is there, if it is a single failure. -/
def Exists (master : Master) : Showing → Prop
  | single node id => (master.contents node id).isSome = true
  | _ => True

end Showing

end Http

namespace Master

def picked (master : Master) : Showing → List Failure
  | .selection selector => master.listFailures selector
  | .drift => master.drifted
  | .single node id => (master.contents node id).toList

theorem picked_lists (master : Master) (roster : master.roster.Sound)
    (filed : master.ledger.Filed) (showing : Showing) :
    showing.Lists master (master.picked showing) := by
  cases showing with
  | selection selector =>
      simp only [picked, master.listFailures_eq roster]
      constructor
      · exact filed.list_sorted _
      · exact fun failure => (filed.mem_list _ failure).trans and_comm
  | drift =>
      constructor
      · exact (filed.list_sorted _).filter _
      · intro failure
        simp [picked, drifted, Ledger.drifted, filed.mem_list, Showing.Picks, Showing.Wants,
          Failure.isConverged, contents]
  | single node id =>
      cases found : master.contents node id with
      | none =>
          simp only [picked, found]
          constructor
          · exact List.Pairwise.nil
          · intro failure
            refine iff_of_false List.not_mem_nil ?_
            rintro ⟨known, rfl, rfl⟩
            cases found.symm.trans known
      | some failure =>
          obtain ⟨rfl, rfl⟩ := filed.named node id failure found
          simp only [picked, found]
          constructor
          · exact List.pairwise_singleton _ _
          · intro other
            constructor
            · intro member
              cases List.mem_singleton.mp member
              exact ⟨found, rfl, rfl⟩
            · rintro ⟨known, node, id⟩
              rw [node, id, found] at known
              cases known
              exact List.mem_singleton_self _

theorem failuresJson_eq_ok (failures : List Failure) (forms : List Json) :
    failuresJson failures = .ok forms ↔
      List.Forall₂ (fun failure form => failure.json = .ok form) failures forms := by
  induction failures generalizing forms with
  | nil => simp [failuresJson, eq_comm]
  | cons failure rest ih =>
      rw [failuresJson, bind_eq_ok, List.forall₂_cons_left_iff]
      simp only [bind_eq_ok, ih, Except.ok.injEq]
      constructor
      · rintro ⟨first, shown, others, below, rfl⟩
        exact ⟨first, others, shown, below, rfl⟩
      · rintro ⟨first, others, shown, below, rfl⟩
        exact ⟨first, shown, others, below, rfl⟩

theorem failuresJson_isOk_iff (failures : List Failure) :
    (failuresJson failures).isOk = true ↔
      ∀ failure ∈ failures, failure.specification.EveryOption Yaml.Value.Presentable := by
  induction failures with
  | nil => exact iff_of_true rfl (List.forall_mem_nil _)
  | cons failure rest ih =>
      have both : (failuresJson (failure :: rest)).isOk =
          (failure.json.isOk && (failuresJson rest).isOk) := by
        rw [failuresJson]
        cases failure.json <;> cases failuresJson rest <;> rfl
      rw [both, Bool.and_eq_true, failure.json_isOk_iff, ih, List.forall_mem_cons]

def answerShowing (master : Master) (showing : Showing) : Served :=
  match showing with
  | .single node id => serveFailure 200 ⟨master.getFailure node id, master⟩
  | _ => master.serveFailures (master.picked showing)

theorem serve_showing (master : Master) (now : Int) (request : Http.Request) (showing : Showing)
    (asked : request.shows? = some showing) :
    master.serve now request = master.answerShowing showing := by
  unfold Request.shows? at asked
  dsimp only at asked
  split at asked
  next method =>
    split at asked
    next route =>
      split at asked
      next query read =>
        split at asked
        · cases asked
        next unwatched =>
          obtain ⟨selector, selected, rfl⟩ := Option.map_eq_some_iff.mp asked
          have selects := (toOption_eq_some _ _).mp selected
          simp [serve, route, Route.allowed, method, serveRoute, serveList, read, selects,
            unwatched, serveOr, answerShowing, picked, bind, Except.bind]
      · cases asked
    next route =>
      cases asked
      simp [serve, route, Route.allowed, method, serveRoute, answerShowing, picked]
    next node id route =>
      obtain ⟨names, read, rfl⟩ := Option.map_eq_some_iff.mp asked
      have named := (toOption_eq_some _ _).mp read
      simp [serve, route, Route.allowed, method, serveRoute, serveOperation, serveNamed, named,
        serveOr, answerShowing, bind, Except.bind]
    · cases asked
  next => cases asked

theorem answerShowing_single (master : Master) (node id : String) (failure : Failure)
    (found : master.contents node id = some failure) :
    master.answerShowing (.single node id) = (Response.ofJson 200 failure.json, master) := by
  have kept : master.ledger.get? node id = some failure := found
  simp [answerShowing, serveFailure, getFailure, Ledger.get, kept]

theorem answerShowing_ok (master : Master) (showing : Showing) (existing : showing.Exists master)
    (forms : List Json) (shown : failuresJson (master.picked showing) = .ok forms) :
    ∃ body, showing.Lays forms body ∧
      master.answerShowing showing = (.ofBody 200 (.json body), master) := by
  cases showing with
  | selection selector =>
      refine ⟨_, .selection selector forms, ?_⟩
      simp [answerShowing, serveFailures, shown, Except.map, Response.ofJson]
  | drift =>
      refine ⟨_, .drift forms, ?_⟩
      simp [answerShowing, serveFailures, shown, Except.map, Response.ofJson]
  | single node id =>
      obtain ⟨failure, found⟩ := Option.isSome_iff_exists.mp existing
      simp only [picked, found, Option.toList_some, failuresJson_eq_ok] at shown
      obtain ⟨form, _, formed, ⟨⟩, rfl⟩ := List.forall₂_cons_left_iff.mp shown
      refine ⟨form, .single node id form, ?_⟩
      rw [master.answerShowing_single node id failure found, formed, Response.ofJson]

theorem answerShowing_error (master : Master) (showing : Showing)
    (existing : showing.Exists master) (fault : Yaml.JsonFault)
    (hidden : failuresJson (master.picked showing) = .error fault) :
    master.answerShowing showing = (.ofBody 500 (.text fault.message), master) := by
  cases showing with
  | selection selector | drift =>
      simp [answerShowing, serveFailures, hidden, Except.map, Response.ofJson]
  | single node id =>
      obtain ⟨failure, found⟩ := Option.isSome_iff_exists.mp existing
      simp only [picked, found, Option.toList_some] at hidden
      have unformed : failure.json = .error fault := by
        cases form : failure.json with
        | ok _ => simp [failuresJson, form, bind, Except.bind] at hidden
        | error _ => simpa [failuresJson, form, bind, Except.bind] using hidden
      rw [master.answerShowing_single node id failure found, unformed, Response.ofJson]

/-- What is asked for is shown exactly if all of it has a JSON form. Otherwise nothing is, whatever
else was asked for. -/
theorem serve_shows_iff (policy : LivenessPolicy) (master : Master)
    (reachable : Reachable policy master) (now : Int) (request : Http.Request) (showing : Showing)
    (asked : request.shows? = some showing) (existing : showing.Exists master) :
    (master.serve now request).2 = master ∧
    (showing.Shown master (master.serve now request).1 ↔
      ∀ failure, showing.Picks master failure →
        failure.specification.EveryOption Yaml.Value.Presentable) ∧
    (¬ showing.Shown master (master.serve now request).1 → ∃ fault : Yaml.JsonFault,
      (master.serve now request).1 = .ofBody 500 (.text fault.message)) := by
  have lists := master.picked_lists reachable.inOrder.roster reachable.filed showing
  have presentable : (failuresJson (master.picked showing)).isOk = true ↔
      ∀ failure, showing.Picks master failure →
        failure.specification.EveryOption Yaml.Value.Presentable := by
    rw [failuresJson_isOk_iff]
    exact forall_congr' fun failure => by rw [lists.picked]
  rw [master.serve_showing now request showing asked, ← presentable]
  cases formed : failuresJson (master.picked showing) with
  | ok forms =>
      obtain ⟨body, lays, answered⟩ := master.answerShowing_ok showing existing forms formed
      have shown : showing.Shown master (master.answerShowing showing).1 :=
        ⟨_, forms, body, lists, (failuresJson_eq_ok _ _).mp formed, lays, by rw [answered]⟩
      exact ⟨by rw [answered], iff_of_true shown rfl, fun hidden => absurd shown hidden⟩
  | error fault =>
      rw [master.answerShowing_error showing existing fault formed]
      refine ⟨rfl, iff_of_false ?_ nofun, fun _ => ⟨fault, rfl⟩⟩
      rintro ⟨_, _, _, _, _, _, other⟩
      cases congrArg Response.status other

def creationWith (id definition : String) : Http.Request where
  method := .post
  target := "/api/v1/failures"
  contentType := some "application/json"
  body := Text.encode <| "\x7b\"id\":\"" ++ id ++ "\",\"node_id\":\"node\"," ++
    "\"definition\":\"" ++ definition ++ "\"\x7d"

/-- A master with a common failure and one that has a key without a text. -/
def oddMaster : Master :=
  (((Master.empty .standard).serve 0 (creationWith "common" "spec: \x7b\x7d")).2.serve 0
    (creationWith "odd" "spec: \x7battacks: [a: \x7bm: \x7b~: 1\x7d\x7d]\x7d")).2

theorem oddMaster_reachable : Reachable .standard oddMaster :=
  .serve _ (.serve _ .empty 0 _) 0 _

def listing : Http.Request := ⟨.get, "/api/v1/failures", none, []⟩

theorem oddMaster_stores :
    (oddMaster.contents "node" "common").any (·.json.isOk) = true ∧
      (oddMaster.serve 0 listing).1.status = 500 := by
  decide +kernel

theorem oddMaster_hidden :
    ¬ (Showing.selection ⟨[]⟩).Shown oddMaster (oddMaster.serve 0 listing).1 := by
  rintro ⟨_, _, _, _, _, _, same⟩
  have status := oddMaster_stores.2
  rw [same] at status
  cases status

/-- The common failure is shown by itself, but not in a list. -/
theorem serve_shows_iff_common :
    (Showing.single "node" "common").Shown oddMaster
      (oddMaster.serve 0 ⟨.get, "/api/v1/nodes/node/failures/common", none, []⟩).1 ∧
    ∃ fault : Yaml.JsonFault,
      (oddMaster.serve 0 listing).1 = .ofBody 500 (.text fault.message) := by
  obtain ⟨failure, common, form⟩ := (Option.any_eq_true _ _).mp oddMaster_stores.1
  constructor
  · have single := serve_shows_iff .standard oddMaster oddMaster_reachable 0
      ⟨.get, "/api/v1/nodes/node/failures/common", none, []⟩ (.single "node" "common")
      (by decide +kernel) (Option.isSome_iff_exists.mpr ⟨_, common⟩)
    refine single.2.1.mpr ?_
    rintro other ⟨known, node, id⟩
    rw [node, id, common] at known
    cases known
    exact failure.json_isOk_iff.mp form
  · exact (serve_shows_iff .standard oddMaster oddMaster_reachable 0 listing (.selection ⟨[]⟩)
      (by decide +kernel) trivial).2.2 oddMaster_hidden

theorem list_hidden_by_one :
    ¬ ∀ (policy : LivenessPolicy) (master : Master), Reachable policy master →
      ∀ (now : Int) (request : Http.Request) (showing : Showing),
        request.shows? = some showing → showing.Exists master →
          showing.Shown master (master.serve now request).1 := by
  intro shows
  exact oddMaster_hidden (shows .standard oddMaster oddMaster_reachable 0 listing (.selection ⟨[]⟩)
    (by decide +kernel) trivial)

end Master

end FaultInjection
