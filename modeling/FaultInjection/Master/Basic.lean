import FaultInjection.Failure.Assignment
import FaultInjection.Master.Ledger
import FaultInjection.Master.Roster

/-!
The master. Operators tell it which failures there are and which state each should be in; nodes
fetch the failures that are meant for them and report the states that they have reached. Every
change of a failure is announced by one event.
-/

namespace FaultInjection

inductive Change where
  | created
  | updated
  | deleted
  deriving DecidableEq, Repr

def Change.text : Change → String
  | created => "created"
  | updated => "updated"
  | deleted => "deleted"

structure Event where
  change : Change
  failure : Failure

def Event.json (event : Event) : Except Yaml.JsonFault Json :=
  event.failure.json.map fun failure =>
    .object [("type", .string event.change.text), ("failure", failure)]

structure Master where
  roster : Roster
  ledger : Ledger
  /-- All events that were announced, newest first. -/
  history : List Event

structure Reply (α : Type) where
  answer : Except Error α
  master : Master

namespace Master

variable {α : Type}

def empty (policy : LivenessPolicy) : Master := ⟨.empty policy, .empty, []⟩

def refuse (master : Master) (error : Error) : Reply α := ⟨.error error, master⟩

def record (master : Master) (ledger : Ledger) (change : Change) (failure : Failure) : Master :=
  { master with ledger, history := ⟨change, failure⟩ :: master.history }

def eventsSince (master : Master) (count : Nat) : List Event :=
  (master.history.take (master.history.length - count)).reverse

def announce (master : Master) (change : Change) (written : Except Error (Failure × Ledger)) :
    Reply Failure :=
  match written with
  | .error error => master.refuse error
  | .ok (failure, ledger) => ⟨.ok failure, master.record ledger change failure⟩

def desired (state : Failure.State) : Except Error Failure.State :=
  match state with
  | .unknown => .error (.definition .undesirableState)
  | state => .ok state

def desired? : Option Failure.State → Except Error (Option Failure.State)
  | none => .ok none
  | some state => (desired state).map some

def deliverable (specification : Specification) : Except Error Specification :=
  specification.render.map fun _ => specification

def deliverable? : Option Specification → Except Error (Option Specification)
  | none => .ok none
  | some specification => (deliverable specification).map some

def newFailure (node id : String) (specification : Specification) (expected : Failure.State) :
    Except Error Failure := do
  if id.isEmpty || node.isEmpty then .error (.definition .missingIds)
  else
    let expected ← desired expected
    let specification ← deliverable specification
    .ok ⟨node, id, specification, .unknown, expected, 0⟩

def createFailure (master : Master) (node id : String) (specification : Specification)
    (expected : Failure.State) : Reply Failure :=
  match newFailure node id specification expected with
  | .error error => master.refuse error
  | .ok failure =>
      master.announce .created ((master.ledger.create failure).map fun ledger => (failure, ledger))

def getFailure (master : Master) (node id : String) : Except Error Failure :=
  master.ledger.get node id

/-- The failures of the nodes that a selector accepts. The empty selector also lists failures of
nodes that have not registered. -/
def listFailures (master : Master) (selector : Selector) : List Failure :=
  if selector.isEmpty then master.ledger.list fun _ => true
  else
    let nodes := (master.roster.select selector).map (·.id)
    master.ledger.list fun node => nodes.contains node

def listNodes (master : Master) (selector : Selector) : List Node := master.roster.select selector

def getNode (master : Master) (node : String) : Except Error Node :=
  match master.roster.get? node with
  | some node => .ok node
  | none => .error (.nodeNotFound node)

def setExpected (master : Master) (node id : String) (state : Failure.State) : Reply Failure :=
  match desired state with
  | .error error => master.refuse error
  | .ok state => master.announce .updated (master.ledger.setExpected node id state)

def apply (master : Master) (node id : String) : Reply Failure :=
  master.setExpected node id .enabled

def revert (master : Master) (node id : String) : Reply Failure :=
  master.setExpected node id .disabled

/-- Replaces the specification, the expected state, or both. Both are checked before either is
written, and an update of nothing only looks the failure up. -/
def updateFailure (master : Master) (node id : String) (specification : Option Specification)
    (expected : Option Failure.State) : Reply Failure :=
  match desired? expected with
  | .error error => master.refuse error
  | .ok expected => match deliverable? specification with
    | .error error => master.refuse error
    | .ok specification =>
        if specification.isNone && expected.isNone then
          ⟨master.getFailure node id, master⟩
        else master.announce .updated (master.ledger.update node id specification expected)

def deleteFailure (master : Master) (node id : String) : Reply Failure :=
  master.announce .deleted (master.ledger.delete node id)

def drifted (master : Master) : List Failure := master.ledger.drifted

def sweep (master : Master) (now : Int) : Master × SweepReport :=
  let swept := master.roster.sweep now
  ({ master with roster := swept.1 }, swept.2)

end Master

end FaultInjection
