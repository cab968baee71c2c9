import FaultInjection.Failure.Basic

/-!
The master's record of all failures, by node and then by id. Operators write specifications and
expected states, nodes write current states, and neither touches what the other writes.
-/

namespace FaultInjection

/-- For each node that has failures, those failures by their ids. -/
structure Ledger where
  nodes : Table (Table Failure)

namespace Ledger

def empty : Ledger := ⟨[]⟩

def ofNode (ledger : Ledger) (node : String) : Table Failure := (ledger.nodes.get? node).getD []

def get? (ledger : Ledger) (node id : String) : Option Failure := (ledger.ofNode node).get? id

def get (ledger : Ledger) (node id : String) : Except Error Failure :=
  match ledger.get? node id with
  | some failure => .ok failure
  | none => .error (.failureNotFound node id)

def put (ledger : Ledger) (failure : Failure) : Ledger :=
  ⟨ledger.nodes.put failure.node ((ledger.ofNode failure.node).put failure.id failure)⟩

def create (ledger : Ledger) (failure : Failure) : Except Error Ledger :=
  match ledger.get? failure.node failure.id with
  | some _ => .error (.duplicateFailure failure.node failure.id)
  | none => .ok (ledger.put failure)

/-- The failures of one node, by id in ascending order. -/
def listNode (ledger : Ledger) (node : String) : List Failure := (ledger.ofNode node).values

/-- The failures of all nodes that pass, by node and then by id in ascending order. -/
def list (ledger : Ledger) (passes : String → Bool) : List Failure :=
  (ledger.nodes.filter fun entry => passes entry.1).flatMap fun entry => entry.2.values

def drifted (ledger : Ledger) : List Failure :=
  (ledger.list fun _ => true).filter fun failure => !failure.isConverged

def modify (ledger : Ledger) (node id : String) (change : Failure → Failure) :
    Except Error (Failure × Ledger) :=
  match ledger.get? node id with
  | none => .error (.failureNotFound node id)
  | some failure =>
      let changed := change failure
      .ok (changed, ⟨ledger.nodes.put node ((ledger.ofNode node).put id changed)⟩)

/-- The operator's side of a failure: each request to enable it is counted. -/
def expect (failure : Failure) (state : Failure.State) : Failure :=
  { failure with
    expected := state
    generation :=
      if state = .enabled then failure.generation + 1 else failure.generation }

def update (ledger : Ledger) (node id : String) (specification : Option Specification)
    (expected : Option Failure.State) : Except Error (Failure × Ledger) :=
  ledger.modify node id fun failure =>
    let respecified := match specification with
      | some specification => { failure with specification }
      | none => failure
    match expected with
    | some state => expect respecified state
    | none => respecified

def setExpected (ledger : Ledger) (node id : String) (state : Failure.State) :
    Except Error (Failure × Ledger) :=
  ledger.update node id none (some state)

/-- Notes the state that the owner of a failure reports, and tells the state that it had before. -/
def report (ledger : Ledger) (reporter node id : String) (state : Failure.State) :
    Except Error (Failure.State × Failure × Ledger) :=
  if reporter ≠ node then .error (.notOwner reporter node id)
  else do
    let previous ← ledger.get node id
    let (updated, after) ← ledger.modify node id fun failure => { failure with current := state }
    .ok (previous.current, updated, after)

def delete (ledger : Ledger) (node id : String) : Except Error (Failure × Ledger) :=
  match ledger.get? node id with
  | none => .error (.failureNotFound node id)
  | some failure =>
      let left := (ledger.ofNode node).erase id
      .ok (failure,
        if left.isEmpty then ⟨ledger.nodes.erase node⟩ else ⟨ledger.nodes.put node left⟩)

end Ledger

end FaultInjection
