import FaultInjection.Master.Basic

/-!
What nodes ask of the master: to join and to leave, to be known to be alive, to get their failures,
and to report the state of a failure.
-/

namespace FaultInjection

inductive Call where
  | register (registration : Wire.Registration)
  | heartbeat (beat : Wire.Heartbeat)
  | deregister (node : String)
  | pull (node : String)
  | report (reporter : String) (assignment : Wire.Assignment)
  deriving DecidableEq

inductive CallAnswer where
  | done
  | assignments (assignments : List Wire.Assignment)
  deriving DecidableEq

namespace Master

def enroll (master : Master) (changed : Except Error Roster) : Reply CallAnswer :=
  match changed with
  | .error error => master.refuse error
  | .ok roster => ⟨.ok .done, { master with roster }⟩

def register (master : Master) (now : Int) (registration : Wire.Registration) : Reply CallAnswer :=
  master.enroll (master.roster.register now registration.node registration.labels)

def heartbeat (master : Master) (now : Int) (beat : Wire.Heartbeat) : Reply CallAnswer :=
  master.enroll (master.roster.heartbeat now beat.node)

/-- A node that is not known may leave as well. -/
def deregister (master : Master) (node : String) : Reply CallAnswer :=
  master.enroll (.ok (master.roster.deregister node))

def assignmentsOf : List Failure → Except Error (List Wire.Assignment)
  | [] => .ok []
  | failure :: rest => do
      let first ← failure.toAssignment
      let others ← assignmentsOf rest
      .ok (first :: others)

def pull (master : Master) (node : String) : Except Error (List Wire.Assignment) := do
  let _ ← master.getNode node
  assignmentsOf (master.ledger.listNode node)

/-- Of a report the current state alone is taken. It is announced if it is new. -/
def report (master : Master) (reporter : String) (assignment : Wire.Assignment) :
    Reply CallAnswer :=
  let written := do
    let _ ← master.getNode reporter
    let state ← Failure.State.ofCode assignment.current
    let (previous, updated, ledger) ←
      master.ledger.report reporter assignment.node assignment.id state
    .ok (decide (previous ≠ state), updated, ledger)
  match written with
  | .error error => master.refuse error
  | .ok (isNew, updated, ledger) =>
      ⟨.ok .done, if isNew then master.record ledger .updated updated else { master with ledger }⟩

def answer (master : Master) (now : Int) : Call → Reply CallAnswer
  | .register registration => master.register now registration
  | .heartbeat beat => master.heartbeat now beat
  | .deregister node => master.deregister node
  | .pull node => ⟨(master.pull node).map .assignments, master⟩
  | .report reporter assignment => master.report reporter assignment

end Master

/-- A way to reach a master. A call at an instant of the calendar is answered, and may change what
stands at the far side. -/
class Link (σ : Type) where
  ask : σ → (now : Int) → Call → Except Error CallAnswer × σ

instance : Link Master where
  ask master now call :=
    let reply := master.answer now call
    (reply.answer, reply.master)

end FaultInjection
