import FaultInjection.Master.Call

/-!
The same operations as work that is done on a master step by step: each check stands where it is
made, and each write is a step of its own. A step that fails ends the work, but does not take back
what the steps before it have written.
-/

namespace FaultInjection

def Work (α : Type) : Type := Master → Reply α

namespace Work

variable {α β : Type}

instance : Monad Work where
  pure value := fun master => ⟨.ok value, master⟩
  bind first next := fun master =>
    match first master with
    | ⟨.error error, after⟩ => ⟨.error error, after⟩
    | ⟨.ok value, after⟩ => next value after

/-! Steps that write nothing -/

def look : Work Master := fun master => ⟨.ok master, master⟩

def check (outcome : Except Error α) : Work α := fun master => ⟨outcome, master⟩

def ensure (holds : Bool) (error : Error) : Work Unit :=
  check (if holds then .ok () else .error error)

def need (value : Option α) (error : Error) : Work α :=
  check (match value with
    | some value => .ok value
    | none => .error error)

/-! Steps that write -/

def write (change : Master → Master) : Work Unit := fun master => ⟨.ok (), change master⟩

def writeLedger (change : Table (Table Failure) → Table (Table Failure)) : Work Unit :=
  write fun master => { master with ledger := ⟨change master.ledger.nodes⟩ }

def writeNode (id : String) (change : Node → Node) : Work Unit :=
  write fun master =>
    match master.roster.entries.get? id with
    | none => master
    | some entry =>
        let changed := { entry with node := change entry.node }
        { master with
          roster := { master.roster with entries := master.roster.entries.put id changed } }

def publish (change : Change) (failure : Failure) : Work Unit :=
  write fun master => master.record master.ledger change failure

/-! The ledger -/

/-- The failures of a node. A node that has none gets a table for them. -/
def place (node : String) : Work (Table Failure) := do
  match (← look).ledger.nodes.get? node with
  | some table => pure table
  | none =>
      writeLedger fun nodes => nodes.put node []
      pure []

def insert (failure : Failure) : Work Unit := do
  let table ← place failure.node
  ensure (!table.has failure.id) (.duplicateFailure failure.node failure.id)
  writeLedger fun nodes => nodes.put failure.node (table.put failure.id failure)

def modify (node id : String) (change : Failure → Failure) : Work (Failure × Failure) := do
  let table ← need ((← look).ledger.nodes.get? node) (.failureNotFound node id)
  let failure ← need (table.get? id) (.failureNotFound node id)
  writeLedger fun nodes => nodes.put node (table.put id (change failure))
  pure (failure, change failure)

/-- Takes a failure out. The table of its node goes as well once it is empty. -/
def remove (node id : String) : Work Failure := do
  let table ← need ((← look).ledger.nodes.get? node) (.failureNotFound node id)
  let left := table.erase id
  writeLedger fun nodes => nodes.put node left
  let removed ← need (table.get? id) (.failureNotFound node id)
  writeLedger fun nodes => if left.isEmpty then nodes.erase node else nodes
  pure removed

/-! What operators ask for -/

def create (node id : String) (specification : Specification) (expected : Failure.State) :
    Work Failure := do
  ensure (!(id.isEmpty || node.isEmpty)) (.definition .missingIds)
  let expected ← check (Master.desired expected)
  let _ ← check specification.render
  let failure : Failure := ⟨node, id, specification, .unknown, expected, 0⟩
  insert failure
  publish .created failure
  pure failure

def revise (node id : String) (specification : Option Specification)
    (expected : Option Failure.State) : Work Failure := do
  let (_, updated) ← modify node id fun failure =>
    let respecified := match specification with
      | some specification => { failure with specification }
      | none => failure
    match expected with
    | some state => Ledger.expect respecified state
    | none => respecified
  publish .updated updated
  pure updated

def setExpected (node id : String) (state : Failure.State) : Work Failure := do
  let state ← check (Master.desired state)
  revise node id none (some state)

def update (node id : String) (specification : Option Specification)
    (expected : Option Failure.State) : Work Failure := do
  let expected ← check (Master.desired? expected)
  let specification ← check (Master.deliverable? specification)
  if specification.isNone && expected.isNone then check ((← look).getFailure node id)
  else revise node id specification expected

def delete (node id : String) : Work Failure := do
  let removed ← remove node id
  publish .deleted removed
  pure removed

/-! What nodes call -/

def register (now : Int) (registration : Wire.Registration) : Work CallAnswer := do
  let id := registration.node
  ensure (!id.isEmpty) (.registration "node id must not be empty")
  ensure (!(← look).roster.isAlive id) (.registration s!"node '{id}' is already registered")
  write fun master =>
    let node : Node := ⟨id, registration.labels, .alive, now, now⟩
    { master with roster := { master.roster with
      entries := master.roster.entries.put id ⟨master.roster.registrations, node⟩
      registrations := master.roster.registrations + 1 } }
  pure .done

/-- A sign of life is noted in two steps, first its time and then that the node is alive. -/
def heartbeat (now : Int) (beat : Wire.Heartbeat) : Work CallAnswer := do
  let _ ← need ((← look).roster.entries.get? beat.node) (.nodeNotFound beat.node)
  writeNode beat.node fun node =>
    if node.lastHeartbeat < now then { node with lastHeartbeat := now } else node
  writeNode beat.node fun node =>
    if node.liveness = .unreachable then { node with liveness := .alive } else node
  pure .done

def deregister (node : String) : Work CallAnswer := do
  write fun master => { master with roster := master.roster.deregister node }
  pure .done

def pull (node : String) : Work CallAnswer := do
  let _ ← check ((← look).getNode node)
  let assignments ← check (Master.assignmentsOf ((← look).ledger.listNode node))
  pure (.assignments assignments)

def report (reporter : String) (assignment : Wire.Assignment) : Work CallAnswer := do
  let _ ← check ((← look).getNode reporter)
  let state ← check (Failure.State.ofCode assignment.current)
  ensure (reporter = assignment.node) (.notOwner reporter assignment.node assignment.id)
  let (previous, updated) ← modify assignment.node assignment.id fun failure =>
    { failure with current := state }
  if previous.current ≠ state then publish .updated updated
  pure .done

end Work

end FaultInjection
