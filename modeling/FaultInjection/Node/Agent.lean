import FaultInjection.Clock
import FaultInjection.Engine.Basic
import FaultInjection.Master.Call

/-!
The agent of a node. It fetches all failures of its node from the master, drives one engine for
each towards the expected state, and reports the states that the engines have reached. Engines of
failures that are not listed any more are reverted and given up.
-/

namespace FaultInjection

variable {α σ : Type}

structure Slot (α : Type) where
  number : Nat
  engine : Engine α

structure Agent (α : Type) where
  node : String
  catalogue : Catalogue α
  slots : Table (Slot α)
  /-- The engines that were given up, newest first. -/
  retired : List (Slot α)
  /-- The generation with which each failure was last enabled. -/
  armed : Table UInt64
  built : Nat
  /-- Whether the agent has shut down; it applies no attack any more. -/
  stopped : Bool

structure SyncReport where
  reconciled : Nat
  errors : Nat
  removed : Nat
  deriving DecidableEq, Repr

abbrev Deed := String × AttackUse

structure AgentOutcome (α : Type) where
  result : Except Error Unit
  agent : Agent α
  deeds : List Deed

structure SyncProgress (σ α : Type) where
  far : σ
  agent : Agent α
  report : SyncReport
  deeds : List Deed

structure SyncOutcome (σ α : Type) where
  result : Except Error SyncReport
  far : σ
  agent : Agent α
  deeds : List Deed

def deedsOf (id : String) (uses : List AttackUse) : List Deed := uses.map fun use => (id, use)

def CallAnswer.toList : CallAnswer → List Wire.Assignment
  | .done => []
  | .assignments list => list

namespace Agent

def ofNode (node : String) (catalogue : Catalogue α) : Agent α :=
  ⟨node, catalogue, [], [], [], 0, false⟩

def engine? (agent : Agent α) (id : String) : Option (Engine α) :=
  (agent.slots.get? id).map (·.engine)

def store (agent : Agent α) (id : String) (slot : Slot α) (engine : Engine α) : Agent α :=
  { agent with slots := agent.slots.put id { slot with engine } }

def retire [Attack α] (agent : Agent α) (id : String) : AgentOutcome α :=
  match agent.slots.get? id with
  | none => ⟨.ok (), agent, []⟩
  | some slot =>
      let outcome := slot.engine.revert
      ⟨outcome.result,
        { agent with
          slots := agent.slots.erase id
          retired := { slot with engine := outcome.engine } :: agent.retired },
        deedsOf id outcome.uses⟩

def install (agent : Agent α) (failure : Failure) : AgentOutcome α :=
  match Engine.ofFailure agent.catalogue failure with
  | .error error => ⟨.error error, agent, []⟩
  | .ok engine =>
      ⟨.ok (),
        { agent with
          slots := agent.slots.put failure.id ⟨agent.built, engine⟩
          built := agent.built + 1 },
        []⟩

/-- Sees to it that a failure has an engine of its specification: the one that it has, if the
specification is the same, and else a new one after the old one was given up. -/
def prepare [Attack α] (agent : Agent α) (failure : Failure) : AgentOutcome α :=
  match agent.engine? failure.id with
  | none => agent.install failure
  | some engine =>
      if engine.specification.same failure.specification then ⟨.ok (), agent, []⟩
      else
        let given := agent.retire failure.id
        let after := given.agent.install failure
        { after with deeds := given.deeds ++ after.deeds }

/-- Whether a failure is to stay down: it has run to its timeout, and was not asked for anew. -/
def staysDown (agent : Agent α) (failure : Failure) (engine : Engine α) : Bool :=
  match agent.armed.get? failure.id with
  | some generation => engine.expired && decide (failure.generation ≤ generation)
  | none => false

def enable [Attack α] (agent : Agent α) (now : Nat) (failure : Failure) (slot : Slot α) :
    AgentOutcome α :=
  if agent.staysDown failure slot.engine then ⟨.ok (), agent, []⟩
  else
    let (outcome, fired) := slot.engine.fail now agent.stopped
    let tried := { agent.store failure.id slot outcome.engine with stopped := fired }
    let after := match outcome.result with
      | .ok () => { tried with armed := tried.armed.put failure.id failure.generation }
      | .error _ => tried
    ⟨outcome.result, after, deedsOf failure.id outcome.uses⟩

def disable [Attack α] (agent : Agent α) (id : String) (slot : Slot α) : AgentOutcome α :=
  let outcome := slot.engine.revert
  ⟨outcome.result, agent.store id slot outcome.engine, deedsOf id outcome.uses⟩

def drive [Attack α] (agent : Agent α) (now : Nat) (failure : Failure) : AgentOutcome α :=
  let prepared := agent.prepare failure
  match prepared.result, prepared.agent.slots.get? failure.id with
  | .ok (), some slot =>
      let driven := match failure.expected with
        | .enabled => prepared.agent.enable now failure slot
        | .disabled => prepared.agent.disable failure.id slot
        | .unknown => ⟨.ok (), prepared.agent, []⟩
      { driven with deeds := prepared.deeds ++ driven.deeds }
  | _, _ => prepared

def reached (outcome : AgentOutcome α) (id : String) : Failure.State :=
  match outcome.agent.engine? id with
  | some engine => engine.published
  | none => .unknown

/-- Drives the failure of an assignment, and tells the state that was reached. It is unknown if
the assignment cannot be read. -/
def reconcile [Attack α] (agent : Agent α) (now : Nat) (assignment : Wire.Assignment) :
    AgentOutcome α × Failure.State :=
  match Failure.ofAssignment assignment with
  | .error error => (⟨.error error, agent, []⟩, .unknown)
  | .ok failure =>
      let outcome := agent.drive now failure
      (outcome, reached outcome failure.id)

def faultCount (result : Except Error Unit) : Nat :=
  match result with
  | .ok () => 0
  | .error _ => 1

/-- Takes one assignment up and reports the state that was reached. Assignments of other nodes are
passed over, and a report that fails does no harm. -/
def visit [Attack α] [Link σ] (clock : Clock) (progress : SyncProgress σ α)
    (assignment : Wire.Assignment) : SyncProgress σ α :=
  if assignment.node ≠ progress.agent.node then progress
  else
    let (outcome, state) := progress.agent.reconcile clock.now assignment
    let call := Call.report outcome.agent.node { assignment with current := state.code }
    let (_, far) := Link.ask progress.far clock.instant call
    let report := progress.report
    ⟨far, outcome.agent,
      { report with
        reconciled := report.reconciled + 1
        errors := report.errors + faultCount outcome.result },
      progress.deeds ++ outcome.deeds⟩

def discard [Attack α] (progress : SyncProgress σ α) (id : String) : SyncProgress σ α :=
  let outcome := progress.agent.retire id
  let report := progress.report
  { progress with
    agent := { outcome.agent with armed := outcome.agent.armed.erase id }
    report :=
      { report with
        errors := report.errors + faultCount outcome.result
        removed := report.removed + 1 }
    deeds := progress.deeds ++ outcome.deeds }

def listed (agent : Agent α) (assignments : List Wire.Assignment) : List String :=
  (assignments.filter fun assignment => assignment.node = agent.node).map (·.id)

def follow [Attack α] [Link σ] (agent : Agent α) (clock : Clock) (far : σ)
    (assignments : List Wire.Assignment) : SyncProgress σ α :=
  let visited := assignments.foldl (visit clock) ⟨far, agent, ⟨0, 0, 0⟩, []⟩
  let stale := visited.agent.slots.keys.filter fun id => !(agent.listed assignments).contains id
  stale.foldl discard visited

/-- One pass. It fails only if the assignments cannot be fetched, and then nothing happens. -/
def sync [Attack α] [Link σ] (agent : Agent α) (clock : Clock) (far : σ) : SyncOutcome σ α :=
  match Link.ask far clock.instant (.pull agent.node) with
  | (.error error, far) => ⟨.error error, far, agent, []⟩
  | (.ok answer, far) =>
      let after := agent.follow clock far answer.toList
      ⟨.ok after.report, after.far, after.agent, after.deeds⟩

def advance [Attack α] (agent : Agent α) (now : Nat) : Agent α :=
  { agent with
    slots := agent.slots.map fun (id, slot) =>
      (id, { slot with engine := (slot.engine.advance now).1 })
    retired := agent.retired.map fun slot =>
      { slot with engine := (slot.engine.advance now).1 } }

/-- Shuts down: nothing is applied from now on, and all engines are reverted and given up. -/
def revertAll [Attack α] (agent : Agent α) : Agent α :=
  let stopping := { agent with stopped := true, armed := [] }
  stopping.slots.keys.foldl (fun agent id => (agent.retire id).agent) stopping

end Agent

/-- The times at which a loop comes round: at once, and whenever its interval has passed. -/
def roundsWithin (start interval span : Nat) : List Nat :=
  (List.range (span / interval + 1)).map fun round => start + round * interval

namespace Agent

def round [Attack α] [Link σ] (instant : Int) (state : σ × Agent α) (now : Nat) : σ × Agent α :=
  let outcome := (state.2.advance now).sync ⟨now, instant⟩ state.1
  (outcome.far, outcome.agent)

/-- Runs the loop of the agent for a span of time, and then shuts the agent down. -/
def run [Attack α] [Link σ] (agent : Agent α) (clock : Clock) (interval span : Nat) (far : σ) :
    σ × Agent α :=
  let after := (roundsWithin clock.now interval span).foldl (round clock.instant) (far, agent)
  (after.1, (after.2.advance (clock.now + span)).revertAll)

end Agent

end FaultInjection
