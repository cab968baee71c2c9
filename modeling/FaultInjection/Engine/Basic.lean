import FaultInjection.Attack.Catalogue
import FaultInjection.Failure.Basic

/-!
The engine of one failure. It applies the attacks of the failure in order and reverts them in
reverse order, by itself when the time of the specification has run out. An apply that fails part
of the way leaves the attacks before that point applied, and a later one resumes there.
-/

namespace FaultInjection

variable {α : Type}

inductive AttackUse where
  | apply (index : Nat)
  | revert (index : Nat)
  deriving DecidableEq, Repr

structure Timer where
  deadline : Nat
  period : Nat
  deriving DecidableEq, Repr

structure Engine (α : Type) where
  node : String
  id : String
  specification : Specification
  attacks : List α
  state : Failure.State
  period : Nat
  /-- The timers that were started and have not run out, oldest first. -/
  timers : List Timer
  /-- The period whose timer has not been called off. -/
  armed : Option Nat
  /-- Whether the last enabled period ran out of time. -/
  expired : Bool
  published : Failure.State
  publications : Nat

structure EngineOutcome (α : Type) where
  result : Except Error Unit
  engine : Engine α
  uses : List AttackUse

structure ApplyPass (α : Type) where
  result : Except Error Unit
  attacks : List α
  uses : List AttackUse
  fired : Bool

structure RevertPass (α : Type) where
  attacks : List α
  uses : List AttackUse
  faults : List String

def stopCause (index : Nat) (kind : String) : Error → Error
  | .cancelled _ => .cancelled index
  | error => .attackFailed index kind error

/-- Applies the attacks that are not applied, in order, until one fails or the token has fired. -/
def applyAll [Attack α] (now : Nat) : (index : Nat) → (fired : Bool) → List α → ApplyPass α
  | _, fired, [] => ⟨.ok (), [], [], fired⟩
  | index, fired, attack :: rest =>
      if Attack.isApplied attack then
        let later := applyAll now (index + 1) fired rest
        { later with attacks := attack :: later.attacks }
      else if fired then ⟨.error (.cancelled index), attack :: rest, [], fired⟩
      else
        let attempt := Attack.apply now fired attack
        match attempt.result with
        | .ok () =>
            let later := applyAll now (index + 1) attempt.fires rest
            { later with
              attacks := attempt.attack :: later.attacks
              uses := .apply index :: later.uses }
        | .error error =>
            ⟨.error (stopCause index (Attack.kind attack) error), attempt.attack :: rest,
              [.apply index], attempt.fires⟩

def revertFault [Attack α] (attack : α) : Except Error Unit → List String
  | .ok () => []
  | .error error => [Attack.kind attack ++ ": " ++ error.message]

/-- Reverts the attacks that are applied, last first, past those that fail. -/
def revertAll [Attack α] : (index : Nat) → List α → RevertPass α
  | _, [] => ⟨[], [], []⟩
  | index, attack :: rest =>
      let later := revertAll (index + 1) rest
      if Attack.isApplied attack then
        let outcome := Attack.revert attack
        ⟨outcome.2 :: later.attacks, later.uses ++ [.revert index],
          later.faults ++ revertFault attack outcome.1⟩
      else { later with attacks := attack :: later.attacks }

def buildAttacks (catalogue : Catalogue α) : List AttackMap → Except Error (List α)
  | [] => .ok []
  | map :: rest => do
      let (kind, options) ← map.single
      let attack ← catalogue.create kind options
      let others ← buildAttacks catalogue rest
      .ok (attack :: others)

namespace Engine

def ofFailure (catalogue : Catalogue α) (failure : Failure) : Except Error (Engine α) :=
  (buildAttacks catalogue failure.specification.attacks).map fun attacks =>
    ⟨failure.node, failure.id, failure.specification, attacks, .disabled, 0, [], none, false,
      .disabled, 0⟩

def isIdle [Attack α] (engine : Engine α) : Bool := !engine.attacks.any Attack.isApplied

def applied [Attack α] (engine : Engine α) : Nat := engine.attacks.countP Attack.isApplied

def enter (engine : Engine α) (state : Failure.State) : Engine α :=
  { engine with
    state := state
    published := state
    publications := engine.publications + 1 }

def enterPeriod (engine : Engine α) (now : Nat) : Engine α :=
  let timeout := engine.specification.timeout
  let period := engine.period + 1
  let begun := { engine.enter .enabled with period := period, expired := false }
  if timeout.isZero then begun
  else { begun with
    armed := some period
    timers := engine.timers ++ [⟨now + timeout.nanos, period⟩] }

/-- Applies all attacks. Nothing happens to an engine that is enabled. The last part of the result
tells whether the token has fired. -/
def fail [Attack α] (engine : Engine α) (now : Nat) (fired : Bool) : EngineOutcome α × Bool :=
  if engine.state = .enabled then (⟨.ok (), engine, []⟩, fired)
  else
    let pass := applyAll now 0 fired engine.attacks
    let tried := { engine with attacks := pass.attacks }
    let after := match pass.result with
      | .ok () => tried.enterPeriod now
      | .error _ => if tried.isIdle then tried else tried.enter .unknown
    (⟨pass.result, after, pass.uses⟩, pass.fired)

/-- Calls the timer off and reverts all attacks. Nothing else happens to an engine that is disabled
and idle. -/
def subside [Attack α] (engine : Engine α) : EngineOutcome α :=
  let unarmed := { engine with armed := none }
  if unarmed.isIdle && unarmed.state = .disabled then ⟨.ok (), unarmed, []⟩
  else
    let pass := revertAll 0 engine.attacks
    ⟨if pass.faults.isEmpty then .ok () else .error (.revertFailed ("; ".intercalate pass.faults)),
      { unarmed with attacks := pass.attacks }.enter .disabled, pass.uses⟩

def revert [Attack α] (engine : Engine α) : EngineOutcome α :=
  { engine with expired := false }.subside

/-- Whether a timer may still end the period that it was started for. -/
def heeds (engine : Engine α) (timer : Timer) : Bool :=
  engine.armed = some timer.period && engine.period = timer.period

def runOut [Attack α] (engine : Engine α) (timer : Timer) : Engine α × List AttackUse :=
  if engine.heeds timer then
    let outcome := { engine with expired := true }.subside
    (outcome.engine, outcome.uses)
  else (engine, [])

def runOutAll [Attack α] (engine : Engine α) : List Timer → Engine α × List AttackUse
  | [] => (engine, [])
  | timer :: rest =>
      let first := engine.runOut timer
      let later := runOutAll first.1 rest
      (later.1, first.2 ++ later.2)

def advance [Attack α] (engine : Engine α) (now : Nat) : Engine α × List AttackUse :=
  let waiting := { engine with timers := engine.timers.filter (now < ·.deadline) }
  let settled := waiting.runOutAll (engine.timers.filter (·.deadline ≤ now))
  ({ settled.1 with attacks := settled.1.attacks.map (Attack.advance now) }, settled.2)

end Engine

end FaultInjection
