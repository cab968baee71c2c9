import FaultInjection.Duration
import FaultInjection.Selector

/-!
The nodes that a master knows, with what it believes about their liveness. A node that stays
silent for too long is marked unreachable; one that stays silent for longer still can be evicted.
Instants are nanoseconds since the start of 1970.
-/

namespace FaultInjection

inductive Liveness where
  | alive
  | unreachable
  deriving DecidableEq, Repr

def Liveness.text : Liveness → String
  | alive => "alive"
  | unreachable => "unreachable"

structure Node where
  id : String
  labels : Labels
  liveness : Liveness
  lastHeartbeat : Int
  registeredAt : Int
  deriving DecidableEq, Repr

structure LivenessPolicy where
  heartbeatInterval : Duration
  missedHeartbeats : Nat
  evictAfter : Option Duration
  deriving DecidableEq

namespace LivenessPolicy

def standard : LivenessPolicy := ⟨.ofSeconds 5, 3, none⟩

def patience (policy : LivenessPolicy) : Nat :=
  policy.heartbeatInterval.nanos * max 1 policy.missedHeartbeats

/-- The allowed silence, if it is a duration at all. -/
def unreachableAfter? (policy : LivenessPolicy) : Option Duration :=
  Duration.ofNanos? policy.patience

end LivenessPolicy

structure Entry where
  registration : Nat
  node : Node
  deriving DecidableEq

structure Roster where
  policy : LivenessPolicy
  entries : Table Entry
  registrations : Nat

structure SweepReport where
  unreachable : List String
  evicted : List String
  deriving DecidableEq, Repr

namespace Node

def silence (node : Node) (now : Int) : Nat := (now - node.lastHeartbeat).toNat

/-- The node after a sign of life, which may be older than the last one. -/
def beat (node : Node) (instant : Int) : Node :=
  { node with lastHeartbeat := max node.lastHeartbeat instant, liveness := .alive }

def isOverdue (policy : LivenessPolicy) (now : Int) (node : Node) : Bool :=
  node.liveness = .alive && decide (policy.patience < node.silence now)

def isEvictable (policy : LivenessPolicy) (now : Int) (node : Node) : Bool :=
  match policy.evictAfter with
  | some limit => node.liveness = .unreachable && decide (limit.nanos < node.silence now)
  | none => false

def swept (policy : LivenessPolicy) (now : Int) (node : Node) : Node :=
  if node.isOverdue policy now then { node with liveness := .unreachable } else node

end Node

namespace Roster

def empty (policy : LivenessPolicy) : Roster := ⟨policy, [], 0⟩

def get? (roster : Roster) (id : String) : Option Node := (roster.entries.get? id).map (·.node)

def isAlive (roster : Roster) (id : String) : Bool :=
  match roster.get? id with
  | some node => node.liveness = .alive
  | none => false

/-- Adds a node. An id can be taken over from a node that is unreachable. -/
def register (roster : Roster) (now : Int) (id : String) (labels : Labels) : Except Error Roster :=
  if id.isEmpty then .error (.registration "node id must not be empty")
  else if roster.isAlive id then .error (.registration s!"node '{id}' is already registered")
  else
    let node : Node := ⟨id, labels, .alive, now, now⟩
    .ok { roster with
      entries := roster.entries.put id ⟨roster.registrations, node⟩
      registrations := roster.registrations + 1 }

def heartbeat (roster : Roster) (instant : Int) (id : String) : Except Error Roster :=
  match roster.entries.get? id with
  | none => .error (.nodeNotFound id)
  | some entry =>
      let beaten := { entry with node := entry.node.beat instant }
      .ok { roster with entries := roster.entries.put id beaten }

def deregister (roster : Roster) (id : String) : Roster :=
  { roster with entries := roster.entries.erase id }

def select (roster : Roster) (selector : Selector) : List Node :=
  (roster.entries.values.map (·.node)).filter fun node => selector.accepts node.labels

def markSilent (roster : Roster) (now : Int) : Roster :=
  { roster with
    entries := roster.entries.map fun (id, entry) =>
      (id, { entry with node := entry.node.swept roster.policy now }) }

def overdue (roster : Roster) (now : Int) : List String :=
  Table.keys (roster.entries.filter fun entry => entry.2.node.isOverdue roster.policy now)

/-- The ids of the nodes that have been silent for long enough to be evicted, each with its
registration. -/
def candidates (roster : Roster) (now : Int) : List (String × Nat) :=
  (roster.entries.filter fun entry => entry.2.node.isEvictable roster.policy now).map
    fun entry => (entry.1, entry.2.registration)

/-- Whether a candidate is still the one that was picked, and still silent. -/
def stillEvictable (roster : Roster) (now : Int) (candidate : String × Nat) : Bool :=
  match roster.entries.get? candidate.1 with
  | some entry =>
      entry.registration = candidate.2 && entry.node.isEvictable roster.policy now
  | none => false

def evict (now : Int) : Roster → List (String × Nat) → Roster × List String
  | roster, [] => (roster, [])
  | roster, candidate :: rest =>
      if roster.stillEvictable now candidate then
        let after := evict now (roster.deregister candidate.1) rest
        (after.1, candidate.1 :: after.2)
      else evict now roster rest

def sweep (roster : Roster) (now : Int) : Roster × SweepReport :=
  let marked := roster.markSilent now
  let after := evict now marked (marked.candidates now)
  (after.1, ⟨roster.overdue now, after.2⟩)

/-- A sweep that first works out the allowed silence, and fails if that is not a duration. -/
def sweep? (roster : Roster) (now : Int) : Option (Roster × SweepReport) :=
  roster.policy.unreachableAfter?.map fun _ => roster.sweep now

end Roster

end FaultInjection
