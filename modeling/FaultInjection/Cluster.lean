import FaultInjection.Node.Agent
import FaultInjection.Node.Membership

/-!
A whole cluster: one master, and for each node an agent and a membership that reach the master at
first hand. The clock goes on only when it is told to.
-/

namespace FaultInjection

variable {α : Type}

structure Member (α : Type) where
  agent : Agent α
  membership : Membership

structure Cluster (α : Type) where
  clock : Clock
  catalogue : Catalogue α
  master : Master
  members : Table (Member α)

namespace Cluster

def empty (policy : LivenessPolicy) (catalogue : Catalogue α) : Cluster α :=
  ⟨⟨0, 0⟩, catalogue, .empty policy, []⟩

/-- The member of a node; a node that is new to the cluster comes with its labels. -/
def member (cluster : Cluster α) (node : String) (labels : Labels) : Member α :=
  (cluster.members.get? node).getD ⟨.ofNode node cluster.catalogue, .ofNode node labels⟩

def withNode (cluster : Cluster α) (node : String) (labels : Labels) : Cluster α :=
  { cluster with members := cluster.members.put node (cluster.member node labels) }

def change {β : Type} (cluster : Cluster α) (node : String)
    (act : Master → Member α → β × Master × Member α) : Option β × Cluster α :=
  match cluster.members.get? node with
  | none => (none, cluster)
  | some member =>
      let (result, master, changed) := act cluster.master member
      (some result, { cluster with master, members := cluster.members.put node changed })

def advanceMember [Attack α] (clock : Clock) (state : Master × Table (Member α))
    (entry : String × Member α) : Master × Table (Member α) :=
  let (node, member) := entry
  let (master, membership) := member.membership.advance clock state.1
  (master, state.2 ++ [(node, ⟨member.agent.advance clock.now, membership⟩)])

def advanceTo [Attack α] (cluster : Cluster α) (now : Nat) : Cluster α :=
  let clock := { cluster.clock with now }
  let (master, members) := cluster.members.foldl (advanceMember clock) (cluster.master, [])
  { cluster with clock, master, members }

def advance [Attack α] (cluster : Cluster α) (span : Nat) : Cluster α :=
  cluster.advanceTo (cluster.clock.now + span)

def sync [Attack α] (cluster : Cluster α) (node : String) :
    Option (Except Error SyncReport) × Cluster α :=
  cluster.change node fun master member =>
    let outcome := member.agent.sync cluster.clock master
    (outcome.result, outcome.far, { member with agent := outcome.agent })

def revertAll [Attack α] (cluster : Cluster α) (node : String) : Cluster α :=
  (cluster.change node fun master member =>
    ((), master, { member with agent := member.agent.revertAll })).2

/-- Runs the loop of the agent of a node for a span of time, and then shuts the agent down. -/
def run [Attack α] (cluster : Cluster α) (node : String) (interval span : Nat) : Cluster α :=
  let rounds := roundsWithin cluster.clock.now interval span
  let after := rounds.foldl (fun cluster now => ((cluster.advanceTo now).sync node).2) cluster
  (after.advanceTo (cluster.clock.now + span)).revertAll node

def ask (cluster : Cluster α) (node : String)
    (request : Membership → Master → MembershipOutcome Master) :
    Option (Except Error Unit) × Cluster α :=
  cluster.change node fun master member =>
    let outcome := request member.membership master
    (outcome.result, outcome.far, { member with membership := outcome.membership })

def join (cluster : Cluster α) (node : String) : Option (Except Error Unit) × Cluster α :=
  cluster.ask node fun membership master => membership.register cluster.clock.instant master

def rejoin (cluster : Cluster α) (node : String) : Option (Except Error Unit) × Cluster α :=
  cluster.ask node fun membership master => membership.rejoin cluster.clock.instant master

def leave (cluster : Cluster α) (node : String) : Option (Except Error Unit) × Cluster α :=
  cluster.ask node fun membership master => membership.deregister cluster.clock.instant master

def startBeating (cluster : Cluster α) (node : String) (interval : Int) :
    Option (Except Error Unit) × Cluster α :=
  cluster.ask node fun membership master => membership.startBeating cluster.clock interval master

def stopBeating (cluster : Cluster α) (node : String) : Cluster α :=
  (cluster.ask node fun membership master => ⟨.ok (), master, membership.stopBeating⟩).2

def operate {β : Type} (cluster : Cluster α) (operation : Master → Reply β) :
    Except Error β × Cluster α :=
  let reply := operation cluster.master
  (reply.answer, { cluster with master := reply.master })

def sweepAt (cluster : Cluster α) (instant : Int) : SweepReport × Cluster α :=
  let swept := cluster.master.sweep instant
  (swept.2, { cluster with master := swept.1 })

def runSweeper [Attack α] (cluster : Cluster α) (interval span : Nat) : Cluster α :=
  let rounds := roundsWithin cluster.clock.now interval span
  let after := rounds.foldl
    (fun cluster now => ((cluster.advanceTo now).sweepAt cluster.clock.instant).2) cluster
  after.advanceTo (cluster.clock.now + span)

end Cluster

end FaultInjection
