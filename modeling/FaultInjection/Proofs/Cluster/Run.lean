import FaultInjection.Cluster
import FaultInjection.Proofs.Master.Channel
import FaultInjection.Proofs.Master.Request
import FaultInjection.Proofs.Node.Membership
import FaultInjection.Proofs.Node.Report

/-!
Runs of a cluster: requests of operators, calls of nodes, passes of agents and the going on of
time, in any order. Every agent keeps valid engines, and the ledger stays sound.
-/

namespace FaultInjection

variable {α : Type}

namespace Cluster

inductive Command where
  | enter (node : String) (labels : Labels)
  | request (request : Request)
  | call (instant : Int) (call : Call)
  | sweep (instant : Int)
  | sync (node : String)
  /-- A pass of which some calls are lost. -/
  | lossySync (node : String) (fates : List Fate)
  | shutDown (node : String)
  | advance (span : Nat)
  | join (node : String)
  | rejoin (node : String)
  | leave (node : String)
  | startBeating (node : String) (interval : Int)
  | stopBeating (node : String)

def lossySync [Attack α] (cluster : Cluster α) (node : String) (fates : List Fate) : Cluster α :=
  (cluster.change node fun master member =>
    let outcome := member.agent.sync cluster.clock (⟨master, fates⟩ : Channel)
    (outcome.result, outcome.far.master, { member with agent := outcome.agent })).2

def perform [Attack α] (cluster : Cluster α) : Command → Cluster α
  | .enter node labels => cluster.withNode node labels
  | .request request => (cluster.operate request.reply).2
  | .call instant call => (cluster.operate (·.answer instant call)).2
  | .sweep instant => (cluster.sweepAt instant).2
  | .sync node => (cluster.sync node).2
  | .lossySync node fates => cluster.lossySync node fates
  | .shutDown node => cluster.revertAll node
  | .advance span => cluster.advance span
  | .join node => (cluster.join node).2
  | .rejoin node => (cluster.rejoin node).2
  | .leave node => (cluster.leave node).2
  | .startBeating node interval => (cluster.startBeating node interval).2
  | .stopBeating node => cluster.stopBeating node

def after [Attack α] (cluster : Cluster α) (commands : List Command) : Cluster α :=
  commands.foldl perform cluster

def agent? (cluster : Cluster α) (node : String) : Option (Agent α) :=
  (cluster.members.get? node).map (·.agent)

/-! What each command does to the agents and to the master. -/

theorem withNode_agent? (cluster : Cluster α) (node other : String) (labels : Labels) :
    (cluster.withNode node labels).agent? other =
      if node = other then some ((cluster.agent? node).getD (.ofNode node cluster.catalogue))
      else cluster.agent? other := by
  simp only [agent?, withNode, Table.get?_put]
  split
  · cases found : cluster.members.get? node <;> simp [member, found]
  · rfl

theorem change_agent? {β : Type} (cluster : Cluster α) (node other : String)
    (act : Master → Member α → β × Master × Member α) :
    (cluster.change node act).2.agent? other =
      if node = other
      then (cluster.members.get? node).map fun member => (act cluster.master member).2.2.agent
      else cluster.agent? other := by
  unfold change
  split
  next absent =>
    split
    next same => rw [← same, agent?, absent]; rfl
    next => rfl
  next member found =>
    simp only [agent?, Table.get?_put]
    split
    · simp [found]
    · rfl

theorem ask_agent? (cluster : Cluster α) (node other : String)
    (request : Membership → Master → MembershipOutcome Master) :
    (cluster.ask node request).2.agent? other = cluster.agent? other := by
  rw [ask, change_agent?]
  split
  next same => rw [← same]; rfl
  next => rfl

theorem ask_unasked (cluster : Cluster α) (node : String)
    (request : Membership → Master → MembershipOutcome Master)
    (kept : ∀ membership master, Master.Unasked master (request membership master).far) :
    Master.Unasked cluster.master (cluster.ask node request).2.master := by
  unfold ask change
  split
  · exact Master.Unasked.refl _
  · exact kept _ _

def agentsOf (members : Table (Member α)) : Table (Agent α) :=
  members.map fun entry => (entry.1, entry.2.agent)

theorem agent?_eq (cluster : Cluster α) (node : String) :
    cluster.agent? node = (agentsOf cluster.members).get? node :=
  (Table.get?_map _ _ node).symm

section

variable [Attack α]

theorem advanceMembers (clock : Clock) (entries : List (String × Member α))
    (state : Master × Table (Member α)) :
    let result := entries.foldl (advanceMember clock) state
    Master.Unasked state.1 result.1 ∧
      agentsOf result.2 = agentsOf state.2 ++
        (agentsOf entries).map fun entry => (entry.1, entry.2.advance clock.now) := by
  induction entries generalizing state with
  | nil => exact ⟨Master.Unasked.refl _, by simp [agentsOf]⟩
  | cons entry rest ih =>
      obtain ⟨node, member⟩ := entry
      obtain ⟨unasked, agents⟩ := ih (advanceMember clock state (node, member))
      refine ⟨(member.membership.advance_unasked clock state.1).trans unasked, ?_⟩
      rw [List.foldl_cons, agents]
      simp [agentsOf, advanceMember]

theorem advanceTo_agent? (cluster : Cluster α) (now : Nat) (node : String) :
    (cluster.advanceTo now).agent? node = (cluster.agent? node).map (·.advance now) := by
  obtain ⟨_, agents⟩ :=
    advanceMembers { cluster.clock with now } cluster.members (cluster.master, [])
  rw [agent?_eq, agent?_eq, ← Table.get?_map]
  exact congrArg (·.get? node) agents

theorem advanceTo_unasked (cluster : Cluster α) (now : Nat) :
    Master.Unasked cluster.master (cluster.advanceTo now).master :=
  (advanceMembers { cluster.clock with now } cluster.members (cluster.master, [])).1

theorem sync_agent? (cluster : Cluster α) (node other : String) :
    (cluster.sync node).2.agent? other =
      if node = other
      then (cluster.agent? node).map fun agent => (agent.sync cluster.clock cluster.master).agent
      else cluster.agent? other := by
  rw [sync, change_agent?]
  split
  · rw [agent?, Option.map_map]
    rfl
  · rfl

theorem lossySync_agent? (cluster : Cluster α) (node other : String) (fates : List Fate) :
    (cluster.lossySync node fates).agent? other =
      if node = other
      then (cluster.agent? node).map fun agent =>
        (agent.sync cluster.clock (⟨cluster.master, fates⟩ : Channel)).agent
      else cluster.agent? other := by
  rw [lossySync, change_agent?]
  split
  · rw [agent?, Option.map_map]
    rfl
  · rfl

theorem revertAll_agent? (cluster : Cluster α) (node other : String) :
    (cluster.revertAll node).agent? other =
      if node = other then (cluster.agent? node).map (·.revertAll) else cluster.agent? other := by
  rw [revertAll, change_agent?]
  split
  · rw [agent?, Option.map_map]
    rfl
  · rfl

end

end Cluster

namespace Cluster

variable [Attack α]

theorem sync_unasked (cluster : Cluster α) (node : String) :
    Master.Unasked cluster.master (cluster.sync node).2.master := by
  unfold sync change
  split
  next => exact Master.Unasked.refl _
  next member _ => exact Agent.sync_unasked id Master.answer_unasked member.agent _ _

theorem lossySync_unasked (cluster : Cluster α) (node : String) (fates : List Fate) :
    Master.Unasked cluster.master (cluster.lossySync node fates).master := by
  unfold lossySync change
  split
  next => exact Master.Unasked.refl _
  next member _ =>
    exact Agent.sync_unasked Channel.master Channel.ask_unasked member.agent _
      (⟨cluster.master, fates⟩ : Channel)

theorem revertAll_master (cluster : Cluster α) (node : String) :
    (cluster.revertAll node).master = cluster.master := by
  unfold revertAll change
  split <;> rfl

/-- Only requests of operators change what operators have written. -/
theorem perform_unasked (cluster : Cluster α) (command : Command)
    (other : ∀ request, command ≠ .request request) :
    Master.Unasked cluster.master (cluster.perform command).master := by
  cases command with
  | enter node labels => exact Master.Unasked.refl _
  | request request => exact absurd rfl (other request)
  | call instant call => exact cluster.master.answer_unasked instant call
  | sweep instant => exact Master.Unasked.ofLedger rfl
  | sync node => exact cluster.sync_unasked node
  | lossySync node fates => exact cluster.lossySync_unasked node fates
  | shutDown node => exact Master.Unasked.ofLedger (by rw [perform, revertAll_master])
  | advance span => exact cluster.advanceTo_unasked _
  | join node =>
      exact cluster.ask_unasked node _ fun membership => membership.register_unasked _
  | rejoin node =>
      exact cluster.ask_unasked node _ fun membership => membership.rejoin_unasked _
  | leave node =>
      exact cluster.ask_unasked node _ fun membership => membership.deregister_unasked _
  | startBeating node interval =>
      exact cluster.ask_unasked node _ fun membership => membership.startBeating_unasked _ interval
  | stopBeating node =>
      exact cluster.ask_unasked node _ fun _ master => Master.Unasked.refl master

structure Sound (cluster : Cluster α) : Prop where
  ledger : cluster.master.ledger.Sound
  agents : ∀ node agent, cluster.agent? node = some agent → agent.node = node ∧ agent.Valid

theorem empty_sound (policy : LivenessPolicy) (catalogue : Catalogue α) :
    (empty policy catalogue).Sound :=
  ⟨Ledger.empty_sound, fun _ _ impossible => nomatch impossible⟩

inductive Moves (cluster : Cluster α) (node : String) : Command → Agent α → Prop where
  | stays {command : Command} {agent : Agent α} (known : cluster.agent? node = some agent) :
      Moves cluster node command agent
  | enters (labels : Labels) :
      Moves cluster node (.enter node labels) (.ofNode node cluster.catalogue)
  | syncs {agent : Agent α} (known : cluster.agent? node = some agent) :
      Moves cluster node (.sync node) (agent.sync cluster.clock cluster.master).agent
  | losesCalls {agent : Agent α} (fates : List Fate) (known : cluster.agent? node = some agent) :
      Moves cluster node (.lossySync node fates)
        (agent.sync cluster.clock (⟨cluster.master, fates⟩ : Channel)).agent
  | shutsDown {agent : Agent α} (known : cluster.agent? node = some agent) :
      Moves cluster node (.shutDown node) agent.revertAll
  | advances {agent : Agent α} (span : Nat) (known : cluster.agent? node = some agent) :
      Moves cluster node (.advance span) (agent.advance (cluster.clock.now + span))

omit [Attack α] in
/-- Where the agent of one node was changed, any node has the agent that it had, or is that one. -/
theorem changed_agent (cluster : Cluster α) (changed node : String) (act : Agent α → Agent α)
    (agent : Agent α) (found : (if changed = node then (cluster.agent? changed).map act
      else cluster.agent? node) = some agent) :
    cluster.agent? node = some agent ∨
      changed = node ∧ ∃ before, cluster.agent? node = some before ∧ act before = agent := by
  split at found
  next same =>
    subst same
    exact Or.inr ⟨rfl, Option.map_eq_some_iff.mp found⟩
  next => exact Or.inl found

theorem perform_moves (cluster : Cluster α) (command : Command) (node : String)
    (agent : Agent α) (found : (cluster.perform command).agent? node = some agent) :
    cluster.Moves node command agent := by
  cases command with
  | enter newcomer labels =>
      rw [perform, withNode_agent?] at found
      split at found
      next same =>
        subst same
        cases known : cluster.agent? newcomer with
        | none =>
            rw [known] at found
            cases found
            exact .enters labels
        | some old =>
            rw [known] at found
            cases found
            exact .stays known
      next => exact .stays found
  | sync syncing =>
      rw [perform, sync_agent?] at found
      rcases cluster.changed_agent _ _ _ _ found with kept | ⟨rfl, before, known, rfl⟩
      · exact .stays kept
      · exact .syncs known
  | lossySync syncing fates =>
      rw [perform, lossySync_agent?] at found
      rcases cluster.changed_agent _ _ _ _ found with kept | ⟨rfl, before, known, rfl⟩
      · exact .stays kept
      · exact .losesCalls fates known
  | shutDown stopping =>
      rw [perform, revertAll_agent?] at found
      rcases cluster.changed_agent _ _ _ _ found with kept | ⟨rfl, before, known, rfl⟩
      · exact .stays kept
      · exact .shutsDown known
  | advance span =>
      rw [perform, advance, advanceTo_agent?] at found
      obtain ⟨before, known, rfl⟩ := Option.map_eq_some_iff.mp found
      exact .advances span known
  | request request => exact .stays found
  | call instant call => exact .stays found
  | sweep instant => exact .stays found
  | join asking => exact .stays (ask_agent? cluster asking node _ ▸ found)
  | rejoin asking => exact .stays (ask_agent? cluster asking node _ ▸ found)
  | leave asking => exact .stays (ask_agent? cluster asking node _ ▸ found)
  | startBeating asking interval => exact .stays (ask_agent? cluster asking node _ ▸ found)
  | stopBeating asking => exact .stays (ask_agent? cluster asking node _ ▸ found)

theorem Moves.valid [LawfulAttack α] {cluster : Cluster α} {node : String} {command : Command}
    {after : Agent α} (moves : cluster.Moves node command after)
    (agents : ∀ agent, cluster.agent? node = some agent → agent.node = node ∧ agent.Valid) :
    after.node = node ∧ after.Valid := by
  cases moves with
  | stays known => exact agents after known
  | enters labels => exact ⟨rfl, Agent.ofNode_valid node cluster.catalogue⟩
  | @syncs agent known =>
      obtain ⟨named, valid⟩ := agents agent known
      obtain ⟨kept, still⟩ := agent.sync_valid cluster.clock cluster.master valid
      exact ⟨kept.trans named, still⟩
  | @losesCalls agent fates known =>
      obtain ⟨named, valid⟩ := agents agent known
      obtain ⟨kept, still⟩ :=
        agent.sync_valid cluster.clock (⟨cluster.master, fates⟩ : Channel) valid
      exact ⟨kept.trans named, still⟩
  | @shutsDown agent known =>
      obtain ⟨named, valid⟩ := agents agent known
      obtain ⟨kept, _, still⟩ := agent.revertAll_kept
      exact ⟨kept.trans named, still valid⟩
  | @advances agent span known =>
      obtain ⟨named, valid⟩ := agents agent known
      exact ⟨named, agent.advance_valid _ valid⟩

theorem request_sound (cluster : Cluster α) (request : Request)
    (sound : cluster.master.ledger.Sound) :
    (cluster.perform (.request request)).master.ledger.Sound := by
  cases answer : (request.reply cluster.master).answer with
  | error error =>
      rw [perform, operate, request.reply_error cluster.master error answer]
      exact sound
  | ok failure => exact (request.reply_ok cluster.master failure answer).sound sound

theorem perform_sound [LawfulAttack α] (cluster : Cluster α) (command : Command)
    (sound : cluster.Sound) : (cluster.perform command).Sound := by
  -- requests may change what is asked for; everything else leaves the ledger sound as it is
  refine ⟨?_, fun node agent found =>
    (cluster.perform_moves command node agent found).valid (sound.agents node)⟩
  by_cases asked : ∃ request, command = .request request
  · obtain ⟨request, rfl⟩ := asked
    exact cluster.request_sound request sound.ledger
  · exact (cluster.perform_unasked command fun request same => asked ⟨request, same⟩).sound
      sound.ledger

theorem after_sound [LawfulAttack α] (cluster : Cluster α) (commands : List Command)
    (sound : cluster.Sound) : (cluster.after commands).Sound := by
  induction commands generalizing cluster with
  | nil => exact sound
  | cons command rest ih => exact ih (cluster.perform command) (cluster.perform_sound command sound)

end Cluster

end FaultInjection
