import FaultInjection.Master.Rehearsal
import FaultInjection.Proofs.Engine.Exposure
import FaultInjection.Proofs.Node.Run

/-!
Who answers for an engine. Every engine that an agent has built either stands under the id of its
failure, or was given up; attacks that can be reverted are over when their engine is given up, and
nothing starts them again.
-/

namespace FaultInjection

variable {α σ : Type} [Attack α]

namespace Engine

/-- An engine of which nothing is left that could do harm. -/
structure Released (engine : Engine α) : Prop where
  idle : engine.applied = 0
  unarmed : engine.armed = none

theorem revert_released [ReversibleAttack α] (engine : Engine α) : engine.revert.engine.Released :=
  ⟨(applied_eq_zero _).mpr (subside_clean _), subside_armed _⟩

theorem Released.advance [LawfulAttack α] {engine : Engine α} (released : engine.Released)
    (now : Nat) : (engine.advance now).1.Released := by
  rw [engine.advance_unarmed now released.unarmed]
  exact ⟨(applied_elapse _ now).trans released.idle, released.unarmed⟩

theorem Released.quiet {engine : Engine α} (released : engine.Released) :
    ¬ engine.hasLiveTimer :=
  engine.unarmed_quiet released.unarmed

end Engine

namespace Agent

/-- All engines that an agent has built and not lost sight of. -/
def known (agent : Agent α) : List (Slot α) := agent.slots.values ++ agent.retired

structure Custody (agent : Agent α) : Prop where
  ordered : agent.slots.Ordered
  counted : (agent.known.map (·.number)).Perm (List.range agent.built)
  named : ∀ entry ∈ agent.slots, entry.2.engine.id = entry.1
  released : ∀ slot ∈ agent.retired, slot.engine.Released

theorem ofNode_custody (node : String) (catalogue : Catalogue α) :
    (ofNode node catalogue).Custody :=
  ⟨List.Pairwise.nil, List.Perm.nil, fun _ impossible => (nomatch impossible),
    fun _ impossible => (nomatch impossible)⟩

theorem install_custody (agent : Agent α) (failure : Failure) (engine : Engine α)
    (free : agent.slots.get? failure.id = none)
    (built : Engine.ofFailure agent.catalogue failure = .ok engine) (custody : agent.Custody) :
    ({ agent with
        slots := agent.slots.put failure.id ⟨agent.built, engine⟩
        built := agent.built + 1 } : Agent α).Custody := by
  refine ⟨Table.put_ordered _ _ _ custody.ordered, ?_, ?_, custody.released⟩
  -- the new engine has the next number
  · have added := ((agent.slots.values_put_perm failure.id ⟨agent.built, engine⟩ free).append_right
      agent.retired).map (·.number)
    have counted := added.trans (custody.counted.cons agent.built)
    rw [List.range_succ]
    exact counted.trans (List.perm_append_singleton agent.built _).symm
  · intro entry member
    rcases Table.mem_put _ _ _ _ member with rfl | old
    · obtain ⟨attacks, _, rfl⟩ := (map_eq_ok _ _ _).mp built
      rfl
    · exact custody.named entry old

theorem store_custody (agent : Agent α) (id : String) (slot : Slot α) (engine : Engine α)
    (found : agent.slots.get? id = some slot) (same : engine.id = slot.engine.id)
    (custody : agent.Custody) : (agent.store id slot engine).Custody := by
  refine ⟨Table.put_ordered _ _ _ custody.ordered, ?_, ?_, custody.released⟩
  -- one slot takes the place of another of the same number
  · have replaced := ((agent.slots.values_replace_perm id slot { slot with engine } found
      custody.ordered).append_right agent.retired).map (·.number)
    exact (List.Perm.cons_inv replaced).trans custody.counted
  · intro entry member
    rcases Table.mem_put _ _ _ _ member with rfl | old
    · exact same.trans (custody.named (id, slot) (Table.mem_of_get? _ _ _ found))
    · exact custody.named entry old

theorem retire_custody [ReversibleAttack α] (agent : Agent α) (id : String) (slot : Slot α)
    (found : agent.slots.get? id = some slot) (custody : agent.Custody) :
    ({ agent with
        slots := agent.slots.erase id
        retired := { slot with engine := slot.engine.revert.engine } :: agent.retired } :
      Agent α).Custody := by
  refine ⟨Table.erase_ordered _ _ custody.ordered, ?_, ?_, ?_⟩
  · have moved := (List.perm_middle.trans
      ((agent.slots.values_erase_perm id slot found custody.ordered).append_right
        agent.retired)).map (·.number)
    rw [List.map_append, List.map_cons] at moved
    simpa only [known, List.map_append, List.map_cons] using moved.trans custody.counted
  · intro entry member
    exact custody.named entry (Table.mem_erase _ _ _ member)
  · intro given member
    rcases List.mem_cons.mp member with rfl | old
    · exact slot.engine.revert_released
    · exact custody.released given old

theorem edit_custody [ReversibleAttack α] (before after : Agent α) (edit : Edit before after)
    (custody : before.Custody) : after.Custody := by
  cases edit with
  | install failure engine free built =>
      exact before.install_custody failure engine free built custody
  | retire id slot found => exact before.retire_custody id slot found custody
  | enable now failure slot found =>
      have tried := before.store_custody failure.id slot _ found
        (slot.engine.fail_id now before.stopped) custody
      unfold enable
      split
      · exact custody
      -- what is noted of generations and of the shutdown is no concern of the engines
      · dsimp only
        split <;> exact ⟨tried.ordered, tried.counted, tried.named, tried.released⟩
  | disable id slot found =>
      exact before.store_custody id slot _ found (Engine.subside_id _) custody
  | forget id gone => exact ⟨custody.ordered, custody.counted, custody.named, custody.released⟩

theorem advance_custody [LawfulAttack α] (agent : Agent α) (now : Nat) (custody : agent.Custody) :
    (agent.advance now).Custody := by
  constructor
  · exact List.pairwise_map.mpr custody.ordered
  · have same : (agent.advance now).known.map (·.number) = agent.known.map (·.number) := by
      simp [known, advance, Table.values, Function.comp_def]
    rw [same]
    exact custody.counted
  · intro entry member
    obtain ⟨⟨id, slot⟩, known, rfl⟩ := List.mem_map.mp member
    exact (slot.engine.advance_id now).trans (custody.named (id, slot) known)
  · intro given member
    obtain ⟨slot, known, rfl⟩ := List.mem_map.mp member
    exact (custody.released slot known).advance now

theorem revertAll_custody [ReversibleAttack α] (agent : Agent α) (custody : agent.Custody) :
    agent.revertAll.Custody := by
  have start : agent.stopping.Custody :=
    ⟨custody.ordered, custody.counted, custody.named, custody.released⟩
  exact agent.revertAll_edits.1.keeps edit_custody start

/-- An engine with an applied attack can be found under the id of its failure. -/
theorem Custody.held {agent : Agent α} (custody : agent.Custody) (slot : Slot α)
    (known : slot ∈ agent.known) (busy : 0 < slot.engine.applied) :
    agent.slots.get? slot.engine.id = some slot := by
  rcases List.mem_append.mp known with held | given
  · obtain ⟨entry, member, rfl⟩ := List.mem_map.mp held
    rw [custody.named entry member]
    exact Table.get?_of_mem _ custody.ordered _ _ member
  · exact absurd (custody.released slot given).idle (Nat.ne_of_gt busy)

end Agent

namespace AgentRun

/-- Whatever an agent is handed out and whichever calls and reverts fail, each engine that it has
built is in one place, each applied attack belongs to the engine that stands under the id of its
failure, and engines that were given up have neither an applied attack nor a timer that could do
anything. The attacks may be any that a revert ends, as it does the built-in ones, whatever has
become of the tasks and threads that it waits for. -/
theorem run_leaves_no_orphan [ReversibleAttack α] [Link σ] (now : Nat) (node : String)
    (catalogue : Catalogue α) (commands : List (AgentCommand σ)) :
    let agent := ((start now (.ofNode node catalogue)).after commands).agent
    (agent.known.map (·.number)).Perm (List.range agent.built) ∧
    (∀ slot ∈ agent.known, 0 < slot.engine.applied →
      agent.slots.get? slot.engine.id = some slot) ∧
    ∀ slot ∈ agent.retired, slot.engine.applied = 0 ∧ ¬ slot.engine.hasLiveTimer := by
  intro agent
  have custody : agent.Custody :=
    (start now (.ofNode node catalogue)).after_keeps Agent.Custody Agent.edit_custody
      Agent.advance_custody Agent.revertAll_custody commands (Agent.ofNode_custody node catalogue)
  refine ⟨custody.counted, custody.held, fun slot given => ?_⟩
  have released := custody.released slot given
  exact ⟨released.idle, released.quiet⟩

/-- A machine on which every task breaks that has something to hold, and one of the threads that
were started at first. -/
local instance frailHost : Host where
  cores := 1
  coresPositive := Nat.one_pos
  blockFault _ _ := none
  threadFault _ _ := none
  taskEnd _ held := if 0 < held then ⟨some "task panicked", 0⟩ else .clean
  threadsEnd since _ := if since = 0 then ⟨none, 1⟩ else .clean

def frailAssignment (id attacks : String) : Wire.Assignment :=
  ⟨id, "node", "timeout: 1m\nattacks:\n" ++ attacks, 0, 1, 1⟩

def leakText : String := "- memory_leak:\n    size: 8\n"

def spikeText : String := "- cpu_spike:\n    cores: 2\n"

/-- An agent with two failures that have been enabled for a while. -/
def frailBefore : List (AgentCommand ScriptedMaster) :=
  [.sync 0 ⟨[frailAssignment "changed" (leakText ++ spikeText), frailAssignment "gone" leakText],
    [], []⟩, .advance 2000000000]

/-- One of them comes to have another definition, and the other one is not listed any more. -/
def frailAfter : List (AgentCommand ScriptedMaster) :=
  [.sync 0 ⟨[frailAssignment "changed" spikeText], [], []⟩]

theorem run_leaves_no_orphan_frail :
    let before := (start 0 (.ofNode "node" BuiltIn.catalogue)).after frailBefore
    let agent := ((start 0 (.ofNode "node" BuiltIn.catalogue)).after
      (frailBefore ++ frailAfter)).agent
    before.agent.slots.map (fun entry => (entry.1, entry.2.engine.revert.result)) =
      [("changed", .error (.revertFailed
          ("cpu_spike: attack runtime error: 1 cpu workers panicked; " ++
            "memory_leak: attack runtime error: leak task failed: task panicked"))),
        ("gone", .error (.revertFailed
          "memory_leak: attack runtime error: leak task failed: task panicked"))] ∧
    agent.retired.map (·.engine.id) = ["gone", "changed"] ∧
    (∀ slot ∈ agent.retired, slot.engine.applied = 0 ∧ ¬ slot.engine.hasLiveTimer) ∧
    agent.slots.map (fun entry => (entry.1, entry.2.number, entry.2.engine.applied)) =
      [("changed", 2, 1)] := by
  obtain ⟨_, _, released⟩ :=
    run_leaves_no_orphan 0 "node" BuiltIn.catalogue (frailBefore ++ frailAfter)
  exact ⟨by decide +kernel, by decide +kernel, released, by decide +kernel⟩

end AgentRun

end FaultInjection
