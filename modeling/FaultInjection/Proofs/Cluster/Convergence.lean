import FaultInjection.Proofs.Cluster.Run

/-!
A pass without errors brings a node to what its operators have asked for, whatever has happened
before. It makes one exception: a failure whose last enabled period ran to its timeout stays down
until it is asked for anew.
-/

namespace FaultInjection

variable {α : Type} [Attack α]

namespace Agent

/-- A failure that is to be enabled may stay down: the engine's last enabled period ran out of
time, and the failure was not asked for since. -/
def Excuses (agent : Agent α) (failure : Failure) (engine : Engine α) : Prop :=
  failure.expected = .enabled ∧ engine.expired = true ∧
    ∃ generation, agent.armed.get? failure.id = some generation ∧ failure.generation ≤ generation

structure Serves (agent : Agent α) (failure : Failure) (engine : Engine α) : Prop where
  specification : engine.specification.same failure.specification = true
  current : failure.current = engine.state
  converged : ¬ agent.Excuses failure engine → failure.current = failure.expected
  enabled : failure.expected = .enabled → ¬ agent.Excuses failure engine →
    ∀ attack ∈ engine.attacks, Attack.isApplied attack = true
  disabled : failure.expected = .disabled →
    ∀ attack ∈ engine.attacks, Attack.isApplied attack = false

theorem Serves.ofArmed {agent other : Agent α} {failure : Failure} {engine : Engine α}
    (serves : agent.Serves failure engine)
    (same : other.armed.get? failure.id = agent.armed.get? failure.id) :
    other.Serves failure engine := by
  have excuses : other.Excuses failure engine ↔ agent.Excuses failure engine := by
    rw [Excuses, Excuses, same]
  exact ⟨serves.specification, serves.current,
    fun inexcusable => serves.converged fun excused => inexcusable (excuses.mpr excused),
    fun expected inexcusable =>
      serves.enabled expected fun excused => inexcusable (excuses.mpr excused),
    serves.disabled⟩

/-- A turn that succeeds leaves an engine that does what is asked for. The specification may have
changed on its way to the node, into an equal one. -/
theorem drive_serves [LawfulAttack α] (agent : Agent α) (now : Nat) (failure : Failure)
    (read : Specification) (valid : agent.Valid) (known : failure.expected ≠ .unknown)
    (same : read.same failure.specification = true)
    (succeeded : (agent.drive now { failure with specification := read }).result = .ok ()) :
    let turn := agent.drive now { failure with specification := read }
    ∃ slot, turn.agent.slots.get? failure.id = some slot ∧
      turn.agent.Serves { failure with current := reached turn failure.id } slot.engine := by
  intro turn
  have reaches : ∀ slot, turn.agent.slots.get? failure.id = some slot →
      reached turn failure.id = slot.engine.state := by
    intro slot found
    have fit := agent.drive_valid now { failure with specification := read } valid failure.id slot
      found
    simp only [reached, engine?, found, Option.map_some]
    exact fit.published
  have asked : failure.expected = .enabled ∨ failure.expected = .disabled := by
    cases expected : failure.expected with
    | unknown => exact absurd expected known
    | enabled => exact Or.inl rfl
    | disabled => exact Or.inr rfl
  rcases asked with expected | expected
  · obtain ⟨slot, found, alike, outcome⟩ :=
      agent.drive_enabled now { failure with specification := read } expected succeeded
    have fit := agent.drive_valid now { failure with specification := read } valid failure.id slot
      found
    have excused : ¬ turn.agent.Excuses { failure with current := reached turn failure.id }
        slot.engine → slot.engine.state = .enabled := by
      intro inexcusable
      -- an engine that was left down is excused
      rcases outcome with ⟨⟨old, before, _, expired, generation, armed, late⟩, kept, unchanged⟩ |
        ⟨_, enabled, _⟩
      · cases kept.symm.trans before
        exact absurd ⟨expected, expired, generation, unchanged.trans armed, late⟩ inexcusable
      · exact enabled
    refine ⟨slot, found, ?_, reaches slot found, fun inexcusable => ?_, fun _ inexcusable => ?_, ?_⟩
    · exact Specification.same_trans _ _ _ alike same
    · exact (reaches slot found).trans ((excused inexcusable).trans expected.symm)
    · exact fit.enabled (excused inexcusable)
    · intro disabled
      cases expected.symm.trans disabled
  · obtain ⟨slot, found, alike, down, idle⟩ :=
      agent.drive_disabled now { failure with specification := read } expected succeeded
    refine ⟨slot, found, ?_, reaches slot found, fun _ => ?_, fun enabled => ?_, fun _ => idle⟩
    · exact Specification.same_trans _ _ _ alike same
    · exact (reaches slot found).trans (down.trans expected.symm)
    · cases expected.symm.trans enabled

/-- The turn of one failure in a pass without errors. -/
theorem follow_serves [LawfulAttack α] (agent : Agent α) (clock : Clock) (master : Master)
    (assignments : List Wire.Assignment) (valid : agent.Valid) (sound : master.ledger.Sound)
    (pulled : master.pull agent.node = .ok assignments)
    (clean : (agent.follow clock master assignments).report.errors = 0) (failure : Failure)
    (stored : master.ledger.get? agent.node failure.id = some failure)
    (readsBack : failure.specification.ReadsBack) :
    let after := agent.follow clock master assignments
    ∃ state slot, after.far.ledger.get? agent.node failure.id =
        some { failure with current := state } ∧
      after.agent.slots.get? failure.id = some slot ∧
      after.agent.Serves { failure with current := state } slot.engine := by
  obtain ⟨⟨node, known⟩, _⟩ := master.pull_eq_ok agent.node assignments pulled
  obtain ⟨distinct, ours, handed⟩ := master.pull_lists sound agent.node assignments pulled
  obtain ⟨assignment, member, sameId, written⟩ := handed failure.id failure stored
  have own := (ours assignment member).1
  have fits := sound.fits agent.node failure.id failure stored
  obtain ⟨earlier, later, rfl⟩ := List.append_of_mem member
  obtain ⟨_, _, slots, armed, succeeded⟩ :=
    agent.follow_turn clock master earlier later assignment distinct own
  have noted := agent.follow_report clock master earlier later assignment node failure distinct own
    (own ▸ known) (by rw [own, sameId]; exact stored)
  have result := succeeded clean
  obtain ⟨read, parsed, same⟩ :=
    failure.ofAssignment_toAssignment assignment fits.specification readsBack written
  have start : (agent.passed clock master earlier).agent.Valid :=
    visits_valid clock ⟨master, agent, ⟨0, 0, 0⟩, []⟩ earlier valid
  simp only [reconcile, parsed] at slots armed result noted
  obtain ⟨slot, found, serves⟩ :=
    drive_serves _ clock.now failure read start fits.expected same result
  rw [sameId] at slots armed noted
  rw [own] at noted
  exact ⟨_, slot, noted, slots.trans found, serves.ofArmed armed⟩

/-- The engines that are left after a pass are those of the failures that were handed out. -/
theorem follow_kept_ids (agent : Agent α) (clock : Clock) (master : Master)
    (assignments : List Wire.Assignment) (sound : master.ledger.Sound)
    (pulled : master.pull agent.node = .ok assignments) (id : String)
    (absent : master.ledger.get? agent.node id = none) :
    (agent.follow clock master assignments).agent.slots.get? id = none := by
  apply agent.follow_unlisted clock master assignments id
  intro listed
  obtain ⟨assignment, own, rfl⟩ := List.mem_map.mp listed
  obtain ⟨_, failure, stored, _⟩ :=
    (master.pull_lists sound agent.node assignments pulled).2.1 assignment
      (List.mem_filter.mp own).1
  rw [stored] at absent
  cases absent

/-- What a pass without errors does for the node. -/
theorem sync_serves [LawfulAttack α] (agent : Agent α) (clock : Clock) (master : Master)
    (report : SyncReport) (valid : agent.Valid) (sound : master.ledger.Sound)
    (synced : (agent.sync clock master).result = .ok report) (clean : report.errors = 0)
    (readsBack : ∀ id failure, master.ledger.get? agent.node id = some failure →
      failure.specification.ReadsBack) :
    let after := agent.sync clock master
    (∀ id, (after.agent.engine? id).isSome = (after.far.ledger.get? agent.node id).isSome) ∧
      ∀ id failure, after.far.ledger.get? agent.node id = some failure →
        ∃ engine, after.agent.engine? id = some engine ∧ after.agent.Serves failure engine := by
  intro after
  have unasked : Master.Unasked master (agent.sync clock master).far :=
    sync_unasked id Master.answer_unasked agent clock master
  have wanted := unasked.wanted agent.node
  rcases agent.sync_cases clock master with ⟨error, _, failed⟩ |
    ⟨assignments, pulled, reported, far, driven⟩
  · rw [failed] at synced
    cases synced
  · cases reported.symm.trans synced
    -- of each failure that was stored, only the current state may have changed
    have served : ∀ id failure, master.ledger.get? agent.node id = some failure →
        ∃ state slot, after.far.ledger.get? agent.node id =
            some { failure with current := state } ∧
          after.agent.slots.get? id = some slot ∧
          after.agent.Serves { failure with current := state } slot.engine := by
      intro id failure stored
      have sameId := (sound.fits agent.node id failure stored).id
      rw [← sameId] at stored ⊢
      have turn := agent.follow_serves clock master assignments valid sound pulled clean failure
        stored (readsBack _ failure stored)
      dsimp only at turn
      rwa [← far, ← driven] at turn
    have emptied : ∀ id, master.ledger.get? agent.node id = none →
        after.agent.slots.get? id = none ∧ after.far.ledger.get? agent.node id = none := by
      intro id absent
      have gone := agent.follow_kept_ids clock master assignments sound pulled id absent
      have unwanted := wanted id
      rw [Ledger.wanted?, Ledger.wanted?, absent, Option.map_none, Option.map_eq_none_iff]
        at unwanted
      exact ⟨driven ▸ gone, unwanted⟩
    constructor
    · intro id
      cases stored : master.ledger.get? agent.node id with
      | none =>
          obtain ⟨gone, unwanted⟩ := emptied id stored
          simp [engine?, gone, unwanted]
      | some failure =>
          obtain ⟨state, slot, noted, found, _⟩ := served id failure stored
          simp [engine?, noted, found]
    · intro id failure found
      cases stored : master.ledger.get? agent.node id with
      | none =>
          rw [(emptied id stored).2] at found
          cases found
      | some before =>
          obtain ⟨state, slot, noted, kept, serves⟩ := served id before stored
          cases noted.symm.trans found
          exact ⟨slot.engine, by simp [engine?, kept], serves⟩

end Agent

namespace Cluster

theorem sync_eq_ok (cluster : Cluster α) (node : String) (report : SyncReport)
    (synced : (cluster.sync node).1 = some (.ok report)) :
    ∃ agent, cluster.agent? node = some agent ∧
      (agent.sync cluster.clock cluster.master).result = .ok report ∧
      (cluster.sync node).2.agent? node = some (agent.sync cluster.clock cluster.master).agent ∧
      (cluster.sync node).2.master = (agent.sync cluster.clock cluster.master).far := by
  have agents := cluster.sync_agent? node node
  rw [if_pos rfl] at agents
  unfold sync change at synced ⊢
  cases found : cluster.members.get? node with
  | none =>
      rw [found] at synced
      cases synced
  | some member =>
      rw [found] at synced
      have known : cluster.agent? node = some member.agent := by simp [agent?, found]
      refine ⟨member.agent, known, Option.some.inj synced, ?_, ?_⟩
      · rw [known] at agents
        simpa [sync, change, found] using agents
      · simp

/-- After a pass without errors a node has exactly the engines of its failures, and each does what
is asked for. -/
theorem sync_converges [LawfulAttack α] (policy : LivenessPolicy) (catalogue : Catalogue α)
    (commands : List Command) (node : String) (report : SyncReport)
    (synced : (((empty policy catalogue).after commands).sync node).1 = some (.ok report))
    (clean : report.errors = 0)
    (readsBack : ∀ id failure,
      ((empty policy catalogue).after commands).master.ledger.get? node id = some failure →
        failure.specification.ReadsBack) :
    let after := (((empty policy catalogue).after commands).sync node).2
    ∃ agent, after.agent? node = some agent ∧
      (∀ id, (agent.engine? id).isSome = (after.master.ledger.get? node id).isSome) ∧
      ∀ id failure, after.master.ledger.get? node id = some failure →
        ∃ engine, agent.engine? id = some engine ∧ agent.Serves failure engine := by
  intro after
  have sound := (empty policy catalogue).after_sound commands (empty_sound policy catalogue)
  obtain ⟨agent, known, result, agents, master⟩ := sync_eq_ok _ node report synced
  obtain ⟨rfl, valid⟩ := sound.agents node agent known
  have served := agent.sync_serves _ _ report valid sound.ledger result clean readsBack
  dsimp only at served
  rw [← master] at served
  exact ⟨_, agents, served⟩

def steadySpecification : OrderedSpecification :=
  ⟨⟨.ofSeconds 1, [.ofKind "scripted_ok" none]⟩, by decide⟩

def steadyText : String := "timeout: 1s\nattacks:\n- scripted_ok: null\n"

/-- Whether a reading is the steady specification; values as such cannot be compared. -/
def isSteady (reading : Except DefinitionFault RawSpecification) : Bool :=
  match reading with
  | .ok ⟨some timeout, some (.sequence [.mapping [(.string kind, .null)]])⟩ =>
      decide (timeout = "1s" ∧ kind = "scripted_ok")
  | _ => false

theorem isSteady_eq (reading : Except DefinitionFault RawSpecification)
    (steady : isSteady reading = true) :
    reading = .ok steadySpecification.1.raw := by
  have timed : steadySpecification.1.timeout.text = "1s" := by decide +kernel
  unfold isSteady at steady
  split at steady
  next timeout kind =>
    obtain ⟨rfl, rfl⟩ := of_decide_eq_true steady
    rw [Specification.raw, timed]
    rfl
  next => cases steady

theorem steadySpecification_readsBack : steadySpecification.1.ReadsBack := by
  intro text rendered
  have written : steadySpecification.1.render = .ok steadyText := by decide +kernel
  cases written.symm.trans rendered
  exact isSteady_eq _ (by decide +kernel)

def steadyCommands : List Command :=
  [.request (.create "node" "steady" steadySpecification .enabled), .enter "node" [],
    .join "node"]

theorem steadyCommands_stored (id : String) (failure : Failure)
    (stored : ((empty .standard Scripted.catalogue).after steadyCommands).master.ledger.get?
      "node" id = some failure) : failure.specification = steadySpecification.1 := by
  let creation := (Request.create "node" "steady" steadySpecification .enabled).reply
    (Master.empty .standard)
  have accepted : creation.answer.isOk = true := by decide +kernel
  obtain ⟨answer, answered⟩ : ∃ answer, creation.answer = .ok answer := by
    cases answered : creation.answer with
    | error error =>
        rw [answered] at accepted
        cases accepted
    | ok answer => exact ⟨answer, rfl⟩
  have created := (Request.reply_ok _ _ answer answered).ledger "node" id
  let before := (empty .standard Scripted.catalogue).after (steadyCommands.take 2)
  have joined := (before.perform_unasked (.join "node")
    (fun _ impossible => nomatch impossible)).wanted "node" id
  let after := (empty .standard Scripted.catalogue).after steadyCommands
  change after.master.ledger.wanted? "node" id =
    creation.master.ledger.wanted? "node" id at joined
  rw [Ledger.wanted?, Ledger.wanted?, created, stored, Option.map_some] at joined
  split at joined
  · exact congrArg Failure.specification (Option.some.inj joined)
  · cases joined

/-- A failure that was created is enabled by the next pass of its node. -/
theorem sync_converges_steady :
    let after := (((empty .standard Scripted.catalogue).after steadyCommands).sync "node").2
    ∃ agent failure engine, after.agent? "node" = some agent ∧
      after.master.ledger.get? "node" "steady" = some failure ∧
      agent.engine? "steady" = some engine ∧ agent.Serves failure engine := by
  intro after
  obtain ⟨agent, found, _, serves⟩ := sync_converges .standard Scripted.catalogue steadyCommands
    "node" ⟨1, 0, 0⟩ (by decide +kernel) rfl fun id failure stored =>
      steadyCommands_stored id failure stored ▸ steadySpecification_readsBack
  have present : (after.master.ledger.get? "node" "steady").isSome = true := by decide +kernel
  obtain ⟨failure, stored⟩ := Option.isSome_iff_exists.mp present
  obtain ⟨engine, driven, served⟩ := serves "steady" failure stored
  exact ⟨agent, failure, engine, found, stored, driven, served⟩

end Cluster

end FaultInjection
