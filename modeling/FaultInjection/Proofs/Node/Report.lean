import FaultInjection.Proofs.Master.Call
import FaultInjection.Proofs.Node.Pass

/-!
A pass whose calls reach the master. The master hands out the failures of the node, and notes for
each of them the state that its turn has come to; nothing else of what it knows changes.
-/

namespace FaultInjection

theorem Failure.toAssignment_eq_ok (failure : Failure) (assignment : Wire.Assignment)
    (sent : failure.toAssignment = .ok assignment) :
    assignment.id = failure.id ∧ assignment.node = failure.node ∧
      assignment.expected = failure.expected.code ∧ assignment.generation = failure.generation := by
  obtain ⟨text, _, rfl⟩ := (map_eq_ok _ _ _).mp sent
  exact ⟨rfl, rfl, rfl, rfl⟩

theorem Master.assignmentsOf_eq_ok (failures : List Failure) (assignments : List Wire.Assignment)
    (sent : assignmentsOf failures = .ok assignments) :
    assignments.map (·.id) = failures.map (·.id) ∧
      (∀ failure ∈ failures, ∃ assignment ∈ assignments, failure.toAssignment = .ok assignment) ∧
      ∀ assignment ∈ assignments, ∃ failure ∈ failures, failure.toAssignment = .ok assignment := by
  induction failures generalizing assignments with
  | nil =>
      cases sent
      exact ⟨rfl, fun _ impossible => (nomatch impossible),
        fun _ impossible => (nomatch impossible)⟩
  | cons failure rest ih =>
      obtain ⟨first, sentFirst, sent⟩ := (bind_eq_ok _ _ _).mp sent
      obtain ⟨others, sentOthers, sent⟩ := (bind_eq_ok _ _ _).mp sent
      cases sent
      obtain ⟨ids, forward, back⟩ := ih others sentOthers
      refine ⟨?_, ?_, ?_⟩
      · rw [List.map_cons, List.map_cons, ids, (failure.toAssignment_eq_ok first sentFirst).1]
      · intro listed member
        rcases List.mem_cons.mp member with rfl | later
        · exact ⟨first, List.mem_cons_self, sentFirst⟩
        · obtain ⟨assignment, found, sent⟩ := forward listed later
          exact ⟨assignment, List.mem_cons_of_mem _ found, sent⟩
      · intro assignment member
        rcases List.mem_cons.mp member with rfl | later
        · exact ⟨failure, List.mem_cons_self, sentFirst⟩
        · obtain ⟨listed, found, sent⟩ := back assignment later
          exact ⟨listed, List.mem_cons_of_mem _ found, sent⟩

theorem Master.pull_eq_ok (master : Master) (node : String) (assignments : List Wire.Assignment)
    (pulled : master.pull node = .ok assignments) :
    (∃ known, master.roster.get? node = some known) ∧
      assignmentsOf (master.ledger.listNode node) = .ok assignments := by
  obtain ⟨known, found, sent⟩ := (bind_eq_ok _ _ _).mp pulled
  refine ⟨?_, sent⟩
  unfold Master.getNode at found
  split at found
  next known registered => exact ⟨known, registered⟩
  next => cases found

/-- The assignments of a node are those of its failures, each once. -/
theorem Master.pull_lists (master : Master) (sound : master.ledger.Sound) (node : String)
    (assignments : List Wire.Assignment) (pulled : master.pull node = .ok assignments) :
    (assignments.map (·.id)).Nodup ∧
      (∀ assignment ∈ assignments, assignment.node = node ∧ ∃ failure,
        master.ledger.get? node assignment.id = some failure ∧
        failure.toAssignment = .ok assignment) ∧
      ∀ id failure, master.ledger.get? node id = some failure →
        ∃ assignment ∈ assignments, assignment.id = id ∧
          failure.toAssignment = .ok assignment := by
  obtain ⟨_, sent⟩ := master.pull_eq_ok node assignments pulled
  obtain ⟨ids, forward, back⟩ := Master.assignmentsOf_eq_ok _ assignments sent
  obtain ⟨distinct, listed⟩ := sound.listNode node
  refine ⟨ids ▸ distinct, ?_, ?_⟩
  · intro assignment member
    obtain ⟨failure, found, written⟩ := back assignment member
    obtain ⟨sameId, sameNode, _⟩ := failure.toAssignment_eq_ok assignment written
    have stored := (listed failure).mp found
    rw [← sameId] at stored
    exact ⟨sameNode.trans (sound.fits node _ failure stored).node, failure, stored, written⟩
  · intro id failure stored
    have sameId := (sound.fits node id failure stored).id
    rw [← sameId] at stored ⊢
    obtain ⟨assignment, member, written⟩ := forward failure ((listed failure).mpr stored)
    exact ⟨assignment, member, (failure.toAssignment_eq_ok assignment written).1, written⟩

variable {α : Type} [Attack α]

namespace Agent

theorem visit_far (clock : Clock) (progress : SyncProgress Master α) (assignment : Wire.Assignment)
    (own : assignment.node = progress.agent.node) :
    (visit clock progress assignment).far =
      (progress.far.report assignment.node { assignment with
        current := (progress.agent.reconcile clock.now assignment).2.code }).master := by
  have same := (progress.agent.reconcile_elsewhere clock.now assignment).node
  simp only [visit, own, ne_eq, not_true_eq_false, ↓reduceIte, same]
  rfl

/-- The reports of a pass so far concern the failures that it has taken up. -/
theorem visits_far (clock : Clock) (progress : SyncProgress Master α)
    (assignments : List Wire.Assignment) :
    (visits clock progress assignments).far.roster = progress.far.roster ∧
      ∀ node id, id ∉ assignments.map (·.id) →
        (visits clock progress assignments).far.ledger.get? node id =
          progress.far.ledger.get? node id := by
  induction assignments generalizing progress with
  | nil => exact ⟨rfl, fun _ _ _ => rfl⟩
  | cons assignment rest ih =>
      obtain ⟨roster, others⟩ := ih (visit clock progress assignment)
      have first : (visit clock progress assignment).far.roster = progress.far.roster ∧
          ∀ node id, assignment.id ≠ id →
            (visit clock progress assignment).far.ledger.get? node id =
              progress.far.ledger.get? node id := by
        by_cases own : assignment.node = progress.agent.node
        · rw [visit_far clock progress assignment own]
          exact ⟨Master.report_roster _ _ _, fun node id different =>
            Master.report_other _ _ { assignment with current := _ } node id different⟩
        · simp only [visit, ne_eq, own, not_false_eq_true, ↓reduceIte]
          exact ⟨trivial, fun _ _ _ => trivial⟩
      refine ⟨roster.trans first.1, fun node id absent => ?_⟩
      rw [List.map_cons, List.mem_cons, not_or] at absent
      exact (others node id absent.2).trans (first.2 node id fun same => absent.1 same.symm)

theorem passed_far (agent : Agent α) (clock : Clock) (master : Master)
    (assignments : List Wire.Assignment) :
    (agent.passed clock master assignments).far.roster = master.roster ∧
      ∀ node id, id ∉ assignments.map (·.id) →
        (agent.passed clock master assignments).far.ledger.get? node id =
          master.ledger.get? node id :=
  visits_far clock ⟨master, agent, ⟨0, 0, 0⟩, []⟩ assignments

/-- The master notes the state that the turn of a failure has come to. -/
theorem follow_report (agent : Agent α) (clock : Clock) (master : Master)
    (earlier later : List Wire.Assignment) (assignment : Wire.Assignment) (node : Node)
    (failure : Failure)
    (distinct : ((earlier ++ assignment :: later).map (·.id)).Nodup)
    (own : assignment.node = agent.node)
    (known : master.roster.get? assignment.node = some node)
    (found : master.ledger.get? assignment.node assignment.id = some failure) :
    (agent.follow clock master (earlier ++ assignment :: later)).far.ledger.get?
        assignment.node assignment.id =
      some { failure with current :=
        ((agent.passed clock master earlier).agent.reconcile clock.now assignment).2 } := by
  obtain ⟨before, behind⟩ := apart_of_distinct earlier later assignment distinct
  obtain ⟨sameNode, _⟩ := agent.passed_elsewhere clock master earlier
  obtain ⟨roster, ledger⟩ := agent.passed_far clock master earlier
  obtain ⟨_, ledgerBehind⟩ :=
    visits_far clock (visit clock (agent.passed clock master earlier) assignment) later
  -- earlier reports were about other failures of the node
  have stillKnown : (agent.passed clock master earlier).far.roster.get? assignment.node =
      some node := by
    rw [← known]
    exact congrArg (·.get? assignment.node) roster
  have stillFound := (ledger assignment.node assignment.id before).trans found
  obtain ⟨_, noted⟩ := Master.report_taken _ assignment node
    ((agent.passed clock master earlier).agent.reconcile clock.now assignment).2 failure
    stillKnown stillFound
  rw [(agent.follow_kept clock master _).1, agent.passed_append, ledgerBehind _ _ behind,
    visit_far clock _ assignment (own.trans sameNode.symm), noted.ledger]
  simp

/-- A pass that reaches the master is a pass over the failures that the master hands out. -/
theorem sync_cases (agent : Agent α) (clock : Clock) (master : Master) :
    (∃ error, master.pull agent.node = .error error ∧
      agent.sync clock master = ⟨.error error, master, agent, []⟩) ∨
    (∃ assignments, master.pull agent.node = .ok assignments ∧
      (agent.sync clock master).result = .ok (agent.follow clock master assignments).report ∧
      (agent.sync clock master).far = (agent.follow clock master assignments).far ∧
      (agent.sync clock master).agent = (agent.follow clock master assignments).agent) := by
  cases pulled : master.pull agent.node with
  | error error =>
      refine Or.inl ⟨error, rfl, ?_⟩
      simp [sync, Link.ask, Master.answer, pulled, Except.map]
  | ok assignments =>
      refine Or.inr ⟨assignments, rfl, ?_⟩
      simp [sync, Link.ask, Master.answer, pulled, Except.map, CallAnswer.toList]

/-! Passes over any way to the master -/

section

variable {σ : Type} [Link σ]

theorem sync_agent (agent : Agent α) (clock : Clock) (far : σ) :
    (agent.sync clock far).agent = agent ∨
      ∃ answer, (Link.ask far clock.instant (.pull agent.node)).1 = .ok answer ∧
        (agent.sync clock far).agent = (agent.follow clock
          (Link.ask far clock.instant (.pull agent.node)).2 answer.toList).agent := by
  unfold sync
  rcases Link.ask far clock.instant (.pull agent.node) with ⟨answer, after⟩
  cases answer with
  | error error => exact Or.inl rfl
  | ok answer => exact Or.inr ⟨answer, rfl, rfl⟩

theorem sync_valid [LawfulAttack α] (agent : Agent α) (clock : Clock) (far : σ)
    (valid : agent.Valid) :
    (agent.sync clock far).agent.node = agent.node ∧ (agent.sync clock far).agent.Valid := by
  rcases agent.sync_agent clock far with same | ⟨answer, _, same⟩
  · rw [same]
    exact ⟨rfl, valid⟩
  · rw [same]
    exact ⟨(agent.follow_kept clock _ answer.toList).2.1, agent.follow_valid clock _ _ valid⟩

/-- A generation that a pass notes is the one that the master has for the failure. -/
theorem sync_armed (view : σ → Master)
    (heard : ∀ far now call answer, (Link.ask far now call).1 = .ok answer →
      ((view far).answer now call).answer = .ok answer)
    (agent : Agent α) (clock : Clock) (far : σ) (sound : (view far).ledger.Sound) (id : String)
    (generation : UInt64)
    (noted : (agent.sync clock far).agent.armed.get? id = some generation) :
    agent.armed.get? id = some generation ∨
      ∃ failure, (view far).ledger.get? agent.node id = some failure ∧
        failure.generation = generation := by
  rcases agent.sync_agent clock far with same | ⟨answer, answered, same⟩
  · rw [same] at noted
    exact Or.inl noted
  · rw [same] at noted
    obtain ⟨assignments, pulled, rfl⟩ :=
      (map_eq_ok _ _ _).mp (heard far clock.instant (.pull agent.node) answer answered)
    rcases agent.follow_armed clock _ _ id generation noted with old | ⟨assignment, member, new⟩
    · exact Or.inl old
    · obtain ⟨_, failure, stored, written⟩ :=
        (Master.pull_lists _ sound _ assignments pulled).2.1 assignment member
      have sameGeneration := (failure.toAssignment_eq_ok assignment written).2.2.2
      rw [new.1] at stored
      exact Or.inr ⟨failure, stored, sameGeneration.symm.trans new.2⟩

theorem visits_unasked (view : σ → Master)
    (kept : ∀ far now call, Master.Unasked (view far) (view (Link.ask far now call).2))
    (clock : Clock) (progress : SyncProgress σ α) (assignments : List Wire.Assignment) :
    Master.Unasked (view progress.far) (view (visits clock progress assignments).far) := by
  induction assignments generalizing progress with
  | nil => exact Master.Unasked.refl _
  | cons assignment rest ih =>
      have first : Master.Unasked (view progress.far)
          (view (visit clock progress assignment).far) := by
        unfold visit
        split
        · exact Master.Unasked.refl _
        · exact kept _ _ _
      exact first.trans (ih (visit clock progress assignment))

/-- No pass changes what operators have written, if no single call does. -/
theorem sync_unasked (view : σ → Master)
    (kept : ∀ far now call, Master.Unasked (view far) (view (Link.ask far now call).2))
    (agent : Agent α) (clock : Clock) (far : σ) :
    Master.Unasked (view far) (view (agent.sync clock far).far) := by
  have pulled := kept far clock.instant (.pull agent.node)
  unfold sync
  split
  next answered => rw [answered] at pulled; exact pulled
  next answer after answered =>
    rw [answered] at pulled
    refine pulled.trans ?_
    dsimp only
    rw [(agent.follow_kept clock after _).1]
    exact visits_unasked view kept clock ⟨after, agent, ⟨0, 0, 0⟩, []⟩ _

end

end Agent

end FaultInjection
