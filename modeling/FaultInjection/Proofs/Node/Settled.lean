import FaultInjection.Proofs.Engine.Outcome
import FaultInjection.Proofs.Node.Run

/-!
Failures that are settled. The engine of such a failure is where the failure wants it, or stays
down. A turn that succeeds settles its failure, and a turn of a failure that is settled changes
nothing.
-/

namespace FaultInjection

variable {α σ : Type}

namespace Agent

variable [Attack α]

/-- Whether an engine is where a failure wants it, as far as the agent will take it. -/
def Satisfies (agent : Agent α) (failure : Failure) (engine : Engine α) : Prop :=
  match failure.expected with
  | .enabled => agent.staysDown failure engine = true ∨
      engine.state = .enabled ∧ agent.armed.get? failure.id = some failure.generation
  | .disabled => engine.Subsided
  | .unknown => True

structure Settled (agent : Agent α) (failure : Failure) : Prop where
  engine : ∃ slot, agent.slots.get? failure.id = some slot ∧
    slot.engine.specification.same failure.specification = true ∧
    agent.Satisfies failure slot.engine

/-- A turn that succeeds settles its failure. -/
theorem drive_settled [LawfulAttack α] (agent : Agent α) (now : Nat) (failure : Failure)
    (succeeded : (agent.drive now failure).result = .ok ()) :
    (agent.drive now failure).agent.Settled failure := by
  constructor
  unfold Satisfies
  cases expected : failure.expected with
  | enabled =>
      obtain ⟨slot, stored, same, reached⟩ := agent.drive_enabled now failure expected succeeded
      refine ⟨slot, stored, same, ?_⟩
      rcases reached with ⟨remembered, kept, armed⟩ | ⟨_, enabled, armed⟩
      · obtain ⟨old, found, _, expired, noted⟩ := remembered
        cases kept.symm.trans found
        exact Or.inl ((staysDown_iff _ _ _).mpr ⟨expired, armed ▸ noted⟩)
      · exact Or.inr ⟨enabled, armed⟩
  | disabled =>
      obtain ⟨slot, engine, stored, same, reverted, clean⟩ :=
        agent.drive_reverted now failure expected succeeded
      exact ⟨slot, stored, same, by simp only [reverted]; exact engine.revert_subsided clean⟩
  | unknown =>
      have prepared := agent.prepare_of_drive now failure succeeded
      obtain ⟨slot, found, same, _⟩ := agent.prepare_ready failure prepared
      refine ⟨slot, ?_, same, trivial⟩
      simp only [drive, prepared, found, expected]

structure InOrder (agent : Agent α) : Prop where
  slots : agent.slots.Ordered
  armed : agent.armed.Ordered

theorem enable_settled (agent : Agent α) (now : Nat) (failure : Failure) (slot : Slot α)
    (inOrder : agent.InOrder) (found : agent.slots.get? failure.id = some slot)
    (satisfied : agent.staysDown failure slot.engine = true ∨
      slot.engine.state = .enabled ∧
        agent.armed.get? failure.id = some failure.generation) :
    agent.enable now failure slot = ⟨.ok (), agent, []⟩ := by
  unfold enable
  split
  · rfl
  next awake =>
    obtain ⟨enabled, noted⟩ := satisfied.resolve_left awake
    simp only [slot.engine.fail_enabled_again now agent.stopped enabled, store,
      Table.put_same _ _ _ inOrder.slots found, Table.put_same _ _ _ inOrder.armed noted]
    rfl

theorem disable_settled (agent : Agent α) (id : String) (slot : Slot α) (inOrder : agent.InOrder)
    (found : agent.slots.get? id = some slot) (subsided : slot.engine.Subsided) :
    agent.disable id slot = ⟨.ok (), agent, []⟩ := by
  simp only [disable, subsided.revert, store, Table.put_same _ _ _ inOrder.slots found]
  rfl

/-- A turn of a failure that is settled changes nothing. -/
theorem Settled.drive {agent : Agent α} {failure : Failure} (settled : agent.Settled failure)
    (inOrder : agent.InOrder) (now : Nat) : agent.drive now failure = ⟨.ok (), agent, []⟩ := by
  obtain ⟨slot, found, same, satisfied⟩ := settled.engine
  have prepared : agent.prepare failure = ⟨.ok (), agent, []⟩ := by
    simp [prepare, engine?, found, same]
  unfold Satisfies at satisfied
  simp only [Agent.drive, prepared, found]
  cases expected : failure.expected with
  | enabled =>
      rw [expected] at satisfied
      simp only [agent.enable_settled now failure slot inOrder found satisfied]
      rfl
  | disabled =>
      rw [expected] at satisfied
      simp only [agent.disable_settled failure.id slot inOrder found satisfied]
      rfl
  | unknown => rfl

omit [Attack α] in
theorem staysDown_congr (before after : Agent α) (failure other : Failure) (engine : Engine α)
    (id : other.id = failure.id) (generation : other.generation = failure.generation)
    (armed : after.armed.get? failure.id = before.armed.get? failure.id) :
    after.staysDown other engine = before.staysDown failure engine := by
  rw [staysDown, staysDown, id, generation, armed]

/-- Whether a failure is settled depends on what belongs to it, and on what is asked. -/
theorem Settled.congr {before after : Agent α} {failure other : Failure}
    (settled : before.Settled failure)
    (slots : after.slots.get? failure.id = before.slots.get? failure.id)
    (armed : after.armed.get? failure.id = before.armed.get? failure.id)
    (id : other.id = failure.id) (generation : other.generation = failure.generation)
    (expected : other.expected = failure.expected)
    (specification : failure.specification.same other.specification = true) :
    after.Settled other := by
  obtain ⟨slot, found, same, satisfied⟩ := settled.engine
  refine ⟨slot, by rw [id, slots, found], Specification.same_trans _ _ _ same specification, ?_⟩
  unfold Satisfies at satisfied ⊢
  rw [expected, id, generation, armed,
    staysDown_congr before after failure other _ id generation armed]
  exact satisfied

/-! Tables stay in order -/

theorem edit_inOrder (before after : Agent α) (edit : Edit before after)
    (inOrder : before.InOrder) : after.InOrder := by
  obtain ⟨slots, armed⟩ := inOrder
  cases edit with
  | install failure engine free built => exact ⟨Table.put_ordered _ _ _ slots, armed⟩
  | retire id slot found => exact ⟨Table.erase_ordered _ _ slots, armed⟩
  | enable now failure slot found =>
      unfold enable
      split
      · exact ⟨slots, armed⟩
      · dsimp only
        split
        · exact ⟨Table.put_ordered _ _ _ slots, Table.put_ordered _ _ _ armed⟩
        · exact ⟨Table.put_ordered _ _ _ slots, armed⟩
  | disable id slot found => exact ⟨Table.put_ordered _ _ _ slots, armed⟩
  | forget id gone => exact ⟨slots, Table.erase_ordered _ _ armed⟩

theorem advance_inOrder (agent : Agent α) (now : Nat) (inOrder : agent.InOrder) :
    (agent.advance now).InOrder :=
  ⟨List.pairwise_map.mpr inOrder.slots, inOrder.armed⟩

theorem revertAll_inOrder (agent : Agent α) (_ : agent.InOrder) : agent.revertAll.InOrder := by
  constructor
  · rw [agent.revertAll_edits.2]
    exact List.Pairwise.nil
  · rw [agent.revertAll_kept.2.1]
    exact List.Pairwise.nil

end Agent

end FaultInjection
