import FaultInjection.Proofs.Engine.Token
import FaultInjection.Proofs.Node.Turn

/-!
Turns of one failure on two agents. What a turn does depends on what belongs to its failure and on
what all failures share, and it leaves both that and the order of the other failures alone.
-/

namespace FaultInjection

variable {α : Type}

namespace Agent

structure Alike (id : String) (first second : Agent α) : Prop where
  node : first.node = second.node
  catalogue : first.catalogue = second.catalogue
  stopped : first.stopped = second.stopped
  engine : first.engine? id = second.engine? id
  armed : first.armed.get? id = second.armed.get? id

theorem Alike.refl (id : String) (agent : Agent α) : Alike id agent agent :=
  ⟨rfl, rfl, rfl, rfl, rfl⟩

theorem Alike.symm {id : String} {first second : Agent α} (alike : Alike id first second) :
    Alike id second first :=
  ⟨alike.node.symm, alike.catalogue.symm, alike.stopped.symm, alike.engine.symm, alike.armed.symm⟩

theorem Alike.trans {id : String} {first second third : Agent α} (start : Alike id first second)
    (finish : Alike id second third) : Alike id first third :=
  ⟨start.node.trans finish.node, start.catalogue.trans finish.catalogue,
    start.stopped.trans finish.stopped, start.engine.trans finish.engine,
    start.armed.trans finish.armed⟩

/-- The slots of a failure may have different numbers. -/
theorem Alike.slots {id : String} {first second : Agent α} (alike : Alike id first second) :
    (first.slots.get? id = none ∧ second.slots.get? id = none) ∨
    (∃ slot other, first.slots.get? id = some slot ∧ second.slots.get? id = some other ∧
      slot.engine = other.engine) := by
  have engines := alike.engine
  unfold engine? at engines
  cases found : first.slots.get? id with
  | none =>
      rw [found] at engines
      exact Or.inl ⟨rfl, Option.map_eq_none_iff.mp engines.symm⟩
  | some slot =>
      rw [found] at engines
      obtain ⟨other, stored, same⟩ := Option.map_eq_some_iff.mp engines.symm
      exact Or.inr ⟨slot, other, rfl, stored, same.symm⟩

structure SameOutcome (id : String) (first second : AgentOutcome α) : Prop where
  result : first.result = second.result
  deeds : first.deeds = second.deeds
  agent : Alike id first.agent second.agent

theorem SameOutcome.behind {id : String} {first second : AgentOutcome α}
    (same : SameOutcome id first second) {earlier former : List Deed} (before : earlier = former) :
    SameOutcome id { first with deeds := earlier ++ first.deeds }
      { second with deeds := former ++ second.deeds } :=
  ⟨same.result, congrArg₂ (· ++ ·) before same.deeds, same.agent⟩

theorem store_alike {id : String} {first second : Agent α} (alike : Alike id first second)
    (slot other : Slot α) (engine : Engine α) :
    Alike id (first.store id slot engine) (second.store id other engine) := by
  refine ⟨alike.node, alike.catalogue, alike.stopped, ?_, alike.armed⟩
  simp [engine?, store, Table.get?_put]

theorem install_alike {failure : Failure} {first second : Agent α}
    (alike : Alike failure.id first second) :
    SameOutcome failure.id (first.install failure) (second.install failure) := by
  unfold install
  rw [alike.catalogue]
  split
  · exact ⟨rfl, rfl, alike⟩
  next engine built =>
    refine ⟨rfl, rfl, alike.node, rfl, alike.stopped, ?_, alike.armed⟩
    simp [engine?, Table.get?_put]

/-- Two agents that differ at most in what belongs to one failure, whose other failures stand in
the same order. -/
structure Apart (id : String) (before after : Agent α) : Prop
    extends Elsewhere id before after where
  stopped : after.stopped = before.stopped
  keys : ∀ keep : String → Bool, keep id = false →
    after.slots.keys.filter keep = before.slots.keys.filter keep

theorem Apart.refl (id : String) (agent : Agent α) : Apart id agent agent :=
  { Elsewhere.refl id agent with stopped := rfl, keys := fun _ _ => rfl }

theorem Apart.trans {id : String} {first second third : Agent α} (start : Apart id first second)
    (finish : Apart id second third) : Apart id first third :=
  { start.toElsewhere.trans finish.toElsewhere with
    stopped := finish.stopped.trans start.stopped
    keys := fun keep dropped => (finish.keys keep dropped).trans (start.keys keep dropped) }

/-- An agent is still the same for every other failure. -/
theorem Apart.alike {id other : String} {before after : Agent α} (apart : Apart id before after)
    (different : other ≠ id) : Alike other before after := by
  refine ⟨apart.node.symm, apart.catalogue.symm, apart.stopped.symm, ?_, ?_⟩
  · unfold engine?
    rw [apart.slots other different]
  · exact (apart.armed other different).symm

/-- Agents stay the same for a failure while each does something about another one. -/
theorem Alike.beside {id other : String} {first second firstAfter secondAfter : Agent α}
    (alike : Alike id first second) (different : id ≠ other) (before : Apart other first firstAfter)
    (behind : Apart other second secondAfter) : Alike id firstAfter secondAfter :=
  (before.alike different).symm.trans (alike.trans (behind.alike different))

theorem store_apart (agent : Agent α) (id : String) (slot : Slot α) (engine : Engine α) :
    Apart id agent (agent.store id slot engine) :=
  { agent.store_elsewhere id slot engine with
    stopped := rfl
    keys := Table.keys_put_filter _ id _ }

theorem install_apart (agent : Agent α) (failure : Failure) :
    Apart failure.id agent (agent.install failure).agent := by
  refine { agent.install_elsewhere failure with stopped := ?_, keys := ?_ }
  · unfold install
    split <;> rfl
  · unfold install
    split
    · exact fun _ _ => rfl
    · exact Table.keys_put_filter _ failure.id _

/-! Turns on two agents -/

variable [Attack α]

theorem retire_alike {id : String} {first second : Agent α} (alike : Alike id first second) :
    SameOutcome id (first.retire id) (second.retire id) := by
  unfold retire
  rcases alike.slots with ⟨absent, missing⟩ | ⟨slot, other, found, stored, same⟩
  · simp only [absent, missing]
    exact ⟨rfl, rfl, alike⟩
  · simp only [found, stored, same]
    refine ⟨rfl, rfl, alike.node, alike.catalogue, alike.stopped, ?_, alike.armed⟩
    simp [engine?, Table.get?_erase]

theorem prepare_alike {failure : Failure} {first second : Agent α}
    (alike : Alike failure.id first second) :
    SameOutcome failure.id (first.prepare failure) (second.prepare failure) := by
  unfold prepare
  rw [alike.engine]
  split
  · exact install_alike alike
  · split
    · exact ⟨rfl, rfl, alike⟩
    · have given := retire_alike alike
      exact (install_alike given.agent).behind given.deeds

theorem enable_alike {failure : Failure} {first second : Agent α}
    (alike : Alike failure.id first second) (now : Nat) (slot other : Slot α)
    (same : slot.engine = other.engine) :
    SameOutcome failure.id (first.enable now failure slot) (second.enable now failure other) := by
  have awake : first.staysDown failure slot.engine = second.staysDown failure other.engine := by
    rw [staysDown, staysDown, alike.armed, same]
  unfold enable
  rw [awake, alike.stopped, same]
  split
  · exact ⟨rfl, rfl, alike⟩
  · have stored := store_alike alike slot other
      (other.engine.fail now second.stopped).1.engine
    refine ⟨rfl, rfl, ?_⟩
    dsimp only
    split
    · refine ⟨stored.node, stored.catalogue, rfl, stored.engine, ?_⟩
      simp [Table.get?_put]
    · exact ⟨stored.node, stored.catalogue, rfl, stored.engine, stored.armed⟩

theorem disable_alike {id : String} {first second : Agent α} (alike : Alike id first second)
    (slot other : Slot α) (same : slot.engine = other.engine) :
    SameOutcome id (first.disable id slot) (second.disable id other) := by
  unfold disable
  rw [same]
  exact ⟨rfl, rfl, store_alike alike slot other _⟩

theorem drive_alike {failure : Failure} {first second : Agent α}
    (alike : Alike failure.id first second) (now : Nat) :
    SameOutcome failure.id (first.drive now failure) (second.drive now failure) := by
  have prepared := prepare_alike alike
  unfold drive
  dsimp only
  rw [prepared.result]
  cases (second.prepare failure).result with
  | error error => exact prepared
  | ok _ =>
      rcases prepared.agent.slots with ⟨absent, missing⟩ | ⟨slot, other, found, stored, same⟩
      · rw [absent, missing]
        exact prepared
      · rw [found, stored]
        refine SameOutcome.behind ?_ prepared.deeds
        cases failure.expected with
        | enabled => exact enable_alike prepared.agent now slot other same
        | disabled => exact disable_alike prepared.agent slot other same
        | unknown => exact ⟨rfl, rfl, prepared.agent⟩

/-- Turns of the same assignment on agents that are alike come to the same. -/
theorem reconcile_alike {assignment : Wire.Assignment} {first second : Agent α}
    (alike : Alike assignment.id first second) (now : Nat) :
    SameOutcome assignment.id (first.reconcile now assignment).1
        (second.reconcile now assignment).1 ∧
      (first.reconcile now assignment).2 = (second.reconcile now assignment).2 := by
  unfold reconcile
  split
  · exact ⟨⟨rfl, rfl, alike⟩, rfl⟩
  next failure read =>
    rw [← (ofAssignment_eq_ok assignment failure read).1] at alike ⊢
    have driven := drive_alike alike now
    refine ⟨driven, ?_⟩
    dsimp only [reached]
    rw [driven.agent.engine]

/-! What a turn leaves alone -/

theorem retire_apart (agent : Agent α) (id : String) :
    Apart id agent (agent.retire id).agent := by
  refine { agent.retire_elsewhere id with stopped := ?_, keys := ?_ }
  · unfold retire
    split <;> rfl
  · unfold retire
    split
    · exact fun _ _ => rfl
    · exact Table.keys_erase_filter _ id

theorem prepare_apart (agent : Agent α) (failure : Failure) :
    Apart failure.id agent (agent.prepare failure).agent := by
  unfold prepare
  split
  · exact agent.install_apart failure
  · split
    · exact Apart.refl _ agent
    · exact (agent.retire_apart failure.id).trans (install_apart _ failure)

variable [DiscreetAttack α]

theorem enable_apart (agent : Agent α) (now : Nat) (failure : Failure) (slot : Slot α) :
    Apart failure.id agent (agent.enable now failure slot).agent := by
  refine { agent.enable_elsewhere now failure slot with stopped := ?_, keys := ?_ }
  · unfold enable
    split
    · rfl
    · have quiet := slot.engine.fail_discreet now agent.stopped
      dsimp only
      split <;> exact quiet
  · unfold enable
    split
    · exact fun _ _ => rfl
    · have stored := agent.store_apart failure.id slot
        (slot.engine.fail now agent.stopped).1.engine
      dsimp only
      split <;> exact stored.keys

theorem drive_apart (agent : Agent α) (now : Nat) (failure : Failure) :
    Apart failure.id agent (agent.drive now failure).agent := by
  have prepared := agent.prepare_apart failure
  unfold drive
  dsimp only
  split
  · refine prepared.trans ?_
    split
    · exact enable_apart _ now failure _
    · exact store_apart _ failure.id _ _
    · exact Apart.refl _ _
  · exact prepared

theorem reconcile_apart (agent : Agent α) (now : Nat) (assignment : Wire.Assignment) :
    Apart assignment.id agent (agent.reconcile now assignment).1.agent := by
  unfold reconcile
  split
  · exact Apart.refl _ agent
  next failure read =>
    rw [← (ofAssignment_eq_ok assignment failure read).1]
    exact agent.drive_apart now failure

end Agent

end FaultInjection
