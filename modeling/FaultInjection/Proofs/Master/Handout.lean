import FaultInjection.Proofs.Failure.Transfer
import FaultInjection.Proofs.Master.Stock
import FaultInjection.Proofs.Node.Report

/-!
A node that is known gets all of its failures whenever it asks for them. No failure can be kept by
the master that could not be handed out, so that none can keep the others from their node.
-/

namespace FaultInjection

theorem Failure.toAssignment_renders (failure : Failure)
    (renders : failure.specification.Renders) :
    ∃ assignment, failure.toAssignment = .ok assignment := by
  obtain ⟨text, rendered⟩ := renders
  exact ⟨_, (map_eq_ok _ _ _).mpr ⟨text, rendered, rfl⟩⟩

namespace Master

theorem assignmentsOf_renders (failures : List Failure)
    (renders : ∀ failure ∈ failures, failure.specification.Renders) :
    ∃ assignments, assignmentsOf failures = .ok assignments := by
  induction failures with
  | nil => exact ⟨[], rfl⟩
  | cons failure rest ih =>
      obtain ⟨first, sent⟩ := failure.toAssignment_renders (renders failure List.mem_cons_self)
      obtain ⟨others, handed⟩ := ih fun later member =>
        renders later (List.mem_cons_of_mem failure member)
      refine ⟨first :: others, (bind_eq_ok _ _ _).mpr ⟨first, sent, ?_⟩⟩
      exact (bind_eq_ok _ _ _).mpr ⟨others, handed, rfl⟩

theorem pull_renders (master : Master) (node : String) (known : Node)
    (registered : master.roster.get? node = some known) (sound : master.ledger.Sound)
    (renders : master.Stocks Specification.Renders) :
    ∃ assignments, master.pull node = .ok assignments := by
  obtain ⟨assignments, handed⟩ := assignmentsOf_renders (master.ledger.listNode node) fun
    failure listed => renders node failure.id failure (((sound.listNode node).2 failure).mp listed)
  exact ⟨assignments, by simp [pull, getNode, registered, handed, bind, Except.bind]⟩

theorem pull_ascends (master : Master) (node : String) (assignments : List Wire.Assignment)
    (sound : master.ledger.Sound) (pulled : master.pull node = .ok assignments) :
    (assignments.map (·.id)).Pairwise (· < ·) := by
  obtain ⟨_, handed⟩ := master.pull_eq_ok node assignments pulled
  rw [(assignmentsOf_eq_ok _ assignments handed).1, sound.listNode_ids node, Table.keys,
    List.pairwise_map]
  exact sound.ordered node

/-- Whatever was done to a master, a node that it knows gets one assignment for each of its
failures, by id in ascending order, and reads from it the failure that the master has, if the text
of its specification is read as the value that was written. -/
theorem pull_hands_out_all (policy : LivenessPolicy) (operations : List Operation) (node : String)
    (known : Node)
    (registered : ((empty policy).after operations).roster.get? node = some known) :
    let master := (empty policy).after operations
    ∃ assignments, master.pull node = .ok assignments ∧
      (assignments.map (·.id)).Pairwise (· < ·) ∧
      (∀ id, id ∈ assignments.map (·.id) ↔ (master.contents node id).isSome = true) ∧
      ∀ assignment ∈ assignments, assignment.node = node ∧
        ∃ failure, master.contents node assignment.id = some failure ∧
          failure.toAssignment = .ok assignment ∧
          (failure.specification.value.ReadsBack →
            ∃ read, Failure.ofAssignment assignment = .ok read ∧ read.same failure = true) := by
  intro master
  have sound := (empty policy).after_ledger_sound operations Ledger.empty_sound
  have renders : master.Stocks Specification.Renders :=
    (empty policy).after_stocks operations (empty_stocks policy)
      fun operation _ master accepted => master.written_renders operation accepted
  obtain ⟨assignments, pulled⟩ := master.pull_renders node known registered sound renders
  obtain ⟨_, listed, complete⟩ := master.pull_lists sound node assignments pulled
  refine ⟨assignments, pulled, master.pull_ascends node assignments sound pulled, ?ids, ?read⟩
  case ids =>
    intro id
    constructor
    · intro member
      obtain ⟨assignment, handed, rfl⟩ := List.mem_map.mp member
      obtain ⟨_, failure, stored, _⟩ := listed assignment handed
      exact Option.isSome_iff_exists.mpr ⟨failure, stored⟩
    · intro present
      obtain ⟨failure, stored⟩ := Option.isSome_iff_exists.mp present
      obtain ⟨assignment, handed, named, _⟩ := complete id failure stored
      exact List.mem_map.mpr ⟨assignment, handed, named⟩
  case read =>
    intro assignment handed
    obtain ⟨own, failure, stored, sent⟩ := listed assignment handed
    refine ⟨own, failure, stored, sent, fun readsBack => ?_⟩
    obtain ⟨specification, read, alike⟩ := failure.ofAssignment_toAssignment assignment
      (sound.fits node _ failure stored).specification
      (failure.specification.readsBack_of_value readsBack) sent
    exact ⟨_, read, by simp [Failure.same, alike]⟩

/-- Two failures of a node, and one whose specification has no text. -/
def mixedOperations : List Operation :=
  [.call 0 (.register ⟨"node", []⟩),
    .request (.create "node" "mixed" ⟨Failure.mixedFailure.specification, by decide⟩ .enabled),
    .request (.create "node" "several" ⟨⟨.zero, [[("first", none), ("second", none)]]⟩, by decide⟩
      .enabled),
    .request (.create "node" "again" ⟨Failure.mixedFailure.specification, by decide⟩ .disabled),
    .request (.apply "node" "again")]

theorem mixedOperations_stocked :
    ((empty .standard).after mixedOperations).Stocks (· = Failure.mixedFailure.specification) := by
  refine (empty .standard).after_stocks mixedOperations (empty_stocks .standard) ?_
  intro operation member master accepted specification written
  have renders := master.written_renders operation accepted specification written
  simp only [mixedOperations, List.mem_cons, List.not_mem_nil, or_false] at member
  rcases member with rfl | rfl | rfl | rfl | rfl
  · cases written
  · cases written
    rfl
  · cases written
    obtain ⟨text, rendered⟩ := renders
    cases rendered
  · cases written
    rfl
  · cases written

theorem pull_hands_out_all_mixed :
    let master := (empty .standard).after mixedOperations
    (∃ known, master.roster.get? "node" = some known) ∧
      ∃ assignments, master.pull "node" = .ok assignments ∧
        (assignments.map (·.id)).Pairwise (· < ·) ∧
        (∀ id, id ∈ assignments.map (·.id) ↔ (master.contents "node" id).isSome = true) ∧
        (master.contents "node" "mixed").isSome = true ∧
        (master.contents "node" "again").isSome = true ∧
        ∀ assignment ∈ assignments, ∃ failure read,
          master.contents "node" assignment.id = some failure ∧
          Failure.ofAssignment assignment = .ok read ∧ read.same failure = true := by
  intro master
  obtain ⟨known, registered⟩ : ∃ known, master.roster.get? "node" = some known :=
    Option.isSome_iff_exists.mp (by decide +kernel)
  obtain ⟨assignments, pulled, ascending, complete, delivered⟩ :=
    pull_hands_out_all .standard mixedOperations "node" known registered
  refine ⟨⟨known, registered⟩, assignments, pulled, ascending, complete, by decide +kernel,
    by decide +kernel, fun assignment handed => ?_⟩
  obtain ⟨_, failure, stored, _, arrives⟩ := delivered assignment handed
  have mixed := mixedOperations_stocked "node" assignment.id failure stored
  obtain ⟨read, taken, alike⟩ := arrives (mixed ▸ Failure.mixedFailure_sendable.readsBack)
  exact ⟨failure, read, stored, taken, alike⟩

end Master

end FaultInjection
