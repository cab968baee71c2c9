import FaultInjection.Master.Basic
import FaultInjection.Proofs.Failure.Delivery

/-!
What the ledger has under a node and an id after each write. A write concerns one failure and
leaves all others as they are.
-/

namespace FaultInjection

namespace Ledger

theorem ofNode_put (nodes : Table (Table Failure)) (node other : String) (table : Table Failure) :
    ofNode ⟨nodes.put node table⟩ other =
      if node = other then table else ofNode ⟨nodes⟩ other := by
  simp only [ofNode, Table.get?_put]
  split <;> rfl

theorem ofNode_erase (nodes : Table (Table Failure)) (node other : String) :
    ofNode ⟨nodes.erase node⟩ other = if node = other then [] else ofNode ⟨nodes⟩ other := by
  simp only [ofNode, Table.get?_erase]
  split <;> rfl

/-- The ledger with the failures of one node replaced. -/
theorem get?_put_ofNode (ledger : Ledger) (node : String) (table : Table Failure)
    (other id : String) :
    get? ⟨ledger.nodes.put node table⟩ other id =
      if node = other then table.get? id else ledger.get? other id := by
  rw [get?, ofNode_put]
  split <;> rfl

theorem put_get? (ledger : Ledger) (failure : Failure) (node id : String) :
    (ledger.put failure).get? node id =
      if failure.node = node ∧ failure.id = id then some failure else ledger.get? node id := by
  rw [put, get?_put_ofNode, Table.get?_put]
  by_cases here : failure.node = node
  · subst here
    by_cases same : failure.id = id <;> simp [same, get?]
  · simp [here]

theorem create_eq_ok (ledger : Ledger) (failure : Failure) (after : Ledger)
    (created : ledger.create failure = .ok after) :
    ledger.get? failure.node failure.id = none ∧ after = ledger.put failure := by
  unfold create at created
  split at created
  · cases created
  next absent =>
    cases created
    exact ⟨absent, rfl⟩

theorem modify_eq_ok (ledger : Ledger) (node id : String) (change : Failure → Failure)
    (changed : Failure) (after : Ledger)
    (modified : ledger.modify node id change = .ok (changed, after)) :
    ∃ failure, ledger.get? node id = some failure ∧ changed = change failure ∧
      after = ⟨ledger.nodes.put node ((ledger.ofNode node).put id changed)⟩ := by
  unfold modify at modified
  split at modified
  · cases modified
  next failure found =>
    cases modified
    exact ⟨failure, found, rfl, rfl⟩

theorem modify_get? (ledger : Ledger) (node id : String) (change : Failure → Failure)
    (changed : Failure) (after : Ledger)
    (modified : ledger.modify node id change = .ok (changed, after)) (other key : String) :
    after.get? other key =
      if node = other ∧ id = key then some changed else ledger.get? other key := by
  obtain ⟨_, _, _, rfl⟩ := ledger.modify_eq_ok node id change changed after modified
  rw [get?_put_ofNode, Table.get?_put]
  by_cases here : node = other
  · subst here
    by_cases same : id = key <;> simp [same, get?]
  · simp [here]

theorem delete_get? (ledger : Ledger) (node id : String) (failure : Failure) (after : Ledger)
    (deleted : ledger.delete node id = .ok (failure, after)) (other key : String) :
    after.get? other key =
      if node = other ∧ id = key then none else ledger.get? other key := by
  have left : ∀ key, ((ledger.ofNode node).erase id).get? key =
      if id = key then none else ledger.get? node key := fun key => Table.get?_erase _ _ _
  unfold delete at deleted
  split at deleted
  · cases deleted
  · cases deleted
    by_cases here : node = other
    · subst here
      split
      next empty =>
        have nothing := left key
        rw [List.isEmpty_iff.mp empty] at nothing
        rw [get?, ofNode_erase, if_pos rfl]
        by_cases same : id = key
        · simp [same, Table.get?]
        · rw [if_neg same] at nothing
          simpa [same] using nothing
      next =>
        rw [get?_put_ofNode, if_pos rfl, left]
        simp
    · split
      · rw [get?, ofNode_erase, if_neg here]
        simp [here, get?]
      · rw [get?_put_ofNode, if_neg here]
        simp [here]

/-! What stands in a ledger -/

structure Fits (node id : String) (failure : Failure) : Prop where
  node : failure.node = node
  id : failure.id = id
  expected : failure.expected ≠ .unknown
  specification : failure.specification.Ordered

structure Sound (ledger : Ledger) : Prop where
  ordered : ∀ node, (ledger.ofNode node).Ordered
  fits : ∀ node id failure, ledger.get? node id = some failure → Fits node id failure

theorem empty_sound : Ledger.empty.Sound :=
  ⟨fun _ => List.Pairwise.nil, fun _ _ _ impossible => nomatch impossible⟩

theorem put_ofNode_sound (ledger : Ledger) (node : String) (table : Table Failure)
    (sound : ledger.Sound) (ordered : table.Ordered)
    (fits : ∀ id failure, table.get? id = some failure → Fits node id failure) :
    Sound ⟨ledger.nodes.put node table⟩ := by
  constructor
  · intro other
    rw [ofNode_put]
    split
    · exact ordered
    · exact sound.ordered other
  · intro other id failure found
    rw [get?_put_ofNode] at found
    split at found
    next same => exact same ▸ fits id failure found
    next => exact sound.fits other id failure found

theorem put_entry_sound (ledger : Ledger) (node id : String) (failure : Failure)
    (sound : ledger.Sound) (fit : Fits node id failure) :
    Sound ⟨ledger.nodes.put node ((ledger.ofNode node).put id failure)⟩ := by
  apply ledger.put_ofNode_sound node _ sound (Table.put_ordered _ _ _ (sound.ordered node))
  intro key stored found
  rw [Table.get?_put] at found
  split at found
  next same =>
    cases found
    exact same ▸ fit
  next => exact sound.fits node key stored found

theorem delete_ordered (ledger : Ledger) (node id : String) (failure : Failure) (after : Ledger)
    (deleted : ledger.delete node id = .ok (failure, after))
    (ordered : ∀ node, (ledger.ofNode node).Ordered) (other : String) :
    (after.ofNode other).Ordered := by
  unfold delete at deleted
  split at deleted
  · cases deleted
  · cases deleted
    split
    · rw [ofNode_erase]
      split
      · exact List.Pairwise.nil
      · exact ordered other
    · rw [ofNode_put]
      split
      · exact Table.erase_ordered _ _ (ordered node)
      · exact ordered other

theorem delete_sound (ledger : Ledger) (node id : String) (failure : Failure) (after : Ledger)
    (deleted : ledger.delete node id = .ok (failure, after)) (sound : ledger.Sound) :
    after.Sound := by
  refine ⟨ledger.delete_ordered node id failure after deleted sound.ordered, ?_⟩
  intro other key stored found
  rw [ledger.delete_get? node id failure after deleted] at found
  split at found
  · cases found
  · exact sound.fits other key stored found

theorem modify_sound (ledger : Ledger) (node id : String) (change : Failure → Failure)
    (changed : Failure) (after : Ledger)
    (modified : ledger.modify node id change = .ok (changed, after)) (sound : ledger.Sound)
    (kept : ∀ failure, Fits node id failure → Fits node id (change failure)) : after.Sound := by
  obtain ⟨failure, found, rfl, rfl⟩ := ledger.modify_eq_ok node id change changed after modified
  exact ledger.put_entry_sound node id _ sound (kept failure (sound.fits node id failure found))

/-- The failures of a node are listed under their ids, which ascend. -/
theorem Sound.listNode_ids {ledger : Ledger} (sound : ledger.Sound) (node : String) :
    (ledger.listNode node).map (·.id) = (ledger.ofNode node).keys := by
  rw [Ledger.listNode, Table.values, Table.keys, List.map_map]
  apply List.map_congr_left
  intro entry member
  have found := Table.get?_of_mem _ (sound.ordered node) entry.1 entry.2 member
  exact (sound.fits node entry.1 entry.2 found).id

/-- The failures of a node have different ids, and each is listed once. -/
theorem Sound.listNode {ledger : Ledger} (sound : ledger.Sound) (node : String) :
    ((ledger.listNode node).map (·.id)).Nodup ∧
      ∀ failure, failure ∈ ledger.listNode node ↔
        ledger.get? node failure.id = some failure := by
  have ordered := sound.ordered node
  refine ⟨sound.listNode_ids node ▸ Table.keys_nodup _ ordered, fun failure => ?_⟩
  constructor
  · intro member
    obtain ⟨entry, listed, rfl⟩ := List.mem_map.mp member
    have found := Table.get?_of_mem _ ordered entry.1 entry.2 listed
    rw [(sound.fits node entry.1 entry.2 found).id]
    exact found
  · intro stored
    exact List.mem_map.mpr ⟨_, Table.mem_of_get? _ _ _ stored, rfl⟩

end Ledger

end FaultInjection
