import FaultInjection.Proofs.Master.Flat

/-!
The ledger as one map. A node is taken up with its first failure and dropped with its last one, and
lists are put in order when they are read. Whatever is written, the answers and the lists are those
of a single map from nodes and ids to failures.
-/

namespace FaultInjection.Ledger

/-! What all ledgers are like -/

/-- Everything is in its place, and no node is kept without failures. -/
structure Neat (ledger : Ledger) : Prop extends Filed ledger where
  occupied : ∀ entry ∈ ledger.nodes, entry.2 ≠ []

variable {ledger after : Ledger}

theorem empty_neat : Ledger.empty.Neat := ⟨empty_filed, nofun⟩

theorem Neat.put (neat : ledger.Neat) (failure : Failure) : (ledger.put failure).Neat := by
  refine ⟨Event.enter_filed ledger ⟨.updated, failure⟩ neat.toFiled, ?_⟩
  intro entry member
  rcases Table.mem_put _ _ _ entry member with rfl | old
  · exact Table.put_ne_nil _ _ _
  · exact neat.occupied entry old

theorem Neat.delete (neat : ledger.Neat) (node id : String) (failure : Failure)
    (deleted : ledger.delete node id = .ok (failure, after)) : after.Neat := by
  have nodes := (ledger.delete_written after node id failure deleted).ordered neat.nodes
  have ordered := ledger.delete_ordered node id failure after deleted neat.ordered
  have named : ∀ other key stored, after.get? other key = some stored →
      stored.node = other ∧ stored.id = key := by
    intro other key stored found
    rw [ledger.delete_get? node id failure after deleted] at found
    split at found
    · cases found
    · exact neat.named other key stored found
  refine ⟨⟨nodes, ordered, named⟩, fun entry member => ?_⟩
  unfold Ledger.delete at deleted
  split at deleted
  · cases deleted
  · cases deleted
    -- either the node goes with its last failure, or what is left of it is put back
    split at member
    · exact neat.occupied entry (Table.mem_erase _ _ entry member)
    next left =>
      rcases Table.mem_put _ _ _ entry member with rfl | old
      · exact fun nothing => left (List.isEmpty_iff.mpr nothing)
      · exact neat.occupied entry old

/-- A change that leaves node and id alone puts the changed failure in the place of the old one. -/
theorem Filed.modify (filed : ledger.Filed) (node id : String) (change : Failure → Failure)
    (keeps : ∀ failure, (change failure).node = failure.node ∧ (change failure).id = failure.id)
    (changed : Failure) (modified : ledger.modify node id change = .ok (changed, after)) :
    after = ledger.put changed := by
  obtain ⟨failure, found, rfl, rfl⟩ := ledger.modify_eq_ok node id change changed after modified
  obtain ⟨sameNode, sameId⟩ := filed.named node id failure found
  obtain ⟨keptNode, keptId⟩ := keeps failure
  rw [Ledger.put, keptNode, keptId, sameNode, sameId]

theorem revised_keeps (specification : Option Specification) (expected : Option Failure.State)
    (failure : Failure) : (Request.revised specification expected failure).node = failure.node ∧
      (Request.revised specification expected failure).id = failure.id := by
  cases specification <;> cases expected <;> exact ⟨rfl, rfl⟩

theorem acknowledge_eq_ok {σ : Type} (written : Except Error (Failure × σ)) (receipt : Receipt)
    (after : σ) (accepted : Write.acknowledge written = .ok (receipt, after)) :
    written = .ok (receipt.failure, after) := by
  obtain ⟨⟨failure, stored⟩, same, told⟩ := (map_eq_ok _ _ _).mp accepted
  cases told
  exact same

/-- All that can become of a ledger: a failure is put into it, or one is deleted. -/
theorem Filed.write?_cases (filed : ledger.Filed) (write : Write) (receipt : Receipt)
    (written : ledger.write? write = .ok (receipt, after)) :
    (∃ failure, after = ledger.put failure) ∨
      ∃ node id failure, ledger.delete node id = .ok (failure, after) := by
  cases write with
  | create failure =>
      have told := acknowledge_eq_ok _ _ _ written
      obtain ⟨_, created, same⟩ := (map_eq_ok _ _ _).mp told
      cases same
      exact Or.inl ⟨_, (ledger.create_eq_ok _ _ created).2⟩
  | update node id specification expected =>
      have modified := acknowledge_eq_ok _ _ _ written
      exact Or.inl ⟨_, filed.modify node id _ (revised_keeps specification expected) _ modified⟩
  | expect node id state =>
      have modified := acknowledge_eq_ok _ _ _ written
      exact Or.inl ⟨_, filed.modify node id _ (revised_keeps none (some state)) _ modified⟩
  | report reporter node id state =>
      obtain ⟨⟨previous, failure, stored⟩, reported, told⟩ := (map_eq_ok _ _ _).mp written
      cases told
      unfold report at reported
      split at reported
      · cases reported
      · obtain ⟨_, _, reported⟩ := (bind_eq_ok _ _ _).mp reported
        obtain ⟨⟨_, _⟩, modified, same⟩ := (bind_eq_ok _ _ _).mp reported
        cases same
        exact Or.inl ⟨_, filed.modify node id (fun failure => { failure with current := state })
          (fun _ => ⟨rfl, rfl⟩) _ modified⟩
  | delete node id =>
      exact Or.inr ⟨node, id, _, acknowledge_eq_ok _ _ _ written⟩

theorem Neat.write? (neat : ledger.Neat) (write : Write) (receipt : Receipt)
    (written : ledger.write? write = .ok (receipt, after)) : after.Neat := by
  rcases neat.write?_cases write receipt written with ⟨failure, rfl⟩ | ⟨_, _, _, deleted⟩
  · exact neat.put failure
  · exact neat.delete _ _ _ deleted

/-- A whole run of writes is answered as by a single map, and the ledger is neat behind it. -/
theorem Neat.run (neat : ledger.Neat) (writes : List Write) :
    Write.run Contents.write? ledger.get? writes = flat (Write.run Ledger.write? ledger writes) ∧
      (Write.run Ledger.write? ledger writes).2.Neat := by
  induction writes generalizing ledger with
  | nil => exact ⟨rfl, neat⟩
  | cons write rest ih =>
      have told := ledger.write?_contents write
      simp only [Write.run]
      cases written : ledger.write? write with
      | error error =>
          rw [written] at told
          obtain ⟨same, stays⟩ := ih neat
          rw [told]
          exact ⟨by simp only [Except.map, same, flat], stays⟩
      | ok done =>
          obtain ⟨receipt, after⟩ := done
          rw [written] at told
          obtain ⟨same, stays⟩ := ih (neat.write? write receipt written)
          rw [told]
          exact ⟨by simp only [Except.map, same, flat], stays⟩

/-! What is read -/

/-- A list of failures has all that belong to it, and none of them twice, since it is in strictly
ascending order of nodes and ids. -/
structure Enumerates (listed : List Failure) (belongs : Failure → Prop) : Prop where
  mem : ∀ failure, failure ∈ listed ↔ belongs failure
  ascends : listed.Pairwise Failure.Precedes

theorem Filed.listNode_enumerates (filed : ledger.Filed) (node : String) :
    Enumerates (ledger.listNode node) fun failure =>
      Contents.Holds ledger.get? failure ∧ failure.node = node := by
  have ordered := filed.ordered node
  have here : ∀ entry ∈ ledger.ofNode node, entry.2.node = node ∧ entry.2.id = entry.1 :=
    fun entry member => filed.named node entry.1 entry.2
      (Table.get?_of_mem _ ordered entry.1 entry.2 member)
  constructor
  case mem =>
    intro failure
    constructor
    · intro listed
      obtain ⟨entry, member, rfl⟩ := List.mem_map.mp listed
      obtain ⟨sameNode, sameId⟩ := here entry member
      rw [Contents.Holds, sameNode, sameId]
      exact ⟨Table.get?_of_mem _ ordered entry.1 entry.2 member, rfl⟩
    · rintro ⟨held, rfl⟩
      exact List.mem_map.mpr ⟨_, Table.mem_of_get? _ _ _ held, rfl⟩
  case ascends =>
    refine List.pairwise_map.mpr (List.Pairwise.imp_of_mem ?_ ordered)
    intro entry later first second before
    obtain ⟨firstNode, firstId⟩ := here entry first
    obtain ⟨secondNode, secondId⟩ := here later second
    exact Or.inr ⟨firstNode.trans secondNode.symm, by rwa [firstId, secondId]⟩

theorem Filed.list_enumerates (filed : ledger.Filed) (passes : String → Bool) :
    Enumerates (ledger.list passes) fun failure =>
      Contents.Holds ledger.get? failure ∧ passes failure.node = true := by
  refine ⟨fun failure => ?_, filed.list_sorted passes⟩
  rw [filed.mem_list, and_comm]
  rfl

theorem Filed.drifted_enumerates (filed : ledger.Filed) :
    Enumerates ledger.drifted fun failure =>
      Contents.Holds ledger.get? failure ∧ failure.current ≠ failure.expected := by
  have all := filed.list_enumerates fun _ => true
  refine ⟨fun failure => ?_, List.Pairwise.filter _ all.ascends⟩
  rw [drifted, List.mem_filter, all.mem]
  simp [Failure.isConverged]

/-- What is listed where the nodes come in no order: the ids of those that pass are sorted, and the
failures of each are looked up. -/
def gather (entries : List (String × Table Failure)) (passes : String → Bool) : List Failure :=
  (((Table.keys entries).filter passes).mergeSort fun node later => node ≤ later).flatMap
    fun node => Table.values ((Table.get? entries node).getD [])

theorem Filed.gather_eq (filed : ledger.Filed) (entries : List (String × Table Failure))
    (order : entries.Perm ledger.nodes) (passes : String → Bool) :
    gather entries passes = ledger.list passes := by
  have sorted : (((Table.keys entries).filter passes).mergeSort fun node later => node ≤ later) =
      ledger.nodes.keys.filter passes := by
    -- both sides are in order, and each has the nodes of the other
    refine List.Perm.eq_of_pairwise (fun _ _ _ _ => String.le_antisymm) ?sorted ?ascending
      ((List.mergeSort_perm _ _).trans ((order.map Prod.fst).filter passes))
    case sorted =>
      refine (List.pairwise_mergeSort ?_ ?_ _).imp of_decide_eq_true
      · simpa using fun node later last => String.le_trans
      · simpa using String.le_total
    case ascending =>
      exact (List.Pairwise.filter _ (ledger.nodes.keys_ascend filed.nodes)).imp Std.le_of_lt
  have found : ∀ entry ∈ ledger.nodes, (Table.get? entries entry.1).getD [] = entry.2 := by
    intro entry member
    rw [ledger.nodes.get?_of_perm filed.nodes entries order,
      Table.get?_of_mem _ filed.nodes entry.1 entry.2 member]
    rfl
  rw [gather, sorted, Table.keys, List.filter_map, List.flatMap_map, list]
  refine List.flatMap_congr fun entry member => ?_
  rw [found entry (List.mem_filter.mp member).1]

/-- A ledger is seen to have what is in a single map: it finds and lists the failures of that map,
in whatever order its nodes are handed out, and has no node without failures. -/
structure Mirrors (ledger : Ledger) (contents : Contents) : Prop where
  get : ∀ node id, ledger.get node id = contents.find node id
  named : ∀ node id failure, contents node id = some failure →
    failure.node = node ∧ failure.id = id
  list : ∀ passes : String → Bool, Enumerates (ledger.list passes) fun failure =>
    contents.Holds failure ∧ passes failure.node = true
  listNode : ∀ node, Enumerates (ledger.listNode node) fun failure =>
    contents.Holds failure ∧ failure.node = node
  drifted : Enumerates ledger.drifted fun failure =>
    contents.Holds failure ∧ failure.current ≠ failure.expected
  gathered : ∀ entries, entries.Perm ledger.nodes → ∀ passes : String → Bool,
    gather entries passes = ledger.list passes
  occupied : ∀ entry ∈ ledger.nodes, entry.2 ≠ []

theorem Neat.mirrors (neat : ledger.Neat) : ledger.Mirrors ledger.get? where
  get _ _ := rfl
  named := neat.named
  list := neat.list_enumerates
  listNode := neat.listNode_enumerates
  drifted := neat.drifted_enumerates
  gathered := neat.gather_eq
  occupied := neat.occupied

/-- Whatever is written, a ledger answers as a single map would, and mirrors it in the end. -/
theorem ledger_is_one_map (writes : List Write) :
    let kept := Write.run Ledger.write? .empty writes
    let told := Write.run Contents.write? .nothing writes
    kept.1 = told.1 ∧ kept.2.Mirrors told.2 := by
  intro kept told
  obtain ⟨same, neat⟩ := empty_neat.run writes
  have answered : told = flat kept := same
  rw [answered]
  exact ⟨rfl, neat.mirrors⟩

end FaultInjection.Ledger
