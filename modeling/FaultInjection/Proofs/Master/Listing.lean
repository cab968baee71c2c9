import FaultInjection.Proofs.Master.Order
import Mathlib.Data.List.Sort

/-!
What is listed for a selector. A failure is listed if its node has labels that the selector
accepts, and the list is in the order of the nodes and ids; so it is the same for all ledgers that
have the same failures. Labels come with registrations and go with the nodes.
-/

namespace FaultInjection

def Failure.Precedes (first second : Failure) : Prop :=
  first.node < second.node ∨ first.node = second.node ∧ first.id < second.id

instance : Std.Irrefl Failure.Precedes where
  irrefl failure precedes := by
    rcases precedes with before | ⟨_, before⟩
    · exact String.lt_irrefl _ before
    · exact String.lt_irrefl _ before

instance : Std.Antisymm Failure.Precedes where
  antisymm first second precedes follows := by
    rcases precedes with before | ⟨same, before⟩
    · rcases follows with after | ⟨same, _⟩
      · exact (String.lt_irrefl _ (String.lt_trans before after)).elim
      · exact (String.lt_irrefl _ (same ▸ before)).elim
    · rcases follows with after | ⟨_, after⟩
      · exact (String.lt_irrefl _ (same ▸ after)).elim
      · exact (String.lt_irrefl _ (String.lt_trans before after)).elim

namespace Ledger

/-- Nodes and ids are in order, and each failure stands under its own ones. -/
structure Filed (ledger : Ledger) : Prop where
  nodes : ledger.nodes.Ordered
  ordered : ∀ node, (ledger.ofNode node).Ordered
  named : ∀ node id failure, ledger.get? node id = some failure →
    failure.node = node ∧ failure.id = id

theorem Sound.filed {ledger : Ledger} (sound : ledger.Sound) (nodes : ledger.nodes.Ordered) :
    ledger.Filed :=
  ⟨nodes, sound.ordered, fun node id failure found =>
    ⟨(sound.fits node id failure found).node, (sound.fits node id failure found).id⟩⟩

namespace Filed

variable {ledger other : Ledger}

theorem ofNode_eq (filed : ledger.Filed) (node : String) (table : Table Failure)
    (member : (node, table) ∈ ledger.nodes) : ledger.ofNode node = table := by
  simp [ofNode, Table.get?_of_mem _ filed.nodes node table member]

theorem named_of_mem (filed : ledger.Filed) (node id : String) (table : Table Failure)
    (failure : Failure) (entry : (node, table) ∈ ledger.nodes) (member : (id, failure) ∈ table) :
    failure.node = node ∧ failure.id = id ∧ ledger.get? node id = some failure := by
  have here := filed.ofNode_eq node table entry
  have ordered : table.Ordered := here ▸ filed.ordered node
  have found : ledger.get? node id = some failure := by
    rw [get?, here, Table.get?_of_mem table ordered id failure member]
  obtain ⟨sameNode, sameId⟩ := filed.named node id failure found
  exact ⟨sameNode, sameId, found⟩

theorem mem_list (filed : ledger.Filed) (passes : String → Bool) (failure : Failure) :
    failure ∈ ledger.list passes ↔
      passes failure.node = true ∧ ledger.get? failure.node failure.id = some failure := by
  constructor
  · intro member
    obtain ⟨⟨node, table⟩, entry, listed⟩ := List.mem_flatMap.mp member
    obtain ⟨entry, passed⟩ := List.mem_filter.mp entry
    obtain ⟨⟨id, _⟩, stored, rfl⟩ := List.mem_map.mp listed
    obtain ⟨rfl, rfl, found⟩ := filed.named_of_mem node id table _ entry stored
    exact ⟨passed, found⟩
  · rintro ⟨passed, found⟩
    unfold get? ofNode at found
    cases kept : ledger.nodes.get? failure.node with
    | none =>
        rw [kept] at found
        cases found
    | some table =>
        rw [kept] at found
        have entry := Table.mem_of_get? _ _ _ kept
        exact List.mem_flatMap.mpr ⟨_, List.mem_filter.mpr ⟨entry, passed⟩,
          List.mem_map.mpr ⟨_, Table.mem_of_get? _ _ _ found, rfl⟩⟩

theorem list_sorted (filed : ledger.Filed) (passes : String → Bool) :
    (ledger.list passes).Pairwise Failure.Precedes := by
  refine List.pairwise_flatMap.mpr ⟨?inside, ?across⟩
  case inside =>
    rintro ⟨node, table⟩ entry
    have stored := (List.mem_filter.mp entry).1
    have ordered : table.Ordered := filed.ofNode_eq node table stored ▸ filed.ordered node
    refine List.pairwise_map.mpr (List.Pairwise.imp_of_mem ?_ ordered)
    rintro ⟨_, first⟩ ⟨_, second⟩ former latter before
    obtain ⟨rfl, rfl, _⟩ := filed.named_of_mem node _ table first stored former
    obtain ⟨same, rfl, _⟩ := filed.named_of_mem _ _ table second stored latter
    exact Or.inr ⟨same.symm, before⟩
  case across =>
    refine List.Pairwise.imp_of_mem ?_ (List.Pairwise.filter _ filed.nodes)
    rintro ⟨_, table⟩ ⟨_, other⟩ former latter before first listed second following
    obtain ⟨⟨_, _⟩, member, rfl⟩ := List.mem_map.mp listed
    obtain ⟨⟨_, _⟩, follower, rfl⟩ := List.mem_map.mp following
    obtain ⟨rfl, _⟩ := filed.named_of_mem _ _ table _ (List.mem_filter.mp former).1 member
    obtain ⟨rfl, _⟩ := filed.named_of_mem _ _ other _ (List.mem_filter.mp latter).1 follower
    exact Or.inl before

/-- Ledgers with the same failures on the nodes that pass list the same. -/
theorem list_congr (filed : ledger.Filed) (filedOther : other.Filed) (passes admits : String → Bool)
    (same : ∀ node id, (if passes node then ledger.get? node id else none) =
      if admits node then other.get? node id else none) :
    ledger.list passes = other.list admits := by
  refine List.Pairwise.eq_of_mem_iff (filed.list_sorted passes) (filedOther.list_sorted admits) ?_
  intro failure
  have alike := same failure.node failure.id
  rw [filed.mem_list, filedOther.mem_list]
  constructor
  · rintro ⟨passed, found⟩
    rw [if_pos passed, found] at alike
    split at alike
    next admitted => exact ⟨admitted, alike.symm⟩
    next => cases alike
  · rintro ⟨admitted, found⟩
    rw [if_pos admitted, found] at alike
    split at alike
    next passed => exact ⟨passed, alike⟩
    next => cases alike

end Filed

end Ledger

/-! Labels -/

theorem Node.swept_labels (policy : LivenessPolicy) (now : Int) (node : Node) :
    (node.swept policy now).labels = node.labels := by
  unfold Node.swept
  split <;> rfl

namespace Roster

def labels? (roster : Roster) (node : String) : Option Labels := (roster.get? node).map (·.labels)

theorem heartbeat_labels (roster after : Roster) (instant : Int) (id : String)
    (heard : roster.heartbeat instant id = .ok after) : after.labels? = roster.labels? := by
  unfold heartbeat at heard
  split at heard
  · cases heard
  next entry found =>
    cases heard
    funext node
    simp only [labels?, get?, Table.get?_put]
    by_cases here : id = node
    · subst here
      simp [found, Node.beat]
    · simp [here]

theorem deregister_labels (roster : Roster) (id : String) (unknown : roster.get? id = none) :
    (roster.deregister id).labels? = roster.labels? := by
  funext node
  simp only [labels?, get?, deregister, Table.get?_erase]
  by_cases here : id = node
  · subst here
    simpa [get?] using unknown
  · simp [here]

theorem markSilent_labels (roster : Roster) (now : Int) :
    (roster.markSilent now).labels? = roster.labels? := by
  funext node
  have marked := Table.get?_map roster.entries
    (fun entry => { entry with node := entry.node.swept roster.policy now }) node
  simp only [labels?, get?, markSilent, marked, Option.map_map]
  congr 1
  funext entry
  exact entry.node.swept_labels roster.policy now

theorem evict_nobody (now : Int) (roster : Roster) (candidates : List (String × Nat))
    (nobody : (evict now roster candidates).2 = []) : (evict now roster candidates).1 = roster := by
  induction candidates with
  | nil => rfl
  | cons candidate rest ih =>
      simp only [evict] at nobody ⊢
      split at nobody
      · cases nobody
      next stays =>
        rw [if_neg stays]
        exact ih nobody

theorem sweep_labels (roster : Roster) (now : Int) (nobody : (roster.sweep now).2.evicted = []) :
    (roster.sweep now).1.labels? = roster.labels? := by
  have kept : (roster.sweep now).1 = roster.markSilent now := evict_nobody now _ _ nobody
  rw [kept, markSilent_labels]

/-- The selected nodes are those whose labels are accepted. -/
theorem mem_select (roster : Roster) (sound : roster.Sound) (selector : Selector) (node : String) :
    node ∈ (roster.select selector).map (·.id) ↔
      (roster.labels? node).any selector.accepts = true := by
  constructor
  · intro member
    obtain ⟨known, selected, rfl⟩ := List.mem_map.mp member
    obtain ⟨listed, accepted⟩ := List.mem_filter.mp selected
    obtain ⟨entry, stored, rfl⟩ := List.mem_map.mp listed
    obtain ⟨⟨id, entry⟩, kept, rfl⟩ := List.mem_map.mp stored
    have found := Table.get?_of_mem _ sound.ordered id entry kept
    have named : entry.node.id = id := sound.named _ kept
    simpa [labels?, get?, named, found] using accepted
  · intro accepted
    obtain ⟨labels, known, accepted⟩ := (Option.any_eq_true _ _).mp accepted
    obtain ⟨found, registered, rfl⟩ := Option.map_eq_some_iff.mp known
    obtain ⟨entry, stored, rfl⟩ := Option.map_eq_some_iff.mp registered
    have member := Table.mem_of_get? _ _ _ stored
    refine List.mem_map.mpr ⟨entry.node, List.mem_filter.mpr ⟨?_, accepted⟩, sound.named _ member⟩
    exact List.mem_map.mpr ⟨entry, List.mem_map.mpr ⟨_, member, rfl⟩, rfl⟩

end Roster

namespace Operation

/-- Whether no node comes, comes back or goes. -/
def keepsNodes (master : Master) : Operation → Bool
  | call instant (.register registration) => !(master.register instant registration).answer.isOk
  | call _ (.deregister node) => (master.roster.get? node).isNone
  | sweep instant => (master.sweep instant).2.evicted.isEmpty
  | _ => true

end Operation

namespace Master

theorem enroll_labels (master : Master) (changed : Except Error Roster)
    (kept : ∀ roster, changed = .ok roster → roster.labels? = master.roster.labels?) :
    (master.enroll changed).master.roster.labels? = master.roster.labels? := by
  unfold enroll
  split
  · rfl
  next roster => exact kept roster rfl

theorem reply_roster (master : Master) (request : Request) :
    (request.reply master).master.roster = master.roster := by
  cases answered : (request.reply master).answer with
  | ok answer => exact (request.reply_ok master answer answered).roster
  | error error => rw [request.reply_error master error answered]

theorem setExpected_roster (master : Master) (node id : String) (state : Failure.State) :
    (master.setExpected node id state).master.roster = master.roster := by
  rcases master.setExpected_cases node id state with ⟨_, same⟩ | ⟨_, same⟩ | ⟨_, same⟩
  · rw [same]
    rfl
  · rw [same, reply_roster]
  · rw [same, reply_roster]

theorem answer_labels (master : Master) (instant : Int) (call : Call)
    (keeps : (Operation.call instant call).keepsNodes master = true) :
    (master.answer instant call).master.roster.labels? = master.roster.labels? := by
  cases call with
  | register registration =>
      cases answered : (master.register instant registration).answer with
      | ok answer => simp [Operation.keepsNodes, answered, Except.isOk, Except.toBool] at keeps
      | error error => rw [master.answer_error instant (.register registration) error answered]
  | heartbeat beat =>
      exact master.enroll_labels _ fun roster => master.roster.heartbeat_labels roster _ _
  | deregister node =>
      exact master.roster.deregister_labels node (Option.isNone_iff_eq_none.mp keeps)
  | pull node => rfl
  | report reporter assignment => rw [answer, report_roster]

theorem perform_labels (master : Master) (operation : Operation)
    (keeps : operation.keepsNodes master = true) :
    (master.perform operation).master.roster.labels? = master.roster.labels? := by
  cases operation with
  | request request => exact congrArg Roster.labels? (master.reply_roster request)
  | expect node id state => exact congrArg Roster.labels? (master.setExpected_roster node id state)
  | call instant call => exact master.answer_labels instant call keeps
  | sweep instant => exact master.roster.sweep_labels instant (List.isEmpty_iff.mp keeps)

def keepsNodes (master : Master) : List Operation → Bool
  | [] => true
  | operation :: rest =>
      operation.keepsNodes master && (master.perform operation).master.keepsNodes rest

theorem after_labels (master : Master) (operations : List Operation)
    (keeps : master.keepsNodes operations = true) :
    (master.after operations).roster.labels? = master.roster.labels? := by
  induction operations generalizing master with
  | nil => rfl
  | cons operation rest ih =>
      obtain ⟨first, others⟩ := Bool.and_eq_true_iff.mp keeps
      exact (ih _ others).trans (master.perform_labels operation first)

/-- Whether failures of a node are listed for a selector. The empty one also lists those of nodes
that are not known. -/
def admits (master : Master) (selector : Selector) (node : String) : Bool :=
  selector.isEmpty || (master.roster.labels? node).any selector.accepts

theorem admits_congr (first second : Master) (selector : Selector)
    (same : first.roster.labels? = second.roster.labels?) :
    first.admits selector = second.admits selector := by
  funext node
  rw [admits, admits, same]

theorem listFailures_eq (master : Master) (sound : master.roster.Sound) (selector : Selector) :
    master.listFailures selector = master.ledger.list (master.admits selector) := by
  unfold listFailures
  split
  next all =>
    congr 1
    funext node
    simp [admits, all]
  next some =>
    simp only
    congr 1
    funext node
    rw [Bool.eq_iff_iff, List.contains_iff_mem, master.roster.mem_select sound, admits,
      Bool.eq_false_iff.mpr some, Bool.false_or]

end Master

end FaultInjection
