import FaultInjection.Proofs.Master.Operation

/-!
The tables of a master are in order: the nodes that it knows, each under its own id, and the nodes
that failures are meant for. Whatever is done to a master, they stay so.
-/

namespace FaultInjection

/-! The nodes that are known -/

namespace Roster

structure Sound (roster : Roster) : Prop where
  ordered : roster.entries.Ordered
  named : ∀ entry ∈ roster.entries, entry.2.node.id = entry.1

theorem empty_sound (policy : LivenessPolicy) : (empty policy).Sound :=
  ⟨List.Pairwise.nil, fun _ impossible => nomatch impossible⟩

theorem put_sound (roster : Roster) (id : String) (entry : Entry) (registrations : Nat)
    (sound : roster.Sound) (named : entry.node.id = id) :
    Sound { roster with entries := roster.entries.put id entry, registrations } := by
  refine ⟨Table.put_ordered _ _ _ sound.ordered, ?_⟩
  intro stored member
  rcases Table.mem_put _ _ _ stored member with rfl | old
  · exact named
  · exact sound.named stored old

theorem register_sound (roster after : Roster) (now : Int) (id : String) (labels : Labels)
    (sound : roster.Sound) (registered : roster.register now id labels = .ok after) :
    after.Sound := by
  unfold register at registered
  split at registered
  · cases registered
  · split at registered
    · cases registered
    · cases registered
      exact roster.put_sound id _ _ sound rfl

theorem heartbeat_sound (roster after : Roster) (instant : Int) (id : String)
    (sound : roster.Sound) (heard : roster.heartbeat instant id = .ok after) : after.Sound := by
  unfold heartbeat at heard
  split at heard
  · cases heard
  next entry found =>
    cases heard
    refine roster.put_sound id _ roster.registrations sound ?_
    exact sound.named (id, entry) (Table.mem_of_get? _ _ _ found)

theorem deregister_sound (roster : Roster) (id : String) (sound : roster.Sound) :
    (roster.deregister id).Sound :=
  ⟨Table.erase_ordered _ _ sound.ordered, fun entry member =>
    sound.named entry (Table.mem_erase _ _ _ member)⟩

theorem markSilent_sound (roster : Roster) (now : Int) (sound : roster.Sound) :
    (roster.markSilent now).Sound := by
  refine ⟨List.pairwise_map.mpr sound.ordered, ?_⟩
  intro entry member
  obtain ⟨before, known, rfl⟩ := List.mem_map.mp member
  have named := sound.named before known
  simp only [Node.swept]
  split <;> exact named

theorem evict_sound (now : Int) (roster : Roster) (candidates : List (String × Nat))
    (sound : roster.Sound) : (evict now roster candidates).1.Sound := by
  induction candidates generalizing roster with
  | nil => exact sound
  | cons candidate rest ih =>
      simp only [evict]
      split
      · exact ih _ (roster.deregister_sound candidate.1 sound)
      · exact ih _ sound

theorem sweep_sound (roster : Roster) (now : Int) (sound : roster.Sound) :
    (roster.sweep now).1.Sound :=
  evict_sound now _ _ (roster.markSilent_sound now sound)

end Roster

/-! The nodes that failures are meant for -/

namespace Ledger

/-- A ledger that a write has made of another one: what it has for one node was replaced. -/
inductive Written (before : Ledger) : Ledger → Prop
  | put (node : String) (table : Table Failure) : Written before ⟨before.nodes.put node table⟩
  | erase (node : String) : Written before ⟨before.nodes.erase node⟩

theorem Written.ordered {before after : Ledger} (written : Written before after)
    (ordered : before.nodes.Ordered) : after.nodes.Ordered := by
  cases written with
  | put node table => exact Table.put_ordered _ _ _ ordered
  | erase node => exact Table.erase_ordered _ _ ordered

theorem create_written (ledger after : Ledger) (failure : Failure)
    (created : ledger.create failure = .ok after) : ledger.Written after := by
  obtain ⟨_, rfl⟩ := ledger.create_eq_ok failure after created
  exact .put _ _

theorem modify_written (ledger after : Ledger) (node id : String) (change : Failure → Failure)
    (changed : Failure) (modified : ledger.modify node id change = .ok (changed, after)) :
    ledger.Written after := by
  obtain ⟨_, _, _, rfl⟩ := ledger.modify_eq_ok node id change changed after modified
  exact .put _ _

theorem delete_written (ledger after : Ledger) (node id : String) (failure : Failure)
    (deleted : ledger.delete node id = .ok (failure, after)) : ledger.Written after := by
  unfold delete at deleted
  split at deleted
  · cases deleted
  · cases deleted
    split
    · exact .erase _
    · exact .put _ _

theorem report_written (ledger after : Ledger) (reporter node id : String)
    (state previous : Failure.State) (updated : Failure)
    (reported : ledger.report reporter node id state = .ok (previous, updated, after)) :
    ledger.Written after := by
  unfold report at reported
  split at reported
  · cases reported
  · obtain ⟨_, _, reported⟩ := (bind_eq_ok _ _ _).mp reported
    obtain ⟨⟨_, _⟩, modified, same⟩ := (bind_eq_ok _ _ _).mp reported
    cases same
    exact modify_written _ _ _ _ _ _ modified

end Ledger

namespace Master

structure InOrder (master : Master) : Prop where
  roster : master.roster.Sound
  nodes : master.ledger.nodes.Ordered

theorem empty_inOrder (policy : LivenessPolicy) : (empty policy).InOrder :=
  ⟨Roster.empty_sound policy, List.Pairwise.nil⟩

theorem announce_inOrder (master : Master) (change : Change)
    (written : Except Error (Failure × Ledger)) (inOrder : master.InOrder)
    (writes : ∀ failure ledger, written = .ok (failure, ledger) → master.ledger.Written ledger) :
    (master.announce change written).master.InOrder := by
  unfold announce
  split
  · exact inOrder
  next failure ledger => exact ⟨inOrder.roster, (writes failure ledger rfl).ordered inOrder.nodes⟩

theorem setExpected_inOrder (master : Master) (node id : String) (state : Failure.State)
    (inOrder : master.InOrder) : (master.setExpected node id state).master.InOrder := by
  unfold setExpected
  split
  · exact inOrder
  · exact master.announce_inOrder _ _ inOrder fun _ _ => Ledger.modify_written _ _ _ _ _ _

theorem reply_inOrder (master : Master) (request : Request) (inOrder : master.InOrder) :
    (request.reply master).master.InOrder := by
  cases request with
  | create node id specification expected =>
      simp only [Request.reply, createFailure]
      split
      · exact inOrder
      · refine master.announce_inOrder _ _ inOrder fun failure ledger written => ?_
        obtain ⟨_, created, same⟩ := (map_eq_ok _ _ _).mp written
        cases same
        exact Ledger.create_written _ _ _ created
  | apply node id => exact master.setExpected_inOrder node id .enabled inOrder
  | revert node id => exact master.setExpected_inOrder node id .disabled inOrder
  | update node id specification expected =>
      simp only [Request.reply, updateFailure]
      split
      · exact inOrder
      · split
        · exact inOrder
        · split
          · exact inOrder
          · exact master.announce_inOrder _ _ inOrder fun _ _ => Ledger.modify_written _ _ _ _ _ _
  | delete node id =>
      exact master.announce_inOrder _ _ inOrder fun _ _ => Ledger.delete_written _ _ _ _ _

theorem enroll_inOrder (master : Master) (changed : Except Error Roster) (inOrder : master.InOrder)
    (sound : ∀ roster, changed = .ok roster → roster.Sound) :
    (master.enroll changed).master.InOrder := by
  unfold enroll
  split
  · exact inOrder
  next roster => exact ⟨sound roster rfl, inOrder.nodes⟩

theorem report_inOrder (master : Master) (reporter : String) (assignment : Wire.Assignment)
    (inOrder : master.InOrder) : (master.report reporter assignment).master.InOrder := by
  unfold report
  dsimp only
  split
  · exact inOrder
  next isNew updated ledger written =>
    obtain ⟨_, _, written⟩ := (bind_eq_ok _ _ _).mp written
    obtain ⟨_, _, written⟩ := (bind_eq_ok _ _ _).mp written
    obtain ⟨⟨_, _, _⟩, reported, same⟩ := (bind_eq_ok _ _ _).mp written
    cases same
    have nodes := (Ledger.report_written _ _ _ _ _ _ _ _ reported).ordered inOrder.nodes
    split <;> exact ⟨inOrder.roster, nodes⟩

theorem answer_inOrder (master : Master) (instant : Int) (call : Call) (inOrder : master.InOrder) :
    (master.answer instant call).master.InOrder := by
  cases call with
  | register registration =>
      exact master.enroll_inOrder _ inOrder fun roster =>
        master.roster.register_sound roster _ _ _ inOrder.roster
  | heartbeat beat =>
      exact master.enroll_inOrder _ inOrder fun roster =>
        master.roster.heartbeat_sound roster _ _ inOrder.roster
  | deregister node =>
      exact ⟨master.roster.deregister_sound node inOrder.roster, inOrder.nodes⟩
  | pull node => exact inOrder
  | report reporter assignment => exact master.report_inOrder reporter assignment inOrder

theorem perform_inOrder (master : Master) (operation : Operation) (inOrder : master.InOrder) :
    (master.perform operation).master.InOrder := by
  cases operation with
  | request request => exact master.reply_inOrder request inOrder
  | expect node id state => exact master.setExpected_inOrder node id state inOrder
  | call instant call => exact master.answer_inOrder instant call inOrder
  | sweep instant => exact ⟨master.roster.sweep_sound instant inOrder.roster, inOrder.nodes⟩

theorem after_inOrder (master : Master) (operations : List Operation) (inOrder : master.InOrder) :
    (master.after operations).InOrder := by
  induction operations generalizing master with
  | nil => exact inOrder
  | cons operation rest ih => exact ih _ (master.perform_inOrder operation inOrder)

end Master

end FaultInjection
