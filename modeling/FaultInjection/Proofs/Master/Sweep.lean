import FaultInjection.Proofs.Master.Order

/-!
What a sweep does. Marking turns the alive nodes that have been silent for too long unreachable and
picks the unreachable ones that have been silent for even longer; evicting removes those of them
that are still the ones that were picked and are still silent.
-/

namespace FaultInjection

namespace Node

theorem lt_silence (node : Node) (now : Int) (bound : Nat) :
    bound < node.silence now ↔ (bound : Int) < now - node.lastHeartbeat := by
  unfold silence
  omega

theorem isOverdue_iff (policy : LivenessPolicy) (now : Int) (node : Node) :
    node.isOverdue policy now = true ↔
      node.liveness = .alive ∧ (policy.patience : Int) < now - node.lastHeartbeat := by
  simp [isOverdue, lt_silence]

theorem isEvictable_iff (policy : LivenessPolicy) (now : Int) (node : Node) :
    node.isEvictable policy now = true ↔
      node.liveness = .unreachable ∧
        ∃ limit, policy.evictAfter = some limit ∧
          (limit.nanos : Int) < now - node.lastHeartbeat := by
  unfold isEvictable
  cases policy.evictAfter with
  | none => simp
  | some limit => simp [lt_silence]

/-- A sweep changes nothing but the liveness of a node. -/
theorem swept_eq (policy : LivenessPolicy) (now : Int) (node : Node) :
    ∃ liveness, node.swept policy now = { node with liveness } := by
  unfold swept
  split
  · exact ⟨.unreachable, rfl⟩
  · exact ⟨node.liveness, rfl⟩

theorem swept_unreachable (policy : LivenessPolicy) (now : Int) (node : Node) :
    (node.swept policy now).liveness = .unreachable ↔
      node.liveness = .unreachable ∨ (policy.patience : Int) < now - node.lastHeartbeat := by
  have overdue := node.isOverdue_iff policy now
  unfold swept
  cases state : node.liveness with
  | alive =>
      simp only [state, true_and] at overdue
      split
      next late => simpa using overdue.mp late
      next early => simpa [state] using fun late => early (overdue.mpr late)
  | unreachable =>
      split
      · simp
      · simp [state]

end Node

def Entry.swept (policy : LivenessPolicy) (now : Int) (entry : Entry) : Entry :=
  { entry with node := entry.node.swept policy now }

namespace Roster

theorem markSilent_get? (roster : Roster) (now : Int) (id : String) :
    (roster.markSilent now).entries.get? id =
      (roster.entries.get? id).map (Entry.swept roster.policy now) :=
  Table.get?_map roster.entries (Entry.swept roster.policy now) id

/-! The nodes that are picked -/

theorem mem_candidates (roster : Roster) (ordered : roster.entries.Ordered) (now : Int)
    (id : String) (number : Nat) :
    (id, number) ∈ roster.candidates now ↔
      ∃ entry, roster.entries.get? id = some entry ∧ entry.registration = number ∧
        entry.node.isEvictable roster.policy now = true := by
  simp only [candidates, List.mem_map, List.mem_filter, Prod.mk.injEq]
  constructor
  · rintro ⟨⟨name, entry⟩, ⟨member, evictable⟩, rfl, same⟩
    exact ⟨entry, roster.entries.get?_of_mem ordered name entry member, same, evictable⟩
  · rintro ⟨entry, found, same, evictable⟩
    exact ⟨(id, entry), ⟨roster.entries.mem_of_get? id entry found, evictable⟩, rfl, same⟩

theorem candidates_keys (roster : Roster) (now : Int) :
    (roster.candidates now).map (·.1) =
      Table.keys (roster.entries.filter fun entry =>
        entry.2.node.isEvictable roster.policy now) := by
  simp [candidates, Table.keys]

theorem candidates_ascend (roster : Roster) (ordered : roster.entries.Ordered) (now : Int) :
    ((roster.candidates now).map (·.1)).Pairwise fun id later => id < later := by
  rw [candidates_keys]
  exact Table.keys_ascend _ (Table.filter_ordered _ _ ordered)

/-! Evicting -/

theorem evict_kept (now : Int) (roster : Roster) (candidates : List (String × Nat)) :
    (evict now roster candidates).1.policy = roster.policy ∧
      (evict now roster candidates).1.registrations = roster.registrations := by
  induction candidates generalizing roster with
  | nil => exact ⟨rfl, rfl⟩
  | cons candidate rest ih =>
      simp only [evict]
      split
      · exact ih (roster.deregister candidate.1)
      · exact ih roster

theorem evict_get? (now : Int) (roster : Roster) (candidates : List (String × Nat))
    (id : String) :
    (evict now roster candidates).1.entries.get? id =
      if id ∈ (evict now roster candidates).2 then none else roster.entries.get? id := by
  induction candidates generalizing roster with
  | nil => rfl
  | cons candidate rest ih =>
      simp only [evict]
      split
      · rw [ih (roster.deregister candidate.1)]
        by_cases same : candidate.1 = id
        · simp [deregister, Table.get?_erase, same]
        · simp [deregister, Table.get?_erase, same, Ne.symm same]
      · exact ih roster

theorem stillEvictable_iff (roster : Roster) (now : Int) (id : String) (number : Nat) :
    roster.stillEvictable now (id, number) = true ↔
      ∃ entry, roster.entries.get? id = some entry ∧ entry.registration = number ∧
        entry.node.isEvictable roster.policy now = true := by
  unfold stillEvictable
  cases roster.entries.get? id with
  | none => simp
  | some entry => simp

theorem stillEvictable_deregister (roster : Roster) (now : Int) (id : String)
    (candidate : String × Nat) (different : candidate.1 ≠ id) :
    (roster.deregister id).stillEvictable now candidate = roster.stillEvictable now candidate := by
  simp [stillEvictable, deregister, Table.get?_erase, Ne.symm different]

/-- The removal of one candidate does not decide about another one. -/
theorem evict_evicted (now : Int) (roster : Roster) (candidates : List (String × Nat))
    (distinct : (candidates.map (·.1)).Nodup) :
    (evict now roster candidates).2 =
      (candidates.filter (roster.stillEvictable now)).map (·.1) := by
  induction candidates generalizing roster with
  | nil => rfl
  | cons candidate rest ih =>
      obtain ⟨single, others⟩ := List.nodup_cons.mp distinct
      simp only [evict]
      split
      next still =>
        -- a candidate has an id of its own, so the others are judged as before
        have same : rest.filter ((roster.deregister candidate.1).stillEvictable now) =
            rest.filter (roster.stillEvictable now) := by
          apply List.filter_congr
          intro other member
          apply roster.stillEvictable_deregister
          intro hit
          exact single (List.mem_map.mpr ⟨other, member, hit⟩)
        rw [List.filter_cons_of_pos still, List.map_cons, ih _ others, same]
      next gone => rw [List.filter_cons_of_neg gone, ih roster others]

/-! Whole sweeps -/

variable (roster : Roster) (now : Int)

theorem sweep_kept :
    (roster.sweep now).1.policy = roster.policy ∧
      (roster.sweep now).1.registrations = roster.registrations :=
  evict_kept now (roster.markSilent now) _

/-- Nothing comes between picking and evicting, so all that are picked are evicted. -/
theorem sweep_evicted (sound : roster.Sound) :
    (roster.sweep now).2.evicted = ((roster.markSilent now).candidates now).map (·.1) := by
  have ordered := (roster.markSilent_sound now sound).ordered
  have distinct : (((roster.markSilent now).candidates now).map (·.1)).Nodup :=
    ((roster.markSilent now).candidates_ascend ordered now).imp String.ne_of_lt
  have all : ∀ candidate ∈ (roster.markSilent now).candidates now,
      (roster.markSilent now).stillEvictable now candidate = true := by
    rintro ⟨id, number⟩ member
    exact (stillEvictable_iff _ _ _ _).mpr ((mem_candidates _ ordered _ _ _).mp member)
  have picked := evict_evicted now (roster.markSilent now) _ distinct
  rwa [List.filter_eq_self.mpr all] at picked

theorem mem_evicted (sound : roster.Sound) (id : String) :
    id ∈ (roster.sweep now).2.evicted ↔
      ∃ entry, roster.entries.get? id = some entry ∧
        (entry.node.swept roster.policy now).isEvictable roster.policy now = true := by
  have ordered := (roster.markSilent_sound now sound).ordered
  rw [roster.sweep_evicted now sound, List.mem_map]
  constructor
  · rintro ⟨⟨_, number⟩, member, rfl⟩
    obtain ⟨marked, found, _, evictable⟩ := (mem_candidates _ ordered _ _ _).mp member
    rw [markSilent_get?] at found
    obtain ⟨entry, stored, rfl⟩ := Option.map_eq_some_iff.mp found
    exact ⟨entry, stored, evictable⟩
  · rintro ⟨entry, stored, evictable⟩
    refine ⟨(id, entry.registration), (mem_candidates _ ordered _ _ _).mpr ?_, rfl⟩
    refine ⟨entry.swept roster.policy now, ?_, rfl, evictable⟩
    rw [markSilent_get?, stored]
    rfl

theorem mem_unreachable (sound : roster.Sound) (id : String) :
    id ∈ (roster.sweep now).2.unreachable ↔
      ∃ entry, roster.entries.get? id = some entry ∧
        entry.node.isOverdue roster.policy now = true := by
  simp only [sweep, overdue, Table.keys, List.mem_map, List.mem_filter]
  constructor
  · rintro ⟨⟨_, entry⟩, ⟨member, late⟩, rfl⟩
    exact ⟨entry, (Table.mem_iff_get? _ sound.ordered _ _).mp member, late⟩
  · rintro ⟨entry, stored, late⟩
    exact ⟨(id, entry), ⟨(Table.mem_iff_get? _ sound.ordered _ _).mpr stored, late⟩, rfl⟩

theorem sweep_get? (id : String) :
    (roster.sweep now).1.entries.get? id =
      if id ∈ (roster.sweep now).2.evicted then none
      else (roster.entries.get? id).map (Entry.swept roster.policy now) := by
  rw [← markSilent_get?]
  exact evict_get? now (roster.markSilent now) _ id

/-- A report lists each node once, in ascending order. -/
theorem sweep_ascends (sound : roster.Sound) :
    ((roster.sweep now).2.unreachable.Pairwise fun id later => id < later) ∧
      (roster.sweep now).2.evicted.Pairwise fun id later => id < later := by
  constructor
  · exact Table.keys_ascend _ (Table.filter_ordered _ _ sound.ordered)
  · rw [roster.sweep_evicted now sound]
    exact candidates_ascend _ (roster.markSilent_sound now sound).ordered now

end Roster

end FaultInjection
