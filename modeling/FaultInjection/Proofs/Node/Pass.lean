import FaultInjection.Proofs.Node.Turn

/-!
A pass of an agent over the failures that it was given. Each failure has one turn, which finds
what belongs to it as the pass found it, and what the turn leaves behind stands at the end of the
pass. Engines of failures that were not given are gone then.
-/

namespace FaultInjection

variable {α σ : Type} [Attack α] [Link σ]

namespace Agent

theorem visit_agent (clock : Clock) (progress : SyncProgress σ α) (assignment : Wire.Assignment)
    (own : assignment.node = progress.agent.node) :
    (visit clock progress assignment).agent =
      (progress.agent.reconcile clock.now assignment).1.agent := by
  simp [visit, own]

theorem visit_elsewhere (clock : Clock) (progress : SyncProgress σ α)
    (assignment : Wire.Assignment) :
    Elsewhere assignment.id progress.agent (visit clock progress assignment).agent := by
  by_cases own : assignment.node = progress.agent.node
  · rw [visit_agent clock progress assignment own]
    exact progress.agent.reconcile_elsewhere clock.now assignment
  · simp only [visit, ne_eq, own, not_false_eq_true, ↓reduceIte]
    exact Elsewhere.refl _ _

theorem visit_valid [LawfulAttack α] (clock : Clock) (progress : SyncProgress σ α)
    (assignment : Wire.Assignment) (valid : progress.agent.Valid) :
    (visit clock progress assignment).agent.Valid := by
  by_cases own : assignment.node = progress.agent.node
  · rw [visit_agent clock progress assignment own]
    exact progress.agent.reconcile_valid clock.now assignment valid
  · simp only [visit, ne_eq, own, not_false_eq_true, ↓reduceIte]
    exact valid

theorem visit_errors (clock : Clock) (progress : SyncProgress σ α) (assignment : Wire.Assignment) :
    progress.report.errors ≤ (visit clock progress assignment).report.errors := by
  unfold visit
  split
  · exact Nat.le_refl _
  · exact Nat.le_add_right _ _

def visits (clock : Clock) (progress : SyncProgress σ α) (assignments : List Wire.Assignment) :
    SyncProgress σ α :=
  assignments.foldl (visit clock) progress

/-- Assignments of other failures leave what belongs to a failure alone. -/
theorem visits_elsewhere (clock : Clock) (progress : SyncProgress σ α)
    (assignments : List Wire.Assignment) :
    (visits clock progress assignments).agent.node = progress.agent.node ∧
      (visits clock progress assignments).agent.catalogue = progress.agent.catalogue ∧
      ∀ id, id ∉ assignments.map (·.id) →
        (visits clock progress assignments).agent.slots.get? id = progress.agent.slots.get? id ∧
        (visits clock progress assignments).agent.armed.get? id = progress.agent.armed.get? id := by
  induction assignments generalizing progress with
  | nil => exact ⟨rfl, rfl, fun _ _ => ⟨rfl, rfl⟩⟩
  | cons assignment rest ih =>
      have first := visit_elsewhere clock progress assignment
      obtain ⟨node, catalogue, others⟩ := ih (visit clock progress assignment)
      refine ⟨node.trans first.node, catalogue.trans first.catalogue, fun id absent => ?_⟩
      rw [List.map_cons, List.mem_cons, not_or] at absent
      obtain ⟨slots, armed⟩ := others id absent.2
      exact ⟨slots.trans (first.slots id absent.1), armed.trans (first.armed id absent.1)⟩

theorem visits_valid [LawfulAttack α] (clock : Clock) (progress : SyncProgress σ α)
    (assignments : List Wire.Assignment) (valid : progress.agent.Valid) :
    (visits clock progress assignments).agent.Valid := by
  induction assignments generalizing progress with
  | nil => exact valid
  | cons assignment rest ih => exact ih _ (visit_valid clock progress assignment valid)

/-- A generation that is noted was noted before, or was handed out. -/
theorem visits_armed (clock : Clock) (progress : SyncProgress σ α)
    (assignments : List Wire.Assignment) (id : String) (generation : UInt64)
    (noted : (visits clock progress assignments).agent.armed.get? id = some generation) :
    progress.agent.armed.get? id = some generation ∨
      ∃ assignment ∈ assignments, assignment.id = id ∧ assignment.generation = generation := by
  induction assignments generalizing progress with
  | nil => exact Or.inl noted
  | cons assignment rest ih =>
      rcases ih (visit clock progress assignment) noted with before | ⟨later, member, same⟩
      · by_cases own : assignment.node = progress.agent.node
        · rw [visit_agent clock progress assignment own] at before
          rcases progress.agent.reconcile_armed clock.now assignment id generation before with
            old | new
          · exact Or.inl old
          · exact Or.inr ⟨assignment, List.mem_cons_self, new⟩
        · simp only [visit, ne_eq, own, not_false_eq_true, ↓reduceIte] at before
          exact Or.inl before
      · exact Or.inr ⟨later, List.mem_cons_of_mem _ member, same⟩

theorem visits_errors (clock : Clock) (progress : SyncProgress σ α)
    (assignments : List Wire.Assignment) :
    progress.report.errors ≤ (visits clock progress assignments).report.errors := by
  induction assignments generalizing progress with
  | nil => exact Nat.le_refl _
  | cons assignment rest ih =>
      exact Nat.le_trans (visit_errors clock progress assignment) (ih _)

/-! Giving up engines -/

omit [Link σ] in
theorem discard_errors (progress : SyncProgress σ α) (id : String) :
    progress.report.errors ≤ (discard progress id).report.errors :=
  Nat.le_add_right _ _

omit [Link σ] in
theorem discard_valid (progress : SyncProgress σ α) (id : String) (valid : progress.agent.Valid) :
    (discard progress id).agent.Valid :=
  progress.agent.retire_valid id valid

omit [Link σ] in
theorem discards_kept (progress : SyncProgress σ α) (ids : List String) :
    (ids.foldl discard progress).far = progress.far ∧
      (ids.foldl discard progress).agent.node = progress.agent.node ∧
      (ids.foldl discard progress).agent.catalogue = progress.agent.catalogue ∧
      progress.report.errors ≤ (ids.foldl discard progress).report.errors := by
  induction ids generalizing progress with
  | nil => exact ⟨rfl, rfl, rfl, Nat.le_refl _⟩
  | cons id rest ih =>
      have first := progress.agent.retire_elsewhere id
      obtain ⟨far, node, catalogue, errors⟩ := ih (discard progress id)
      exact ⟨far, node.trans first.node, catalogue.trans first.catalogue,
        Nat.le_trans (discard_errors progress id) errors⟩

omit [Link σ] in
/-- Nothing is left of the failures that are given up, and the others keep what they have. -/
theorem discards_left (progress : SyncProgress σ α) (ids : List String) (id : String) :
    (ids.foldl discard progress).agent.slots.get? id =
        (if id ∈ ids then none else progress.agent.slots.get? id) ∧
      (ids.foldl discard progress).agent.armed.get? id =
        if id ∈ ids then none else progress.agent.armed.get? id := by
  induction ids generalizing progress with
  | nil => simp
  | cons first rest ih =>
      obtain ⟨slots, armed⟩ := ih (discard progress first)
      rw [List.foldl_cons, slots, armed]
      simp only [discard, retire_slots, Table.get?_erase, retire_armed, List.mem_cons]
      by_cases same : first = id
      · simp [same]
      · have different : ¬ id = first := fun wrong => same wrong.symm
        simp [same, different]

omit [Link σ] in
theorem discards_valid (progress : SyncProgress σ α) (ids : List String)
    (valid : progress.agent.Valid) : (ids.foldl discard progress).agent.Valid := by
  induction ids generalizing progress with
  | nil => exact valid
  | cons id rest ih => exact ih _ (discard_valid progress id valid)

/-! A whole pass -/

def passed (agent : Agent α) (clock : Clock) (far : σ) (assignments : List Wire.Assignment) :
    SyncProgress σ α :=
  visits clock ⟨far, agent, ⟨0, 0, 0⟩, []⟩ assignments

theorem passed_append (agent : Agent α) (clock : Clock) (far : σ)
    (earlier later : List Wire.Assignment) (assignment : Wire.Assignment) :
    agent.passed clock far (earlier ++ assignment :: later) =
      visits clock (visit clock (agent.passed clock far earlier) assignment) later := by
  simp [passed, visits]

theorem passed_elsewhere (agent : Agent α) (clock : Clock) (far : σ)
    (assignments : List Wire.Assignment) :
    (agent.passed clock far assignments).agent.node = agent.node ∧
      (agent.passed clock far assignments).agent.catalogue = agent.catalogue ∧
      ∀ id, id ∉ assignments.map (·.id) →
        (agent.passed clock far assignments).agent.slots.get? id = agent.slots.get? id ∧
        (agent.passed clock far assignments).agent.armed.get? id = agent.armed.get? id :=
  visits_elsewhere clock ⟨far, agent, ⟨0, 0, 0⟩, []⟩ assignments

/-- An assignment among others that are all of different failures. -/
theorem apart_of_distinct (earlier later : List Wire.Assignment) (assignment : Wire.Assignment)
    (distinct : ((earlier ++ assignment :: later).map (·.id)).Nodup) :
    assignment.id ∉ earlier.map (·.id) ∧ assignment.id ∉ later.map (·.id) := by
  rw [List.map_append, List.map_cons] at distinct
  obtain ⟨_, tail, different⟩ := List.nodup_append.mp distinct
  exact ⟨fun member => different _ member _ List.mem_cons_self rfl, (List.nodup_cons.mp tail).1⟩

def stale (agent : Agent α) (clock : Clock) (far : σ) (assignments : List Wire.Assignment) :
    List String :=
  (agent.passed clock far assignments).agent.slots.keys.filter fun id =>
    !(agent.listed assignments).contains id

/-- A failure that is listed is not given up. -/
theorem listed_not_stale (agent : Agent α) (clock : Clock) (far : σ)
    (assignments : List Wire.Assignment) (id : String) (listed : id ∈ agent.listed assignments) :
    id ∉ agent.stale clock far assignments := by
  intro member
  have missing := (List.mem_filter.mp member).2
  simp [listed] at missing

omit [Attack α] [Link σ] in
theorem mem_listed (agent : Agent α) (assignments : List Wire.Assignment)
    (assignment : Wire.Assignment) (member : assignment ∈ assignments)
    (own : assignment.node = agent.node) : assignment.id ∈ agent.listed assignments :=
  List.mem_map_of_mem (List.mem_filter.mpr ⟨member, decide_eq_true own⟩)

theorem follow_eq (agent : Agent α) (clock : Clock) (far : σ) (assignments : List Wire.Assignment) :
    agent.follow clock far assignments =
      (agent.stale clock far assignments).foldl discard (agent.passed clock far assignments) :=
  rfl

theorem follow_kept (agent : Agent α) (clock : Clock) (far : σ)
    (assignments : List Wire.Assignment) :
    (agent.follow clock far assignments).far = (agent.passed clock far assignments).far ∧
      (agent.follow clock far assignments).agent.node = agent.node ∧
      (agent.follow clock far assignments).agent.catalogue = agent.catalogue ∧
      (agent.passed clock far assignments).report.errors ≤
        (agent.follow clock far assignments).report.errors := by
  rw [follow_eq]
  obtain ⟨same, node, catalogue, errors⟩ := discards_kept (agent.passed clock far assignments)
    (agent.stale clock far assignments)
  obtain ⟨sameNode, sameCatalogue, _⟩ := agent.passed_elsewhere clock far assignments
  exact ⟨same, node.trans sameNode, catalogue.trans sameCatalogue, errors⟩

theorem follow_valid [LawfulAttack α] (agent : Agent α) (clock : Clock) (far : σ)
    (assignments : List Wire.Assignment) (valid : agent.Valid) :
    (agent.follow clock far assignments).agent.Valid :=
  discards_valid _ _ (visits_valid clock _ assignments valid)

theorem follow_armed (agent : Agent α) (clock : Clock) (far : σ)
    (assignments : List Wire.Assignment) (id : String) (generation : UInt64)
    (noted : (agent.follow clock far assignments).agent.armed.get? id = some generation) :
    agent.armed.get? id = some generation ∨
      ∃ assignment ∈ assignments, assignment.id = id ∧ assignment.generation = generation := by
  rw [follow_eq, (discards_left _ _ id).2] at noted
  split at noted
  · cases noted
  · exact visits_armed clock ⟨far, agent, ⟨0, 0, 0⟩, []⟩ assignments id generation noted

theorem follow_unlisted (agent : Agent α) (clock : Clock) (far : σ)
    (assignments : List Wire.Assignment) (id : String) (unlisted : id ∉ agent.listed assignments) :
    (agent.follow clock far assignments).agent.slots.get? id = none := by
  rw [follow_eq, (discards_left _ _ id).1]
  split
  · rfl
  next kept =>
    have absent : id ∉ (agent.passed clock far assignments).agent.slots.keys := by
      intro member
      apply kept
      exact List.mem_filter.mpr ⟨member, by simpa using unlisted⟩
    rw [Table.mem_keys_iff, Option.isSome_iff_ne_none, not_not] at absent
    exact absent

/-- What the turn of an assignment leaves behind stands at the end of the pass, and before the turn
nothing has happened to its failure. -/
theorem follow_turn (agent : Agent α) (clock : Clock) (far : σ)
    (earlier later : List Wire.Assignment) (assignment : Wire.Assignment)
    (distinct : ((earlier ++ assignment :: later).map (·.id)).Nodup)
    (own : assignment.node = agent.node) :
    let start := (agent.passed clock far earlier).agent
    let turn := start.reconcile clock.now assignment
    let after := agent.follow clock far (earlier ++ assignment :: later)
    start.slots.get? assignment.id = agent.slots.get? assignment.id ∧
      start.armed.get? assignment.id = agent.armed.get? assignment.id ∧
      after.agent.slots.get? assignment.id = turn.1.agent.slots.get? assignment.id ∧
      after.agent.armed.get? assignment.id = turn.1.agent.armed.get? assignment.id ∧
      (after.report.errors = 0 → turn.1.result = .ok ()) := by
  intro start turn after
  obtain ⟨before, behind⟩ := apart_of_distinct earlier later assignment distinct
  obtain ⟨sameNode, _, sameBefore⟩ := agent.passed_elsewhere clock far earlier
  have ours : assignment.node = start.node := own.trans sameNode.symm
  have whole := agent.passed_append clock far earlier later assignment
  obtain ⟨_, _, sameBehind⟩ :=
    visits_elsewhere clock (visit clock (agent.passed clock far earlier) assignment) later
  have listed : assignment.id ∉ agent.stale clock far (earlier ++ assignment :: later) :=
    agent.listed_not_stale clock far _ _
      (agent.mem_listed _ assignment (List.mem_append_right _ List.mem_cons_self) own)
  refine ⟨(sameBefore _ before).1, (sameBefore _ before).2, ?_, ?_, ?_⟩
  -- later turns are of other failures, and this one is not given up
  · rw [← visit_agent clock (agent.passed clock far earlier) assignment ours]
    change (agent.follow clock far _).agent.slots.get? _ = _
    rw [follow_eq, (discards_left _ _ _).1, if_neg listed, whole]
    exact (sameBehind _ behind).1
  · rw [← visit_agent clock (agent.passed clock far earlier) assignment ours]
    change (agent.follow clock far _).agent.armed.get? _ = _
    rw [follow_eq, (discards_left _ _ _).2, if_neg listed, whole]
    exact (sameBehind _ behind).2
  · intro clean
    have passed := (agent.follow_kept clock far (earlier ++ assignment :: later)).2.2.2
    rw [whole] at passed
    have visited := visits_errors clock (visit clock (agent.passed clock far earlier) assignment)
      later
    -- errors are only ever counted up, so there was none in this turn
    have turned : (visit clock (agent.passed clock far earlier) assignment).report.errors =
        (agent.passed clock far earlier).report.errors + faultCount turn.1.result := by
      simp [visit, turn, start, ours]
    cases result : turn.1.result with
    | ok done => rfl
    | error error =>
        rw [result] at turned
        rw [clean] at passed
        simp only [faultCount] at turned
        omega

end Agent

end FaultInjection
