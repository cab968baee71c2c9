import FaultInjection.Node.Agent
import FaultInjection.Proofs.Engine.Invariant
import FaultInjection.Proofs.Failure.Delivery

/-!
What an agent does to one failure. A turn touches nothing that belongs to another failure, keeps
every engine valid, and, if it succeeds, leaves an engine of the failure's specification that is in
the expected state. One thing stands in the way: a failure that has run to its timeout stays down
until it is asked for anew.
-/

namespace FaultInjection

variable {α : Type} [Attack α]

namespace Agent

/-- Two agents that differ at most in what belongs to one failure. -/
structure Elsewhere (id : String) (before after : Agent α) : Prop where
  node : after.node = before.node
  catalogue : after.catalogue = before.catalogue
  slots : ∀ other, other ≠ id → after.slots.get? other = before.slots.get? other
  armed : ∀ other, other ≠ id → after.armed.get? other = before.armed.get? other

omit [Attack α] in
theorem Elsewhere.refl (id : String) (agent : Agent α) : Elsewhere id agent agent :=
  ⟨rfl, rfl, fun _ _ => rfl, fun _ _ => rfl⟩

omit [Attack α] in
theorem Elsewhere.trans {id : String} {first second third : Agent α}
    (start : Elsewhere id first second) (finish : Elsewhere id second third) :
    Elsewhere id first third :=
  ⟨finish.node.trans start.node, finish.catalogue.trans start.catalogue,
    fun other different => (finish.slots other different).trans (start.slots other different),
    fun other different => (finish.armed other different).trans (start.armed other different)⟩

omit [Attack α] in
theorem store_elsewhere (agent : Agent α) (id : String) (slot : Slot α) (engine : Engine α) :
    Elsewhere id agent (agent.store id slot engine) := by
  refine ⟨rfl, rfl, ?_, fun _ _ => rfl⟩
  intro other different
  simp [store, Table.get?_put, Ne.symm different]

omit [Attack α] in
theorem install_elsewhere (agent : Agent α) (failure : Failure) :
    Elsewhere failure.id agent (agent.install failure).agent := by
  unfold install
  split
  · exact Elsewhere.refl _ agent
  · refine ⟨rfl, rfl, ?_, fun _ _ => rfl⟩
    intro other different
    simp [Table.get?_put, Ne.symm different]

omit [Attack α] in
theorem install_built (agent : Agent α) (failure : Failure) (engine : Engine α)
    (built : Engine.ofFailure agent.catalogue failure = .ok engine) :
    (agent.install failure).result = .ok () ∧
      (agent.install failure).agent.engine? failure.id = some engine := by
  simp [install, built, engine?, Table.get?_put]

omit [Attack α] in
theorem install_unbuilt (agent : Agent α) (failure : Failure) (error : Error)
    (unbuilt : Engine.ofFailure agent.catalogue failure = .error error) :
    agent.install failure = ⟨.error error, agent, []⟩ := by
  simp [install, unbuilt]

theorem retire_elsewhere (agent : Agent α) (id : String) :
    Elsewhere id agent (agent.retire id).agent := by
  unfold retire
  split
  · exact Elsewhere.refl _ agent
  · refine ⟨rfl, rfl, ?_, fun _ _ => rfl⟩
    intro other different
    simp [Table.get?_erase, Ne.symm different]

@[simp] theorem retire_armed (agent : Agent α) (id : String) :
    (agent.retire id).agent.armed = agent.armed := by
  unfold retire
  split <;> rfl

theorem retire_slots (agent : Agent α) (id other : String) :
    (agent.retire id).agent.slots.get? other =
      if id = other then none else agent.slots.get? other := by
  unfold retire
  split
  next absent =>
    by_cases same : id = other
    · rw [if_pos same, ← same, absent]
    · rw [if_neg same]
  next => exact Table.get?_erase _ _ _

theorem prepare_elsewhere (agent : Agent α) (failure : Failure) :
    Elsewhere failure.id agent (agent.prepare failure).agent := by
  unfold prepare
  split
  · exact agent.install_elsewhere failure
  · split
    · exact Elsewhere.refl _ agent
    · exact (agent.retire_elsewhere failure.id).trans (install_elsewhere _ failure)

theorem enable_elsewhere (agent : Agent α) (now : Nat) (failure : Failure) (slot : Slot α) :
    Elsewhere failure.id agent (agent.enable now failure slot).agent := by
  unfold enable
  split
  · exact Elsewhere.refl _ agent
  · have stored := agent.store_elsewhere failure.id slot
      (slot.engine.fail now agent.stopped).1.engine
    dsimp only
    split
    · refine ⟨rfl, rfl, stored.slots, ?_⟩
      intro other different
      simp [store, Table.get?_put, Ne.symm different]
    · exact ⟨rfl, rfl, stored.slots, stored.armed⟩

theorem drive_elsewhere (agent : Agent α) (now : Nat) (failure : Failure) :
    Elsewhere failure.id agent (agent.drive now failure).agent := by
  have prepared := agent.prepare_elsewhere failure
  unfold drive
  dsimp only
  split
  · refine prepared.trans ?_
    split
    · exact enable_elsewhere _ now failure _
    · exact store_elsewhere _ failure.id _ _
    · exact Elsewhere.refl _ _
  · exact prepared

theorem ofAssignment_eq_ok (assignment : Wire.Assignment) (failure : Failure)
    (read : Failure.ofAssignment assignment = .ok failure) :
    failure.id = assignment.id ∧ failure.generation = assignment.generation ∧
      Failure.State.ofCode assignment.expected = .ok failure.expected := by
  obtain ⟨_, _, read⟩ := (bind_eq_ok _ _ _).mp read
  obtain ⟨_, expected, read⟩ := (bind_eq_ok _ _ _).mp read
  obtain ⟨_, _, read⟩ := (bind_eq_ok _ _ _).mp read
  cases read
  exact ⟨rfl, rfl, expected⟩

theorem reconcile_elsewhere (agent : Agent α) (now : Nat) (assignment : Wire.Assignment) :
    Elsewhere assignment.id agent (agent.reconcile now assignment).1.agent := by
  unfold reconcile
  split
  · exact Elsewhere.refl _ agent
  next failure read =>
    rw [← (ofAssignment_eq_ok assignment failure read).1]
    exact agent.drive_elsewhere now failure

/-! Every engine that an agent runs is valid. -/

def Valid (agent : Agent α) : Prop :=
  ∀ id slot, agent.slots.get? id = some slot → slot.engine.Valid

theorem store_valid (agent : Agent α) (id : String) (slot : Slot α) (engine : Engine α)
    (valid : agent.Valid) (fit : engine.Valid) : (agent.store id slot engine).Valid := by
  intro other found stored
  simp only [store, Table.get?_put] at stored
  split at stored
  · cases stored
    exact fit
  · exact valid other found stored

theorem install_valid (agent : Agent α) (failure : Failure) (valid : agent.Valid) :
    (agent.install failure).agent.Valid := by
  unfold install
  split
  · exact valid
  next engine built =>
    intro other found stored
    simp only [Table.get?_put] at stored
    split at stored
    · cases stored
      exact Engine.ofFailure_valid agent.catalogue failure engine built
    · exact valid other found stored

theorem retire_valid (agent : Agent α) (id : String) (valid : agent.Valid) :
    (agent.retire id).agent.Valid := by
  intro other found stored
  rw [retire_slots] at stored
  split at stored
  · cases stored
  · exact valid other found stored

theorem prepare_valid (agent : Agent α) (failure : Failure) (valid : agent.Valid) :
    (agent.prepare failure).agent.Valid := by
  unfold prepare
  split
  · exact agent.install_valid failure valid
  · split
    · exact valid
    · exact install_valid _ failure (agent.retire_valid failure.id valid)

theorem enable_valid [LawfulAttack α] (agent : Agent α) (now : Nat) (failure : Failure)
    (slot : Slot α) (valid : agent.Valid) (fit : slot.engine.Valid) :
    (agent.enable now failure slot).agent.Valid := by
  unfold enable
  split
  · exact valid
  · have tried := agent.store_valid failure.id slot _ valid
      (slot.engine.fail_valid now agent.stopped fit)
    dsimp only
    split <;> exact tried

theorem disable_valid (agent : Agent α) (id : String) (slot : Slot α) (valid : agent.Valid)
    (fit : slot.engine.Valid) : (agent.disable id slot).agent.Valid :=
  agent.store_valid id slot _ valid (slot.engine.revert_valid fit)

theorem drive_valid [LawfulAttack α] (agent : Agent α) (now : Nat) (failure : Failure)
    (valid : agent.Valid) : (agent.drive now failure).agent.Valid := by
  have prepared := agent.prepare_valid failure valid
  unfold drive
  dsimp only
  split
  next slot _ found =>
    have fit := prepared failure.id slot found
    split
    · exact enable_valid _ now failure slot prepared fit
    · exact disable_valid _ failure.id slot prepared fit
    · exact prepared
  · exact prepared

theorem reconcile_valid [LawfulAttack α] (agent : Agent α) (now : Nat)
    (assignment : Wire.Assignment) (valid : agent.Valid) :
    (agent.reconcile now assignment).1.agent.Valid := by
  unfold reconcile
  split
  · exact valid
  · exact agent.drive_valid now _ valid

/-! What a turn that succeeds has come to. -/

/-- Whether the agent has an engine of the failure that ran to its timeout when it was last
enabled, and has not been asked to enable it since. -/
def Remembers (agent : Agent α) (failure : Failure) : Prop :=
  ∃ slot, agent.slots.get? failure.id = some slot ∧
    slot.engine.specification.same failure.specification = true ∧ slot.engine.expired = true ∧
    ∃ generation, agent.armed.get? failure.id = some generation ∧ failure.generation ≤ generation

/-- An agent either has an engine of the specification already, or builds one. -/
theorem prepare_cases (agent : Agent α) (failure : Failure)
    (succeeded : (agent.prepare failure).result = .ok ()) :
    (∃ slot, agent.slots.get? failure.id = some slot ∧
      slot.engine.specification.same failure.specification = true ∧
      (agent.prepare failure).agent = agent) ∨
    (∃ slot, (agent.prepare failure).agent.slots.get? failure.id = some slot ∧
      Engine.ofFailure agent.catalogue failure = .ok slot.engine ∧
      ∀ old, agent.slots.get? failure.id = some old →
        old.engine.specification.same failure.specification ≠ true) := by
  have installed : ∀ before : Agent α, (before.install failure).result = .ok () →
      ∃ slot, (before.install failure).agent.slots.get? failure.id = some slot ∧
        Engine.ofFailure before.catalogue failure = .ok slot.engine := by
    intro before succeeded
    cases built : Engine.ofFailure before.catalogue failure with
    | error error =>
        rw [before.install_unbuilt failure error built] at succeeded
        cases succeeded
    | ok engine =>
        obtain ⟨_, stored⟩ := before.install_built failure engine built
        obtain ⟨slot, found, rfl⟩ := Option.map_eq_some_iff.mp stored
        exact ⟨slot, found, rfl⟩
  unfold prepare at succeeded ⊢
  cases found : agent.slots.get? failure.id with
  | none =>
      simp only [engine?, found, Option.map_none] at succeeded ⊢
      obtain ⟨slot, stored, built⟩ := installed agent succeeded
      exact Or.inr ⟨slot, stored, built, fun old impossible => nomatch impossible⟩
  | some slot =>
      simp only [engine?, found, Option.map_some] at succeeded ⊢
      split at succeeded
      next same =>
        rw [if_pos same]
        exact Or.inl ⟨slot, rfl, same, rfl⟩
      next different =>
        rw [if_neg different]
        obtain ⟨fresh, stored, built⟩ := installed _ succeeded
        rw [(agent.retire_elsewhere failure.id).catalogue] at built
        refine Or.inr ⟨fresh, stored, built, ?_⟩
        intro old same
        cases same
        exact different

@[simp] theorem prepare_armed (agent : Agent α) (failure : Failure) :
    (agent.prepare failure).agent.armed = agent.armed := by
  have installed : ∀ before : Agent α, (before.install failure).agent.armed = before.armed := by
    intro before
    unfold install
    split <;> rfl
  unfold prepare
  split
  · exact installed agent
  · split
    · rfl
    · exact (installed _).trans (agent.retire_armed failure.id)

omit [Attack α] in
theorem staysDown_iff (agent : Agent α) (failure : Failure) (engine : Engine α) :
    agent.staysDown failure engine = true ↔ engine.expired = true ∧
      ∃ generation, agent.armed.get? failure.id = some generation ∧
        failure.generation ≤ generation := by
  unfold staysDown
  cases armed : agent.armed.get? failure.id with
  | none => simp
  | some generation => simp

/-- After a failure was prepared its engine has its specification, and would stay down if and only
if the agent remembers it. -/
theorem prepare_ready (agent : Agent α) (failure : Failure)
    (succeeded : (agent.prepare failure).result = .ok ()) :
    ∃ slot, (agent.prepare failure).agent.slots.get? failure.id = some slot ∧
      slot.engine.specification.same failure.specification = true ∧
      ((agent.prepare failure).agent.staysDown failure slot.engine = true ↔
        agent.Remembers failure) ∧
      (agent.Remembers failure → agent.slots.get? failure.id = some slot) := by
  rcases agent.prepare_cases failure succeeded with ⟨slot, found, same, kept⟩ |
    ⟨slot, stored, built, different⟩
  · refine ⟨slot, by rw [kept, found], same, ?_, fun _ => found⟩
    rw [kept, staysDown_iff]
    constructor
    · rintro ⟨expired, armed⟩
      exact ⟨slot, found, same, expired, armed⟩
    · rintro ⟨other, alike, _, expired, armed⟩
      cases found.symm.trans alike
      exact ⟨expired, armed⟩
  -- a new engine has not run to a timeout, and the old one was of another specification
  · have unexpired := Engine.ofFailure_expired agent.catalogue failure slot.engine built
    have specified := Engine.ofFailure_specification agent.catalogue failure slot.engine built
    have forgotten : ¬ agent.Remembers failure := by
      rintro ⟨old, found, same, _⟩
      exact different old found same
    refine ⟨slot, stored, by rw [specified]; exact Specification.same_refl _, ?_,
      fun remembered => absurd remembered forgotten⟩
    rw [staysDown_iff, unexpired]
    exact ⟨fun stays => (nomatch stays.1), fun remembered => absurd remembered forgotten⟩

theorem enable_result (agent : Agent α) (now : Nat) (failure : Failure) (slot : Slot α)
    (awake : agent.staysDown failure slot.engine ≠ true)
    (succeeded : (agent.enable now failure slot).result = .ok ()) :
    ∃ later, (agent.enable now failure slot).agent.slots.get? failure.id = some later ∧
      later.engine.specification = slot.engine.specification ∧ later.engine.state = .enabled ∧
      (agent.enable now failure slot).agent.armed.get? failure.id = some failure.generation := by
  simp only [enable, if_neg awake] at succeeded ⊢
  simp only [succeeded]
  refine ⟨{ slot with engine := (slot.engine.fail now agent.stopped).1.engine }, ?_, ?_, ?_, ?_⟩
  · simp [store, Table.get?_put]
  · exact slot.engine.fail_specification now agent.stopped
  · rcases slot.engine.fail_cases now agent.stopped with ⟨enabled, same⟩ | ⟨_, _, same⟩ |
      ⟨_, error, _, same⟩
    · rw [same]
      exact enabled
    · rw [same]
      exact Engine.enterPeriod_state _ now
    · rw [same] at succeeded
      cases succeeded
  · simp [Table.get?_put]

theorem prepare_of_drive (agent : Agent α) (now : Nat) (failure : Failure)
    (succeeded : (agent.drive now failure).result = .ok ()) :
    (agent.prepare failure).result = .ok () := by
  unfold drive at succeeded
  dsimp only at succeeded
  split at succeeded
  next ready _ => exact ready
  next => exact succeeded

theorem drive_enabled (agent : Agent α) (now : Nat) (failure : Failure)
    (expected : failure.expected = .enabled)
    (succeeded : (agent.drive now failure).result = .ok ()) :
    ∃ slot, (agent.drive now failure).agent.slots.get? failure.id = some slot ∧
      slot.engine.specification.same failure.specification = true ∧
      ((agent.Remembers failure ∧ agent.slots.get? failure.id = some slot ∧
          (agent.drive now failure).agent.armed.get? failure.id = agent.armed.get? failure.id) ∨
        (¬ agent.Remembers failure ∧ slot.engine.state = .enabled ∧
          (agent.drive now failure).agent.armed.get? failure.id = some failure.generation)) := by
  have prepared := agent.prepare_of_drive now failure succeeded
  obtain ⟨slot, found, same, stays, kept⟩ := agent.prepare_ready failure prepared
  simp only [drive, prepared, found, expected] at succeeded ⊢
  -- an engine that is remembered is left as it is; any other is enabled
  by_cases remembered : agent.Remembers failure
  · have idle := stays.mpr remembered
    refine ⟨slot, ?_, same, Or.inl ⟨remembered, kept remembered, ?_⟩⟩
    · simp [enable, idle, found]
    · simp [enable, idle]
  · have awake := fun idle => remembered (stays.mp idle)
    obtain ⟨later, stored, specified, enabled, armed⟩ :=
      enable_result _ now failure slot awake succeeded
    exact ⟨later, stored, by rw [specified]; exact same, Or.inr ⟨remembered, enabled, armed⟩⟩

/-- A failure that is to be disabled has its engine reverted, whatever state it is in. -/
theorem drive_reverted (agent : Agent α) (now : Nat) (failure : Failure)
    (expected : failure.expected = .disabled)
    (succeeded : (agent.drive now failure).result = .ok ()) :
    ∃ slot engine, (agent.drive now failure).agent.slots.get? failure.id = some slot ∧
      slot.engine.specification.same failure.specification = true ∧
      slot.engine = (engine : Engine α).revert.engine ∧ engine.revert.result = .ok () := by
  have prepared := agent.prepare_of_drive now failure succeeded
  obtain ⟨slot, found, same, _⟩ := agent.prepare_ready failure prepared
  simp only [drive, prepared, found, expected, disable] at succeeded ⊢
  refine ⟨{ slot with engine := slot.engine.revert.engine }, slot.engine, ?_, ?_, rfl, succeeded⟩
  · simp [store, Table.get?_put]
  · simp only [Engine.revert, Engine.subside_specification]
    exact same

theorem drive_disabled [LawfulAttack α] (agent : Agent α) (now : Nat) (failure : Failure)
    (expected : failure.expected = .disabled)
    (succeeded : (agent.drive now failure).result = .ok ()) :
    ∃ slot, (agent.drive now failure).agent.slots.get? failure.id = some slot ∧
      slot.engine.specification.same failure.specification = true ∧
      slot.engine.state = .disabled ∧
      ∀ attack ∈ slot.engine.attacks, Attack.isApplied attack = false := by
  obtain ⟨slot, engine, stored, same, reverted, clean⟩ :=
    agent.drive_reverted now failure expected succeeded
  refine ⟨slot, stored, same, ?_, ?_⟩
  · rw [reverted]
    exact Engine.subside_state _
  · rw [reverted]
    exact Engine.subside_idle _ clean

/-! What an agent notes of the generations. -/

theorem enable_armed (agent : Agent α) (now : Nat) (failure : Failure) (slot : Slot α)
    (id : String) (generation : UInt64)
    (noted : (agent.enable now failure slot).agent.armed.get? id = some generation) :
    agent.armed.get? id = some generation ∨
      failure.id = id ∧ failure.generation = generation := by
  unfold enable at noted
  split at noted
  · exact Or.inl noted
  · dsimp only at noted
    split at noted
    · simp only [store, Table.get?_put] at noted
      split at noted
      next same => exact Or.inr ⟨same, Option.some.inj noted⟩
      next => exact Or.inl noted
    · exact Or.inl noted

theorem reconcile_armed (agent : Agent α) (now : Nat) (assignment : Wire.Assignment)
    (id : String) (generation : UInt64)
    (noted : (agent.reconcile now assignment).1.agent.armed.get? id = some generation) :
    agent.armed.get? id = some generation ∨
      assignment.id = id ∧ assignment.generation = generation := by
  unfold reconcile at noted
  split at noted
  · exact Or.inl noted
  next failure read =>
    obtain ⟨sameId, sameGeneration, _⟩ := ofAssignment_eq_ok assignment failure read
    rw [← sameId, ← sameGeneration]
    rw [← agent.prepare_armed failure]
    unfold drive at noted
    dsimp only at noted
    split at noted
    · split at noted
      · exact enable_armed _ now failure _ id generation noted
      · exact Or.inl noted
      · exact Or.inl noted
    · exact Or.inl noted

/-! What happens to an agent between its passes. -/

theorem ofNode_valid (node : String) (catalogue : Catalogue α) :
    (ofNode node catalogue).Valid := by
  intro id slot impossible
  cases impossible

theorem advance_slots (agent : Agent α) (now : Nat) (id : String) :
    (agent.advance now).slots.get? id = (agent.slots.get? id).map fun slot =>
      { slot with engine := (slot.engine.advance now).1 } := by
  rw [← Table.get?_map]
  rfl

theorem advance_valid [LawfulAttack α] (agent : Agent α) (now : Nat) (valid : agent.Valid) :
    (agent.advance now).Valid := by
  intro id slot found
  rw [advance_slots] at found
  obtain ⟨before, stored, rfl⟩ := Option.map_eq_some_iff.mp found
  exact before.engine.advance_valid now (valid id before stored)

theorem revertAll_kept (agent : Agent α) :
    agent.revertAll.node = agent.node ∧ agent.revertAll.armed = [] ∧
      (agent.Valid → agent.revertAll.Valid) := by
  have retired : ∀ (ids : List String) (before : Agent α),
      let after := ids.foldl (fun agent id => (agent.retire id).agent) before
      after.node = before.node ∧ after.armed = before.armed ∧ (before.Valid → after.Valid) := by
    intro ids
    induction ids with
    | nil => exact fun before => ⟨rfl, rfl, fun valid => valid⟩
    | cons id rest ih =>
        intro before
        obtain ⟨node, armed, valid⟩ := ih (before.retire id).agent
        exact ⟨node.trans (before.retire_elsewhere id).node, armed.trans (before.retire_armed id),
          fun fit => valid (before.retire_valid id fit)⟩
  exact retired _ _

end Agent

end FaultInjection
