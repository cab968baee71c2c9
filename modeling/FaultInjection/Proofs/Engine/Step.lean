import FaultInjection.Proofs.Engine.Pass

/-!
What each step does to an engine: an apply, a revert, the running out of one timer, and the going
on of time, in which several timers may run out. Of the timers that are due at most one is heeded,
so it does not matter in which order they run out.
-/

namespace FaultInjection

variable {α : Type} [Attack α]

theorem isIdle_iff (engine : Engine α) :
    engine.isIdle = true ↔ ∀ attack ∈ engine.attacks, Attack.isApplied attack = false := by
  simp [Engine.isIdle]

namespace Engine

/-! Reverting -/

@[simp] theorem subside_state (engine : Engine α) : engine.subside.engine.state = .disabled := by
  unfold subside
  by_cases quiet : ({ engine with armed := none }.isIdle &&
      ({ engine with armed := none } : Engine α).state = .disabled) = true
  · simp only [quiet, ↓reduceIte]
    exact of_decide_eq_true (Bool.and_eq_true_iff.mp quiet).2
  · simp only [quiet]
    rfl

@[simp] theorem subside_armed (engine : Engine α) : engine.subside.engine.armed = none := by
  unfold subside
  dsimp only
  split <;> rfl

@[simp] theorem subside_period (engine : Engine α) :
    engine.subside.engine.period = engine.period := by
  unfold subside
  dsimp only
  split <;> rfl

@[simp] theorem subside_timers (engine : Engine α) :
    engine.subside.engine.timers = engine.timers := by
  unfold subside
  dsimp only
  split <;> rfl

@[simp] theorem subside_expired (engine : Engine α) :
    engine.subside.engine.expired = engine.expired := by
  unfold subside
  dsimp only
  split <;> rfl

@[simp] theorem subside_specification (engine : Engine α) :
    engine.subside.engine.specification = engine.specification := by
  unfold subside
  dsimp only
  split <;> rfl

@[simp] theorem subside_id (engine : Engine α) : engine.subside.engine.id = engine.id := by
  unfold subside
  dsimp only
  split <;> rfl

theorem subside_published (engine : Engine α) (faithful : engine.published = engine.state) :
    engine.subside.engine.published = .disabled := by
  unfold subside
  by_cases quiet : ({ engine with armed := none }.isIdle &&
      ({ engine with armed := none } : Engine α).state = .disabled) = true
  · simp only [quiet, ↓reduceIte]
    exact faithful.trans (of_decide_eq_true (Bool.and_eq_true_iff.mp quiet).2)
  · simp only [quiet]
    rfl

/-- Nothing is left out when an engine is quiet: it has nothing to revert then. -/
theorem subside_attacks (engine : Engine α) :
    engine.subside.engine.attacks = engine.attacks.map reverted := by
  unfold subside
  dsimp only
  split
  next quiet =>
    have idle := (isIdle_iff _).mp (Bool.and_eq_true_iff.mp quiet).1
    have unchanged : ∀ attack ∈ engine.attacks, reverted attack = attack := by
      intro attack member
      simp [reverted, idle attack member]
    exact (List.map_congr_left unchanged).trans (List.map_id _) |>.symm
  next => exact revertAll_attacks 0 engine.attacks

theorem mem_subside_uses (engine : Engine α) (place : Nat) (attack : α)
    (found : engine.attacks[place]? = some attack) (applied : Attack.isApplied attack = true) :
    AttackUse.revert place ∈ engine.subside.uses := by
  unfold subside
  dsimp only
  split
  next quiet =>
    have idle := (isIdle_iff _).mp (Bool.and_eq_true_iff.mp quiet).1
    have member : attack ∈ engine.attacks := List.mem_of_getElem? found
    rw [idle attack member] at applied
    cases applied
  next =>
    have ended := (mem_appliedPlaces engine.attacks place).mpr ⟨attack, found, applied⟩
    rw [revertAll_uses]
    exact List.mem_map_of_mem (List.mem_reverse.mpr ended)

/-- A revert that succeeds leaves no attack applied. -/
theorem subside_idle [LawfulAttack α] (engine : Engine α)
    (succeeded : engine.subside.result = .ok ()) :
    ∀ attack ∈ engine.subside.engine.attacks, Attack.isApplied attack = false := by
  have clean : ∀ attack ∈ engine.attacks, Attack.isApplied attack = true →
      (Attack.revert attack).1 = .ok () := by
    unfold subside at succeeded
    dsimp only at succeeded
    split at succeeded
    next quiet =>
      have idle := (isIdle_iff _).mp (Bool.and_eq_true_iff.mp quiet).1
      intro attack member applied
      rw [idle attack member] at applied
      cases applied
    next =>
      split at succeeded
      next none =>
        rw [revertAll_faults, List.isEmpty_iff] at none
        exact (complaints_eq_nil_iff engine.attacks).mp none
      next => cases succeeded
  rw [subside_attacks]
  intro attack member
  obtain ⟨before, known, rfl⟩ := List.mem_map.mp member
  exact reverted_idle before (clean before known)

/-! Applying -/

omit [Attack α] in
@[simp] theorem enterPeriod_attacks (engine : Engine α) (now : Nat) :
    (engine.enterPeriod now).attacks = engine.attacks := by
  simp only [enterPeriod]
  split <;> rfl

omit [Attack α] in
@[simp] theorem enterPeriod_state (engine : Engine α) (now : Nat) :
    (engine.enterPeriod now).state = .enabled := by
  simp only [enterPeriod]
  split <;> rfl

omit [Attack α] in
@[simp] theorem enterPeriod_published (engine : Engine α) (now : Nat) :
    (engine.enterPeriod now).published = .enabled := by
  simp only [enterPeriod]
  split <;> rfl

omit [Attack α] in
@[simp] theorem enterPeriod_period (engine : Engine α) (now : Nat) :
    (engine.enterPeriod now).period = engine.period + 1 := by
  simp only [enterPeriod]
  split <;> rfl

omit [Attack α] in
@[simp] theorem enterPeriod_expired (engine : Engine α) (now : Nat) :
    (engine.enterPeriod now).expired = false := by
  simp only [enterPeriod]
  split <;> rfl

omit [Attack α] in
@[simp] theorem enterPeriod_specification (engine : Engine α) (now : Nat) :
    (engine.enterPeriod now).specification = engine.specification := by
  simp only [enterPeriod]
  split <;> rfl

omit [Attack α] in
@[simp] theorem enterPeriod_id (engine : Engine α) (now : Nat) :
    (engine.enterPeriod now).id = engine.id := by
  simp only [enterPeriod]
  split <;> rfl

omit [Attack α] in
/-- The only timer that is new is the one for the period that begins. -/
theorem mem_enterPeriod_timers (engine : Engine α) (now : Nat) (timer : Timer)
    (member : timer ∈ (engine.enterPeriod now).timers) :
    timer ∈ engine.timers ∨ engine.specification.timeout.isZero = false ∧
      timer = ⟨now + engine.specification.timeout.nanos, engine.period + 1⟩ := by
  simp only [enterPeriod] at member
  split at member
  next => exact Or.inl member
  next some =>
    rcases List.mem_append.mp member with old | new
    · exact Or.inl old
    · exact Or.inr ⟨Bool.eq_false_iff.mpr some, List.mem_singleton.mp new⟩

/-- Everything that an apply can do. -/
theorem fail_cases (engine : Engine α) (now : Nat) (fired : Bool) :
    let pass := applyAll now 0 fired engine.attacks
    let tried := { engine with attacks := pass.attacks }
    (engine.state = .enabled ∧ engine.fail now fired = (⟨.ok (), engine, []⟩, fired)) ∨
    (engine.state ≠ .enabled ∧ pass.result = .ok () ∧
      engine.fail now fired = (⟨.ok (), tried.enterPeriod now, pass.uses⟩, pass.fired)) ∨
    (engine.state ≠ .enabled ∧ ∃ error, pass.result = .error error ∧
      engine.fail now fired =
        (⟨.error error, if tried.isIdle then tried else tried.enter .unknown, pass.uses⟩,
          pass.fired)) := by
  intro pass tried
  by_cases enabled : engine.state = .enabled
  · exact Or.inl ⟨enabled, by simp [fail, enabled]⟩
  · right
    cases outcome : pass.result with
    | ok done =>
        refine Or.inl ⟨enabled, rfl, ?_⟩
        simp [fail, enabled, pass, tried, outcome]
    | error error =>
        refine Or.inr ⟨enabled, error, rfl, ?_⟩
        simp [fail, enabled, pass, tried, outcome]

/-! Timers -/

theorem heeds_subside (engine : Engine α) (timer : Timer) :
    engine.subside.engine.heeds timer = false := by
  simp [heeds]

def timeOut (engine : Engine α) : EngineOutcome α := { engine with expired := true }.subside

theorem runOut_heeded (engine : Engine α) (timer : Timer) (heeded : engine.heeds timer = true) :
    engine.runOut timer = (engine.timeOut.engine, engine.timeOut.uses) := by
  simp [runOut, heeded, timeOut]

theorem runOut_stale (engine : Engine α) (timer : Timer) (stale : engine.heeds timer = false) :
    engine.runOut timer = (engine, []) := by
  simp [runOut, stale]

theorem runOutAll_stale (engine : Engine α) (due : List Timer)
    (stale : ∀ timer ∈ due, engine.heeds timer = false) : engine.runOutAll due = (engine, []) := by
  induction due with
  | nil => rfl
  | cons timer rest ih =>
      have head := engine.runOut_stale timer (stale timer List.mem_cons_self)
      have tail := ih fun later member => stale later (List.mem_cons_of_mem timer member)
      simp [runOutAll, head, tail]

/-- The timers that run out end the period if one of them was started for it, and once only. -/
theorem runOutAll_eq (engine : Engine α) (due : List Timer) :
    engine.runOutAll due =
      if due.any engine.heeds then (engine.timeOut.engine, engine.timeOut.uses)
      else (engine, []) := by
  induction due with
  | nil => rfl
  | cons timer rest ih =>
      by_cases heeded : engine.heeds timer = true
      · have spent : engine.timeOut.engine.runOutAll rest = (engine.timeOut.engine, []) :=
          runOutAll_stale _ rest fun later _ => heeds_subside _ later
        simp [runOutAll, runOut_heeded engine timer heeded, spent, heeded]
      · have stale := Bool.eq_false_iff.mpr heeded
        simp [runOutAll, runOut_stale engine timer stale, ih, stale]

def due (engine : Engine α) (now : Nat) : List Timer := engine.timers.filter (·.deadline ≤ now)

def waiting (engine : Engine α) (now : Nat) : Engine α :=
  { engine with timers := engine.timers.filter (now < ·.deadline) }

def elapse (engine : Engine α) (now : Nat) : Engine α :=
  { engine with attacks := engine.attacks.map (Attack.advance now) }

theorem advance_eq (engine : Engine α) (now : Nat) :
    engine.advance now =
      if (engine.due now).any engine.heeds then
        ((engine.waiting now).timeOut.engine.elapse now, (engine.waiting now).timeOut.uses)
      else ((engine.waiting now).elapse now, []) := by
  have settled := runOutAll_eq (engine.waiting now) (engine.due now)
  have same : (engine.waiting now).heeds = engine.heeds := rfl
  rw [same] at settled
  unfold advance
  change (((engine.waiting now).runOutAll (engine.due now)).1.elapse now,
    ((engine.waiting now).runOutAll (engine.due now)).2) = _
  rw [settled]
  split <;> rfl

theorem advance_unarmed (engine : Engine α) (now : Nat) (unarmed : engine.armed = none) :
    engine.advance now = ((engine.waiting now).elapse now, []) := by
  have quiet : (engine.due now).any engine.heeds = false := by
    simp [heeds, unarmed]
  rw [advance_eq, quiet]
  rfl

end Engine

end FaultInjection
