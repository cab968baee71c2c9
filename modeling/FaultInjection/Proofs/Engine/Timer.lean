import FaultInjection.Proofs.Engine.Step

/-!
Timers and the periods that they are to end. A timer is armed exactly while the engine is enabled
and its specification has a timeout, and it is the timer that the present period began with.
-/

namespace FaultInjection

variable {α : Type} [Attack α]

namespace Engine

def hasLiveTimer (engine : Engine α) : Prop := ∃ timer ∈ engine.timers, engine.heeds timer = true

def hasTimeout (engine : Engine α) : Prop := engine.specification.timeout.isZero = false

structure Timed (engine : Engine α) : Prop where
  expired : engine.expired = true → engine.state ≠ .enabled
  armed : engine.armed.isSome = true → engine.state = .enabled ∧ engine.hasTimeout
  current : engine.state = .enabled → engine.hasTimeout →
    engine.armed = some engine.period ∧ ∃ timer ∈ engine.timers, timer.period = engine.period

omit [Attack α] in
theorem heeds_iff (engine : Engine α) (timer : Timer) :
    engine.heeds timer = true ↔
      engine.armed = some timer.period ∧ engine.period = timer.period := by
  simp [heeds]

omit [Attack α] in
theorem unarmed_quiet (engine : Engine α) (unarmed : engine.armed = none) :
    ¬ engine.hasLiveTimer := by
  rintro ⟨timer, _, heeded⟩
  have armed := ((heeds_iff engine timer).mp heeded).1
  rw [unarmed] at armed
  cases armed

omit [Attack α] in
theorem Timed.live_iff {engine : Engine α} (timed : engine.Timed) :
    engine.hasLiveTimer ↔ engine.state = .enabled ∧ engine.hasTimeout := by
  constructor
  · rintro ⟨timer, _, heeded⟩
    have armed := ((heeds_iff engine timer).mp heeded).1
    exact timed.armed (by simp [armed])
  · rintro ⟨enabled, timeout⟩
    obtain ⟨armed, timer, member, same⟩ := timed.current enabled timeout
    refine ⟨timer, member, (heeds_iff engine timer).mpr ⟨?_, same.symm⟩⟩
    rw [armed, same]

omit [Attack α] in
theorem Timed.unarmed {engine : Engine α} (timed : engine.Timed) (down : engine.state ≠ .enabled) :
    engine.armed = none := by
  cases armed : engine.armed with
  | none => rfl
  | some period => exact absurd (timed.armed (by simp [armed])).1 down

omit [Attack α] in
theorem ofFailure_timed (catalogue : Catalogue α) (failure : Failure) (engine : Engine α)
    (built : Engine.ofFailure catalogue failure = .ok engine) : engine.Timed := by
  obtain ⟨attacks, _, rfl⟩ := (map_eq_ok _ _ _).mp built
  exact ⟨fun expired => (nomatch expired), fun armed => (nomatch armed),
    fun enabled => (nomatch enabled)⟩

omit [Attack α] in
theorem ofFailure_specification (catalogue : Catalogue α) (failure : Failure) (engine : Engine α)
    (built : Engine.ofFailure catalogue failure = .ok engine) :
    engine.specification = failure.specification := by
  obtain ⟨attacks, _, rfl⟩ := (map_eq_ok _ _ _).mp built
  rfl

omit [Attack α] in
theorem ofFailure_expired (catalogue : Catalogue α) (failure : Failure) (engine : Engine α)
    (built : Engine.ofFailure catalogue failure = .ok engine) : engine.expired = false := by
  obtain ⟨attacks, _, rfl⟩ := (map_eq_ok _ _ _).mp built
  rfl

/-! Each step keeps the timers in order. -/

theorem subside_timed (engine : Engine α) : engine.subside.engine.Timed := by
  have down := engine.subside_state
  constructor
  · intro _ enabled; rw [down] at enabled; cases enabled
  · intro armed; rw [subside_armed] at armed; cases armed
  · intro enabled; rw [down] at enabled; cases enabled

omit [Attack α] in
theorem enterPeriod_timed (engine : Engine α) (now : Nat) (unarmed : engine.armed = none) :
    (engine.enterPeriod now).Timed := by
  unfold enterPeriod
  dsimp only
  split
  next none =>
    exact ⟨fun expired => (nomatch expired), fun armed => by simp [enter, unarmed] at armed,
      fun _ timeout => by simp [hasTimeout, enter, none] at timeout⟩
  next some =>
    refine ⟨fun expired => (nomatch expired), fun _ => ⟨rfl, Bool.eq_false_iff.mpr some⟩, ?_⟩
    intro _ _
    exact ⟨rfl, _, List.mem_append_right _ List.mem_cons_self, rfl⟩

theorem fail_timed (engine : Engine α) (now : Nat) (fired : Bool) (timed : engine.Timed) :
    (engine.fail now fired).1.engine.Timed := by
  rcases engine.fail_cases now fired with ⟨_, same⟩ | ⟨down, _, same⟩ | ⟨down, error, _, same⟩
  · rw [same]
    exact timed
  -- an engine that is down has no armed timer, so the new period arms the only one
  · rw [same]
    exact enterPeriod_timed _ now (timed.unarmed down)
  · rw [same]
    have unarmed := timed.unarmed down
    dsimp only
    split
    · exact ⟨fun _ => down, fun armed => by simp [unarmed] at armed,
        fun enabled => absurd enabled down⟩
    · exact ⟨fun _ enabled => (nomatch enabled), fun armed => by simp [enter, unarmed] at armed,
        fun enabled => (nomatch enabled)⟩

omit [Attack α] in
/-- Timers can be taken away from an engine as long as it does not heed them. -/
theorem withTimers_timed (engine : Engine α) (timers : List Timer) (timed : engine.Timed)
    (kept : ∀ timer ∈ engine.timers, engine.heeds timer = true → timer ∈ timers) :
    ({ engine with timers } : Engine α).Timed := by
  refine ⟨timed.expired, timed.armed, ?_⟩
  intro enabled timeout
  obtain ⟨armed, timer, member, same⟩ := timed.current enabled timeout
  have heeded : engine.heeds timer = true :=
    (heeds_iff engine timer).mpr ⟨by rw [armed, same], same.symm⟩
  exact ⟨armed, timer, kept timer member heeded, same⟩

omit [Attack α] in
theorem waiting_timed (engine : Engine α) (now : Nat) (timed : engine.Timed)
    (stale : ¬ (engine.due now).any engine.heeds = true) : (engine.waiting now).Timed := by
  apply withTimers_timed engine _ timed
  intro timer member heeded
  have early : ¬ timer.deadline ≤ now := by
    intro late
    apply stale
    exact List.any_eq_true.mpr ⟨timer, List.mem_filter.mpr ⟨member, decide_eq_true late⟩, heeded⟩
  exact List.mem_filter.mpr ⟨member, decide_eq_true (Nat.lt_of_not_le early)⟩

theorem advance_timed (engine : Engine α) (now : Nat) (timed : engine.Timed) :
    (engine.advance now).1.Timed := by
  rw [advance_eq]
  split
  next =>
    -- the engine only hands its attacks the later time after this, which moves no timer
    have settled : (engine.waiting now).timeOut.engine.Timed := subside_timed _
    exact ⟨settled.expired, settled.armed, settled.current⟩
  next stale =>
    have settled := engine.waiting_timed now timed stale
    exact ⟨settled.expired, settled.armed, settled.current⟩

/-! No step changes the specification, or the failure that an engine is for. -/

theorem fail_specification (engine : Engine α) (now : Nat) (fired : Bool) :
    (engine.fail now fired).1.engine.specification = engine.specification := by
  rcases engine.fail_cases now fired with ⟨_, same⟩ | ⟨_, _, same⟩ | ⟨_, error, _, same⟩
  · rw [same]
  · rw [same, enterPeriod_specification]
  · rw [same]
    dsimp only
    split <;> rfl

theorem advance_specification (engine : Engine α) (now : Nat) :
    (engine.advance now).1.specification = engine.specification := by
  rw [advance_eq]
  split
  · exact subside_specification _
  · rfl

theorem fail_id (engine : Engine α) (now : Nat) (fired : Bool) :
    (engine.fail now fired).1.engine.id = engine.id := by
  rcases engine.fail_cases now fired with ⟨_, same⟩ | ⟨_, _, same⟩ | ⟨_, error, _, same⟩
  · rw [same]
  · rw [same, enterPeriod_id]
  · rw [same]
    dsimp only
    split <;> rfl

theorem advance_id (engine : Engine α) (now : Nat) : (engine.advance now).1.id = engine.id := by
  rw [advance_eq]
  split
  · exact subside_id _
  · rfl

end Engine

end FaultInjection
