import FaultInjection.Proofs.Engine.Invariant

/-!
Runs of an engine: applies, reverts, single timers that run out, and the going on of time, in any
order. Beside the engine a run keeps what the latest call to revert each attack has returned.
-/

namespace FaultInjection

variable {α : Type} [Attack α]

inductive EngineCommand where
  | fail (now : Nat) (fired : Bool)
  | revert
  /-- One of the engine's timers runs out, before any other that is due. -/
  | expire (timer : Timer)
  | advance (now : Nat)

namespace Engine

def expire (engine : Engine α) (timer : Timer) : Engine α × List AttackUse :=
  if timer ∈ engine.timers then
    ({ engine with timers := engine.timers.erase timer } : Engine α).runOut timer
  else (engine, [])

def perform (engine : Engine α) : EngineCommand → Engine α × List AttackUse
  | .fail now fired => ((engine.fail now fired).1.engine, (engine.fail now fired).1.uses)
  | .revert => (engine.revert.engine, engine.revert.uses)
  | .expire timer => engine.expire timer
  | .advance now => engine.advance now

theorem expire_cases (engine : Engine α) (timer : Timer) :
    engine.expire timer = (engine, []) ∨
    (engine.heeds timer = true ∧ engine.expire timer =
      (({ engine with timers := engine.timers.erase timer } : Engine α).timeOut.engine,
        ({ engine with timers := engine.timers.erase timer } : Engine α).timeOut.uses)) ∨
    (engine.heeds timer = false ∧
      engine.expire timer = ({ engine with timers := engine.timers.erase timer }, [])) := by
  unfold expire
  split
  · right
    cases heeded : engine.heeds timer with
    | true => exact Or.inl ⟨rfl, runOut_heeded _ timer heeded⟩
    | false => exact Or.inr ⟨rfl, runOut_stale _ timer heeded⟩
  · exact Or.inl rfl

theorem expire_valid (engine : Engine α) (timer : Timer) (valid : engine.Valid) :
    (engine.expire timer).1.Valid := by
  rcases engine.expire_cases timer with same | ⟨_, same⟩ | ⟨stale, same⟩
  · rw [same]
    exact valid
  · rw [same]
    exact timeOut_valid _ valid.published
  · rw [same]
    refine ⟨valid.enabled, valid.unknown, valid.published, ?_⟩
    apply withTimers_timed engine _ valid.timed
    intro other member heeded
    -- an engine heeds the timer that is left, and did not heed the one that ran out
    have different : other ≠ timer := by
      rintro rfl
      rw [stale] at heeded
      cases heeded
    exact (List.mem_erase_of_ne different).mpr member

theorem perform_valid [LawfulAttack α] (engine : Engine α) (command : EngineCommand)
    (valid : engine.Valid) : (engine.perform command).1.Valid := by
  cases command with
  | fail now fired => exact engine.fail_valid now fired valid
  | revert => exact engine.revert_valid valid
  | expire timer => exact engine.expire_valid timer valid
  | advance now => exact engine.advance_valid now valid

theorem perform_specification (engine : Engine α) (command : EngineCommand) :
    (engine.perform command).1.specification = engine.specification := by
  cases command with
  | fail now fired => exact engine.fail_specification now fired
  | revert => exact subside_specification _
  | expire timer =>
      rcases engine.expire_cases timer with same | ⟨_, same⟩ | ⟨_, same⟩
      · exact congrArg (·.1.specification) same
      · exact (congrArg (·.1.specification) same).trans (subside_specification _)
      · exact congrArg (·.1.specification) same
  | advance now => exact engine.advance_specification now

end Engine

/-- An engine, and what the latest call to revert each of its attacks has returned. -/
structure Watched (α : Type) where
  engine : Engine α
  answers : Nat → Option (Except Error Unit)

/-- The answers after a step: an attack that the step has reverted answered as it was before. -/
def answersAfter (attacks : List α) (uses : List AttackUse)
    (answers : Nat → Option (Except Error Unit)) : Nat → Option (Except Error Unit) := fun place =>
  if AttackUse.revert place ∈ uses then attacks[place]?.map fun attack => (Attack.revert attack).1
  else answers place

namespace Watched

def start (engine : Engine α) : Watched α := ⟨engine, fun _ => none⟩

def perform (watched : Watched α) (command : EngineCommand) : Watched α :=
  let step := watched.engine.perform command
  ⟨step.1, answersAfter watched.engine.attacks step.2 watched.answers⟩

def run (watched : Watched α) (commands : List EngineCommand) : Watched α :=
  commands.foldl perform watched

/-- In a disabled engine, attacks that are still applied have refused to be reverted. -/
def Accounted (watched : Watched α) : Prop :=
  watched.engine.state = .disabled → ∀ place attack,
    watched.engine.attacks[place]? = some attack → Attack.isApplied attack = true →
      ∃ error, watched.answers place = some (.error error)

theorem subside_accounted [LawfulAttack α] (engine : Engine α)
    (answers : Nat → Option (Except Error Unit)) :
    Accounted ⟨engine.subside.engine,
      answersAfter engine.attacks engine.subside.uses answers⟩ := by
  intro _ place attack found applied
  simp only [Engine.subside_attacks, List.getElem?_map, Option.map_eq_some_iff] at found
  obtain ⟨before, known, rfl⟩ := found
  cases answer : (Attack.revert before).1 with
  | ok done =>
      have idle := reverted_idle before fun _ => answer
      rw [applied] at idle
      cases idle
  | error error =>
      have busy : Attack.isApplied before = true := by
        by_cases busy : Attack.isApplied before = true
        · exact busy
        · simp [reverted, busy] at applied
      have reached := engine.mem_subside_uses place before known busy
      exact ⟨error, by simp [answersAfter, reached, known, answer]⟩

theorem elapse_accounted [LawfulAttack α] (engine : Engine α) (now : Nat)
    (answers : Nat → Option (Except Error Unit)) (accounted : Accounted ⟨engine, answers⟩) :
    Accounted ⟨engine.elapse now, answers⟩ := by
  intro down place attack found applied
  simp only [Engine.elapse, List.getElem?_map, Option.map_eq_some_iff] at found
  obtain ⟨before, known, rfl⟩ := found
  rw [LawfulAttack.applied_advance] at applied
  exact accounted down place before known applied

theorem perform_accounted [LawfulAttack α] (watched : Watched α) (command : EngineCommand)
    (accounted : watched.Accounted) : (watched.perform command).Accounted := by
  obtain ⟨engine, answers⟩ := watched
  have unused : answersAfter engine.attacks [] answers = answers := by
    funext place
    simp [answersAfter]
  cases command with
  | fail now fired =>
      simp only [perform, Engine.perform]
      rcases engine.fail_cases now fired with ⟨_, same⟩ | ⟨_, _, same⟩ | ⟨_, error, _, same⟩
      · rw [same, unused]
        exact accounted
      · rw [same]
        intro down
        simp at down
      · rw [same]
        dsimp only
        split
        next idle =>
          intro _ place attack found applied
          have none := (isIdle_iff _).mp idle attack (List.mem_of_getElem? found)
          rw [applied] at none
          cases none
        next => intro down; cases down
  | revert => exact subside_accounted { engine with expired := false } answers
  | expire timer =>
      simp only [perform, Engine.perform]
      rcases engine.expire_cases timer with same | ⟨_, same⟩ | ⟨_, same⟩
      · rw [same, unused]
        exact accounted
      · rw [same]
        exact subside_accounted _ answers
      · rw [same, unused]
        exact accounted
  | advance now =>
      simp only [perform, Engine.perform]
      rw [Engine.advance_eq]
      split
      · exact elapse_accounted _ now _ (subside_accounted _ answers)
      · rw [unused]
        exact elapse_accounted _ now answers accounted

theorem run_valid [LawfulAttack α] (watched : Watched α) (commands : List EngineCommand)
    (valid : watched.engine.Valid) (accounted : watched.Accounted) :
    (watched.run commands).engine.Valid ∧ (watched.run commands).Accounted := by
  induction commands generalizing watched with
  | nil => exact ⟨valid, accounted⟩
  | cons command rest ih =>
      exact ih (watched.perform command) (watched.engine.perform_valid command valid)
        (watched.perform_accounted command accounted)

theorem run_specification (watched : Watched α) (commands : List EngineCommand) :
    (watched.run commands).engine.specification = watched.engine.specification := by
  induction commands generalizing watched with
  | nil => rfl
  | cons command rest ih =>
      exact (ih (watched.perform command)).trans (watched.engine.perform_specification command)

theorem start_accounted (catalogue : Catalogue α) (idle : catalogue.BuildsIdle) (failure : Failure)
    (engine : Engine α) (built : Engine.ofFailure catalogue failure = .ok engine) :
    (start engine).Accounted := by
  intro _ place attack found applied
  have none := Engine.ofFailure_idle catalogue idle failure engine built attack
    (List.mem_of_getElem? found)
  rw [applied] at none
  cases none

/-- What holds of an engine after any number of steps. -/
theorem run_invariant [LawfulAttack α] (catalogue : Catalogue α) (idle : catalogue.BuildsIdle)
    (failure : Failure) (engine : Engine α)
    (built : Engine.ofFailure catalogue failure = .ok engine) (commands : List EngineCommand) :
    let after := (start engine).run commands
    (after.engine.state = .enabled →
      ∀ attack ∈ after.engine.attacks, Attack.isApplied attack = true) ∧
    (after.engine.state = .unknown →
      ∃ attack ∈ after.engine.attacks, Attack.isApplied attack = true) ∧
    (after.engine.state = .disabled → ∀ place attack,
      after.engine.attacks[place]? = some attack → Attack.isApplied attack = true →
        ∃ error, after.answers place = some (.error error)) ∧
    (after.engine.hasLiveTimer ↔
      after.engine.state = .enabled ∧ failure.specification.timeout.isZero = false) ∧
    (after.engine.expired = true → after.engine.state ≠ .enabled) ∧
    after.engine.published = after.engine.state := by
  intro after
  obtain ⟨valid, accounted⟩ := (start engine).run_valid commands
    (Engine.ofFailure_valid catalogue failure engine built)
    (start_accounted catalogue idle failure engine built)
  have specified : after.engine.specification = failure.specification := by
    rw [(start engine).run_specification commands]
    exact Engine.ofFailure_specification catalogue failure engine built
  refine ⟨valid.enabled, valid.unknown, accounted, ?_, valid.timed.expired, valid.published⟩
  rw [← specified]
  exact valid.timed.live_iff

def stuckFailure : Failure :=
  ⟨"node", "stuck", ⟨.ofSeconds 1, [.ofKind "scripted_stuck" none, .ofKind "scripted_ok" none]⟩,
    .unknown, .enabled, 0⟩

/-- An attack that cannot be reverted stays applied when the time of its failure is over. -/
theorem run_invariant_stuck :
    ∃ engine, Engine.ofFailure Scripted.catalogue stuckFailure = .ok engine ∧
      let after := (start engine).run [.fail 0 false, .expire ⟨1000000000, 1⟩]
      after.engine.state = .disabled ∧ after.engine.applied = 1 ∧
        ∃ error, after.answers 0 = some (.error error) := by
  refine ⟨_, rfl, rfl, rfl, ?_⟩
  have facts := run_invariant Scripted.catalogue Scripted.catalogue_buildsIdle stuckFailure _ rfl
    [.fail 0 false, .expire ⟨1000000000, 1⟩]
  exact facts.2.2.1 rfl 0 _ rfl rfl

end Watched

end FaultInjection
