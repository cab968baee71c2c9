import FaultInjection.Proofs.Engine.Timer

/-!
What holds of an engine after every step. The state tells which attacks are applied, it is the
state that was published last, and the timers are in order.
-/

namespace FaultInjection

variable {α : Type} [Attack α]

namespace Engine

structure Valid (engine : Engine α) : Prop where
  enabled : engine.state = .enabled → ∀ attack ∈ engine.attacks, Attack.isApplied attack = true
  unknown : engine.state = .unknown → ∃ attack ∈ engine.attacks, Attack.isApplied attack = true
  published : engine.published = engine.state
  timed : engine.Timed

theorem ofFailure_valid (catalogue : Catalogue α) (failure : Failure) (engine : Engine α)
    (built : Engine.ofFailure catalogue failure = .ok engine) : engine.Valid := by
  have timed := ofFailure_timed catalogue failure engine built
  obtain ⟨attacks, _, rfl⟩ := (map_eq_ok _ _ _).mp built
  exact ⟨fun enabled => (nomatch enabled), fun unknown => (nomatch unknown), rfl, timed⟩

theorem buildAttacks_idle (catalogue : Catalogue α) (idle : catalogue.BuildsIdle)
    (maps : List AttackMap) (attacks : List α) (built : buildAttacks catalogue maps = .ok attacks) :
    ∀ attack ∈ attacks, Attack.isApplied attack = false := by
  induction maps generalizing attacks with
  | nil =>
      cases built
      intro attack member
      cases member
  | cons map rest ih =>
      obtain ⟨⟨kind, options⟩, _, built⟩ := (bind_eq_ok _ _ _).mp built
      obtain ⟨first, created, built⟩ := (bind_eq_ok _ _ _).mp built
      obtain ⟨others, builtRest, built⟩ := (bind_eq_ok _ _ _).mp built
      cases built
      intro attack member
      rcases List.mem_cons.mp member with rfl | later
      · exact idle kind options attack created
      · exact ih others builtRest attack later

theorem ofFailure_idle (catalogue : Catalogue α) (idle : catalogue.BuildsIdle) (failure : Failure)
    (engine : Engine α) (built : Engine.ofFailure catalogue failure = .ok engine) :
    ∀ attack ∈ engine.attacks, Attack.isApplied attack = false := by
  obtain ⟨attacks, made, rfl⟩ := (map_eq_ok _ _ _).mp built
  exact buildAttacks_idle catalogue idle failure.specification.attacks attacks made

/-! Each step keeps an engine valid. -/

theorem subside_valid (engine : Engine α) (faithful : engine.published = engine.state) :
    engine.subside.engine.Valid := by
  have down := engine.subside_state
  refine ⟨?_, ?_, (engine.subside_published faithful).trans down.symm, engine.subside_timed⟩
  · intro enabled; rw [down] at enabled; cases enabled
  · intro unknown; rw [down] at unknown; cases unknown

theorem fail_valid [LawfulAttack α] (engine : Engine α) (now : Nat) (fired : Bool)
    (valid : engine.Valid) : (engine.fail now fired).1.engine.Valid := by
  have timed := engine.fail_timed now fired valid.timed
  rcases engine.fail_cases now fired with ⟨_, same⟩ | ⟨down, succeeded, same⟩ |
    ⟨down, error, _, same⟩
  · rw [same]
    exact valid
  · rw [same] at timed ⊢
    refine ⟨?_, fun unknown => by simp at unknown, by simp, timed⟩
    intro _ attack member
    rw [enterPeriod_attacks] at member
    exact applyAll_applied now 0 fired engine.attacks succeeded attack member
  · rw [same] at timed ⊢
    dsimp only at timed ⊢
    split at timed
    next idle =>
      rw [if_pos idle]
      refine ⟨fun enabled => absurd enabled down, ?_, valid.published, timed⟩
      intro unknown
      -- an engine in this state had an applied attack, and applied attacks stay as they are
      obtain ⟨attack, member, applied⟩ := valid.unknown unknown
      have gone := (isIdle_iff _).mp idle attack
        (mem_applyAll now 0 fired engine.attacks attack member applied)
      rw [applied] at gone
      cases gone
    next busy =>
      rw [if_neg busy]
      refine ⟨fun enabled => (nomatch enabled), fun _ => ?_, rfl, timed⟩
      simpa [isIdle, enter] using busy

theorem revert_valid (engine : Engine α) (valid : engine.Valid) : engine.revert.engine.Valid :=
  subside_valid { engine with expired := false } valid.published

theorem timeOut_valid (engine : Engine α) (faithful : engine.published = engine.state) :
    engine.timeOut.engine.Valid :=
  subside_valid { engine with expired := true } faithful

theorem advance_valid [LawfulAttack α] (engine : Engine α) (now : Nat) (valid : engine.Valid) :
    (engine.advance now).1.Valid := by
  have timed := engine.advance_timed now valid.timed
  -- time may change what an attack holds, not whether it is applied
  have elapsed : ∀ before : Engine α, before.Valid → (before.elapse now).Timed →
      (before.elapse now).Valid := by
    intro before valid timed
    refine ⟨?_, ?_, valid.published, timed⟩
    · intro enabled attack member
      obtain ⟨earlier, known, rfl⟩ := List.mem_map.mp member
      rw [LawfulAttack.applied_advance]
      exact valid.enabled enabled earlier known
    · intro unknown
      obtain ⟨attack, member, applied⟩ := valid.unknown unknown
      refine ⟨Attack.advance now attack, List.mem_map_of_mem member, ?_⟩
      rw [LawfulAttack.applied_advance]
      exact applied
  rw [advance_eq] at timed ⊢
  split at timed
  next heeded =>
    rw [if_pos heeded]
    exact elapsed _ ((engine.waiting now).timeOut_valid valid.published) timed
  next stale =>
    rw [if_neg stale]
    have waiting : (engine.waiting now).Valid :=
      ⟨valid.enabled, valid.unknown, valid.published, engine.waiting_timed now valid.timed stale⟩
    exact elapsed _ waiting timed

end Engine

end FaultInjection
