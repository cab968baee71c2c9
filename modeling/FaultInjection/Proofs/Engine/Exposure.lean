import FaultInjection.Proofs.Engine.Invariant
import FaultInjection.Proofs.Engine.Window

/-!
How long attacks stay applied. Beside a session stands the time at which an apply has last started
an attack. Attacks that can be reverted are over once the timeout has passed since then, unless the
latest apply has stopped part of the way: it starts no timer, and what it has applied stays until
somebody acts.
-/

namespace FaultInjection

variable {α : Type} [Attack α]

namespace Engine

theorem applied_eq_zero (engine : Engine α) :
    engine.applied = 0 ↔ ∀ attack ∈ engine.attacks, Attack.isApplied attack = false := by
  simp [applied, List.countP_eq_zero]

theorem applied_eq_length (engine : Engine α) :
    engine.applied = engine.attacks.length ↔
      ∀ attack ∈ engine.attacks, Attack.isApplied attack = true :=
  List.countP_eq_length

theorem applied_pos (engine : Engine α) :
    0 < engine.applied ↔ ∃ attack ∈ engine.attacks, Attack.isApplied attack = true :=
  List.countP_pos_iff

theorem applied_lt_length (engine : Engine α) :
    engine.applied < engine.attacks.length ↔
      ∃ attack ∈ engine.attacks, Attack.isApplied attack = false := by
  have most : engine.applied ≤ engine.attacks.length := List.countP_le_length
  rw [Nat.lt_iff_le_and_ne, ne_eq, applied_eq_length]
  simp [most]

/-- What attacks that can be reverted add to a valid engine: none is applied when it is disabled,
and not all are when its state is unknown. -/
structure Contained (engine : Engine α) : Prop where
  disabled : engine.state = .disabled →
    ∀ attack ∈ engine.attacks, Attack.isApplied attack = false
  unknown : engine.state = .unknown →
    ∃ attack ∈ engine.attacks, Attack.isApplied attack = false

/-- The number of applied attacks tells the state of an engine that has any attacks. -/
theorem Contained.applied_cases {engine : Engine α} (contained : engine.Contained)
    (valid : engine.Valid) :
    (engine.state = .disabled ∧ engine.applied = 0) ∨
    (engine.state = .unknown ∧ 0 < engine.applied ∧ engine.applied < engine.attacks.length) ∨
    (engine.state = .enabled ∧ engine.applied = engine.attacks.length) := by
  cases state : engine.state with
  | disabled => exact Or.inl ⟨rfl, engine.applied_eq_zero.mpr (contained.disabled state)⟩
  | unknown =>
      exact Or.inr (Or.inl ⟨rfl, engine.applied_pos.mpr (valid.unknown state),
        engine.applied_lt_length.mpr (contained.unknown state)⟩)
  | enabled => exact Or.inr (Or.inr ⟨rfl, engine.applied_eq_length.mpr (valid.enabled state)⟩)

theorem ofFailure_contained (catalogue : Catalogue α) (idle : catalogue.BuildsIdle)
    (failure : Failure) (engine : Engine α)
    (built : Engine.ofFailure catalogue failure = .ok engine) : engine.Contained := by
  have down := ofFailure_idle catalogue idle failure engine built
  obtain ⟨attacks, _, rfl⟩ := (map_eq_ok _ _ _).mp built
  exact ⟨fun _ => down, fun unknown => (nomatch unknown)⟩

theorem fail_contained [LawfulAttack α] (engine : Engine α) (now : Nat) (fired : Bool)
    (contained : engine.Contained) : (engine.fail now fired).1.engine.Contained := by
  rcases engine.fail_cases now fired with ⟨_, same⟩ | ⟨_, _, same⟩ | ⟨_, error, failed, same⟩
  · rw [same]
    exact contained
  · rw [same]
    exact ⟨fun disabled => by simp at disabled, fun unknown => by simp at unknown⟩
  · have stopped := applyAll_stopped now 0 fired engine.attacks error failed
    rw [same]
    dsimp only
    split
    next idle => exact ⟨fun _ => (isIdle_iff _).mp idle, fun _ => stopped⟩
    next => exact ⟨fun disabled => (nomatch disabled), fun _ => stopped⟩

theorem subside_clean [ReversibleAttack α] (engine : Engine α) :
    ∀ attack ∈ engine.subside.engine.attacks, Attack.isApplied attack = false := by
  rw [subside_attacks]
  intro attack member
  obtain ⟨before, _, rfl⟩ := List.mem_map.mp member
  exact reverted_idle_of_ended before fun _ => ReversibleAttack.idle_of_revert before

theorem subside_contained [ReversibleAttack α] (engine : Engine α) :
    engine.subside.engine.Contained :=
  ⟨fun _ => engine.subside_clean, fun unknown => by simp at unknown⟩

theorem elapse_contained [LawfulAttack α] (engine : Engine α) (now : Nat)
    (contained : engine.Contained) : (engine.elapse now).Contained := by
  constructor
  · intro disabled attack member
    obtain ⟨before, known, rfl⟩ := List.mem_map.mp member
    rw [LawfulAttack.applied_advance]
    exact contained.disabled disabled before known
  · intro unknown
    obtain ⟨attack, member, idle⟩ := contained.unknown unknown
    refine ⟨Attack.advance now attack, List.mem_map_of_mem member, ?_⟩
    rw [LawfulAttack.applied_advance]
    exact idle

theorem advance_contained [ReversibleAttack α] (engine : Engine α) (now : Nat)
    (contained : engine.Contained) : (engine.advance now).1.Contained := by
  rw [advance_eq]
  split
  · exact elapse_contained _ now (subside_contained _)
  · exact elapse_contained _ now ⟨contained.disabled, contained.unknown⟩

theorem applied_elapse [LawfulAttack α] (engine : Engine α) (now : Nat) :
    (engine.elapse now).applied = engine.applied := by
  have same : (Attack.isApplied ∘ Attack.advance now : α → Bool) = Attack.isApplied :=
    funext (LawfulAttack.applied_advance now)
  rw [applied, elapse, List.countP_map, same]
  rfl

theorem applied_advance_unarmed [LawfulAttack α] (engine : Engine α) (now : Nat)
    (unarmed : engine.armed = none) : (engine.advance now).1.applied = engine.applied := by
  rw [engine.advance_unarmed now unarmed]
  exact applied_elapse _ now

/-- Time alone either leaves the applied attacks as they are, or ends the enabled period. -/
theorem applied_advance [ReversibleAttack α] (engine : Engine α) (now : Nat) :
    ((engine.due now).any engine.heeds = true ∧ (engine.advance now).1.applied = 0) ∨
    ((engine.due now).any engine.heeds = false ∧ (engine.advance now).1.state = engine.state ∧
      (engine.advance now).1.applied = engine.applied) := by
  rw [advance_eq]
  split
  next ending =>
    refine Or.inl ⟨ending, ?_⟩
    rw [applied_elapse, applied_eq_zero]
    exact subside_clean _
  next quiet =>
    exact Or.inr ⟨Bool.eq_false_iff.mpr quiet, rfl, applied_elapse _ now⟩

end Engine

/-- A session, and when an apply has last started an attack. -/
structure Exposure (α : Type) where
  session : Session α
  harmed : Option Nat

/-- Whether a command is an apply that leaves more attacks applied than it has found. -/
def Session.harms (session : Session α) : SessionCommand → Bool
  | .fail => session.engine.applied < (session.perform .fail).engine.applied
  | _ => false

namespace Exposure

open Occurrence

def start (now : Nat) (engine : Engine α) : Exposure α := ⟨Session.start now engine, none⟩

def perform (exposure : Exposure α) (command : SessionCommand) : Exposure α :=
  ⟨exposure.session.perform command,
    if exposure.session.harms command then some exposure.session.now else exposure.harmed⟩

def run (exposure : Exposure α) (commands : List SessionCommand) : Exposure α :=
  commands.foldl perform exposure

/-- The time that is kept accounts for the applied attacks. -/
structure Dated (exposure : Exposure α) : Prop where
  tracked : exposure.session.Tracked
  valid : exposure.session.engine.Valid
  contained : exposure.session.engine.Contained
  harmed : 0 < exposure.session.engine.applied → exposure.harmed.isSome = true
  since : exposure.session.engine.state = .enabled → 0 < exposure.session.engine.applied →
    exposure.harmed = standing exposure.session.log

theorem start_dated (catalogue : Catalogue α) (idle : catalogue.BuildsIdle) (failure : Failure)
    (engine : Engine α) (built : Engine.ofFailure catalogue failure = .ok engine) (now : Nat) :
    (start now engine).Dated := by
  have unharmed := engine.applied_eq_zero.mpr
    (Engine.ofFailure_idle catalogue idle failure engine built)
  exact ⟨Session.start_tracked catalogue failure engine built now,
    Engine.ofFailure_valid catalogue failure engine built,
    Engine.ofFailure_contained catalogue idle failure engine built,
    fun busy => absurd unharmed (Nat.ne_of_gt busy),
    fun _ busy => absurd unharmed (Nat.ne_of_gt busy)⟩

theorem fail_begun [LawfulAttack α] (session : Session α) (down : session.engine.state ≠ .enabled)
    (up : (session.perform .fail).engine.state = .enabled) :
    (session.perform .fail).log = .begun session.now :: session.log ∧
      (session.perform .fail).engine.applied = session.engine.attacks.length := by
  rcases session.engine.fail_cases session.now session.fired with ⟨enabled, _⟩ |
    ⟨_, succeeded, same⟩ | ⟨_, error, _, same⟩
  · exact absurd enabled down
  · constructor
    · simp [Session.perform, same, Except.isOk, Except.toBool, down]
    · have all := applyAll_applied session.now 0 session.fired session.engine.attacks succeeded
      rw [← length_applyAll session.now 0 session.fired session.engine.attacks]
      simp only [Session.perform, same, Engine.applied, Engine.enterPeriod_attacks]
      exact List.countP_eq_length.mpr all
  · simp only [Session.perform, same] at up
    split at up
    · exact absurd up down
    · cases up

theorem fail_dated [LawfulAttack α] (exposure : Exposure α) (dated : exposure.Dated) :
    (exposure.perform .fail).Dated := by
  have valid := exposure.session.engine.fail_valid exposure.session.now exposure.session.fired
    dated.valid
  have contained := exposure.session.engine.fail_contained exposure.session.now
    exposure.session.fired dated.contained
  refine ⟨exposure.session.perform_tracked .fail dated.tracked, valid, contained, ?_, ?_⟩
  · intro busy
    by_cases harms : exposure.session.harms .fail = true
    · simp [perform, harms]
    -- what is applied now was applied before
    · have before : 0 < exposure.session.engine.applied :=
        Nat.lt_of_lt_of_le busy (Nat.le_of_not_lt fun more => harms (decide_eq_true more))
      simpa [perform, harms] using dated.harmed before
  · intro up busy
    by_cases enabled : exposure.session.engine.state = .enabled
    · have same := exposure.session.fail_enabled enabled
      simp only [perform, Session.harms, same, Nat.lt_irrefl, decide_false, Bool.false_eq_true,
        ↓reduceIte] at busy ⊢
      exact dated.since enabled busy
    · obtain ⟨log, all⟩ := fail_begun exposure.session enabled up
      -- an engine that is down has an idle attack, which this apply has started
      have fewer : exposure.session.engine.applied < exposure.session.engine.attacks.length := by
        rcases dated.contained.applied_cases dated.valid with ⟨_, none⟩ | ⟨_, _, some⟩ | ⟨up, _⟩
        · exact none ▸ all ▸ busy
        · exact some
        · exact absurd up enabled
      have harms : exposure.session.harms .fail = true := decide_eq_true (all ▸ fewer)
      simp only [perform, harms, ↓reduceIte, log, standing]

theorem revert_dated [ReversibleAttack α] (exposure : Exposure α) (dated : exposure.Dated) :
    (exposure.perform .revert).Dated := by
  have idle : (exposure.perform .revert).session.engine.applied = 0 :=
    (Engine.applied_eq_zero _).mpr (Engine.subside_clean _)
  exact ⟨exposure.session.perform_tracked .revert dated.tracked,
    exposure.session.engine.revert_valid dated.valid, Engine.subside_contained _,
    fun busy => absurd idle (Nat.ne_of_gt busy), fun _ busy => absurd idle (Nat.ne_of_gt busy)⟩

theorem advance_dated [ReversibleAttack α] (exposure : Exposure α) (span : Nat)
    (dated : exposure.Dated) : (exposure.perform (.advance span)).Dated := by
  refine ⟨exposure.session.perform_tracked (.advance span) dated.tracked,
    exposure.session.engine.advance_valid _ dated.valid,
    exposure.session.engine.advance_contained _ dated.contained, ?_, ?_⟩
  all_goals
    rcases exposure.session.engine.applied_advance (exposure.session.now + span) with
      ⟨_, none⟩ | ⟨_, state, same⟩
  · exact fun busy => absurd none (Nat.ne_of_gt busy)
  · exact fun busy => dated.harmed (same ▸ busy)
  · exact fun _ busy => absurd none (Nat.ne_of_gt busy)
  · intro up busy
    have since := dated.since (state ▸ up) (same ▸ busy)
    simpa only [perform, Session.harms, Bool.false_eq_true, ↓reduceIte, Session.perform,
      Session.standing_ended] using since

theorem perform_dated [ReversibleAttack α] (exposure : Exposure α) (command : SessionCommand)
    (dated : exposure.Dated) : (exposure.perform command).Dated := by
  cases command with
  | fail => exact exposure.fail_dated dated
  | revert => exact exposure.revert_dated dated
  | fire =>
      exact ⟨exposure.session.perform_tracked .fire dated.tracked, dated.valid, dated.contained,
        dated.harmed, dated.since⟩
  | renew =>
      exact ⟨exposure.session.perform_tracked .renew dated.tracked, dated.valid, dated.contained,
        dated.harmed, dated.since⟩
  | advance span => exact exposure.advance_dated span dated

theorem run_dated [ReversibleAttack α] (exposure : Exposure α) (commands : List SessionCommand)
    (dated : exposure.Dated) : (exposure.run commands).Dated := by
  induction commands generalizing exposure with
  | nil => exact dated
  | cons command rest ih =>
      exact ih (exposure.perform command) (exposure.perform_dated command dated)

theorem run_session (exposure : Exposure α) (commands : List SessionCommand) :
    (exposure.run commands).session = exposure.session.run commands := by
  induction commands generalizing exposure with
  | nil => rfl
  | cons command rest ih => exact ih (exposure.perform command)

/-- An engine whose timer can still end the period has its timer run out by the deadline. -/
theorem Dated.due {exposure : Exposure α} (dated : exposure.Dated) (harmed time : Nat)
    (noted : exposure.harmed = some harmed) (up : exposure.session.engine.state = .enabled)
    (busy : 0 < exposure.session.engine.applied) (timeout : exposure.session.engine.hasTimeout)
    (late : harmed + exposure.session.engine.specification.timeout.nanos ≤ time) :
    (exposure.session.engine.due time).any exposure.session.engine.heeds = true := by
  obtain ⟨armed, timer, member, current⟩ := dated.tracked.timed.current up timeout
  obtain ⟨⟨start, standing, set⟩, _⟩ := dated.tracked.up up
  have began : start = harmed :=
    Option.some.inj (standing.symm.trans ((dated.since up busy).symm.trans noted))
  have deadline := set timer member current
  refine List.any_eq_true.mpr ⟨timer, List.mem_filter.mpr ⟨member, ?_⟩, ?_⟩
  · exact decide_eq_true (by rw [deadline, began]; exact late)
  · exact (Engine.heeds_iff _ timer).mpr ⟨by rw [armed, current], current.symm⟩

theorem Dated.over_iff [ReversibleAttack α] {exposure : Exposure α} (dated : exposure.Dated)
    (harmed time : Nat) (noted : exposure.harmed = some harmed)
    (timeout : exposure.session.engine.hasTimeout)
    (late : harmed + exposure.session.engine.specification.timeout.nanos ≤ time) :
    (exposure.session.engine.advance time).1.applied = 0 ↔
      exposure.session.engine.state ≠ .unknown := by
  have ends := exposure.session.engine.applied_advance time
  rcases dated.contained.applied_cases dated.valid with ⟨down, none⟩ | ⟨partly, some, _⟩ | ⟨up, _⟩
  · have gone : (exposure.session.engine.advance time).1.applied = 0 := by
      rcases ends with ⟨_, gone⟩ | ⟨_, _, same⟩
      · exact gone
      · exact same.trans none
    simp [gone, down]
  -- no timer is armed for what was left part of the way
  · have unarmed := dated.tracked.timed.unarmed (by simp [partly])
    have same := exposure.session.engine.applied_advance_unarmed time unarmed
    simp [partly, same, Nat.ne_of_gt some]
  · have gone : (exposure.session.engine.advance time).1.applied = 0 := by
      rcases ends with ⟨_, gone⟩ | ⟨quiet, _, same⟩
      · exact gone
      · refine same.trans (Nat.eq_zero_of_not_pos fun busy => ?_)
        have ending := dated.due harmed time noted up busy timeout late
        rw [quiet] at ending
        cases ending
    simp [gone, up]

/-- An attack that is applied has a timer that will end it, and is over when the timeout has passed
since an apply has last started an attack, unless the latest apply has stopped part of the way: its
attacks have no timer, and stay. -/
theorem harm_bounded_iff [ReversibleAttack α] (catalogue : Catalogue α)
    (idle : catalogue.BuildsIdle) (failure : Failure) (engine : Engine α)
    (built : Engine.ofFailure catalogue failure = .ok engine)
    (timeout : failure.specification.timeout.isZero = false) (now : Nat)
    (commands : List SessionCommand) :
    let after := (start now engine).run commands
    let partly := 0 < after.session.engine.applied ∧
      after.session.engine.applied < after.session.engine.attacks.length
    (after.session.engine.state = .unknown ↔ partly) ∧
    (0 < after.session.engine.applied →
      after.harmed.isSome = true ∧ (after.session.engine.hasLiveTimer ↔ ¬ partly)) ∧
    ∀ harmed, after.harmed = some harmed → ∀ time, after.session.now ≤ time →
      harmed + failure.specification.timeout.nanos ≤ time →
        ((after.session.engine.advance time).1.applied = 0 ↔ ¬ partly) := by
  intro after partly
  have dated : after.Dated :=
    (start now engine).run_dated commands (start_dated catalogue idle failure engine built now)
  have specified : after.session.engine.specification = failure.specification := by
    rw [(start now engine).run_session commands, Session.run_specification]
    exact Engine.ofFailure_specification catalogue failure engine built
  have ends : after.session.engine.hasTimeout := by rw [Engine.hasTimeout, specified, timeout]
  have cases := dated.contained.applied_cases dated.valid
  have unknown : after.session.engine.state = .unknown ↔ partly := by
    rcases cases with ⟨state, none⟩ | ⟨state, some⟩ | ⟨state, all⟩
    · simp [partly, state, none]
    · simp [partly, state, some]
    · simp [partly, state, all]
  refine ⟨unknown, fun busy => ⟨dated.harmed busy, ?_⟩, ?_⟩
  · rw [dated.tracked.timed.live_iff, ← unknown]
    rcases cases with ⟨_, none⟩ | ⟨state, _⟩ | ⟨state, _⟩
    · exact absurd none (Nat.ne_of_gt busy)
    · simp [state]
    · simp [state, ends]
  · intro harmed noted time _ late
    rw [← unknown]
    exact dated.over_iff harmed time noted ends (specified ▸ late)

/-- A machine that has no block of `2 ^ 63` bytes, and in its first half second none of more than
one byte. -/
local instance slowHost : Host where
  cores := 1
  coresPositive := Nat.one_pos
  blockFault now size :=
    if 9223372036854775808 ≤ size then some "capacity overflow"
    else if 1 < size ∧ now < 500000000 then some "out of memory"
    else none
  threadFault _ _ := none

/-- One byte is held, and then as many as are asked for. -/
def blockFailure (size : Int) : Failure :=
  ⟨"node", "blocks", ⟨.ofSeconds 1, [.ofKind "memory_allocation" (some [("size", .integer 1)]),
    .ofKind "memory_allocation" (some [("size", .integer size)])]⟩, .unknown, .enabled, 0⟩

/-- An apply that is taken up again has its timer from then on. -/
theorem harm_bounded_resumed :
    ∃ engine, Engine.ofFailure BuiltIn.catalogue (blockFailure 2) = .ok engine ∧
      let after := (start 0 engine).run [.fail, .advance 600000000, .fail, .advance 900000000]
      after.session.now = 1500000000 ∧ after.harmed = some 600000000 ∧
        after.session.engine.hasLiveTimer ∧
        (after.session.engine.advance 1600000000).1.applied = 0 := by
  refine ⟨_, rfl, rfl, by decide +kernel, ?_, ?_⟩
  · exact ((harm_bounded_iff BuiltIn.catalogue BuiltIn.catalogue_buildsIdle (blockFailure 2) _ rfl
      rfl 0 [.fail, .advance 600000000, .fail, .advance 900000000]).2.1
        (by decide +kernel)).2.mpr (by decide +kernel)
  · exact ((harm_bounded_iff BuiltIn.catalogue BuiltIn.catalogue_buildsIdle (blockFailure 2) _ rfl
      rfl 0 [.fail, .advance 600000000, .fail, .advance 900000000]).2.2 600000000
        (by decide +kernel) 1600000000 (by decide) (by decide)).mpr (by decide +kernel)

/-- What an apply that fails part of the way has applied has no timer, and stays for good. -/
theorem harm_unbounded :
    ∃ engine, Engine.ofFailure BuiltIn.catalogue (blockFailure 9223372036854775808) = .ok engine ∧
      engine.specification.timeout = .ofSeconds 1 ∧
      let after := (start 0 engine).run [.fail]
      after.harmed = some 0 ∧ after.session.engine.applied = 1 ∧
        ¬ after.session.engine.hasLiveTimer ∧
        ∀ time, (after.session.engine.advance time).1.applied = 1 := by
  refine ⟨_, rfl, rfl, by decide +kernel, by decide +kernel, ?_, ?_⟩
  · rintro ⟨timer, member, _⟩
    cases member
  · intro time
    exact (Engine.applied_advance_unarmed _ time rfl).trans (by decide +kernel)

end Exposure

end FaultInjection
