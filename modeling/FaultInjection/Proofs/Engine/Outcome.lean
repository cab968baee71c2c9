import FaultInjection.Proofs.Engine.Timer

/-!
What comes of an apply and of a revert. An apply starts the attacks that are idle, in order, and
either starts them all or names the place at which it has stopped. A revert ends the attacks that
are applied, last first, and names every one that has complained.
-/

namespace FaultInjection

variable {α : Type} [Attack α]

/-! Applying -/

/-- Attacks that only tell that they are applied already if they are. -/
def Candid (α : Type) [Attack α] : Prop :=
  ∀ (now : Nat) (fired : Bool) (attack : α), Attack.isApplied attack = false →
    (Attack.apply now fired attack).result ≠ .error .alreadyApplied

namespace Engine

/-- An apply that has started every attack that was idle. -/
structure Completed (engine : Engine α) (attempt : EngineOutcome α) : Prop where
  told : attempt.result = .ok ()
  applied : ∀ attack ∈ attempt.engine.attacks, Attack.isApplied attack = true
  state : attempt.engine.state = .enabled
  expired : attempt.engine.expired = false
  uses : attempt.uses = (idlePlaces 0 engine.attacks).map .apply

/-- An apply that has stopped at an attack, because the token had fired or the attack could not be
started. -/
structure StoppedAt (engine : Engine α) (now : Nat) (attempt : EngineOutcome α) (place : Nat)
    (attack : α) : Prop where
  found : engine.attacks[place]? = some attack
  idle : Attack.isApplied attack = false
  told : attempt.result = .error (.cancelled place) ∨
    ∃ cause, (Attack.apply now false attack).result = .error cause ∧
      attempt.result = .error (.attackFailed place (Attack.kind attack) cause)
  before : ∀ other earlier, other < place → attempt.engine.attacks[other]? = some earlier →
    Attack.isApplied earlier = true
  behind : ∀ other, place ≤ other →
    attempt.engine.attacks[other]?.map Attack.isApplied =
      engine.attacks[other]?.map Attack.isApplied
  state : attempt.engine.state = if attempt.engine.isIdle then engine.state else .unknown
  uses : attempt.uses = (idlePlaces 0 (engine.attacks.take place)).map .apply ∨
    attempt.uses = (idlePlaces 0 (engine.attacks.take place) ++ [place]).map .apply

/-- Where a pass over the attacks of an engine has stopped, its apply has. -/
theorem stoppedAt_of_halted (engine : Engine α) (now : Nat) (attempt : EngineOutcome α)
    (pass : ApplyPass α) (before : List α) (attack : α) (behind : List α)
    (split : engine.attacks = before ++ attack :: behind)
    (halted : Halted now 0 pass before attack behind) (result : attempt.result = pass.result)
    (attacks : attempt.engine.attacks = pass.attacks) (uses : attempt.uses = pass.uses)
    (state : attempt.engine.state = if attempt.engine.isIdle then engine.state else .unknown) :
    engine.StoppedAt now attempt before.length attack := by
  obtain ⟨started, last, left, length, all, idle⟩ := halted.left
  have earlier : engine.attacks.take before.length = before := by
    rw [split]
    exact List.take_left
  refine ⟨by simp [split], halted.idle, ?_, ?_, ?_, state, ?_⟩
  · rw [result]
    rcases halted.told with ⟨told, _⟩ | ⟨cause, refused, told, _⟩
    · exact Or.inl (by rw [told, Nat.zero_add])
    · rw [told, Nat.zero_add]
      cases cause with
      | cancelled applied => exact Or.inl rfl
      | _ => exact Or.inr ⟨_, refused, rfl⟩
  · intro other earlier inside found
    rw [attacks, left, List.getElem?_append_left (length ▸ inside)] at found
    exact all earlier (List.mem_of_getElem? found)
  · intro other beyond
    obtain ⟨further, rfl⟩ := Nat.exists_eq_add_of_le beyond
    rw [attacks, left, split, List.getElem?_append_right (by omega),
      List.getElem?_append_right (by omega), length, Nat.add_sub_cancel_left]
    cases further with
    | zero => exact congrArg some (idle.trans halted.idle.symm)
    | succ _ => rfl
  · rw [uses, earlier]
    rcases halted.told with ⟨_, used⟩ | ⟨_, _, _, used⟩
    · exact Or.inl used
    · exact Or.inr (by rw [used, Nat.zero_add])

theorem fail_enabled_again (engine : Engine α) (now : Nat) (fired : Bool)
    (enabled : engine.state = .enabled) :
    engine.fail now fired = (⟨.ok (), engine, []⟩, fired) := by
  rw [fail, if_pos enabled]

theorem fail_completed [LawfulAttack α] (engine : Engine α) (now : Nat) (fired : Bool)
    (down : engine.state ≠ .enabled) (succeeded : (engine.fail now fired).1.result = .ok ()) :
    engine.Completed (engine.fail now fired).1 := by
  rcases engine.fail_cases now fired with ⟨enabled, _⟩ | ⟨_, passed, same⟩ | ⟨_, error, _, same⟩
  · exact absurd enabled down
  · rw [same]
    refine ⟨rfl, ?_, enterPeriod_state _ now, enterPeriod_expired _ now,
      applyAll_uses now 0 fired engine.attacks passed⟩
    rw [enterPeriod_attacks]
    exact applyAll_applied now 0 fired engine.attacks passed
  · rw [same] at succeeded
    cases succeeded

theorem fail_stopped [LawfulAttack α] (engine : Engine α) (now : Nat) (fired : Bool) (error : Error)
    (failed : (engine.fail now fired).1.result = .error error) :
    ∃ place attack, engine.StoppedAt now (engine.fail now fired).1 place attack := by
  rcases engine.fail_cases now fired with ⟨_, same⟩ | ⟨_, _, same⟩ | ⟨_, told, stopped, same⟩
  · rw [same] at failed
    cases failed
  · rw [same] at failed
    cases failed
  · obtain ⟨before, attack, behind, split, halted⟩ :=
      applyAll_halted now 0 fired engine.attacks told stopped
    refine ⟨before.length, attack,
      engine.stoppedAt_of_halted now _ _ before attack behind split halted ?_ ?_ ?_ ?_⟩
    all_goals rw [same]
    · exact stopped.symm
    · dsimp only
      split <;> rfl
    · dsimp only
      by_cases none : ({ engine with attacks := (applyAll now 0 fired engine.attacks).attacks } :
          Engine α).isIdle = true
      · rw [if_pos none, if_pos none]
      · rw [if_neg none]
        exact (if_neg none).symm

/-- Idle attacks at places that grow. -/
structure Ascending (attacks : List α) (places : List Nat) : Prop where
  ordered : places.Pairwise (· < ·)
  idle : ∀ place ∈ places, ∃ attack, attacks[place]? = some attack ∧
    Attack.isApplied attack = false

theorem ascending_idlePlaces (attacks : List α) : Ascending attacks (idlePlaces 0 attacks) :=
  ⟨List.pairwise_findIdxs, fun place => (mem_idlePlaces attacks place).mp⟩

theorem ascending_take (attacks : List α) (limit : Nat) :
    Ascending attacks (idlePlaces 0 (attacks.take limit)) ∧
      ∀ place ∈ idlePlaces 0 (attacks.take limit), place < limit := by
  have inside : ∀ place ∈ idlePlaces 0 (attacks.take limit), place < limit ∧
      ∃ attack, attacks[place]? = some attack ∧ Attack.isApplied attack = false := by
    intro place member
    obtain ⟨attack, found, idle⟩ := (mem_idlePlaces _ place).mp member
    rw [List.getElem?_take] at found
    split at found
    next below => exact ⟨below, attack, found, idle⟩
    next => cases found
  exact ⟨⟨List.pairwise_findIdxs, fun place member => (inside place member).2⟩,
    fun place member => (inside place member).1⟩

/-- Attacks are started in order, each once at most, and only if they are idle. -/
theorem fail_uses [LawfulAttack α] (engine : Engine α) (now : Nat) (fired : Bool) :
    ∃ places : List Nat, (engine.fail now fired).1.uses = places.map .apply ∧
      Ascending engine.attacks places := by
  by_cases enabled : engine.state = .enabled
  · rw [engine.fail_enabled_again now fired enabled]
    exact ⟨[], rfl, List.Pairwise.nil, nofun⟩
  · cases outcome : (engine.fail now fired).1.result with
    | ok done =>
        have completed := engine.fail_completed now fired enabled outcome
        exact ⟨_, completed.uses, ascending_idlePlaces engine.attacks⟩
    | error error =>
        obtain ⟨place, attack, stopped⟩ := engine.fail_stopped now fired error outcome
        obtain ⟨earlier, below⟩ := ascending_take engine.attacks place
        rcases stopped.uses with uses | uses
        · exact ⟨_, uses, earlier⟩
        · refine ⟨_, uses, List.pairwise_append.mpr ⟨earlier.ordered, List.pairwise_singleton _ _,
            ?_⟩, ?_⟩
          · intro other member last same
            rw [List.mem_singleton.mp same]
            exact below other member
          · intro other member
            rcases List.mem_append.mp member with before | last
            · exact earlier.idle other before
            · rw [List.mem_singleton.mp last]
              exact ⟨attack, stopped.found, stopped.idle⟩

/-- An apply does nothing to an engine that is enabled. Any other apply starts the idle attacks in
order, each once at most, until all are applied or it has to stop at one of them; it names the place
of that attack, and whatever is applied by then stays. That an attack is applied already is never
told. -/
theorem fail_outcome [LawfulAttack α] (engine : Engine α) (now : Nat) (fired : Bool) :
    let attempt := (engine.fail now fired).1
    (engine.state = .enabled → engine.fail now fired = (⟨.ok (), engine, []⟩, fired)) ∧
    (engine.state ≠ .enabled →
      engine.Completed attempt ∨ ∃ place attack, engine.StoppedAt now attempt place attack) ∧
    (∃ places : List Nat, attempt.uses = places.map .apply ∧ Ascending engine.attacks places) ∧
    attempt.result ≠ .error .alreadyApplied ∧
    (Candid α → ∀ place kind,
      attempt.result ≠ .error (.attackFailed place kind .alreadyApplied)) := by
  intro attempt
  refine ⟨engine.fail_enabled_again now fired, ?_, engine.fail_uses now fired, ?_, ?_⟩
  · intro down
    cases outcome : attempt.result with
    | ok done => exact Or.inl (engine.fail_completed now fired down outcome)
    | error error => exact Or.inr (engine.fail_stopped now fired error outcome)
  · intro told
    obtain ⟨place, attack, stopped⟩ := engine.fail_stopped now fired _ told
    rcases stopped.told with cancelled | ⟨cause, _, refused⟩
    · cases told.symm.trans cancelled
    · cases told.symm.trans refused
  · intro candid place kind told
    obtain ⟨_, attack, stopped⟩ := engine.fail_stopped now fired _ told
    rcases stopped.told with cancelled | ⟨cause, answer, refused⟩
    · cases told.symm.trans cancelled
    · cases told.symm.trans refused
      exact candid now false attack stopped.idle answer

/-- Two attacks that make trouble, each once, between two that do not. -/
def unsteadyFailure : Failure :=
  ⟨"node", "unsteady", ⟨.ofSeconds 1, [.ofKind "scripted_ok" none, .ofKind "scripted_flaky" none,
    .ofKind "scripted_cancel" none, .ofKind "scripted_ok" none]⟩, .unknown, .enabled, 0⟩

/-- Three applies, of which the first fails, the second is cancelled, and the third succeeds. -/
theorem fail_outcome_resumed :
    ∃ engine, ofFailure Scripted.catalogue unsteadyFailure = .ok engine ∧
      let first := (engine.fail 0 false).1
      let second := (first.engine.fail 0 false).1
      let third := (second.engine.fail 0 false).1
      first.result = .error (.attackFailed 1 "scripted_flaky" (.attack "scripted failure")) ∧
        second.result = .error (.cancelled 3) ∧
        (∃ place attack, first.engine.StoppedAt 0 second place attack) ∧
        second.engine.Completed third ∧ third.uses = [.apply 3] := by
  refine ⟨_, rfl, rfl, rfl, ?_, ?_, rfl⟩
  · refine ((fail_outcome _ 0 false).2.1 (by decide)).resolve_left ?_
    intro completed
    exact absurd completed.state (by decide)
  · refine ((fail_outcome _ 0 false).2.1 (by decide)).resolve_right ?_
    rintro ⟨place, attack, stopped⟩
    exact absurd stopped.state (by decide)

/-! Which attacks are candid -/

end Engine

theorem startUnless_candid {α : Type} (fired applied : Bool) (attack : α) (start : Attempt α)
    (idle : applied = false) (candid : start.result ≠ .error .alreadyApplied) :
    (startUnless fired applied attack start).result ≠ .error .alreadyApplied := by
  subst idle
  cases fired with
  | true => exact nofun
  | false => exact candid

theorem BuiltIn.candid [Host] : Candid BuiltIn := by
  intro now fired attack idle
  cases attack with
  | allocation attack =>
      apply startUnless_candid _ _ _ _ idle
      unfold Allocation.start
      split
      all_goals
        intro same
        cases same
  | leak attack =>
      apply startUnless_candid _ _ _ _ idle
      intro same
      cases same
  | load attack =>
      apply startUnless_candid _ _ _ _ idle
      unfold Load.start
      split
      all_goals
        intro same
        cases same

/-! Reverting -/

namespace Engine

/-- An engine whose attacks were reverted, last first: each that was applied, and no other. -/
structure Relieved (attacks : List α) (outcome : EngineOutcome α) : Prop where
  uses : outcome.uses = (appliedPlaces 0 attacks).reverse.map .revert
  left : outcome.engine.attacks = attacks.map reverted
  state : outcome.engine.state = .disabled
  quiet : ¬ outcome.engine.hasLiveTimer
  told : outcome.result = if complaints attacks = [] then .ok ()
    else .error (.revertFailed ("; ".intercalate (complaints attacks)))

theorem subside_relieved (engine : Engine α) : Relieved engine.attacks engine.subside := by
  have quiet := unarmed_quiet _ engine.subside_armed
  refine ⟨?uses, engine.subside_attacks, engine.subside_state, quiet, ?told⟩
  all_goals
    unfold subside
    dsimp only
    split
  case uses.isTrue idle =>
    have none := (isIdle_iff _).mp (Bool.and_eq_true_iff.mp idle).1
    rw [appliedPlaces, List.findIdxs_eq_nil_iff.mpr none]
    rfl
  case uses.isFalse => exact revertAll_uses 0 engine.attacks
  case told.isTrue idle =>
    have none := (isIdle_iff _).mp (Bool.and_eq_true_iff.mp idle).1
    refine (if_pos ((complaints_eq_nil_iff _).mpr ?_)).symm
    intro attack member applied
    rw [none attack member] at applied
    cases applied
  case told.isFalse =>
    rw [revertAll_faults]
    simp only [List.isEmpty_iff]

/-- An engine that is down and idle is not touched, but for the note that its time ran out. -/
theorem revert_quiet (engine : Engine α) (down : engine.state = .disabled)
    (idle : engine.isIdle = true) :
    engine.revert = ⟨.ok (), { engine with expired := false, armed := none }, []⟩ :=
  if_pos (Bool.and_eq_true_iff.mpr ⟨idle, decide_eq_true down⟩)

structure Subsided (engine : Engine α) : Prop where
  down : engine.state = .disabled
  idle : engine.isIdle = true
  unexpired : engine.expired = false
  unarmed : engine.armed = none

theorem revert_subsided [LawfulAttack α] (engine : Engine α)
    (clean : engine.revert.result = .ok ()) : engine.revert.engine.Subsided :=
  ⟨subside_state _, (isIdle_iff _).mpr (subside_idle _ clean), subside_expired _, subside_armed _⟩

theorem Subsided.revert {engine : Engine α} (subsided : engine.Subsided) :
    engine.revert = ⟨.ok (), engine, []⟩ := by
  obtain ⟨down, idle, unexpired, unarmed⟩ := subsided
  rw [engine.revert_quiet down idle]
  obtain ⟨_, _, _, _, _, _, _, _, _, _, _⟩ := engine
  cases unexpired
  cases unarmed
  rfl

def wait (engine : Engine α) (times : List Nat) : Engine α :=
  times.foldl (fun engine time => (engine.advance time).1) engine

/-- Without a timer, time changes neither the state of an engine nor which attacks are applied. -/
theorem wait_unarmed [LawfulAttack α] (engine : Engine α) (times : List Nat)
    (unarmed : engine.armed = none) :
    (engine.wait times).state = engine.state ∧
      idlePlaces 0 (engine.wait times).attacks = idlePlaces 0 engine.attacks := by
  induction times generalizing engine with
  | nil => exact ⟨rfl, rfl⟩
  | cons time rest ih =>
      have passed := engine.advance_unarmed time unarmed
      have still : (engine.advance time).1.armed = none := by
        rw [passed]
        exact unarmed
      obtain ⟨state, places⟩ := ih _ still
      refine ⟨state.trans (by rw [passed]; rfl), places.trans ?_⟩
      rw [passed, idlePlaces, idlePlaces]
      dsimp only [elapse, waiting]
      rw [List.findIdxs_map]
      congr
      funext attack
      exact congrArg (! ·) (LawfulAttack.applied_advance time attack)

/-- A revert ends every attack that is applied, past those that complain, and tells all complaints.
An engine that was down and idle is not touched by it, so that a second revert has nothing left to
do once all attacks are idle; and the next apply that succeeds starts those that are. -/
theorem revert_outcome [LawfulAttack α] (engine : Engine α) :
    let outcome := engine.revert
    Relieved engine.attacks outcome ∧ outcome.engine.expired = false ∧
    (outcome.result = .ok () ↔ ∀ attack ∈ engine.attacks, Attack.isApplied attack = true →
      (Attack.revert attack).1 = .ok ()) ∧
    (engine.state = .disabled → engine.isIdle = true →
      outcome = ⟨.ok (), { engine with expired := false, armed := none }, []⟩) ∧
    (outcome.engine.isIdle = true → outcome.engine.revert = ⟨.ok (), outcome.engine, []⟩) ∧
    ∀ times now fired,
      let attempt := ((outcome.engine.wait times).fail now fired).1
      attempt.result = .ok () →
        attempt.uses = (idlePlaces 0 outcome.engine.attacks).map .apply := by
  intro outcome
  have relieved : Relieved engine.attacks outcome :=
    subside_relieved { engine with expired := false }
  have unexpired : outcome.engine.expired = false := subside_expired _
  have unarmed : outcome.engine.armed = none := subside_armed _
  refine ⟨relieved, unexpired, ?_, engine.revert_quiet, ?_, ?_⟩
  · rw [← complaints_eq_nil_iff, relieved.told]
    split <;> simp_all
  · intro idle
    exact Subsided.revert ⟨relieved.state, idle, unexpired, unarmed⟩
  · intro times now fired attempt succeeded
    obtain ⟨state, places⟩ := outcome.engine.wait_unarmed times unarmed
    have down : (outcome.engine.wait times).state ≠ .enabled := by
      rw [state, relieved.state]
      exact nofun
    rw [(fail_completed _ now fired down succeeded).uses, places]

def stubbornFailure : Failure :=
  ⟨"node", "stubborn", ⟨.ofSeconds 1, [.ofKind "scripted_ok" none, .ofKind "scripted_stuck" none,
    .ofKind "scripted_noisy" none]⟩, .unknown, .enabled, 0⟩

/-- An attack that cannot be reverted is left out by the next apply, and one that only complains is
not. -/
theorem revert_outcome_stubborn :
    ∃ engine, ofFailure Scripted.catalogue stubbornFailure = .ok engine ∧
      let outcome := (engine.fail 0 false).1.engine.revert
      outcome.uses = [.revert 2, .revert 1, .revert 0] ∧
        outcome.result = .error (.revertFailed ("scripted_noisy: attack runtime error: scripted " ++
          "noise; scripted_stuck: attack runtime error: scripted stuck")) ∧
        ((outcome.engine.wait [5]).fail 7 false).1.uses = [.apply 0, .apply 2] := by
  refine ⟨_, rfl, ?_, rfl, ?_⟩
  · exact (revert_outcome _).1.uses
  · exact (revert_outcome _).2.2.2.2.2 [5] 7 false rfl

end Engine

end FaultInjection
