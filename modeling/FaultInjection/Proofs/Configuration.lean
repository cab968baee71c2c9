import FaultInjection.Configuration
import FaultInjection.Proofs.Duration
import FaultInjection.Proofs.Master.Stay
import FaultInjection.Proofs.Outcome

/-!
The settings of a master that are accepted, and what its sweeps make of them. Each interval and the
count are in range on their own; the silence that they allow together is worked out by every sweep,
and need not be a duration.
-/

namespace FaultInjection

/-! Counts -/

/-- Digits are read as the number they spell if it is one of 32 bits. -/
theorem extendCount_eq_ok (digits : List Char) (value count : Nat) (small : value < 4294967296) :
    extendCount value digits = .ok count ↔
      (∀ digit ∈ digits, digit.isDigit = true) ∧ Duration.extended value digits = count ∧
        count < 4294967296 := by
  induction digits generalizing value with
  | nil =>
      rw [extendCount, Duration.extended, List.foldl_nil]
      constructor
      · rintro ⟨⟩
        exact ⟨List.forall_mem_nil _, rfl, small⟩
      · rintro ⟨_, rfl, _⟩
        rfl
  | cons digit rest ih =>
      rw [List.forall_mem_cons, Duration.extended, List.foldl_cons, ← Duration.extended,
        extendCount]
      by_cases isDigit : digit.isDigit = true
      · by_cases fits : 10 * value + (digit.toNat - '0'.toNat) < 4294967296
        · simp only [isDigit, Bool.not_true, Bool.false_eq_true, ↓reduceIte, fits, true_and]
          exact ih _ fits
        · -- a number that is too large stays so
          have least := Duration.le_extended (10 * value + (digit.toNat - '0'.toNat)) rest
          simp only [isDigit, Bool.not_true, Bool.false_eq_true, ↓reduceIte, fits, true_and]
          refine iff_of_false (fun read => ?_) fun both => by omega
          cases read
      · simp [isDigit]

theorem parseCount_lt (chars : List Char) (count : Nat) (read : parseCount chars = .ok count) :
    count < 4294967296 := by
  unfold parseCount at read
  split at read
  · cases read
  all_goals exact ((extendCount_eq_ok _ 0 count (by decide)).mp read).2.2

theorem parseCount_toString (count : Nat) (small : count < 4294967296) :
    parseCount (toString count).toList = .ok count := by
  obtain ⟨some, digits⟩ := Duration.toString_digits count
  have read := (extendCount_eq_ok (toString count).toList 0 count (by decide)).mpr
    ⟨digits, Duration.digitsValue_toString count, small⟩
  unfold parseCount
  split
  next empty => exact absurd empty some
  next signed =>
    have plus := digits '+' (signed ▸ List.mem_cons_self)
    cases plus
  next => exact read

theorem trimChars_toString (count : Nat) :
    Text.trimChars (toString count).toList = (toString count).toList := by
  obtain ⟨_, digits⟩ := Duration.toString_digits count
  have solid : ∀ c ∈ (toString count).toList, Text.isSpace c = false := fun c member =>
    Duration.digit_not_space c (digits c member)
  have kept := Text.trimChars_padded [] (toString count).toList [] nofun nofun
    (fun c first => solid c (List.mem_of_mem_head? first))
    (fun c last => solid c (List.mem_of_mem_getLast? last))
  rwa [List.nil_append, List.append_nil] at kept

namespace Variables

variable (environment : Variables)

theorem positive_eq_ok (name : String) (standard duration : Duration)
    (some : standard.isZero = false) (read : environment.positive name standard = .ok duration) :
    duration.isZero = false := by
  unfold positive complain at read
  split at read
  · cases read
    exact some
  · obtain ⟨parsed, _, read⟩ := (bind_eq_ok _ _ _).mp read
    split at read
    · cases read
    next positive =>
      cases read
      exact Bool.eq_false_iff.mpr positive

theorem positive_spelled (name : String) (standard duration : Duration)
    (spelled : environment name = some duration.text) (some : duration.isZero = false) :
    environment.positive name standard = .ok duration := by
  simp only [positive, complain, spelled, parseDuration, Duration.parse?_text]
  exact if_neg (Bool.eq_false_iff.mp some)

theorem missedHeartbeats_eq_ok (count : Nat) (read : environment.missedHeartbeats = .ok count) :
    0 < count ∧ count < 4294967296 := by
  obtain ⟨parsed, counted, read⟩ := (bind_eq_ok _ _ _).mp read
  split at read
  · cases read
  next positive =>
    cases read
    refine ⟨Nat.pos_of_ne_zero positive, ?_⟩
    unfold complain at counted
    split at counted
    · cases counted
      decide
    · dsimp only at counted
      split at counted
      next known =>
        cases counted
        exact parseCount_lt _ _ known
      next => cases counted

end Variables

namespace MasterSettings

structure InRange (settings : MasterSettings) : Prop where
  heartbeat : settings.policy.heartbeatInterval.isZero = false
  sweep : settings.sweepInterval.isZero = false
  missed : 0 < settings.policy.missedHeartbeats
  counted : settings.policy.missedHeartbeats < 4294967296

theorem ofVariables_inRange (environment : Variables) (settings : MasterSettings)
    (accepted : ofVariables environment = .ok settings) : settings.InRange := by
  obtain ⟨missed, counted, accepted⟩ := (bind_eq_ok _ _ _).mp accepted
  obtain ⟨heartbeat, beaten, accepted⟩ := (bind_eq_ok _ _ _).mp accepted
  obtain ⟨evictAfter, _, accepted⟩ := (bind_eq_ok _ _ _).mp accepted
  obtain ⟨sweep, swept, accepted⟩ := (bind_eq_ok _ _ _).mp accepted
  cases accepted
  have count := environment.missedHeartbeats_eq_ok missed counted
  exact ⟨environment.positive_eq_ok _ _ _ (by decide) beaten,
    environment.positive_eq_ok _ _ _ (by decide) swept, count.1, count.2⟩

def spelled (settings : MasterSettings) : Variables
  | "INJECTOR_MASTER_LISTEN" => some settings.listen
  | "INJECTOR_MISSED_HEARTBEATS" => some (toString settings.policy.missedHeartbeats)
  | "INJECTOR_HEARTBEAT_INTERVAL" => some settings.policy.heartbeatInterval.text
  | "INJECTOR_EVICT_AFTER" => settings.policy.evictAfter.map Duration.text
  | "INJECTOR_SWEEP_INTERVAL" => some settings.sweepInterval.text
  | _ => none

theorem ofVariables_spelled (settings : MasterSettings) (inRange : settings.InRange) :
    ofVariables settings.spelled = .ok settings := by
  have missed : settings.spelled.missedHeartbeats = .ok settings.policy.missedHeartbeats := by
    have read := parseCount_toString settings.policy.missedHeartbeats inRange.counted
    rw [← trimChars_toString] at read
    simp only [Variables.missedHeartbeats, Variables.complain, spelled, read]
    exact if_neg (Nat.ne_of_gt inRange.missed)
  have heartbeat := settings.spelled.positive_spelled "INJECTOR_HEARTBEAT_INTERVAL"
    LivenessPolicy.standard.heartbeatInterval _ rfl inRange.heartbeat
  have sweep := settings.spelled.positive_spelled "INJECTOR_SWEEP_INTERVAL" (.ofSeconds 1) _ rfl
    inRange.sweep
  have evict : settings.spelled.complain "INJECTOR_EVICT_AFTER" none (fun text =>
      (Variables.parseDuration "INJECTOR_EVICT_AFTER" text).map some) =
        .ok settings.policy.evictAfter := by
    simp only [Variables.complain, spelled]
    cases settings.policy.evictAfter with
    | none => rfl
    | some duration =>
        simp only [Option.map_some, Variables.parseDuration, Duration.parse?_text]
        rfl
  simp only [ofVariables, missed, heartbeat, sweep, evict]
  rfl

/-- Settings are accepted from some variables just if each of them is in its range. -/
theorem accepted_iff (settings : MasterSettings) :
    (∃ environment, ofVariables environment = .ok settings) ↔ settings.InRange :=
  ⟨fun ⟨environment, accepted⟩ => ofVariables_inRange environment settings accepted,
    fun inRange => ⟨settings.spelled, settings.ofVariables_spelled inRange⟩⟩

end MasterSettings

/-! Sweeps -/

theorem LivenessPolicy.unreachableAfter?_eq_some (policy : LivenessPolicy) (threshold : Duration)
    (some : 0 < policy.missedHeartbeats) : policy.unreachableAfter? = .some threshold ↔
      policy.heartbeatInterval.nanos * policy.missedHeartbeats = threshold.nanos := by
  rw [unreachableAfter?, Duration.ofNanos?_eq_some_iff, patience, Nat.max_eq_right some]

theorem Roster.sweep?_isSome (roster : Roster) (now : Int) :
    (roster.sweep? now).isSome = true ↔ roster.policy.patience < Duration.limit := by
  rw [sweep?, Option.isSome_map, LivenessPolicy.unreachableAfter?, Duration.ofNanos?,
    Duration.limit]
  split
  next fits => exact iff_of_true rfl fits
  next long => exact iff_of_false Bool.false_ne_true long

/-- The settings that are accepted are in their ranges, and the sweeps of a master that has them go
through, whatever its nodes do, if the interval times the count is a duration. They all fail if it
is not. -/
theorem MasterSettings.sweeps_iff (environment : Variables) (settings : MasterSettings)
    (accepted : ofVariables environment = .ok settings) :
    settings.InRange ∧
    (∀ threshold, settings.policy.unreachableAfter? = some threshold ↔
      settings.policy.heartbeatInterval.nanos * settings.policy.missedHeartbeats =
        threshold.nanos) ∧
    ∀ (commands : List RosterCommand) (now : Int),
      (((Roster.empty settings.policy).after commands).sweep? now).isSome = true ↔
        settings.policy.heartbeatInterval.nanos * settings.policy.missedHeartbeats <
          Duration.limit := by
  have inRange := (accepted_iff settings).mp ⟨environment, accepted⟩
  refine ⟨inRange, fun threshold => ?_, fun commands now => ?_⟩
  · exact settings.policy.unreachableAfter?_eq_some threshold inRange.missed
  · rw [Roster.sweep?_isSome, Roster.after_policy, Roster.empty, LivenessPolicy.patience,
      Nat.max_eq_right inRange.missed]

/-- With the standard settings all sweeps go through. -/
theorem MasterSettings.sweeps_iff_standard :
    ∃ settings, ofVariables (fun _ => none) = .ok settings ∧
      ∀ (commands : List RosterCommand) (now : Int),
        (((Roster.empty settings.policy).after commands).sweep? now).isSome = true := by
  have accepted : ofVariables (fun _ => none) =
      .ok ⟨"0.0.0.0:7070", LivenessPolicy.standard, .ofSeconds 1⟩ := rfl
  refine ⟨_, accepted, fun commands now => ?_⟩
  exact ((sweeps_iff _ _ accepted).2.2 commands now).mpr (by decide)

/-- The longest interval of whole seconds, with the standard count. -/
def endlessHeartbeat : Variables
  | "INJECTOR_HEARTBEAT_INTERVAL" => some "18446744073709551615s"
  | _ => none

theorem MasterSettings.accepted_sweep_fails :
    ¬ ∀ (environment : Variables) (settings : MasterSettings),
      ofVariables environment = .ok settings → ∀ (commands : List RosterCommand) (now : Int),
        (((Roster.empty settings.policy).after commands).sweep? now).isSome = true := by
  intro sweeps
  have failing : (ofVariables endlessHeartbeat).map (fun settings =>
      ((Roster.empty settings.policy).sweep? 0).isSome) = .ok false := by decide +kernel
  obtain ⟨settings, accepted, fails⟩ := (map_eq_ok _ _ _).mp failing
  cases fails.symm.trans (sweeps endlessHeartbeat settings accepted [] 0)

end FaultInjection
