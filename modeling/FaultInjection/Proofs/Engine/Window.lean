import FaultInjection.Proofs.Engine.Timer

/-!
When an engine is enabled. A session keeps the time, the token and the history of its engine: the
applies that enabled it, the reverts that were called, and the timers that brought it down. The
engine is enabled from an apply until a revert is called or the timeout has passed, whichever
comes first.
-/

namespace FaultInjection

variable {α : Type} [Attack α]

inductive Occurrence where
  | begun (time : Nat)
  | reverted
  | ended (timer : Timer)

namespace Occurrence

/-- The start of the latest enabled period, unless a revert was called since. The history has the
newest entry first. -/
def standing : List Occurrence → Option Nat
  | [] => none
  | .begun time :: _ => some time
  | .reverted :: _ => none
  | .ended _ :: earlier => standing earlier

def beginnings : List Occurrence → Nat
  | [] => 0
  | .begun _ :: earlier => beginnings earlier + 1
  | _ :: earlier => beginnings earlier

def endings : List Occurrence → List Timer
  | [] => []
  | .ended timer :: earlier => timer :: endings earlier
  | _ :: earlier => endings earlier

/-- Every ending is the first one of the latest period, at the time that was set for it. -/
def Sound (timeout : Duration) : List Occurrence → Prop
  | [] => True
  | .ended timer :: earlier =>
      (timeout.isZero = false ∧
        (∃ start, standing earlier = some start ∧
          timer = ⟨start + timeout.nanos, beginnings earlier⟩) ∧
        timer.period ∉ (endings earlier).map Timer.period) ∧ Sound timeout earlier
  | _ :: earlier => Sound timeout earlier

theorem Sound.ended {timeout : Duration} (later earlier : List Occurrence) (timer : Timer)
    (sound : Sound timeout (later ++ .ended timer :: earlier)) :
    timeout.isZero = false ∧ ∃ start, standing earlier = some start ∧
      timer = ⟨start + timeout.nanos, beginnings earlier⟩ := by
  induction later with
  | nil => exact ⟨sound.1.1, sound.1.2.1⟩
  | cons newest rest ih =>
      cases newest with
      | begun time => exact ih sound
      | reverted => exact ih sound
      | ended other => exact ih sound.2

theorem Sound.once {timeout : Duration} {log : List Occurrence} (sound : Sound timeout log) :
    ((endings log).map Timer.period).Nodup := by
  induction log with
  | nil => exact List.nodup_nil
  | cons newest earlier ih =>
      cases newest with
      | begun time => exact ih sound
      | reverted => exact ih sound
      | ended timer => exact List.nodup_cons.mpr ⟨sound.1.2.2, ih sound.2⟩

end Occurrence

open Occurrence

def Engine.endings (engine : Engine α) : List Timer → List Timer
  | [] => []
  | timer :: rest =>
      let later := (engine.runOut timer).1.endings rest
      if engine.heeds timer then timer :: later else later

theorem Engine.endings_stale (engine : Engine α) (due : List Timer)
    (stale : ∀ timer ∈ due, engine.heeds timer = false) : engine.endings due = [] := by
  induction due with
  | nil => rfl
  | cons timer rest ih =>
      have head := stale timer List.mem_cons_self
      have tail := ih fun later member => stale later (List.mem_cons_of_mem timer member)
      simp [endings, head, runOut_stale, tail]

theorem Engine.endings_eq (engine : Engine α) (due : List Timer) :
    engine.endings due = (due.find? engine.heeds).toList := by
  induction due with
  | nil => rfl
  | cons timer rest ih =>
      cases heeded : engine.heeds timer with
      | true =>
          have spent : engine.timeOut.engine.endings rest = [] :=
            endings_stale _ rest fun later _ => heeds_subside _ later
          simp [endings, heeded, runOut_heeded, spent]
      | false => simp [endings, heeded, runOut_stale, ih]

structure Session (α : Type) where
  now : Nat
  fired : Bool
  engine : Engine α
  /-- What has happened so far, newest first. -/
  log : List Occurrence

inductive SessionCommand where
  | fail
  | revert
  | fire
  | renew
  | advance (span : Nat)

namespace Session

def start (now : Nat) (engine : Engine α) : Session α := ⟨now, false, engine, []⟩

def perform (session : Session α) : SessionCommand → Session α
  | .fail =>
      let attempt := session.engine.fail session.now session.fired
      let effective := attempt.1.result.isOk && session.engine.state ≠ .enabled
      { session with
        fired := attempt.2
        engine := attempt.1.engine
        log := if effective then .begun session.now :: session.log else session.log }
  | .revert =>
      { session with engine := session.engine.revert.engine, log := .reverted :: session.log }
  | .fire => { session with fired := true }
  | .renew => { session with fired := false }
  | .advance span =>
      let later := session.now + span
      let ended := (session.engine.waiting later).endings (session.engine.due later)
      { session with
        now := later
        engine := (session.engine.advance later).1
        log := (ended.map Occurrence.ended).reverse ++ session.log }

def run (session : Session α) (commands : List SessionCommand) : Session α :=
  commands.foldl perform session

structure Tracked (session : Session α) : Prop where
  timed : session.engine.Timed
  counted : session.engine.period = beginnings session.log
  ahead : ∀ timer ∈ session.engine.timers, session.now < timer.deadline
  known : ∀ timer ∈ session.engine.timers, timer.period ≤ session.engine.period
  spent : ∀ timer ∈ endings session.log, timer.period ≤ session.engine.period
  up : session.engine.state = .enabled →
    (∃ start, standing session.log = some start ∧
      ∀ timer ∈ session.engine.timers, timer.period = session.engine.period →
        timer.deadline = start + session.engine.specification.timeout.nanos) ∧
    ∀ timer ∈ endings session.log, timer.period ≠ session.engine.period
  down : session.engine.state ≠ .enabled → ∀ start, standing session.log = some start →
    session.engine.hasTimeout ∧
      start + session.engine.specification.timeout.nanos ≤ session.now
  expired : session.engine.expired = true ↔ ∃ timer earlier, session.log = .ended timer :: earlier
  sound : Sound session.engine.specification.timeout session.log

omit [Attack α] in
theorem start_tracked (catalogue : Catalogue α) (failure : Failure) (engine : Engine α)
    (built : Engine.ofFailure catalogue failure = .ok engine) (now : Nat) :
    (start now engine).Tracked := by
  have timed := Engine.ofFailure_timed catalogue failure engine built
  obtain ⟨attacks, _, rfl⟩ := (map_eq_ok _ _ _).mp built
  refine ⟨timed, rfl, ?_, ?_, ?_, ?_, ?_, ?_, trivial⟩
  · intro timer member; cases member
  · intro timer member; cases member
  · intro timer member; cases member
  · intro enabled; cases enabled
  · intro _ start standing; cases standing
  · constructor
    · intro expired; cases expired
    · rintro ⟨timer, earlier, nonempty⟩; cases nonempty

omit [Attack α] in
theorem Tracked.enabled_iff {session : Session α} (tracked : session.Tracked) :
    session.engine.state = .enabled ↔ ∃ start, standing session.log = some start ∧
      (session.engine.specification.timeout.isZero = true ∨
        session.now < start + session.engine.specification.timeout.nanos) := by
  constructor
  · intro enabled
    obtain ⟨⟨start, standing, set⟩, _⟩ := tracked.up enabled
    refine ⟨start, standing, ?_⟩
    by_cases endless : session.engine.specification.timeout.isZero = true
    · exact Or.inl endless
    · right
      obtain ⟨_, timer, member, current⟩ :=
        tracked.timed.current enabled (Bool.eq_false_iff.mpr endless)
      rw [← set timer member current]
      exact tracked.ahead timer member
  · rintro ⟨start, standing, open_⟩
    by_cases enabled : session.engine.state = .enabled
    · exact enabled
    · obtain ⟨timeout, elapsed⟩ := tracked.down enabled start standing
      rcases open_ with endless | early
      · rw [Engine.hasTimeout, endless] at timeout
        cases timeout
      · exact absurd early (Nat.not_lt.mpr elapsed)

/-! Each command keeps the history in step with the engine. -/

omit [Attack α] in
theorem Tracked.begun {session : Session α} (tracked : session.Tracked)
    (down : session.engine.state ≠ .enabled) (attacks : List α) (fired : Bool) :
    Tracked { session with
      fired
      engine := { session.engine with attacks }.enterPeriod session.now
      log := .begun session.now :: session.log } := by
  have timed := Engine.enterPeriod_timed { session.engine with attacks } session.now
    (tracked.timed.unarmed down)
  refine ⟨timed, ?_, ?_, ?_, ?_, fun _ => ⟨⟨session.now, rfl, ?_⟩, ?_⟩, ?_, ?_, ?_⟩
  · simpa [beginnings] using tracked.counted
  · intro timer member
    rcases Engine.mem_enterPeriod_timers _ _ timer member with old | ⟨timeout, rfl⟩
    · exact tracked.ahead timer old
    · have positive : session.engine.specification.timeout.nanos ≠ 0 := of_decide_eq_false timeout
      exact Nat.lt_add_of_pos_right (Nat.pos_of_ne_zero positive)
  · intro timer member
    rw [Engine.enterPeriod_period]
    rcases Engine.mem_enterPeriod_timers _ _ timer member with old | ⟨_, rfl⟩
    · exact Nat.le_succ_of_le (tracked.known timer old)
    · exact Nat.le_refl _
  · intro timer member
    rw [Engine.enterPeriod_period]
    exact Nat.le_succ_of_le (tracked.spent timer member)
  · intro timer member current
    rw [Engine.enterPeriod_period] at current
    rcases Engine.mem_enterPeriod_timers _ _ timer member with old | ⟨_, rfl⟩
    -- a timer of an earlier period may still be running
    · exact absurd current (Nat.ne_of_lt (Nat.lt_succ_of_le (tracked.known timer old)))
    · rw [Engine.enterPeriod_specification]
  · intro timer member
    rw [Engine.enterPeriod_period]
    exact Nat.ne_of_lt (Nat.lt_succ_of_le (tracked.spent timer member))
  · intro disabled; simp at disabled
  · simp
  · rw [Engine.enterPeriod_specification]
    exact tracked.sound

theorem fail_tracked (session : Session α) (tracked : session.Tracked) :
    (session.perform .fail).Tracked := by
  have timed := session.engine.fail_timed session.now session.fired tracked.timed
  rcases session.engine.fail_cases session.now session.fired with ⟨enabled, same⟩ |
    ⟨down, _, same⟩ | ⟨down, error, _, same⟩
  · simp only [perform, same, enabled, ne_eq, not_true_eq_false, decide_false, Bool.and_false,
      Bool.false_eq_true, ↓reduceIte]
    exact ⟨tracked.timed, tracked.counted, tracked.ahead, tracked.known, tracked.spent,
      tracked.up, tracked.down, tracked.expired, tracked.sound⟩
  · have effective : (Except.isOk (Except.ok () : Except Error Unit) &&
        decide (session.engine.state ≠ .enabled)) = true := by
      simp [Except.isOk, Except.toBool, down]
    simp only [perform, same, effective, ↓reduceIte]
    exact tracked.begun down _ _
  · rw [same] at timed
    dsimp only at timed
    split at timed
    next idle =>
      simp only [perform, same, if_pos idle]
      exact ⟨timed, tracked.counted, tracked.ahead, tracked.known, tracked.spent,
        fun enabled => absurd enabled down, tracked.down, tracked.expired, tracked.sound⟩
    next busy =>
      simp only [perform, same, if_neg busy]
      exact ⟨timed, tracked.counted, tracked.ahead, tracked.known, tracked.spent,
        fun enabled => (nomatch enabled), fun _ => tracked.down down, tracked.expired,
        tracked.sound⟩

theorem revert_tracked (session : Session α) (tracked : session.Tracked) :
    (session.perform .revert).Tracked := by
  have down : session.engine.revert.engine.state ≠ .enabled := by simp [Engine.revert]
  refine ⟨Engine.subside_timed _, ?_, ?_, ?_, ?_, fun enabled => absurd enabled down, ?_, ?_, ?_⟩
  · simpa [perform, Engine.revert, beginnings] using tracked.counted
  · simpa [perform, Engine.revert] using tracked.ahead
  · simpa [perform, Engine.revert] using tracked.known
  · simpa [perform, Engine.revert, endings] using tracked.spent
  · intro _ start standing; cases standing
  · simp [perform, Engine.revert]
  · simpa [perform, Engine.revert, Sound] using tracked.sound

theorem advance_quiet_tracked (session : Session α) (span : Nat) (tracked : session.Tracked)
    (stale : ¬ (session.engine.due (session.now + span)).any session.engine.heeds = true) :
    (session.perform (.advance span)).Tracked := by
  have timed := session.engine.advance_timed (session.now + span) tracked.timed
  have silent : (session.engine.waiting (session.now + span)).endings
      (session.engine.due (session.now + span)) = [] := by
    apply Engine.endings_stale
    intro timer member
    exact Bool.eq_false_iff.mpr fun heeded => stale (List.any_eq_true.mpr ⟨timer, member, heeded⟩)
  rw [Engine.advance_eq, if_neg stale] at timed
  simp only [perform, Engine.advance_eq, if_neg stale, silent]
  have kept : ∀ timer ∈ (session.engine.waiting (session.now + span)).timers,
      timer ∈ session.engine.timers := fun timer member => (List.mem_filter.mp member).1
  refine ⟨timed, tracked.counted, ?_, fun timer member => tracked.known timer (kept timer member),
    tracked.spent, ?_, ?_, tracked.expired, tracked.sound⟩
  · intro timer member
    exact of_decide_eq_true (List.mem_filter.mp member).2
  · intro enabled
    obtain ⟨⟨start, standing, set⟩, spent⟩ := tracked.up enabled
    exact ⟨⟨start, standing, fun timer member => set timer (kept timer member)⟩, spent⟩
  · intro down start standing
    obtain ⟨timeout, elapsed⟩ := tracked.down down start standing
    exact ⟨timeout, Nat.le_trans elapsed (Nat.le_add_right _ _)⟩

theorem advance_ending_tracked (session : Session α) (span : Nat) (tracked : session.Tracked)
    (ending : (session.engine.due (session.now + span)).any session.engine.heeds = true) :
    (session.perform (.advance span)).Tracked := by
  have timed := session.engine.advance_timed (session.now + span) tracked.timed
  rw [Engine.advance_eq, if_pos ending] at timed
  obtain ⟨timer, found⟩ : ∃ timer,
      (session.engine.due (session.now + span)).find? session.engine.heeds = some timer :=
    Option.isSome_iff_exists.mp (by rwa [List.find?_isSome, ← List.any_eq_true])
  -- after the first timer that is heeded the engine is down, and heeds no other
  have ended : (session.engine.waiting (session.now + span)).endings
      (session.engine.due (session.now + span)) = [timer] := by
    rw [Engine.endings_eq]
    exact congrArg Option.toList found
  obtain ⟨member, late⟩ := List.mem_filter.mp (List.mem_of_find?_eq_some found)
  obtain ⟨armed, current⟩ := (Engine.heeds_iff _ timer).mp (List.find?_some found)
  obtain ⟨enabled, timeout⟩ := tracked.timed.armed (by simp [armed])
  obtain ⟨⟨start, standing, set⟩, spent⟩ := tracked.up enabled
  have deadline := set timer member current.symm
  simp only [perform, Engine.advance_eq, if_pos ending, ended, List.map_cons, List.map_nil,
    List.reverse_singleton, List.singleton_append]
  have down : ((session.engine.waiting (session.now + span)).timeOut.engine.elapse
      (session.now + span)).state ≠ .enabled := by
    simp [Engine.elapse, Engine.timeOut]
  refine ⟨timed, ?_, ?_, ?_, ?_, fun enabled => absurd enabled down, ?_, ?_, ?_⟩
  · simpa [Engine.elapse, Engine.timeOut, Engine.waiting, beginnings] using tracked.counted
  · intro other member
    simp only [Engine.elapse, Engine.timeOut, Engine.subside_timers, Engine.waiting] at member
    exact of_decide_eq_true (List.mem_filter.mp member).2
  · intro other member
    simp only [Engine.elapse, Engine.timeOut, Engine.subside_timers, Engine.subside_period,
      Engine.waiting] at member ⊢
    exact tracked.known other (List.mem_filter.mp member).1
  · intro other member
    simp only [Engine.elapse, Engine.timeOut, Engine.subside_period, Engine.waiting]
    rcases List.mem_cons.mp member with rfl | earlier
    · exact Nat.le_of_eq current.symm
    · exact tracked.spent other earlier
  · intro _ begun same
    cases standing.symm.trans same
    simp only [Engine.hasTimeout, Engine.elapse, Engine.timeOut, Engine.subside_specification,
      Engine.waiting]
    exact ⟨timeout, deadline ▸ of_decide_eq_true late⟩
  · simp [Engine.elapse, Engine.timeOut]
  · simp only [Engine.elapse, Engine.timeOut, Engine.subside_specification, Engine.waiting]
    refine ⟨⟨timeout, ⟨start, standing, ?_⟩, ?_⟩, tracked.sound⟩
    · rw [← tracked.counted, current, ← deadline]
    -- the periods of earlier endings are all below the present one
    · intro again
      obtain ⟨other, earlier, same⟩ := List.mem_map.mp again
      exact spent other earlier (same.trans current.symm)

theorem perform_tracked (session : Session α) (command : SessionCommand)
    (tracked : session.Tracked) : (session.perform command).Tracked := by
  cases command with
  | fail => exact session.fail_tracked tracked
  | revert => exact session.revert_tracked tracked
  | fire =>
      exact ⟨tracked.timed, tracked.counted, tracked.ahead, tracked.known, tracked.spent,
        tracked.up, tracked.down, tracked.expired, tracked.sound⟩
  | renew =>
      exact ⟨tracked.timed, tracked.counted, tracked.ahead, tracked.known, tracked.spent,
        tracked.up, tracked.down, tracked.expired, tracked.sound⟩
  | advance span =>
      by_cases ending : (session.engine.due (session.now + span)).any session.engine.heeds = true
      · exact session.advance_ending_tracked span tracked ending
      · exact session.advance_quiet_tracked span tracked ending

theorem run_tracked (session : Session α) (commands : List SessionCommand)
    (tracked : session.Tracked) : (session.run commands).Tracked := by
  induction commands generalizing session with
  | nil => exact tracked
  | cons command rest ih =>
      exact ih (session.perform command) (session.perform_tracked command tracked)

theorem perform_specification (session : Session α) (command : SessionCommand) :
    (session.perform command).engine.specification = session.engine.specification := by
  cases command with
  | fail => exact session.engine.fail_specification session.now session.fired
  | revert => exact Engine.subside_specification _
  | fire => rfl
  | renew => rfl
  | advance span => exact session.engine.advance_specification (session.now + span)

theorem run_specification (session : Session α) (commands : List SessionCommand) :
    (session.run commands).engine.specification = session.engine.specification := by
  induction commands generalizing session with
  | nil => rfl
  | cons command rest ih =>
      exact (ih (session.perform command)).trans (session.perform_specification command)

omit [Attack α] in
theorem standing_ended (timers : List Timer) (log : List Occurrence) :
    standing ((timers.map Occurrence.ended).reverse ++ log) = standing log := by
  induction timers generalizing log with
  | nil => rfl
  | cons timer rest ih =>
      rw [List.map_cons, List.reverse_cons, List.append_assoc]
      exact ih (.ended timer :: log)

theorem fail_enabled (session : Session α) (enabled : session.engine.state = .enabled) :
    session.perform .fail = session := by
  simp [perform, Engine.fail, enabled]

/-- An engine is enabled from an apply until a revert is called or its time is up. A timer ends
only the period that it was started for, and ends it once. A clock that goes by whole milliseconds
serves a timer at the first of them at or after its deadline, and at each of them the law is
exact. -/
theorem run_window (catalogue : Catalogue α) (failure : Failure) (engine : Engine α)
    (built : Engine.ofFailure catalogue failure = .ok engine) (now : Nat)
    (commands : List SessionCommand) :
    let after := (start now engine).run commands
    let timeout := failure.specification.timeout
    (after.engine.state = .enabled ↔ ∃ start, standing after.log = some start ∧
      (timeout.isZero = true ∨ after.now < start + timeout.nanos)) ∧
    (∀ time, after.now ≤ time →
      ((after.engine.advance time).1.state = .enabled ↔
        ∃ start, standing after.log = some start ∧
          (timeout.isZero = true ∨ time < start + timeout.nanos))) ∧
    (after.engine.state = .enabled → after.perform .fail = after) ∧
    (∀ later earlier timer, after.log = later ++ .ended timer :: earlier →
      timeout.isZero = false ∧ ∃ start, standing earlier = some start ∧
        timer = ⟨start + timeout.nanos, beginnings earlier⟩) ∧
    ((endings after.log).map Timer.period).Nodup ∧
    (after.engine.expired = true ↔ ∃ timer earlier, after.log = .ended timer :: earlier) := by
  intro after timeout
  have tracked : after.Tracked :=
    (start now engine).run_tracked commands (start_tracked catalogue failure engine built now)
  have specified : after.engine.specification = failure.specification := by
    rw [(start now engine).run_specification commands]
    exact Engine.ofFailure_specification catalogue failure engine built
  have sound : Sound timeout after.log := by
    rw [← show after.engine.specification.timeout = timeout by rw [specified]]
    exact tracked.sound
  refine ⟨?_, ?_, after.fail_enabled, ?_, sound.once, tracked.expired⟩
  · have window := tracked.enabled_iff
    rwa [specified] at window
  · intro time late
    have window := (after.perform_tracked (.advance (time - after.now)) tracked).enabled_iff
    rw [perform_specification, specified] at window
    simpa only [perform, standing_ended, Nat.add_sub_cancel' late] using window
  · intro later earlier timer split
    exact Sound.ended later earlier timer (split ▸ sound)

def briefFailure : Failure :=
  ⟨"node", "brief", ⟨.ofSeconds 1, [.ofKind "scripted_ok" none]⟩, .unknown, .enabled, 0⟩

/-- The second of two applies is not ended at the deadline of the first. -/
theorem run_window_renewed :
    ∃ engine, Engine.ofFailure Scripted.catalogue briefFailure = .ok engine ∧
      let after := (start 0 engine).run
        [.fail, .advance 400000000, .revert, .fail, .advance 700000000]
      after.now = 1100000000 ∧ after.engine.state = .enabled ∧
        (after.engine.advance 1400000000).1.state ≠ .enabled := by
  refine ⟨_, rfl, rfl, ?_, ?_⟩
  · exact (run_window Scripted.catalogue briefFailure _ rfl 0
      [.fail, .advance 400000000, .revert, .fail, .advance 700000000]).1.mpr
        ⟨400000000, rfl, by decide⟩
  · intro enabled
    obtain ⟨start, standing, early⟩ := ((run_window Scripted.catalogue briefFailure _ rfl 0
      [.fail, .advance 400000000, .revert, .fail, .advance 700000000]).2.1 1400000000
        (by decide)).mp enabled
    cases standing
    revert early
    decide

end Session

end FaultInjection
