import FaultInjection.Proofs.Master.Subscription
import FaultInjection.Proofs.Master.View
import Mathlib.Logic.Function.Iterate

/-!
What a watcher takes up next. It first has the failures that were there, and then the events that
it has not taken up yet, one at a time; a watcher that takes up all that there is room for does so
in some such steps.
-/

namespace FaultInjection

namespace Watcher

/-- What the watcher takes up next: the event that it passes on, if it does, and the watcher after
that. -/
def next (watcher : Watcher) (master : Master) : Option Event × Watcher :=
  match watcher.snapshot with
  | failure :: rest => (some ⟨.created, failure⟩, { watcher with snapshot := rest })
  | [] =>
      let late := watcher.catchUp master
      match master.eventsSince late.position with
      | [] => (none, late)
      | event :: _ =>
          (if late.concerns master event then some event else none,
            { late with position := late.position + 1 })

def forward (master : Master) (watcher : Watcher) : Watcher :=
  if watcher.hasRoom then
    let taken := watcher.next master
    taken.2.offer (taken.1.bind eventText?)
  else watcher

def left (watcher : Watcher) (master : Master) : Nat :=
  watcher.snapshot.length + (master.history.length - watcher.position)

/-! A watcher takes up one thing after the other -/

theorem takeSnapshot_of_snapshot (watcher : Watcher) (snapshot failures : List Failure) :
    { watcher with snapshot }.takeSnapshot failures = watcher.takeSnapshot failures := by
  induction failures generalizing watcher with
  | nil => rfl
  | cons failure rest ih =>
      simp only [takeSnapshot]
      change (if watcher.hasRoom then { watcher.offer _ with snapshot }.takeSnapshot rest
        else _) = _
      rw [ih]

theorem takeSnapshot_forwards (master : Master) (watcher : Watcher) (failures : List Failure)
    (left : watcher.snapshot = failures) :
    ∃ rounds, watcher.takeSnapshot failures = (forward master)^[rounds] watcher := by
  induction failures generalizing watcher with
  | nil =>
      refine ⟨0, ?_⟩
      simp only [takeSnapshot, ← left]
      rfl
  | cons failure rest ih =>
      by_cases room : watcher.hasRoom = true
      · have first : watcher.forward master =
            { watcher.offer (eventText? ⟨.created, failure⟩) with snapshot := rest } := by
          simp [forward, room, next, left, offer]
        obtain ⟨rounds, taken⟩ :=
          ih { watcher.offer (eventText? ⟨.created, failure⟩) with snapshot := rest } rfl
        refine ⟨rounds + 1, ?_⟩
        rw [Function.iterate_succ_apply, first, ← taken, takeSnapshot, if_pos room]
        exact (takeSnapshot_of_snapshot _ rest rest).symm
      · refine ⟨0, ?_⟩
        simp only [takeSnapshot, room, Bool.false_eq_true, ↓reduceIte, ← left]
        rfl

theorem takeSnapshot_room (watcher : Watcher) (failures : List Failure)
    (room : (watcher.takeSnapshot failures).hasRoom = true) :
    (watcher.takeSnapshot failures).snapshot = [] := by
  induction failures generalizing watcher with
  | nil => rfl
  | cons failure rest ih =>
      simp only [takeSnapshot] at room ⊢
      split at room
      next free =>
        rw [if_pos free]
        exact ih _ room
      next full => exact absurd room full

def IsLate (watcher : Watcher) (master : Master) : Prop :=
  watcher.position + retention < master.history.length

instance (watcher : Watcher) (master : Master) : Decidable (watcher.IsLate master) :=
  inferInstanceAs (Decidable (_ < _))

theorem catchUp_punctual (watcher : Watcher) (master : Master)
    (punctual : ¬ watcher.IsLate master) : watcher.catchUp master = watcher := by
  have recent : master.history.length - retention ≤ watcher.position := by
    unfold IsLate at punctual
    omega
  rw [catchUp, Nat.max_eq_left recent]

theorem catchUp_late (watcher : Watcher) (master : Master) :
    ¬ (watcher.catchUp master).IsLate master := by
  simp only [IsLate, catchUp]
  omega

theorem next_event (watcher : Watcher) (master : Master) (event : Event) (rest : List Event)
    (started : watcher.snapshot = []) (punctual : ¬ watcher.IsLate master)
    (left : master.eventsSince watcher.position = event :: rest) :
    watcher.next master = (if watcher.concerns master event then some event else none,
      { watcher with position := watcher.position + 1 }) := by
  simp only [next, started, watcher.catchUp_punctual master punctual, left]

theorem next_nothing (watcher : Watcher) (master : Master)
    (started : watcher.snapshot = []) (punctual : ¬ watcher.IsLate master)
    (left : master.eventsSince watcher.position = []) : watcher.next master = (none, watcher) := by
  simp only [next, started, watcher.catchUp_punctual master punctual, left]

theorem forward_full (watcher : Watcher) (master : Master) (full : ¬ watcher.hasRoom = true) :
    watcher.forward master = watcher := if_neg full

theorem takeEvents_forwards (master : Master) (watcher : Watcher) (events : List Event)
    (started : watcher.snapshot = []) (punctual : ¬ watcher.IsLate master)
    (left : master.eventsSince watcher.position = events) :
    takeEvents master watcher events = (forward master)^[events.length + 1] watcher := by
  induction events generalizing watcher with
  | nil =>
      have idle : watcher.forward master = watcher := by
        simp [forward, watcher.next_nothing master started punctual left, offer]
      exact idle.symm
  | cons event rest ih =>
      by_cases room : watcher.hasRoom = true
      · obtain ⟨ahead, moved⟩ : ∃ ahead, ahead =
          { watcher.offer (if watcher.concerns master event then eventText? event else none) with
            position := watcher.position + 1 } := ⟨_, rfl⟩
        have first : watcher.forward master = ahead := by
          rw [forward, if_pos room, watcher.next_event master event rest started punctual left]
          by_cases concerned : watcher.concerns master event = true <;>
            simp [moved, concerned, offer]
        have position : ahead.position = watcher.position + 1 := by rw [moved]
        have later : ¬ ahead.IsLate master := by
          unfold IsLate at punctual ⊢
          omega
        have begun : ahead.snapshot = [] := by
          rw [moved]
          exact started
        have behind : master.eventsSince ahead.position = rest := by
          rw [position]
          exact (master.eventsSince_cons _ event rest left).2
        rw [List.length_cons, Function.iterate_succ_apply, first, ← ih ahead begun later behind,
          takeEvents, if_pos room, moved]
      · rw [takeEvents, if_neg room, Function.iterate_fixed (watcher.forward_full master room)]

/-- A watcher that takes up all that there is room for takes up one thing after the other. -/
theorem follow_forwards (watcher : Watcher) (master : Master) :
    ∃ rounds, watcher.follow master = (forward master)^[rounds] watcher := by
  obtain ⟨before, taken⟩ := watcher.takeSnapshot_forwards master watcher.snapshot rfl
  have empty := watcher.takeSnapshot_room watcher.snapshot
  unfold follow
  dsimp only
  generalize watcher.takeSnapshot watcher.snapshot = started at taken empty
  split
  next room =>
    -- a watcher that is late catches up when it takes up the next event
    have first : (started.catchUp master).forward master = started.forward master := by
      have twice := (started.catchUp master).catchUp_punctual master (started.catchUp_late master)
      have left : (started.catchUp master).snapshot = started.snapshot := rfl
      have free : (started.catchUp master).hasRoom = started.hasRoom := rfl
      simp only [forward, next, left, free, room, ↓reduceIte, empty room, twice]
    rw [takeEvents_forwards master (started.catchUp master) _ (empty room)
      (started.catchUp_late master) rfl, Function.iterate_succ_apply, first, taken,
      ← Function.iterate_succ_apply, ← Function.iterate_add_apply]
    exact ⟨_, rfl⟩
  next => exact ⟨before, taken⟩

/-! What is left gets less -/

section

variable (watcher : Watcher) (master : Master)

/-- There is less and less to take up. -/
theorem next_left : (watcher.next master).2.left master ≤ watcher.left master - 1 := by
  unfold left
  cases snapshot : watcher.snapshot with
  | cons failure rest =>
      simp only [next, snapshot, List.length_cons]
      omega
  | nil =>
      simp only [next, snapshot, List.length_nil]
      split
      next found =>
        -- the newest events are always kept
        rw [Master.eventsSince_eq_nil_iff] at found
        simp only [catchUp, snapshot, List.length_nil] at found ⊢
        omega
      next event rest _ =>
        simp only [catchUp, snapshot, List.length_nil]
        omega

theorem forward_left (room : watcher.hasRoom = true) :
    (watcher.forward master).left master ≤ watcher.left master - 1 := by
  rw [forward, if_pos room]
  exact watcher.next_left master

theorem forwards_left (rounds : Nat) :
    ((forward master)^[rounds] watcher).left master ≤ watcher.left master := by
  induction rounds generalizing watcher with
  | zero => exact Nat.le_refl _
  | succ rounds ih =>
      refine (ih (watcher.forward master)).trans ?_
      by_cases room : watcher.hasRoom = true
      · exact (watcher.forward_left master room).trans (Nat.sub_le _ _)
      · rw [watcher.forward_full master room]

theorem takeEvents_done (events : List Event) (started : watcher.snapshot = [])
    (left : master.eventsSince watcher.position = events)
    (room : (takeEvents master watcher events).hasRoom = true) :
    (takeEvents master watcher events).left master = 0 := by
  induction events generalizing watcher with
  | nil =>
      rw [Master.eventsSince_eq_nil_iff] at left
      simp only [takeEvents, Watcher.left, started, List.length_nil]
      omega
  | cons event rest ih =>
      simp only [takeEvents] at room ⊢
      split at room
      next free =>
        rw [if_pos free]
        exact ih _ started (master.eventsSince_cons _ event rest left).2 room
      next full => exact absurd room full

/-- A watcher stops when there is no room or nothing is left. -/
theorem follow_done (room : (watcher.follow master).hasRoom = true) :
    (watcher.follow master).left master = 0 := by
  have empty := watcher.takeSnapshot_room watcher.snapshot
  unfold follow at room ⊢
  dsimp only at room ⊢
  generalize watcher.takeSnapshot watcher.snapshot = started at room empty ⊢
  split at room
  next free =>
    rw [if_pos free]
    exact takeEvents_done _ master _ (empty free) rfl room
  next full => exact absurd room full

theorem follow_left : (watcher.follow master).left master ≤ watcher.left master ∧
    (watcher.hasRoom = true →
      (watcher.follow master).left master ≤ watcher.left master - 1) := by
  obtain ⟨rounds, followed⟩ := watcher.follow_forwards master
  constructor
  · rw [followed]
    exact watcher.forwards_left master rounds
  · intro room
    cases rounds with
    | zero =>
        have same : watcher.follow master = watcher := followed
        have done := watcher.follow_done master (by rw [same]; exact room)
        omega
    | succ rounds =>
        rw [followed]
        exact ((watcher.forward master).forwards_left master rounds).trans
          (watcher.forward_left master room)

end

/-- After enough rounds nothing is left and nothing waits. -/
theorem readAll_dry (master : Master) (watcher : Watcher) (rounds : Nat)
    (enough : watcher.left master + (if watcher.waiting = [] then 0 else 1) ≤ rounds) :
    (readAll master rounds watcher).2.left master = 0 ∧
      (readAll master rounds watcher).2.waiting = [] := by
  induction rounds generalizing watcher with
  | zero =>
      split at enough
      next silent => exact ⟨Nat.le_zero.mp enough, silent⟩
      next => omega
  | succ rounds ih =>
      obtain ⟨less, lessWithRoom⟩ := watcher.follow_left master
      simp only [readAll]
      split
      next silent =>
        have nothing : (watcher.follow master).waiting = [] := List.isEmpty_iff.mp silent
        have room : (watcher.follow master).hasRoom = true := by
          simp [hasRoom, nothing, capacity]
        exact ⟨watcher.follow_done master room, nothing⟩
      next =>
        refine ih { watcher.follow master with waiting := [] } ?_
        change (watcher.follow master).left master + 0 ≤ rounds
        -- the first round may only make room
        split at enough
        next silent =>
          have := lessWithRoom (by simp [hasRoom, silent, capacity])
          omega
        next => omega

end Watcher

end FaultInjection
