import FaultInjection.Master.Call
import FaultInjection.Proofs.Master.Ledger

/-!
The calls of nodes. Whatever a node calls, it changes nothing that an operator has written: a
report sets the current state of one failure, and all other calls leave the ledger alone.
-/

namespace FaultInjection

def Failure.wanted (failure : Failure) : Failure := { failure with current := .unknown }

theorem Failure.wanted_fields {first second : Failure} (same : first.wanted = second.wanted) :
    first.specification = second.specification ∧ first.expected = second.expected ∧
      first.generation = second.generation := by
  simp only [Failure.wanted, Failure.mk.injEq] at same
  exact ⟨same.2.2.1, same.2.2.2.2.1, same.2.2.2.2.2⟩

def Ledger.wanted? (ledger : Ledger) (node id : String) : Option Failure :=
  (ledger.get? node id).map Failure.wanted

structure Ledger.Reported (before : Ledger) (node id : String) (failure : Failure)
    (state : Failure.State) (after : Ledger) : Prop where
  found : before.get? node id = some failure
  ledger : ∀ other key, after.get? other key =
    if node = other ∧ id = key then some { failure with current := state }
    else before.get? other key
  sound : before.Sound → after.Sound

theorem Ledger.report_eq_ok (ledger : Ledger) (reporter node id : String) (state : Failure.State)
    (previous : Failure.State) (updated : Failure) (after : Ledger)
    (reported : ledger.report reporter node id state = .ok (previous, updated, after)) :
    reporter = node ∧ ∃ failure, ledger.Reported node id failure state after := by
  unfold Ledger.report at reported
  split at reported
  · cases reported
  next owner =>
    obtain ⟨failure, _, reported⟩ := (bind_eq_ok _ _ _).mp reported
    obtain ⟨⟨changed, written⟩, modified, same⟩ := (bind_eq_ok _ _ _).mp reported
    cases same
    obtain ⟨stored, found, changed, _⟩ := Ledger.modify_eq_ok _ _ _ _ _ _ modified
    refine ⟨Decidable.not_not.mp owner, stored, found, fun other key => ?_, fun sound => ?_⟩
    · rw [Ledger.modify_get? _ _ _ _ _ _ modified, changed]
    · exact Ledger.modify_sound _ _ _ _ _ _ modified sound fun _ fits =>
        ⟨fits.node, fits.id, fits.expected, fits.specification⟩

theorem Ledger.report_succeeds (ledger : Ledger) (node id : String) (state : Failure.State)
    (failure : Failure) (found : ledger.get? node id = some failure) :
    ∃ written, ledger.report node node id state = .ok written := by
  have present : ledger.get node id = .ok failure := by simp [Ledger.get, found]
  simp only [Ledger.report, ne_eq, not_true_eq_false, ↓reduceIte, present, Ledger.modify, found]
  exact ⟨_, rfl⟩

namespace Master

/-- A report is refused, or it sets the current state of a failure of the reporter. -/
theorem report_cases (master : Master) (reporter : String) (assignment : Wire.Assignment) :
    (∃ error, (master.report reporter assignment).answer = .error error ∧
      (master.report reporter assignment).master = master) ∨
    ((master.report reporter assignment).answer = .ok .done ∧
      (master.report reporter assignment).master.roster = master.roster ∧
      reporter = assignment.node ∧
      ∃ state failure, Failure.State.ofCode assignment.current = .ok state ∧
        master.ledger.Reported assignment.node assignment.id failure state
          (master.report reporter assignment).master.ledger) := by
  unfold report
  dsimp only
  split
  next error _ => exact Or.inl ⟨error, rfl, rfl⟩
  next isNew updated ledger written =>
    right
    obtain ⟨_, _, written⟩ := (bind_eq_ok _ _ _).mp written
    obtain ⟨state, known, written⟩ := (bind_eq_ok _ _ _).mp written
    obtain ⟨⟨previous, changed, after⟩, reported, same⟩ := (bind_eq_ok _ _ _).mp written
    cases same
    obtain ⟨owner, failure, done⟩ := Ledger.report_eq_ok _ _ _ _ _ _ _ _ reported
    have kept : ∀ new : Bool, (if new then master.record after .updated changed
        else { master with ledger := after }).roster = master.roster ∧
        (if new then master.record after .updated changed
          else { master with ledger := after }).ledger = after := by
      intro new
      cases new <;> exact ⟨rfl, rfl⟩
    refine ⟨rfl, (kept _).1, owner, state, failure, known, ?_⟩
    rw [(kept _).2]
    exact done

theorem report_roster (master : Master) (reporter : String) (assignment : Wire.Assignment) :
    (master.report reporter assignment).master.roster = master.roster := by
  rcases master.report_cases reporter assignment with ⟨_, _, same⟩ | ⟨_, roster, _⟩
  · rw [same]
  · exact roster

theorem report_other (master : Master) (reporter : String) (assignment : Wire.Assignment)
    (node id : String) (different : assignment.id ≠ id) :
    (master.report reporter assignment).master.ledger.get? node id =
      master.ledger.get? node id := by
  rcases master.report_cases reporter assignment with ⟨_, _, same⟩ | ⟨_, _, _, _, _, _, done⟩
  · rw [same]
  · rw [done.ledger, if_neg fun here => different here.2]

/-- The report of a node that is known, about one of its failures, is taken. -/
theorem report_taken (master : Master) (assignment : Wire.Assignment) (node : Node)
    (state : Failure.State) (failure : Failure)
    (known : master.roster.get? assignment.node = some node)
    (found : master.ledger.get? assignment.node assignment.id = some failure) :
    let after := (master.report assignment.node { assignment with current := state.code }).master
    after.roster = master.roster ∧
      master.ledger.Reported assignment.node assignment.id failure state after.ledger := by
  intro after
  have registered : master.getNode assignment.node = .ok node := by simp [getNode, known]
  obtain ⟨written, reported⟩ :=
    master.ledger.report_succeeds assignment.node assignment.id state failure found
  rcases master.report_cases assignment.node { assignment with current := state.code } with
    ⟨error, refused, _⟩ | ⟨_, roster, _, reached, stored, coded, done⟩
  · simp only [report, registered, Failure.State.ofCode_code, bind, Except.bind,
      reported] at refused
    cases refused
  · rw [Failure.State.ofCode_code] at coded
    cases coded
    cases found.symm.trans done.found
    exact ⟨roster, done⟩

structure Unasked (before after : Master) : Prop where
  wanted : ∀ node id, after.ledger.wanted? node id = before.ledger.wanted? node id
  sound : before.ledger.Sound → after.ledger.Sound

theorem Unasked.refl (master : Master) : Unasked master master := ⟨fun _ _ => rfl, id⟩

theorem Unasked.trans {first second third : Master} (start : Unasked first second)
    (finish : Unasked second third) : Unasked first third :=
  ⟨fun node id => (finish.wanted node id).trans (start.wanted node id),
    fun sound => finish.sound (start.sound sound)⟩

theorem Unasked.ofLedger {before after : Master} (same : after.ledger = before.ledger) :
    Unasked before after :=
  ⟨fun _ _ => by rw [same], fun sound => by rw [same]; exact sound⟩

theorem report_unasked (master : Master) (reporter : String) (assignment : Wire.Assignment) :
    Unasked master (master.report reporter assignment).master := by
  rcases master.report_cases reporter assignment with ⟨_, _, same⟩ |
    ⟨_, _, _, state, failure, _, done⟩
  · rw [same]
    exact Unasked.refl master
  · refine ⟨fun node id => ?_, done.sound⟩
    rw [Ledger.wanted?, done.ledger]
    split
    next here =>
      rw [Ledger.wanted?, ← here.1, ← here.2, done.found]
      rfl
    next => rfl

theorem answer_unasked (master : Master) (now : Int) (call : Call) :
    Unasked master (master.answer now call).master := by
  have enrolled : ∀ changed, Unasked master (master.enroll changed).master := by
    intro changed
    cases changed <;> exact Unasked.ofLedger rfl
  cases call with
  | register registration => exact enrolled _
  | heartbeat beat => exact enrolled _
  | deregister node => exact enrolled _
  | pull node => exact Unasked.refl master
  | report reporter assignment => exact master.report_unasked reporter assignment

end Master

end FaultInjection
