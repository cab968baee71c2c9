import FaultInjection.Proofs.Master.Operation

/-!
The events of a master. Each accepted change is told by one event, with the failure as the change
left it, and nothing else is told. Whoever starts from the contents of the ledger and follows the
events has the contents of the ledger.
-/

namespace FaultInjection

namespace Operation

/-- The change that the operation is told as once it is accepted, if it is told at all. -/
def change? (before : Master) : Operation → Option Change
  | request (.create _ _ _ _) => some .created
  | request (.apply _ _) | request (.revert _ _) | expect _ _ _ => some .updated
  | request (.update _ _ specification expected) =>
      if specification.isSome || expected.isSome then some .updated else none
  | request (.delete _ _) => some .deleted
  | call _ (.report _ assignment) =>
      -- a report of the state that is known already is not told
      if (before.ledger.get? assignment.node assignment.id).map (·.current.code) =
        some assignment.current then none else some .updated
  | call _ _ | sweep _ => none

/-- An event tells of a failure as the operation left it, or as it was before it was deleted. -/
structure Tells (operation : Operation) (before after : Master) (change : Change)
    (failure : Failure) : Prop where
  subject : ∃ node id, operation.subject? = some (node, id) ∧
    (if change = .deleted then before.ledger else after.ledger).get? node id = some failure
  history : after.history = ⟨change, failure⟩ :: before.history

end Operation

/-- The events of a run: one for each accepted operation that is told, and none for any other. -/
inductive Announced : Master → List Operation → List Event → Prop
  | nothing (master : Master) : Announced master [] []
  | told {master : Master} {operation : Operation} {rest : List Operation} {change : Change}
      {failure : Failure} {events : List Event}
      (accepted : (master.perform operation).accepted = true)
      (changed : operation.change? master = some change)
      (tells : operation.Tells master (master.perform operation).master change failure)
      (later : Announced (master.perform operation).master rest events) :
      Announced master (operation :: rest) (⟨change, failure⟩ :: events)
  | untold {master : Master} {operation : Operation} {rest : List Operation} {events : List Event}
      (silent : (master.perform operation).accepted = true → operation.change? master = none)
      (later : Announced (master.perform operation).master rest events) :
      Announced master (operation :: rest) events

def Event.replay (contents : Contents) (event : Event) : Contents := fun node id =>
  if event.failure.node = node ∧ event.failure.id = id then
    if event.change = .deleted then none else some event.failure
  else contents node id

def Contents.replay (contents : Contents) (events : List Event) : Contents :=
  events.foldl Event.replay contents

/-! What each operation tells -/

theorem Operation.change?_aside (operation : Operation) (before : Master)
    (aside : operation.subject? = none) : operation.change? before = none := by
  cases operation with
  | request _ | expect _ _ _ => cases aside
  | call _ call =>
      cases call with
      | register _ | heartbeat _ | deregister _ | pull _ => rfl
      | report _ _ => cases aside
  | sweep _ => rfl

theorem Failure.State.ofCode_eq_ok (code : Int32) (state : Failure.State)
    (known : Failure.State.ofCode code = .ok state) : code = state.code := by
  unfold Failure.State.ofCode at known
  split at known
  next zero => cases known; exact zero
  next =>
    split at known
    next one => cases known; exact one
    next =>
      split at known
      next two => cases known; exact two
      next => cases known

theorem Failure.State.code_inj (first second : Failure.State) (same : first.code = second.code) :
    first = second := by
  cases first <;> cases second <;> first | rfl | exact absurd same (by decide)

/-- A report tells what the state was, and how the failure is now. -/
theorem Ledger.report_tells (ledger : Ledger) (node id : String) (state previous : Failure.State)
    (failure updated : Failure) (after : Ledger) (found : ledger.get? node id = some failure)
    (reported : ledger.report node node id state = .ok (previous, updated, after)) :
    previous = failure.current ∧ updated = { failure with current := state } := by
  have present : ledger.get node id = .ok failure := by simp [Ledger.get, found]
  simp only [Ledger.report, ne_eq, not_true_eq_false, ↓reduceIte, present, Ledger.modify, found]
    at reported
  cases reported
  exact ⟨rfl, rfl⟩

namespace Master

theorem report_history (master : Master) (reporter : String) (assignment : Wire.Assignment)
    (accepted : (master.report reporter assignment).answer = .ok .done) :
    ∃ failure, master.ledger.get? assignment.node assignment.id = some failure ∧
      let updated := Operation.observed assignment.current failure
      (master.report reporter assignment).master.ledger.get? assignment.node assignment.id =
          some updated ∧
        (master.report reporter assignment).master.history =
          if failure.current.code = assignment.current then master.history
          else ⟨.updated, updated⟩ :: master.history := by
  rcases master.report_cases reporter assignment with ⟨_, refused, _⟩ |
    ⟨_, _, rfl, state, failure, known, done⟩
  · cases refused.symm.trans accepted
  refine ⟨failure, done.found, ?_, ?_⟩
  · rw [done.ledger, if_pos ⟨rfl, rfl⟩, Operation.observed, known]
  · have code := Failure.State.ofCode_eq_ok _ _ known
    have same : failure.current.code = assignment.current ↔ failure.current = state := by
      rw [code]
      exact ⟨Failure.State.code_inj _ _, fun same => by rw [same]⟩
    simp only [same, Operation.observed, known]
    unfold report at accepted ⊢
    dsimp only at accepted ⊢
    split at accepted
    · cases accepted
    next isNew updated ledger written =>
      obtain ⟨_, _, written⟩ := (bind_eq_ok _ _ _).mp written
      obtain ⟨_, again, written⟩ := (bind_eq_ok _ _ _).mp written
      cases known.symm.trans again
      obtain ⟨⟨previous, changed, after⟩, reported, told⟩ := (bind_eq_ok _ _ _).mp written
      cases told
      obtain ⟨rfl, rfl⟩ := Ledger.report_tells _ _ _ _ _ _ _ _ done.found reported
      by_cases still : failure.current = state <;> simp [still, record]

theorem announce_tells (master : Master) (operation : Operation) (node id : String)
    (change : Change) (written : Except Error (Failure × Ledger)) (answer : Failure)
    (subject : operation.subject? = some (node, id))
    (stored : ∀ ledger, written = .ok (answer, ledger) →
      (if change = .deleted then master.ledger else ledger).get? node id = some answer)
    (accepted : (master.announce change written).answer = .ok answer) :
    operation.Tells master (master.announce change written).master change answer := by
  obtain ⟨ledger, done, same⟩ := master.announce_ok change written answer accepted
  rw [same]
  exact ⟨⟨node, id, subject, stored ledger done⟩, rfl⟩

end Master

theorem Ledger.update_stored (ledger : Ledger) (node id : String)
    (specification : Option Specification) (expected : Option Failure.State) (answer : Failure)
    (after : Ledger)
    (updated : ledger.update node id specification expected = .ok (answer, after)) :
    after.get? node id = some answer := by
  rw [Ledger.modify_get? _ _ _ _ _ _ updated, if_pos ⟨rfl, rfl⟩]

theorem Ledger.delete_stored (ledger : Ledger) (node id : String) (answer : Failure)
    (after : Ledger) (deleted : ledger.delete node id = .ok (answer, after)) :
    ledger.get? node id = some answer := by
  unfold Ledger.delete at deleted
  split at deleted
  · cases deleted
  next found => cases deleted; exact found

namespace Request

theorem reply_tells (request : Request) (master : Master) (answer : Failure) (change : Change)
    (changed : (Operation.request request).change? master = some change)
    (accepted : (request.reply master).answer = .ok answer) :
    (Operation.request request).Tells master (request.reply master).master change answer := by
  cases request with
  | create node id specification expected =>
      cases changed
      simp only [reply, Master.createFailure] at accepted ⊢
      split at accepted
      · cases accepted
      next failure made =>
        obtain ⟨rfl, _⟩ := Master.newFailure_eq_ok node id specification.1 expected failure made
        refine master.announce_tells _ node id .created _ answer rfl ?_ accepted
        intro ledger written
        obtain ⟨_, created, paired⟩ := (map_eq_ok _ _ _).mp written
        cases paired
        obtain ⟨_, rfl⟩ := Ledger.create_eq_ok _ _ _ created
        exact (Ledger.put_get? _ _ node id).trans (if_pos ⟨rfl, rfl⟩)
  | apply node id =>
      cases changed
      exact master.announce_tells _ node id .updated _ answer rfl
        (fun _ updated => Ledger.update_stored _ _ _ _ _ _ _ updated) accepted
  | revert node id =>
      cases changed
      exact master.announce_tells _ node id .updated _ answer rfl
        (fun _ updated => Ledger.update_stored _ _ _ _ _ _ _ updated) accepted
  | update node id specification expected =>
      simp only [Operation.change?] at changed
      split at changed
      next something =>
        cases changed
        simp only [reply, Master.updateFailure] at accepted ⊢
        split at accepted
        · cases accepted
        next asked desired =>
          split at accepted
          · cases accepted
          next given rendered =>
            split at accepted
            next nothing =>
              obtain ⟨rfl, _⟩ := Master.desired?_eq_ok expected asked desired
              cases Master.deliverable?_eq_ok _ given rendered
              simp only [Option.isNone_map, Bool.and_eq_true, Option.isNone_iff_eq_none] at nothing
              simp [nothing.1, nothing.2] at something
            next wanted =>
              rw [if_neg wanted]
              exact master.announce_tells _ node id .updated _ answer rfl
                (fun _ updated => Ledger.update_stored _ _ _ _ _ _ _ updated) accepted
      next => cases changed
  | delete node id =>
      cases changed
      exact master.announce_tells _ node id .deleted _ answer rfl
        (fun _ deleted => Ledger.delete_stored _ _ _ _ _ deleted) accepted

/-- Only an update of nothing is not told. -/
theorem reply_silent (request : Request) (master : Master)
    (silent : (Operation.request request).change? master = none) :
    (request.reply master).master = master := by
  cases request with
  | update node id specification expected =>
      simp only [Operation.change?] at silent
      split at silent
      · cases silent
      next nothing =>
        simp only [Bool.or_eq_true, not_or, Bool.not_eq_true, Option.isSome_eq_false_iff,
          Option.isNone_iff_eq_none] at nothing
        obtain ⟨rfl, rfl⟩ := nothing
        rfl
  | create _ _ _ _ | apply _ _ | revert _ _ | delete _ _ => cases silent

end Request

namespace Master

theorem expect_tells (master : Master) (node id : String) (state : Failure.State)
    (answer : Failure) (accepted : (master.setExpected node id state).answer = .ok answer) :
    (Operation.expect node id state).Tells master (master.setExpected node id state).master
      .updated answer := by
  rcases master.setExpected_cases node id state with ⟨_, same⟩ | ⟨rfl, same⟩ | ⟨rfl, same⟩
  · rw [same] at accepted
    cases accepted
  · rw [same] at accepted ⊢
    have tells := (Request.apply node id).reply_tells master answer .updated rfl accepted
    exact ⟨tells.subject, tells.history⟩
  · rw [same] at accepted ⊢
    have tells := (Request.revert node id).reply_tells master answer .updated rfl accepted
    exact ⟨tells.subject, tells.history⟩

theorem report_told (master : Master) (instant : Int) (reporter : String)
    (assignment : Wire.Assignment) (change : Change)
    (changed : (Operation.call instant (.report reporter assignment)).change? master = some change)
    (accepted : (master.report reporter assignment).answer = .ok .done) :
    ∃ failure, (Operation.call instant (.report reporter assignment)).Tells master
      (master.report reporter assignment).master change failure := by
  obtain ⟨failure, found, stored, told⟩ := master.report_history reporter assignment accepted
  simp only [Operation.change?, found, Option.map_some, Option.some.injEq] at changed
  split at changed
  · cases changed
  next new =>
    cases changed
    rw [if_neg new] at told
    exact ⟨_, ⟨_, _, rfl, stored⟩, told⟩

/-- What is accepted and told adds one event. -/
theorem perform_tells (master : Master) (operation : Operation) (change : Change)
    (accepted : (master.perform operation).accepted = true)
    (changed : operation.change? master = some change) :
    ∃ failure, operation.Tells master (master.perform operation).master change failure := by
  cases operation with
  | request request =>
      obtain ⟨answer, answered⟩ := verdict_accepted _ accepted
      exact ⟨answer, request.reply_tells master answer change changed answered⟩
  | expect node id state =>
      cases changed
      obtain ⟨answer, answered⟩ := verdict_accepted _ accepted
      exact ⟨answer, master.expect_tells node id state answer answered⟩
  | call instant call =>
      obtain ⟨answer, accepted⟩ := verdict_accepted _ accepted
      cases master.answered instant call with
      | refused _ same => rw [same] at accepted; cases accepted
      | enrolled _ _ aside _ => cases (Operation.change?_aside _ master aside).symm.trans changed
      | fetched _ _ pulls _ => subst pulls; cases changed
      | reported reporter assignment reports done =>
          subst reports
          exact master.report_told instant reporter assignment change changed done
  | sweep instant => cases changed

theorem report_silent (master : Master) (reporter : String) (assignment : Wire.Assignment)
    (accepted : (master.report reporter assignment).answer = .ok .done)
    (silent : (master.ledger.get? assignment.node assignment.id).map (·.current.code) =
      some assignment.current) :
    (master.report reporter assignment).master.history = master.history ∧
      (master.report reporter assignment).master.contents = master.contents := by
  obtain ⟨failure, found, stored, told⟩ := master.report_history reporter assignment accepted
  simp only [found, Option.map_some, Option.some.injEq] at silent
  rw [if_pos silent] at told
  refine ⟨told, ?_⟩
  have kept : Operation.observed assignment.current failure = failure := by
    rw [← silent, Operation.observed, Failure.State.ofCode_code]
  funext node id
  have done := (master.report_done 0 reporter assignment accepted).ledger node id
  by_cases here : assignment.node = node ∧ assignment.id = id
  · obtain ⟨rfl, rfl⟩ := here
    exact (stored.trans (congrArg some kept)).trans found.symm
  · rw [if_neg (by simpa [Operation.subject?] using here)] at done
    exact done

/-- What is not told leaves the events and the contents as they are. -/
theorem perform_silent (master : Master) (operation : Operation)
    (silent : (master.perform operation).accepted = true → operation.change? master = none) :
    (master.perform operation).master.history = master.history ∧
      (master.perform operation).master.contents = master.contents := by
  cases accepted : (master.perform operation).accepted with
  | false =>
      rw [master.perform_refused operation accepted]
      exact ⟨rfl, rfl⟩
  | true =>
      have unchanged := silent accepted
      cases operation with
      | request request =>
          rw [show (master.perform (.request request)).master = master from
            request.reply_silent master unchanged]
          exact ⟨rfl, rfl⟩
      | expect node id state => cases unchanged
      | call instant call =>
          cases master.answered instant call with
          | refused _ same | enrolled _ same _ _ | fetched _ _ _ same =>
              have left : (master.perform (.call instant call)).master = _ :=
                congrArg Reply.master same
              rw [left]
              exact ⟨rfl, rfl⟩
          | reported reporter assignment reports done =>
              subst reports
              simp only [Operation.change?, ite_eq_left_iff, reduceCtorEq, imp_false,
                not_not] at unchanged
              exact master.report_silent reporter assignment done unchanged
      | sweep instant => exact ⟨rfl, rfl⟩

/-- An operation is accepted and told, or it adds no event. -/
theorem perform_cases (master : Master) (operation : Operation) :
    (∃ change failure, (master.perform operation).accepted = true ∧
      operation.change? master = some change ∧
      operation.Tells master (master.perform operation).master change failure) ∨
    (((master.perform operation).accepted = true → operation.change? master = none) ∧
      (master.perform operation).master.history = master.history ∧
      (master.perform operation).master.contents = master.contents) := by
  by_cases told : (master.perform operation).accepted = true ∧
      ∃ change, operation.change? master = some change
  · obtain ⟨accepted, change, changed⟩ := told
    obtain ⟨failure, tells⟩ := master.perform_tells operation change accepted changed
    exact Or.inl ⟨change, failure, accepted, changed, tells⟩
  · have silent : (master.perform operation).accepted = true →
        operation.change? master = none := by
      intro accepted
      cases changed : operation.change? master with
      | none => rfl
      | some change => exact absurd ⟨accepted, change, changed⟩ told
    exact Or.inr ⟨silent, master.perform_silent operation silent⟩

end Master

namespace Operation

theorem deletes_of_change {operation : Operation} {before : Master}
    (changed : operation.change? before = some .deleted) :
    ∃ node id, operation = .request (.delete node id) := by
  cases operation with
  | request request =>
      cases request with
      | delete node id => exact ⟨node, id, rfl⟩
      | create _ _ _ _ | apply _ _ | revert _ _ => cases changed
      | update _ _ specification expected =>
          simp only [change?] at changed
          split at changed <;> cases changed
  | expect _ _ _ | sweep _ => cases changed
  | call instant call =>
      cases call with
      | register _ | heartbeat _ | deregister _ | pull _ => cases changed
      | report _ _ =>
          simp only [change?] at changed
          split at changed <;> cases changed

/-- The event that tells of an operation does to the contents what the operation did. -/
theorem Tells.replay {operation : Operation} {before after : Master} {change : Change}
    {failure : Failure} (tells : operation.Tells before after change failure)
    (done : operation.Done before after) (changed : operation.change? before = some change)
    (sound : before.ledger.Sound) :
    Event.replay before.contents ⟨change, failure⟩ = after.contents := by
  obtain ⟨⟨node, id, subject, stored⟩, _⟩ := tells
  have fits : Ledger.Fits node id failure := by
    split at stored
    · exact sound.fits node id failure stored
    · exact (done.sound sound).fits node id failure stored
  obtain ⟨rfl, rfl⟩ : failure.node = node ∧ failure.id = id := ⟨fits.node, fits.id⟩
  funext other key
  -- elsewhere neither the event nor the operation changes anything
  by_cases here : failure.node = other ∧ failure.id = key
  · obtain ⟨rfl, rfl⟩ := here
    simp only [Event.replay, and_self, ↓reduceIte]
    by_cases deleted : change = .deleted
    · subst deleted
      obtain ⟨_, _, rfl⟩ := deletes_of_change changed
      rw [if_pos rfl, Master.contents, done.ledger, if_pos subject]
      rfl
    · rw [if_neg deleted] at stored ⊢
      exact stored.symm
  · simp only [Event.replay, if_neg here]
    rw [Master.contents, Master.contents, done.ledger, subject, if_neg (by simpa using here)]

end Operation

namespace Master

/-- A run adds the events that announce it, and they lead from the contents before it to those
after it. -/
theorem after_announced (master : Master) (operations : List Operation)
    (sound : master.ledger.Sound) :
    ∃ events, Announced master operations events ∧
      (master.after operations).history = events.reverse ++ master.history ∧
      master.contents.replay events = (master.after operations).contents := by
  induction operations generalizing master with
  | nil => exact ⟨[], .nothing master, rfl, rfl⟩
  | cons operation rest ih =>
      obtain ⟨events, announced, history, contents⟩ :=
        ih (master.perform operation).master (master.perform_sound operation sound)
      -- one more event in front if the operation is told, and else the events of the rest
      rcases master.perform_cases operation with ⟨change, failure, accepted, changed, tells⟩ |
        ⟨silent, sameHistory, sameContents⟩
      · have replayed := tells.replay (master.perform_done operation accepted) changed sound
        refine ⟨⟨change, failure⟩ :: events, .told accepted changed tells announced, ?_, ?_⟩
        · rw [after, List.foldl_cons, ← after, history, tells.history]
          simp
        · rw [Contents.replay, List.foldl_cons, replayed]
          exact contents
      · refine ⟨events, .untold silent announced, ?_, ?_⟩
        · rw [after, List.foldl_cons, ← after, history, sameHistory]
        · rw [← sameContents]
          exact contents

end Master

end FaultInjection
