import FaultInjection.Proofs.Master.Call
import FaultInjection.Proofs.Master.Request

/-!
Everything that can be done to a master, one after the other: operators ask for changes of
failures, nodes call, and the roster is swept. What is refused leaves the master as it is; what is
accepted changes at most the one failure that it is about.
-/

namespace FaultInjection

inductive Operation where
  | request (request : Request)
  /-- An operator asks for a state, even for one that cannot be asked for. -/
  | expect (node id : String) (state : Failure.State)
  | call (instant : Int) (call : Call)
  | sweep (instant : Int)

structure Verdict where
  accepted : Bool
  master : Master

abbrev Contents := String → String → Option Failure

def Reply.verdict {α : Type} (reply : Reply α) : Verdict := ⟨reply.answer.isOk, reply.master⟩

namespace Master

def perform (master : Master) : Operation → Verdict
  | .request request => (request.reply master).verdict
  | .expect node id state => (master.setExpected node id state).verdict
  | .call instant call => (master.answer instant call).verdict
  | .sweep instant => ⟨true, (master.sweep instant).1⟩

def contents (master : Master) : Contents := master.ledger.get?

def after (master : Master) (operations : List Operation) : Master :=
  operations.foldl (fun master operation => (master.perform operation).master) master

end Master

namespace Operation

def subject? : Operation → Option (String × String)
  | request asked => some (asked.node, asked.id)
  | expect node id _ => some (node, id)
  | call _ (.report _ assignment) => some (assignment.node, assignment.id)
  | _ => none

def isCreate : Operation → Bool
  | request asked => asked.isCreate
  | _ => false

def observed (code : Int32) (failure : Failure) : Failure :=
  match Failure.State.ofCode code with
  | .ok state => { failure with current := state }
  | .error _ => failure

def effect (operation : Operation) (failure : Option Failure) : Option Failure :=
  match operation with
  | request asked => asked.effect failure
  | expect _ _ state => failure.map (Request.revised none (some state))
  | call _ (.report _ assignment) => failure.map (observed assignment.current)
  | _ => failure

/-- What an accepted operation does to the ledger of the master. -/
structure Done (operation : Operation) (before after : Master) : Prop where
  found : ∀ node id, operation.subject? = some (node, id) →
    (before.ledger.get? node id).isSome = !operation.isCreate
  ledger : ∀ node id, after.ledger.get? node id =
    if operation.subject? = some (node, id) then operation.effect (before.ledger.get? node id)
    else before.ledger.get? node id
  sound : before.ledger.Sound → after.ledger.Sound

theorem Done.ofRequest {request : Request} {before after : Master}
    (done : request.Done before after) : (Operation.request request).Done before after := by
  constructor
  case found =>
    rintro node id same
    cases same
    exact done.found
  case ledger =>
    intro node id
    rw [done.ledger]
    simp only [subject?, Option.some.injEq, Prod.mk.injEq]
    split
    next here => rw [← here.1, ← here.2]; rfl
    next => rfl
  case sound => exact done.sound

/-- An operation that is about no failure and leaves the ledger as it is. -/
theorem Done.ofLedger {operation : Operation} {before after : Master}
    (nothing : operation.subject? = none) (same : after.ledger = before.ledger) :
    operation.Done before after := by
  constructor
  case found => rintro node id about; cases nothing.symm.trans about
  case ledger => intro node id; rw [same, nothing, if_neg (by simp)]
  case sound => intro sound; rw [same]; exact sound

end Operation

namespace Master

theorem verdict_accepted {α : Type} (reply : Reply α) (accepted : reply.verdict.accepted = true) :
    ∃ answer, reply.answer = .ok answer := by
  cases told : reply.answer with
  | ok answer => exact ⟨answer, rfl⟩
  | error error => simp [Reply.verdict, told, Except.isOk, Except.toBool] at accepted

theorem verdict_refused {α : Type} (reply : Reply α) (refused : reply.verdict.accepted = false) :
    ∃ error, reply.answer = .error error := by
  cases told : reply.answer with
  | ok answer => simp [Reply.verdict, told, Except.isOk, Except.toBool] at refused
  | error error => exact ⟨error, rfl⟩

/-- To ask for a state that can be asked for is to apply a failure or to revert it. -/
theorem setExpected_cases (master : Master) (node id : String) (state : Failure.State) :
    (state = .unknown ∧
      master.setExpected node id state = master.refuse (.definition .undesirableState)) ∨
    (state = .enabled ∧
      master.setExpected node id state = (Request.apply node id).reply master) ∨
    (state = .disabled ∧
      master.setExpected node id state = (Request.revert node id).reply master) := by
  cases state with
  | unknown => exact Or.inl ⟨rfl, rfl⟩
  | enabled => exact Or.inr (Or.inl ⟨rfl, rfl⟩)
  | disabled => exact Or.inr (Or.inr ⟨rfl, rfl⟩)

theorem setExpected_error (master : Master) (node id : String) (state : Failure.State)
    (error : Error) (refused : (master.setExpected node id state).answer = .error error) :
    (master.setExpected node id state).master = master := by
  rcases master.setExpected_cases node id state with ⟨_, same⟩ | ⟨_, same⟩ | ⟨_, same⟩
  · rw [same]; rfl
  · rw [same] at refused ⊢
    exact Request.reply_error _ master error refused
  · rw [same] at refused ⊢
    exact Request.reply_error _ master error refused

inductive Answered (master : Master) (instant : Int) (call : Call) : Prop
  | refused (error : Error) (same : master.answer instant call = master.refuse error)
  | enrolled (roster : Roster)
      (same : master.answer instant call = ⟨.ok .done, { master with roster }⟩)
      (aside : (Operation.call instant call).subject? = none)
      (unfetched : ∀ node, call ≠ .pull node)
  | fetched (node : String) (assignments : List Wire.Assignment) (pulls : call = .pull node)
      (same : master.answer instant call = ⟨.ok (.assignments assignments), master⟩)
  | reported (reporter : String) (assignment : Wire.Assignment)
      (reports : call = .report reporter assignment)
      (done : (master.report reporter assignment).answer = .ok .done)

theorem answered (master : Master) (instant : Int) (call : Call) :
    master.Answered instant call := by
  cases call with
  | register registration =>
      cases changed : master.roster.register instant registration.node registration.labels with
      | error error => exact .refused error (by simp [answer, register, enroll, changed])
      | ok roster =>
          exact .enrolled roster (by simp [answer, register, enroll, changed]) rfl fun _ => nofun
  | heartbeat beat =>
      cases changed : master.roster.heartbeat instant beat.node with
      | error error => exact .refused error (by simp [answer, heartbeat, enroll, changed])
      | ok roster =>
          exact .enrolled roster (by simp [answer, heartbeat, enroll, changed]) rfl fun _ => nofun
  | deregister node => exact .enrolled _ rfl rfl fun _ => nofun
  | pull node =>
      cases fetched : master.pull node with
      | error error => exact .refused error (by simp [answer, fetched, Except.map, refuse])
      | ok assignments =>
          exact .fetched node assignments rfl (by simp [answer, fetched, Except.map])
  | report reporter assignment =>
      rcases master.report_cases reporter assignment with ⟨error, refused, same⟩ | ⟨done, _⟩
      · exact .refused error (by rw [answer, refuse, ← refused]; exact congrArg (Reply.mk _) same)
      · exact .reported reporter assignment rfl done

theorem answer_error (master : Master) (instant : Int) (call : Call) (error : Error)
    (refused : (master.answer instant call).answer = .error error) :
    (master.answer instant call).master = master := by
  cases master.answered instant call with
  | refused _ same => rw [same]; rfl
  | enrolled _ same _ _ => rw [same] at refused; cases refused
  | fetched _ _ _ same => rw [same]
  | reported _ _ reports done => subst reports; cases done.symm.trans refused

/-- What is refused changes nothing. -/
theorem perform_refused (master : Master) (operation : Operation)
    (refused : (master.perform operation).accepted = false) :
    (master.perform operation).master = master := by
  cases operation with
  | request request =>
      obtain ⟨error, answer⟩ := verdict_refused _ refused
      exact request.reply_error master error answer
  | expect node id state =>
      obtain ⟨error, answer⟩ := verdict_refused _ refused
      exact master.setExpected_error node id state error answer
  | call instant call =>
      obtain ⟨error, answer⟩ := verdict_refused _ refused
      exact master.answer_error instant call error answer
  | sweep instant => cases refused

theorem expect_done (master : Master) (node id : String) (state : Failure.State) (answer : Failure)
    (accepted : (master.setExpected node id state).answer = .ok answer) :
    (Operation.expect node id state).Done master (master.setExpected node id state).master := by
  rcases master.setExpected_cases node id state with ⟨_, same⟩ | ⟨rfl, same⟩ | ⟨rfl, same⟩
  · rw [same] at accepted
    cases accepted
  · rw [same] at accepted ⊢
    have done := Operation.Done.ofRequest (Request.reply_ok _ master answer accepted)
    exact ⟨done.found, done.ledger, done.sound⟩
  · rw [same] at accepted ⊢
    have done := Operation.Done.ofRequest (Request.reply_ok _ master answer accepted)
    exact ⟨done.found, done.ledger, done.sound⟩

theorem report_done (master : Master) (instant : Int) (reporter : String)
    (assignment : Wire.Assignment)
    (accepted : (master.report reporter assignment).answer = .ok .done) :
    (Operation.call instant (.report reporter assignment)).Done master
      (master.report reporter assignment).master := by
  rcases master.report_cases reporter assignment with ⟨_, refused, _⟩ |
    ⟨_, _, _, state, failure, known, done⟩
  · cases refused.symm.trans accepted
  constructor
  case found =>
    rintro node id same
    cases same
    rw [done.found]
    rfl
  case ledger =>
    intro node id
    rw [done.ledger]
    simp only [Operation.subject?, Option.some.injEq, Prod.mk.injEq]
    split
    next here =>
      -- the state was read from the code, so that the effect is to set it
      rw [← here.1, ← here.2, done.found]
      simp [Operation.effect, Operation.observed, known]
    next => rfl
  case sound => exact done.sound

theorem answer_done (master : Master) (instant : Int) (call : Call) (answer : CallAnswer)
    (accepted : (master.answer instant call).answer = .ok answer) :
    (Operation.call instant call).Done master (master.answer instant call).master := by
  cases master.answered instant call with
  | refused _ same => rw [same] at accepted; cases accepted
  | enrolled _ same aside _ => rw [same]; exact .ofLedger aside rfl
  | fetched _ _ pulls same => rw [same]; exact .ofLedger (by rw [pulls]; rfl) rfl
  | reported reporter assignment reports done =>
      subst reports
      exact master.report_done instant reporter assignment done

theorem perform_done (master : Master) (operation : Operation)
    (accepted : (master.perform operation).accepted = true) :
    operation.Done master (master.perform operation).master := by
  cases operation with
  | request request =>
      obtain ⟨answer, answered⟩ := verdict_accepted _ accepted
      exact .ofRequest (request.reply_ok master answer answered)
  | expect node id state =>
      obtain ⟨answer, answered⟩ := verdict_accepted _ accepted
      exact master.expect_done node id state answer answered
  | call instant call =>
      obtain ⟨answer, answered⟩ := verdict_accepted _ accepted
      exact master.answer_done instant call answer answered
  | sweep instant => exact .ofLedger rfl rfl

theorem perform_sound (master : Master) (operation : Operation) (sound : master.ledger.Sound) :
    (master.perform operation).master.ledger.Sound := by
  cases accepted : (master.perform operation).accepted with
  | true => exact (master.perform_done operation accepted).sound sound
  | false =>
      rw [master.perform_refused operation accepted]
      exact sound

theorem after_ledger_sound (master : Master) (operations : List Operation)
    (sound : master.ledger.Sound) : (master.after operations).ledger.Sound := by
  induction operations generalizing master with
  | nil => exact sound
  | cons operation rest ih => exact ih _ (master.perform_sound operation sound)

end Master

end FaultInjection
