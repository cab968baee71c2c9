import FaultInjection.Proofs.Master.Operation

/-!
What the ledger has for a failure is told by the operations that were accepted. A failure is there
if it was created and not deleted since; operators have given it its specification and its expected
state, and its own node the current one. Whoever writes one of these leaves the others alone.
-/

namespace FaultInjection

/-- A master, and the operations that it has accepted, newest first. -/
structure Course where
  master : Master
  accepted : List Operation

namespace Course

def start (policy : LivenessPolicy) : Course := ⟨.empty policy, []⟩

def perform (course : Course) (operation : Operation) : Course :=
  let verdict := course.master.perform operation
  ⟨verdict.master,
    if verdict.accepted then operation :: course.accepted else course.accepted⟩

def after (course : Course) (operations : List Operation) : Course :=
  operations.foldl perform course

end Course

namespace Operation

def isBound : Operation → Bool
  | request (.create _ _ _ _) | request (.delete _ _) => true
  | _ => false

def given? : Operation → Option Specification
  | request (.update _ _ specification _) => specification.map (·.1)
  | _ => none

def asked? : Operation → Option Failure.State
  | request (.apply _ _) => some .enabled
  | request (.revert _ _) => some .disabled
  | request (.update _ _ _ expected) => expected
  | expect _ _ state => some state
  | _ => none

def reported? : Operation → Option Failure.State
  | call _ (.report reporter assignment) =>
      if reporter = assignment.node then (Failure.State.ofCode assignment.current).toOption
      else none
  | _ => none

/-- The failure with what the operation gives, asks or reports. Requests to enable are counted. -/
def revise (operation : Operation) (failure : Failure) : Failure :=
  { failure with
    specification := operation.given?.getD failure.specification
    current := operation.reported?.getD failure.current
    expected := operation.asked?.getD failure.expected
    generation :=
      if operation.asked? = some .enabled then failure.generation + 1 else failure.generation }

/-- What an operation leaves as it is: operators do not change a current state, a report changes
the current state of one failure, and other calls and sweeps change no failure. -/
def Separate (operation : Operation) (before after : Contents) : Prop :=
  match operation with
  | request _ | expect _ _ _ => ∀ node id failure changed, before node id = some failure →
      after node id = some changed → changed.current = failure.current
  | call _ (.report _ assignment) => ∀ node id,
      (after node id).map Failure.wanted = (before node id).map Failure.wanted ∧
        ((assignment.node, assignment.id) ≠ (node, id) → after node id = before node id)
  | call _ _ | sweep _ => after = before

end Operation

/-- The failure that began with an operation, as later ones tell of it, newest first. The
generation is counted in 64 bits. -/
def begunWith (since : List Operation) : Operation → Option Failure
  | .request (.create node id specification expected) =>
      some {
        node
        id
        specification := (since.findSome? (·.given?)).getD specification.1
        current := (since.findSome? (·.reported?)).getD .unknown
        expected := (since.findSome? (·.asked?)).getD expected
        generation := UInt64.ofNat (since.countP fun operation =>
          operation.asked? = some .enabled) }
  | _ => none

/-- The failure of a node and an id as the accepted operations tell of it, newest first. What
counts is the last creation, unless a deletion came later, and what was accepted after it. -/
def recordOf (accepted : List Operation) (node id : String) : Option Failure :=
  let about := accepted.filter fun operation => operation.subject? = some (node, id)
  (about.find? (·.isBound)).bind (begunWith (about.takeWhile fun operation => !operation.isBound))

/-! One more operation -/

theorem begunWith_cons (operation : Operation) (since : List Operation) (first : Operation) :
    begunWith (operation :: since) first = (begunWith since first).map operation.revise := by
  unfold begunWith
  split
  · simp only [Option.map_some, Option.some.injEq, Operation.revise, Failure.mk.injEq, true_and,
      List.findSome?_cons, List.countP_cons]
    -- the newest operation counts before all that were there
    refine ⟨?_, ?_, ?_, ?_⟩
    · cases operation.given? <;> rfl
    · cases operation.reported? <;> rfl
    · cases operation.asked? <;> rfl
    · by_cases enabled : operation.asked? = some .enabled <;> simp [enabled, UInt64.ofNat_add]
  · rfl

section

variable (accepted : List Operation) (operation : Operation) (node id : String)

theorem recordOf_other (other : operation.subject? ≠ some (node, id)) :
    recordOf (operation :: accepted) node id = recordOf accepted node id := by
  simp [recordOf, other]

variable (about : operation.subject? = some (node, id))

include about

theorem recordOf_bound (bound : operation.isBound = true) :
    recordOf (operation :: accepted) node id = begunWith [] operation := by
  simp [recordOf, about, bound]

theorem recordOf_inside (inside : operation.isBound = false) :
    recordOf (operation :: accepted) node id =
      (recordOf accepted node id).map operation.revise := by
  simp only [recordOf, List.filter_cons, about, decide_true, ↓reduceIte, List.find?_cons, inside,
    List.takeWhile_cons, Bool.not_false, Option.map_bind]
  congr 1
  funext first
  exact begunWith_cons operation _ first

end

namespace Operation

/-- What an accepted operation makes of the failure that it is about, is what it tells of it. -/
theorem effect_eq (operation : Operation) (master : Master) (failure : Option Failure)
    (accepted : (master.perform operation).accepted = true) :
    operation.effect failure =
      if operation.isBound then begunWith [] operation else failure.map operation.revise := by
  cases operation with
  | request request =>
      cases request with
      | create node id specification expected => rfl
      | delete node id => rfl
      | apply node id => rfl
      | revert node id => rfl
      | update node id specification expected =>
          simp only [effect, Request.effect, isBound, Bool.false_eq_true, ↓reduceIte]
          congr 1
          funext failure
          cases specification <;> cases expected <;>
            simp [Request.revised, Ledger.expect, revise, given?, asked?, reported?]
  | expect node id state =>
      simp only [effect, isBound, Bool.false_eq_true, ↓reduceIte]
      congr 1
      funext failure
      simp [Request.revised, Ledger.expect, revise, given?, asked?, reported?]
  | sweep instant => cases failure <;> rfl
  | call instant call =>
      cases call with
      | register _ | heartbeat _ | deregister _ | pull _ => cases failure <;> rfl
      | report reporter assignment =>
          obtain ⟨_, answered⟩ := Master.verdict_accepted _ accepted
          rcases master.report_cases reporter assignment with ⟨_, refused, _⟩ |
            ⟨_, _, owner, state, _, known, _⟩
          · cases refused.symm.trans answered
          simp only [effect, isBound, Bool.false_eq_true, ↓reduceIte]
          congr 1
          funext failure
          simp [observed, revise, given?, asked?, reported?, known, owner, Except.toOption]

end Operation

namespace Course

theorem perform_records (course : Course) (operation : Operation)
    (recorded : course.master.contents = recordOf course.accepted) :
    (course.perform operation).master.contents = recordOf (course.perform operation).accepted := by
  cases accepted : (course.master.perform operation).accepted with
  | false =>
      rw [perform, accepted, course.master.perform_refused operation accepted]
      exact recorded
  | true =>
      have done := course.master.perform_done operation accepted
      funext node id
      have before : course.master.ledger.get? node id = recordOf course.accepted node id :=
        congrFun (congrFun recorded node) id
      simp only [perform, accepted, ↓reduceIte, Master.contents]
      rw [done.ledger, before]
      by_cases about : operation.subject? = some (node, id)
      · -- a bound begins the record anew or ends it, anything else revises what there is
        rw [if_pos about, operation.effect_eq course.master _ accepted]
        cases bound : operation.isBound with
        | true => exact (recordOf_bound _ _ _ _ about bound).symm
        | false => exact (recordOf_inside _ _ _ _ about bound).symm
      · rw [if_neg about]
        exact (recordOf_other _ _ _ _ about).symm

theorem after_records (course : Course) (operations : List Operation)
    (recorded : course.master.contents = recordOf course.accepted) :
    (course.after operations).master.contents = recordOf (course.after operations).accepted := by
  induction operations generalizing course with
  | nil => exact recorded
  | cons operation rest ih => exact ih _ (course.perform_records operation recorded)

theorem after_sound (course : Course) (operations : List Operation)
    (sound : course.master.ledger.Sound) : (course.after operations).master.ledger.Sound := by
  induction operations generalizing course with
  | nil => exact sound
  | cons operation rest ih => exact ih _ (course.master.perform_sound operation sound)

end Course

namespace Operation

theorem bound_cases (operation : Operation) (bound : operation.isBound = true) :
    operation.isCreate = true ∨ begunWith [] operation = none := by
  cases operation with
  | request request =>
      cases request with
      | create _ _ _ _ => exact Or.inl rfl
      | delete _ _ => exact Or.inr rfl
      | apply _ _ | revert _ _ | update _ _ _ _ => cases bound
  | expect _ _ _ | call _ _ | sweep _ => cases bound

/-- Where nothing is reported, a failure that stays keeps its current state. -/
theorem keeps_current (operation : Operation) (master : Master)
    (unreported : operation.reported? = none) (node id : String) (failure changed : Failure)
    (found : master.contents node id = some failure)
    (left : (master.perform operation).master.contents node id = some changed) :
    changed.current = failure.current := by
  cases accepted : (master.perform operation).accepted with
  | false =>
      rw [master.perform_refused operation accepted, found] at left
      cases left
      rfl
  | true =>
      have done := master.perform_done operation accepted
      have stored : master.ledger.get? node id = some failure := found
      rw [Master.contents, done.ledger, stored] at left
      split at left
      next about =>
        rw [operation.effect_eq master _ accepted] at left
        split at left
        next bound =>
          rcases operation.bound_cases bound with create | ends
          · have absent := done.found node id about
            rw [stored, create] at absent
            cases absent
          · cases ends.symm.trans left
        next =>
          cases left
          simp [revise, unreported]
      next => cases left; rfl

theorem keeps_contents (operation : Operation) (master : Master)
    (nothing : operation.subject? = none) :
    (master.perform operation).master.contents = master.contents := by
  cases accepted : (master.perform operation).accepted with
  | false => rw [master.perform_refused operation accepted]
  | true =>
      funext node id
      have left := (master.perform_done operation accepted).ledger node id
      rw [nothing, if_neg (by simp)] at left
      exact left

theorem report_separate (master : Master) (instant : Int) (reporter : String)
    (assignment : Wire.Assignment) (node id : String) :
    let after := (master.perform (.call instant (.report reporter assignment))).master.contents
    (after node id).map Failure.wanted = (master.contents node id).map Failure.wanted ∧
      ((assignment.node, assignment.id) ≠ (node, id) →
        after node id = master.contents node id) := by
  constructor
  · exact (master.report_unasked reporter assignment).wanted node id
  · intro other
    rcases master.report_cases reporter assignment with ⟨_, _, same⟩ | ⟨_, _, _, _, _, _, done⟩
    · exact congrArg (·.ledger.get? node id) same
    · exact (done.ledger node id).trans (if_neg (by simpa using other))

theorem separate (operation : Operation) (master : Master) :
    operation.Separate master.contents (master.perform operation).master.contents := by
  cases operation with
  | request asked => exact keeps_current (.request asked) master rfl
  | expect node id state => exact keeps_current (.expect node id state) master rfl
  | sweep instant => exact keeps_contents (.sweep instant) master rfl
  | call instant call =>
      cases call with
      | register _ | heartbeat _ | deregister _ | pull _ => exact keeps_contents _ master rfl
      | report reporter assignment => exact report_separate master instant reporter assignment

end Operation

/-- After any run, each failure is what the accepted operations tell of it; its expected state is
one that can be asked for; and whatever is done next respects who writes what. -/
theorem record_of_history (policy : LivenessPolicy) (operations : List Operation) :
    let course := (Course.start policy).after operations
    (∀ node id, course.master.contents node id = recordOf course.accepted node id) ∧
      (∀ node id failure, course.master.contents node id = some failure →
        failure.expected ≠ .unknown) ∧
      ∀ operation : Operation, operation.Separate course.master.contents
        (course.perform operation).master.contents := by
  intro course
  have recorded := (Course.start policy).after_records operations rfl
  have sound := (Course.start policy).after_sound operations Ledger.empty_sound
  refine ⟨?records, ?expected, ?separate⟩
  case records => exact fun node id => congrFun (congrFun recorded node) id
  case expected => exact fun node id failure found => (sound.fits node id failure found).expected
  case separate => exact fun operation => operation.separate course.master

/-- A failure is created again after it was deleted, enabled twice and reported by its own node; a
second creation, a report by another node and a state that cannot be asked for are refused. -/
def renewedOperations : List Operation :=
  [.call 0 (.register ⟨"node", []⟩),
    .request (.create "node" "renewed" .empty .enabled),
    .request (.apply "node" "renewed"), .request (.delete "node" "renewed"),
    .request (.create "node" "renewed" .empty .disabled),
    .request (.create "node" "renewed" .empty .enabled),
    .request (.apply "node" "renewed"), .expect "node" "renewed" .unknown,
    .call 0 (.report "other" ⟨"renewed", "node", "", 2, 0, 0⟩),
    .request (.apply "node" "renewed"),
    .call 0 (.report "node" ⟨"renewed", "node", "", 1, 0, 0⟩),
    .request (.revert "node" "renewed")]

theorem record_of_history_renewed :
    let course := (Course.start .standard).after renewedOperations
    course.accepted.length = 9 ∧
      course.master.contents "node" "renewed" = recordOf course.accepted "node" "renewed" ∧
      (course.master.contents "node" "renewed").map (fun failure =>
        (failure.current, failure.expected, failure.generation)) =
          some (.enabled, .disabled, 2) := by
  intro course
  exact ⟨by decide +kernel, (record_of_history .standard renewedOperations).1 "node" "renewed",
    by decide +kernel⟩

end FaultInjection
