import FaultInjection.Master.Work
import FaultInjection.Proofs.Master.Order

/-!
Work that fails has written nothing. Done step by step, each operation comes to the answer and to
the master that it comes to at once, and so whatever a step refuses, it refuses before anything
has changed.
-/

namespace FaultInjection

namespace Work

variable {α β : Type} (master : Master)

@[simp] theorem pure_run (value : α) : (pure value : Work α) master = ⟨.ok value, master⟩ := rfl

@[simp] theorem look_bind (next : Master → Work β) : (look >>= next) master = next master master :=
  rfl

@[simp] theorem write_bind (change : Master → Master) (next : Unit → Work β) :
    (write change >>= next) master = next () (change master) := rfl

@[simp] theorem check_bind (outcome : Except Error α) (next : α → Work β) :
    (check outcome >>= next) master =
      match outcome with
      | .ok value => next value master
      | .error error => master.refuse error := by
  cases outcome <;> rfl

theorem bind_run (first : Work α) (next : α → Work β) :
    (first >>= next) master =
      match first master with
      | ⟨.error error, after⟩ => ⟨.error error, after⟩
      | ⟨.ok value, after⟩ => next value after := rfl

/-! The ledger -/

/-- The table of the node is written twice if the node had none. -/
theorem insert_run (failure : Failure) :
    insert failure master =
      match master.ledger.create failure with
      | .ok ledger => ⟨.ok (), { master with ledger }⟩
      | .error error => master.refuse error := by
  cases found : master.ledger.nodes.get? failure.node with
  | none =>
      simp [insert, place, bind_run, look, writeLedger, write, ensure, check, found, Ledger.create,
        Ledger.get?, Ledger.ofNode, Table.get?, Table.has, Ledger.put, Table.put_put]
  | some table =>
      cases taken : table.get? failure.id with
      | none =>
          simp [insert, place, bind_run, look, writeLedger, write, ensure, check, found,
            Ledger.create, Ledger.get?, Ledger.ofNode, Table.has, Ledger.put, taken]
      | some other =>
          simp [insert, place, bind_run, look, ensure, check, found, Ledger.create, Ledger.get?,
            Ledger.ofNode, Table.has, taken, Master.refuse]

theorem modify_run (node id : String) (change : Failure → Failure) :
    modify node id change master =
      match master.ledger.get? node id with
      | some failure => ⟨.ok (failure, change failure), { master with
          ledger := ⟨master.ledger.nodes.put node
            ((master.ledger.ofNode node).put id (change failure))⟩ }⟩
      | none => master.refuse (.failureNotFound node id) := by
  cases found : master.ledger.nodes.get? node with
  | none => simp [modify, need, found, Ledger.get?, Ledger.ofNode, Table.get?]
  | some table =>
      cases known : table.get? id <;>
        simp [modify, need, writeLedger, found, known, Ledger.get?, Ledger.ofNode]

/-- The table of the node is written even if the failure is not in it, but as it was. -/
theorem remove_run (node id : String) (ordered : master.ledger.nodes.Ordered) :
    remove node id master =
      match master.ledger.delete node id with
      | .ok (failure, ledger) => ⟨.ok failure, { master with ledger }⟩
      | .error error => master.refuse error := by
  cases found : master.ledger.nodes.get? node with
  | none => simp [remove, need, found, Ledger.delete, Ledger.get?, Ledger.ofNode, Table.get?]
  | some table =>
      cases known : table.get? id with
      | none =>
          have same := Table.put_same _ node table ordered found
          simp [remove, need, writeLedger, found, known, Ledger.delete, Ledger.get?, Ledger.ofNode,
            Table.erase_absent table id known, same]
      | some failure =>
          by_cases empty : table.erase id = [] <;>
            simp [remove, need, writeLedger, found, known, Ledger.delete, Ledger.get?,
              Ledger.ofNode, empty, Table.erase_put]

/-! What operators ask for -/

theorem revise_run (node id : String) (specification : Option Specification)
    (expected : Option Failure.State) :
    revise node id specification expected master =
      master.announce .updated (master.ledger.update node id specification expected) := by
  rw [revise, bind_run, modify_run, Ledger.update, Ledger.modify]
  cases master.ledger.get? node id <;> rfl

theorem setExpected_run (node id : String) (state : Failure.State) :
    setExpected node id state master = master.setExpected node id state := by
  simp only [setExpected, check_bind, Master.setExpected]
  cases Master.desired state with
  | error error => rfl
  | ok asked => exact revise_run master node id none (some asked)

theorem create_run (node id : String) (specification : Specification) (expected : Failure.State) :
    create node id specification expected master =
      master.createFailure node id specification expected := by
  unfold Master.createFailure Master.newFailure
  simp only [create, ensure, check_bind]
  by_cases named : (id.isEmpty || node.isEmpty) = true
  · simp [named]
  · cases Master.desired expected with
    | error error => simp [named, bind, Except.bind]
    | ok asked =>
        cases rendered : specification.render with
        | error error => simp [named, Master.deliverable, rendered, bind, Except.bind, Except.map]
        | ok text =>
            simp only [named, Master.deliverable, rendered, Except.map, bind, Except.bind,
              Bool.not_false, Bool.false_eq_true, ↓reduceIte, insert_run]
            cases master.ledger.create ⟨node, id, specification, .unknown, asked, 0⟩ <;> rfl

theorem update_run (node id : String) (specification : Option Specification)
    (expected : Option Failure.State) :
    update node id specification expected master =
      master.updateFailure node id specification expected := by
  simp only [update, check_bind, Master.updateFailure]
  cases Master.desired? expected with
  | error error => rfl
  | ok asked =>
      cases Master.deliverable? specification with
      | error error => rfl
      | ok given =>
          dsimp only
          split
          · rfl
          · exact revise_run master node id given asked

theorem delete_run (node id : String) (ordered : master.ledger.nodes.Ordered) :
    delete node id master = master.deleteFailure node id := by
  rw [delete, bind_run, remove_run master node id ordered, Master.deleteFailure]
  cases master.ledger.delete node id <;> rfl

/-! What nodes call -/

theorem register_run (now : Int) (registration : Wire.Registration) :
    register now registration master = master.register now registration := by
  simp only [register, ensure, check_bind, look_bind, write_bind, Master.register, Roster.register]
  by_cases named : registration.node.isEmpty = true
  · simp [named, Master.enroll]
  · by_cases alive : master.roster.isAlive registration.node = true <;>
      simp [named, alive, Master.enroll]

theorem heartbeat_run (now : Int) (beat : Wire.Heartbeat) :
    heartbeat now beat master = master.heartbeat now beat := by
  have beaten : ∀ node : Node,
      let dated := if node.lastHeartbeat < now then { node with lastHeartbeat := now } else node
      (if dated.liveness = .unreachable then { dated with liveness := .alive } else dated) =
        node.beat now := by
    intro node
    obtain ⟨id, labels, liveness, last, registered⟩ := node
    by_cases later : last < now
    · cases liveness <;> simp [Node.beat, later, Int.max_eq_right (Int.le_of_lt later)]
    · cases liveness <;> simp [Node.beat, later, Int.max_eq_left (Int.not_lt.mp later)]
  simp only [heartbeat, need, check_bind, look_bind, writeNode, write_bind, Master.heartbeat,
    Roster.heartbeat]
  cases master.roster.entries.get? beat.node with
  | none => rfl
  | some entry =>
      simp only [Table.get?_put, ↓reduceIte, Table.put_put, beaten]
      rfl

theorem pull_run (node : String) :
    pull node master = ⟨(master.pull node).map .assignments, master⟩ := by
  simp only [pull, check_bind, look_bind, Master.pull]
  cases master.getNode node with
  | error error => rfl
  | ok known => cases Master.assignmentsOf (master.ledger.listNode node) <;> rfl

theorem report_run (reporter : String) (assignment : Wire.Assignment) :
    report reporter assignment master = master.report reporter assignment := by
  simp only [report, ensure, check_bind, look_bind, Master.report]
  cases master.getNode reporter with
  | error error => rfl
  | ok known =>
      cases Failure.State.ofCode assignment.current with
      | error error => rfl
      | ok state =>
          by_cases owner : reporter = assignment.node
          · subst owner
            cases found : master.ledger.get? assignment.node assignment.id with
            | none =>
                simp [modify_run, Ledger.report, Ledger.get, found, bind, Except.bind,
                  Master.refuse]
            | some failure =>
                by_cases still : failure.current = state <;>
                  simp [modify_run, Ledger.report, Ledger.get, Ledger.modify, found,
                    bind, Except.bind, still, publish, write, Master.record]
          · simp [owner, Ledger.report, bind, Except.bind]

/-- What comes of work that is not asked for its answer. -/
theorem discard_verdict (work : Work α) :
    ((do let _ ← work : Work Unit) master).verdict = (work master).verdict := by
  rw [bind_run]
  rcases work master with ⟨answer | answer, after⟩ <;> rfl

end Work

/-! Whole operations -/

def Request.work : Request → Work Failure
  | create node id specification expected => Work.create node id specification.1 expected
  | apply node id => Work.setExpected node id .enabled
  | revert node id => Work.setExpected node id .disabled
  | update node id specification expected =>
      Work.update node id (specification.map (·.1)) expected
  | delete node id => Work.delete node id

def Call.work (now : Int) : Call → Work CallAnswer
  | register registration => Work.register now registration
  | heartbeat beat => Work.heartbeat now beat
  | deregister node => Work.deregister node
  | pull node => Work.pull node
  | report reporter assignment => Work.report reporter assignment

def Operation.work : Operation → Work Unit
  | request asked => do let _ ← asked.work
  | expect node id state => do let _ ← Work.setExpected node id state
  | call instant made => do let _ ← made.work instant
  | sweep instant => Work.write fun master => (master.sweep instant).1

theorem Request.work_run (request : Request) (master : Master)
    (ordered : master.ledger.nodes.Ordered) : request.work master = request.reply master := by
  cases request with
  | create node id specification expected => exact Work.create_run master node id _ expected
  | apply node id => exact Work.setExpected_run master node id .enabled
  | revert node id => exact Work.setExpected_run master node id .disabled
  | update node id specification expected => exact Work.update_run master node id _ expected
  | delete node id => exact Work.delete_run master node id ordered

theorem Call.work_run (call : Call) (now : Int) (master : Master) :
    call.work now master = master.answer now call := by
  cases call with
  | register registration => exact Work.register_run master now registration
  | heartbeat beat => exact Work.heartbeat_run master now beat
  | deregister node => rfl
  | pull node => exact Work.pull_run master node
  | report reporter assignment => exact Work.report_run master reporter assignment

theorem Operation.work_verdict (operation : Operation) (master : Master)
    (ordered : master.ledger.nodes.Ordered) :
    (operation.work master).verdict = master.perform operation := by
  cases operation with
  | request asked =>
      rw [work, Work.discard_verdict, asked.work_run master ordered, Master.perform]
  | expect node id state =>
      rw [work, Work.discard_verdict, Work.setExpected_run, Master.perform]
  | call instant made => rw [work, Work.discard_verdict, made.work_run, Master.perform]
  | sweep instant => rfl

/-- An update one part of which is not acceptable, whatever the other one is. -/
theorem Master.updateFailure_invalid (master : Master) (node id : String)
    (specification : Option Specification) (expected : Option Failure.State)
    (invalid : expected = some .unknown ∨
      ∃ given ∈ specification, ∃ error, given.render = .error error) :
    ∃ error, master.updateFailure node id specification expected = master.refuse error := by
  unfold updateFailure
  cases asked : desired? expected with
  | error error => exact ⟨error, rfl⟩
  | ok state =>
      obtain ⟨given, member, error, unwritable⟩ :=
        invalid.resolve_left (desired?_eq_ok expected state asked).2
      cases Option.mem_def.mp member
      exact ⟨error, by simp [deliverable?, deliverable, unwritable, Except.map]⟩

/-- Whatever can be done to a master is done in steps that come to the same; where one of them
fails, the nodes, the failures and the events are as they were. That goes for an update with a part
that is not acceptable, whatever the other part is. -/
theorem refused_unwritten (policy : LivenessPolicy) (earlier : List Operation)
    (operation : Operation) :
    let master := (Master.empty policy).after earlier
    let done := operation.work master
    done.verdict = master.perform operation ∧
      (∀ error, done.answer = .error error → done.master = master) ∧
      ∀ node id specification expected,
        operation = .request (.update node id specification expected) →
        (expected = some .unknown ∨
          ∃ given ∈ specification, ∃ error, given.1.render = .error error) →
        ∃ error, done.answer = .error error ∧ done.master = master := by
  intro master done
  have inOrder := (Master.empty policy).after_inOrder earlier (Master.empty_inOrder policy)
  have verdict : done.verdict = master.perform operation :=
    operation.work_verdict master inOrder.nodes
  have unwritten : ∀ error, done.answer = .error error → done.master = master := by
    intro error failed
    have refused : (master.perform operation).accepted = false := by
      rw [← verdict]
      simp [Reply.verdict, failed, Except.isOk, Except.toBool]
    calc done.master
      _ = (master.perform operation).master := congrArg Verdict.master verdict
      _ = master := master.perform_refused operation refused
  refine ⟨verdict, unwritten, ?_⟩
  rintro node id specification expected rfl invalid
  have unacceptable : expected = some .unknown ∨
      ∃ given ∈ specification.map (·.1), ∃ error, given.render = .error error := by
    refine invalid.imp_right ?_
    rintro ⟨given, member, unwritable⟩
    exact ⟨given.1, Option.mem_map_of_mem _ member, unwritable⟩
  obtain ⟨_, same⟩ := master.updateFailure_invalid node id (specification.map (·.1)) expected
    unacceptable
  have refused : done.verdict.accepted = false := by
    rw [verdict]
    change (master.updateFailure node id (specification.map (·.1)) expected).verdict.accepted = _
    rw [same]
    rfl
  obtain ⟨error, failed⟩ := Master.verdict_refused done refused
  exact ⟨error, failed, unwritten error failed⟩

def heldOperations : List Operation :=
  [.request (.create "node" "held" ⟨⟨.ofSeconds 1, []⟩, by decide⟩ .disabled)]

/-- A deletion that finds other failures of its node, and an update with a good specification and a
state that cannot be asked for. -/
theorem refused_unwritten_held :
    let master := (Master.empty .standard).after heldOperations
    let deletion : Operation := .request (.delete "node" "other")
    let mixed : Operation :=
      .request (.update "node" "held" (some .empty) (some .unknown))
    (deletion.work master).answer = .error (.failureNotFound "node" "other") ∧
      (deletion.work master).master = master ∧
      (∃ error, (mixed.work master).answer = .error error) ∧ (mixed.work master).master = master ∧
      (master.contents "node" "held").isSome = true := by
  intro master deletion mixed
  have missing : (deletion.work master).answer = .error (.failureNotFound "node" "other") := by
    decide +kernel
  have kept := (refused_unwritten .standard heldOperations deletion).2.1 _ missing
  obtain ⟨error, failed, unwritten⟩ := (refused_unwritten .standard heldOperations mixed).2.2 "node"
    "held" (some .empty) (some .unknown) rfl (Or.inl rfl)
  exact ⟨missing, kept, ⟨error, failed⟩, unwritten, by decide +kernel⟩

end FaultInjection
