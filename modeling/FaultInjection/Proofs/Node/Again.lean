import FaultInjection.Master.Rehearsal
import FaultInjection.Proofs.Node.Deed
import FaultInjection.Proofs.Node.Settled

/-!
Passes that are made twice. A pass without errors settles each failure that was listed, so that a
pass over the same failures, however their definitions are spelled, has nothing left to do.
-/

namespace FaultInjection

variable {α σ : Type}

namespace Agent

variable [Attack α]

/-! A pass that succeeds -/

def standing (agent : Agent α) (id : String) : Failure.State :=
  match agent.engine? id with
  | some engine => engine.published
  | none => .unknown

omit [Attack α] in
theorem standing_congr (before after : Agent α) (id : String)
    (slots : after.slots.get? id = before.slots.get? id) :
    after.standing id = before.standing id := by
  rw [standing, standing, engine?, engine?, slots]

theorem reconcile_eq_ok (agent : Agent α) (now : Nat) (assignment : Wire.Assignment)
    (succeeded : (agent.reconcile now assignment).1.result = .ok ()) :
    ∃ failure, Failure.ofAssignment assignment = .ok failure ∧
      (agent.drive now failure).result = .ok () ∧
      agent.reconcile now assignment =
        (agent.drive now failure, (agent.drive now failure).agent.standing assignment.id) := by
  unfold reconcile at succeeded ⊢
  split at succeeded
  · cases succeeded
  next failure read =>
    obtain ⟨sameId, _⟩ := ofAssignment_eq_ok assignment failure read
    refine ⟨failure, read, succeeded, ?_⟩
    simp only [← sameId]
    rfl

end Agent

def Call.told? : Call → Option (String × Int32)
  | report _ assignment => some (assignment.id, assignment.current)
  | _ => none

def toldIn (calls : List Call) : List (String × Int32) := calls.filterMap Call.told?

namespace Agent

variable [Attack α]

def AllSettled (agent : Agent α) (node : String) (assignments : List Wire.Assignment) : Prop :=
  ∀ assignment ∈ assignments, assignment.node = node →
    ∃ failure, Failure.ofAssignment assignment = .ok failure ∧ agent.Settled failure

def standings (agent : Agent α) (ids : List String) : List (String × Int32) :=
  ids.map fun id => (id, (agent.standing id).code)

omit [Attack α] in
theorem listed_own (agent : Agent α) (assignment : Wire.Assignment) (rest : List Wire.Assignment)
    (own : assignment.node = agent.node) :
    agent.listed (assignment :: rest) = assignment.id :: agent.listed rest := by
  simp [listed, own]

omit [Attack α] in
theorem listed_foreign (agent : Agent α) (assignment : Wire.Assignment)
    (rest : List Wire.Assignment) (foreign : assignment.node ≠ agent.node) :
    agent.listed (assignment :: rest) = agent.listed rest := by
  simp [listed, foreign]

omit [Attack α] in
theorem listed_congr (first second : Agent α) (same : first.node = second.node)
    (assignments : List Wire.Assignment) :
    first.listed assignments = second.listed assignments := by
  rw [listed, listed, same]

section

variable [Link σ] (clock : Clock)

theorem visit_report (progress : SyncProgress σ α) (assignment : Wire.Assignment)
    (own : assignment.node = progress.agent.node) :
    (visit clock progress assignment).report =
      ⟨progress.report.reconciled + 1,
        progress.report.errors +
          faultCount (progress.agent.reconcile clock.now assignment).1.result,
        progress.report.removed⟩ := by
  simp [visit, own]

/-- A pass without errors settles what it takes up, and reports how things stand at its end. -/
theorem visits_settled [LawfulAttack α] (progress : SyncProgress (Overheard σ) α)
    (assignments : List Wire.Assignment) (distinct : (assignments.map (·.id)).Nodup)
    (clean : (visits clock progress assignments).report.errors = progress.report.errors) :
    (visits clock progress assignments).agent.AllSettled progress.agent.node assignments ∧
      toldIn (visits clock progress assignments).far.calls =
        toldIn progress.far.calls ++ (visits clock progress assignments).agent.standings
          (progress.agent.listed assignments) := by
  induction assignments generalizing progress with
  | nil => exact ⟨nofun, (List.append_nil _).symm⟩
  | cons assignment rest ih =>
      obtain ⟨absent, others⟩ := List.nodup_cons.mp distinct
      have node := (visit_elsewhere clock progress assignment).node
      have listed := listed_congr _ _ node rest
      obtain ⟨_, _, apart⟩ := visits_elsewhere clock (visit clock progress assignment) rest
      obtain ⟨slots, armed⟩ := apart assignment.id absent
      -- errors are only ever counted up
      have errorsFirst := visit_errors clock progress assignment
      have errorsRest := visits_errors clock (visit clock progress assignment) rest
      have whole : visits clock progress (assignment :: rest) =
          visits clock (visit clock progress assignment) rest := rfl
      rw [whole] at clean ⊢
      obtain ⟨settled, told⟩ := ih (visit clock progress assignment) others (by omega)
      generalize visits clock (visit clock progress assignment) rest = final at *
      rw [told, listed]
      by_cases own : assignment.node = progress.agent.node
      · obtain ⟨agent, _, calls⟩ := visit_own clock progress assignment own
        have counted := congrArg SyncReport.errors (visit_report clock progress assignment own)
        have result : (progress.agent.reconcile clock.now assignment).1.result = .ok () := by
          cases result : (progress.agent.reconcile clock.now assignment).1.result with
          | ok done => rfl
          | error error =>
              simp only [result, faultCount] at counted
              omega
        obtain ⟨failure, read, succeeded, turn⟩ :=
          progress.agent.reconcile_eq_ok clock.now assignment result
        obtain ⟨sameId, _⟩ := ofAssignment_eq_ok assignment failure read
        rw [agent, turn] at slots armed
        constructor
        · intro earlier member ours
          rcases List.mem_cons.mp member with rfl | later
          · rw [← sameId] at slots armed
            exact ⟨failure, read, (progress.agent.drive_settled clock.now failure succeeded).congr
              slots armed rfl rfl rfl (Specification.same_refl _)⟩
          · exact settled earlier later (ours.trans node.symm)
        · have stands := standing_congr _ _ assignment.id slots
          rw [calls, reportOn, turn, listed_own _ _ _ own]
          simp [toldIn, Call.told?, standings, stands]
      · rw [visit_foreign clock progress assignment own, listed_foreign _ _ _ own]
        refine ⟨fun earlier member ours => ?_, rfl⟩
        rcases List.mem_cons.mp member with rfl | later
        · exact absurd ours own
        · exact settled earlier later (ours.trans node.symm)

theorem visits_reconciled (progress : SyncProgress σ α) (assignments : List Wire.Assignment) :
    (visits clock progress assignments).report.reconciled =
      progress.report.reconciled + (progress.agent.listed assignments).length := by
  induction assignments generalizing progress with
  | nil => rfl
  | cons assignment rest ih =>
      have node := (visit_elsewhere clock progress assignment).node
      have more := ih (visit clock progress assignment)
      rw [listed_congr _ _ node rest] at more
      refine more.trans ?_
      by_cases own : assignment.node = progress.agent.node
      · rw [visit_report clock progress assignment own, listed_own _ _ _ own, List.length_cons]
        dsimp only
        omega
      · rw [visit_foreign clock progress assignment own, listed_foreign _ _ _ own]

omit [Link σ] in
theorem discards_reconciled (progress : SyncProgress σ α) (ids : List String) :
    (ids.foldl discard progress).report.reconciled = progress.report.reconciled := by
  induction ids generalizing progress with
  | nil => rfl
  | cons id rest ih => exact ih (discard progress id)

theorem follow_settled [LawfulAttack α] (agent : Agent α) (far : Overheard σ)
    (assignments : List Wire.Assignment) (distinct : (assignments.map (·.id)).Nodup)
    (clean : (agent.follow clock far assignments).report.errors = 0) :
    (agent.follow clock far assignments).agent.AllSettled agent.node assignments ∧
      toldIn (agent.follow clock far assignments).far.calls = toldIn far.calls ++
        (agent.follow clock far assignments).agent.standings (agent.listed assignments) ∧
      (agent.follow clock far assignments).report.reconciled =
        (agent.listed assignments).length := by
  obtain ⟨same, _, _, errors⟩ := agent.follow_kept clock far assignments
  obtain ⟨settled, told⟩ := visits_settled clock ⟨far, agent, ⟨0, 0, 0⟩, []⟩ assignments distinct
    (Nat.le_zero.mp (errors.trans_eq clean))
  -- what is given up afterwards was not listed
  have kept : ∀ id ∈ agent.listed assignments,
      (agent.follow clock far assignments).agent.slots.get? id =
          (agent.passed clock far assignments).agent.slots.get? id ∧
        (agent.follow clock far assignments).agent.armed.get? id =
          (agent.passed clock far assignments).agent.armed.get? id := by
    intro id listed
    have stays := agent.listed_not_stale clock far assignments id listed
    obtain ⟨slots, armed⟩ := discards_left (agent.passed clock far assignments)
      (agent.stale clock far assignments) id
    rw [if_neg stays] at slots armed
    exact ⟨slots, armed⟩
  refine ⟨?settled, ?told, ?reconciled⟩
  case settled =>
    intro assignment member own
    obtain ⟨failure, read, rests⟩ := settled assignment member own
    obtain ⟨sameId, _⟩ := ofAssignment_eq_ok assignment failure read
    obtain ⟨slots, armed⟩ := kept failure.id (sameId ▸ agent.mem_listed _ _ member own)
    exact ⟨failure, read, rests.congr slots armed rfl rfl rfl (Specification.same_refl _)⟩
  case told =>
    rw [same]
    refine told.trans (congrArg _ (List.map_congr_left fun id listed => ?_))
    rw [standing_congr _ _ id (kept id listed).1]
    rfl
  case reconciled =>
    refine (discards_reconciled _ _).trans ?_
    exact (visits_reconciled clock ⟨far, agent, ⟨0, 0, 0⟩, []⟩ assignments).trans (Nat.zero_add _)

/-! A pass over failures that are settled -/

theorem visits_idle (progress : SyncProgress (Overheard σ) α) (assignments : List Wire.Assignment)
    (inOrder : progress.agent.InOrder)
    (settled : progress.agent.AllSettled progress.agent.node assignments) :
    (visits clock progress assignments).agent = progress.agent ∧
      (visits clock progress assignments).deeds = progress.deeds ∧
      (visits clock progress assignments).report =
        ⟨progress.report.reconciled + (progress.agent.listed assignments).length,
          progress.report.errors, progress.report.removed⟩ ∧
      toldIn (visits clock progress assignments).far.calls =
        toldIn progress.far.calls ++
          progress.agent.standings (progress.agent.listed assignments) := by
  induction assignments generalizing progress with
  | nil => exact ⟨rfl, rfl, rfl, (List.append_nil _).symm⟩
  | cons assignment rest ih =>
      have whole : visits clock progress (assignment :: rest) =
          visits clock (visit clock progress assignment) rest := rfl
      rw [whole]
      by_cases own : assignment.node = progress.agent.node
      · obtain ⟨agent, deeds, calls⟩ := visit_own clock progress assignment own
        have report := visit_report clock progress assignment own
        obtain ⟨failure, read, rests⟩ := settled assignment List.mem_cons_self own
        obtain ⟨sameId, _⟩ := ofAssignment_eq_ok assignment failure read
        have turn : progress.agent.reconcile clock.now assignment =
            (⟨.ok (), progress.agent, []⟩, progress.agent.standing assignment.id) := by
          simp only [reconcile, read, rests.drive inOrder clock.now, sameId]
          rfl
        rw [turn] at agent deeds report
        rw [reportOn, turn] at calls
        -- the turn has left the agent as it was, so that the others are still settled
        have others : (visit clock progress assignment).agent.AllSettled
            (visit clock progress assignment).agent.node rest := by
          rw [agent]
          exact fun later member => settled later (List.mem_cons_of_mem _ member)
        obtain ⟨sameAgent, sameDeeds, counted, told⟩ :=
          ih (visit clock progress assignment) (by rw [agent]; exact inOrder) others
        rw [agent] at sameAgent counted told
        refine ⟨sameAgent, by rw [sameDeeds, deeds, List.append_nil], ?_, ?_⟩
        · rw [counted, report, listed_own _ _ _ own, List.length_cons, Nat.add_assoc,
            Nat.add_comm 1]
          rfl
        · rw [told, calls, listed_own _ _ _ own]
          simp [toldIn, Call.told?, standings]
      · rw [visit_foreign clock progress assignment own, listed_foreign _ _ _ own]
        exact ih progress inOrder fun later member => settled later (List.mem_cons_of_mem _ member)

theorem follow_idle (agent : Agent α) (far : Overheard σ) (assignments : List Wire.Assignment)
    (inOrder : agent.InOrder) (settled : agent.AllSettled agent.node assignments)
    (listed : ∀ id, id ∉ agent.listed assignments → agent.slots.get? id = none) :
    (agent.follow clock far assignments).agent = agent ∧
      (agent.follow clock far assignments).deeds = [] ∧
      (agent.follow clock far assignments).report =
        ⟨(agent.listed assignments).length, 0, 0⟩ ∧
      toldIn (agent.follow clock far assignments).far.calls =
        toldIn far.calls ++ agent.standings (agent.listed assignments) := by
  obtain ⟨same, deeds, report, told⟩ :=
    visits_idle clock ⟨far, agent, ⟨0, 0, 0⟩, []⟩ assignments inOrder settled
  have passed : (agent.passed clock far assignments).agent = agent := same
  have kept : agent.stale clock far assignments = [] := by
    rw [stale, passed, List.filter_eq_nil_iff]
    intro id running
    rw [Table.mem_keys_iff] at running
    by_contra unlisted
    rw [listed id (by simpa using unlisted)] at running
    cases running
  rw [follow_eq, kept]
  refine ⟨same, deeds, report.trans ?_, told⟩
  simp

end

end Agent

/-! The same failures once more -/

namespace Wire.Assignment

/-- An assignment that asks for the same as an earlier one. It may tell another current state, as
long as it tells one, and spell the definition in another way. -/
structure Respells (earlier later : Wire.Assignment) : Prop where
  id : later.id = earlier.id
  generation : later.generation = earlier.generation
  expected : later.expected = earlier.expected
  current : ∃ state, Failure.State.ofCode later.current = .ok state
  definition : ∃ first second, Specification.parse earlier.definition = .ok first ∧
    Specification.parse later.definition = .ok second ∧ first.same second = true

theorem Respells.read {earlier later : Wire.Assignment} (respells : earlier.Respells later)
    (failure : Failure) (read : Failure.ofAssignment earlier = .ok failure) :
    ∃ other, Failure.ofAssignment later = .ok other ∧ other.id = failure.id ∧
      other.generation = failure.generation ∧ other.expected = failure.expected ∧
      failure.specification.same other.specification = true := by
  obtain ⟨state, current⟩ := respells.current
  obtain ⟨first, second, parsed, reparsed, same⟩ := respells.definition
  obtain ⟨_, _, read⟩ := (bind_eq_ok _ _ _).mp read
  obtain ⟨expected, wanted, read⟩ := (bind_eq_ok _ _ _).mp read
  obtain ⟨specification, parsedAgain, read⟩ := (bind_eq_ok _ _ _).mp read
  cases parsed.symm.trans parsedAgain
  cases read
  refine ⟨⟨later.node, later.id, second, state, expected, later.generation⟩, ?_, respells.id,
    respells.generation, rfl, same⟩
  simp only [Failure.ofAssignment, current, respells.expected, wanted, reparsed]
  rfl

def spelledAlike (first second : String) : Bool :=
  match Specification.parse first, Specification.parse second with
  | .ok specification, .ok other => specification.same other
  | _, _ => false

theorem spelledAlike_iff (first second : String) :
    spelledAlike first second = true ↔
      ∃ specification other, Specification.parse first = .ok specification ∧
        Specification.parse second = .ok other ∧ specification.same other = true := by
  unfold spelledAlike
  cases Specification.parse first <;> cases Specification.parse second <;> simp

instance (earlier later : Wire.Assignment) : Decidable (earlier.Respells later) :=
  decidable_of_iff
    (later.id = earlier.id ∧ later.generation = earlier.generation ∧
      later.expected = earlier.expected ∧ (Failure.State.ofCode later.current).isOk = true ∧
      spelledAlike earlier.definition later.definition = true)
    ⟨fun ⟨id, generation, expected, current, alike⟩ =>
      ⟨id, generation, expected, (isOk_iff _).mp current, (spelledAlike_iff _ _).mp alike⟩,
    fun ⟨id, generation, expected, current, alike⟩ =>
      ⟨id, generation, expected, (isOk_iff _).mpr current, (spelledAlike_iff _ _).mpr alike⟩⟩

end Wire.Assignment

/-- Two lists of assignments that ask a node for the same, in whatever order. -/
structure AskSame (node : String) (first second : List Wire.Assignment) : Prop where
  listed : ((second.filter fun assignment => assignment.node = node).map (·.id)).Perm
    ((first.filter fun assignment => assignment.node = node).map (·.id))
  respelled : ∀ later ∈ second, later.node = node →
    ∃ earlier ∈ first, earlier.node = node ∧ earlier.Respells later

instance (node : String) (first second : List Wire.Assignment) :
    Decidable (AskSame node first second) :=
  decidable_of_iff
    (((second.filter fun assignment => assignment.node = node).map (·.id)).Perm
        ((first.filter fun assignment => assignment.node = node).map (·.id)) ∧
      ∀ later ∈ second, later.node = node →
        ∃ earlier ∈ first, earlier.node = node ∧ earlier.Respells later)
    ⟨fun ⟨listed, respelled⟩ => ⟨listed, respelled⟩,
    fun ⟨listed, respelled⟩ => ⟨listed, respelled⟩⟩

namespace Agent

variable [Attack α]

theorem AllSettled.respelled {agent : Agent α} {node : String}
    {first second : List Wire.Assignment} (settled : agent.AllSettled node first)
    (same : AskSame node first second) : agent.AllSettled node second := by
  intro later member own
  obtain ⟨earlier, known, ours, respells⟩ := same.respelled later member own
  obtain ⟨failure, read, rests⟩ := settled earlier known ours
  obtain ⟨other, reread, id, generation, expected, alike⟩ := respells.read failure read
  exact ⟨other, reread, rests.congr rfl rfl id generation expected alike⟩

section

variable [Link σ] (agent : Agent α) (clock : Clock)

/-- What a pass without errors leaves behind. -/
theorem sync_settled [LawfulAttack α] (far : σ) (answer : CallAnswer) (report : SyncReport)
    (pulled : (Link.ask far clock.instant (.pull agent.node)).1 = .ok answer)
    (distinct : (answer.toList.map (·.id)).Nodup)
    (done : (agent.sync clock (⟨far, []⟩ : Overheard σ)).result = .ok report)
    (clean : report.errors = 0) :
    let after := agent.sync clock (⟨far, []⟩ : Overheard σ)
    after.agent.node = agent.node ∧ after.agent.AllSettled agent.node answer.toList ∧
      (∀ id, id ∉ agent.listed answer.toList → after.agent.slots.get? id = none) ∧
      toldIn after.far.calls = after.agent.standings (agent.listed answer.toList) ∧
      report.reconciled = (agent.listed answer.toList).length := by
  have followed := agent.sync_answered clock far [] answer pulled
  dsimp only at followed
  rw [followed] at done
  cases done
  obtain ⟨settled, told, reconciled⟩ := agent.follow_settled clock _ answer.toList distinct clean
  intro after
  simp only [after, followed]
  exact ⟨(agent.follow_kept clock _ _).2.1, settled, fun id => agent.follow_unlisted clock _ _ id,
    told, reconciled⟩

theorem sync_idle (far : σ) (answer : CallAnswer)
    (pulled : (Link.ask far clock.instant (.pull agent.node)).1 = .ok answer)
    (inOrder : agent.InOrder) (settled : agent.AllSettled agent.node answer.toList)
    (listed : ∀ id, id ∉ agent.listed answer.toList → agent.slots.get? id = none) :
    let after := agent.sync clock (⟨far, []⟩ : Overheard σ)
    after.result = .ok ⟨(agent.listed answer.toList).length, 0, 0⟩ ∧ after.agent = agent ∧
      after.deeds = [] ∧
      toldIn after.far.calls = agent.standings (agent.listed answer.toList) := by
  have followed := agent.sync_answered clock far [] answer pulled
  dsimp only at followed
  intro after
  simp only [after, followed]
  obtain ⟨same, deeds, report, told⟩ := agent.follow_idle clock
    (⟨(Link.ask far clock.instant (.pull agent.node)).2, [] ++ [.pull agent.node]⟩ : Overheard σ)
    answer.toList inOrder settled listed
  exact ⟨congrArg Except.ok report, same, deeds, told⟩

end

end Agent

namespace AgentRun

open Agent

variable [Attack α] [Link σ]

theorem after_inOrder (now : Nat) (node : String) (catalogue : Catalogue α)
    (commands : List (AgentCommand σ)) :
    ((start now (.ofNode node catalogue)).after commands).agent.InOrder :=
  after_keeps Agent.InOrder edit_inOrder advance_inOrder revertAll_inOrder _ commands
    ⟨List.Pairwise.nil, List.Pairwise.nil⟩

/-- A pass without errors, made again at the same time over the same failures, finds nothing to do:
the agent stays as it is, no attack is touched, and the same states are reported. -/
theorem sync_again_idle [LawfulAttack α] (now : Nat) (node : String) (catalogue : Catalogue α)
    (commands : List (AgentCommand σ)) (instant later : Int) (far next : σ)
    (answer again : CallAnswer) (report : SyncReport)
    (pulled : (Link.ask far instant (.pull node)).1 = .ok answer)
    (repulled : (Link.ask next later (.pull node)).1 = .ok again)
    (distinct : (answer.toList.map (·.id)).Nodup)
    (same : AskSame node answer.toList again.toList)
    (done : (((start now (.ofNode node catalogue)).after commands).agent.sync
      ⟨((start now (.ofNode node catalogue)).after commands).now, instant⟩
      (⟨far, []⟩ : Overheard σ)).result = .ok report)
    (clean : report.errors = 0) :
    let run := (start now (.ofNode node catalogue)).after commands
    let first := run.agent.sync ⟨run.now, instant⟩ (⟨far, []⟩ : Overheard σ)
    let second := first.agent.sync ⟨run.now, later⟩ (⟨next, []⟩ : Overheard σ)
    second.result = .ok ⟨report.reconciled, 0, 0⟩ ∧ second.agent = first.agent ∧
      second.deeds = [] ∧ (toldIn second.far.calls).Perm (toldIn first.far.calls) := by
  intro run first second
  have here : run.agent.node = node := after_node _ commands
  obtain ⟨same_node, settled, unlisted, told, reconciled⟩ := run.agent.sync_settled
    ⟨run.now, instant⟩ far answer report (by rw [here]; exact pulled) distinct done clean
  have there : first.agent.node = node := same_node.trans here
  have inOrder : first.agent.InOrder :=
    (run.agent.sync_edits _ _).keeps edit_inOrder (after_inOrder now node catalogue commands)
  have listed : (first.agent.listed again.toList).Perm (run.agent.listed answer.toList) := by
    rw [Agent.listed, Agent.listed, there, here]
    exact same.listed
  rw [here] at settled
  obtain ⟨result, kept, idle, retold⟩ := first.agent.sync_idle ⟨run.now, later⟩ next again
    (by rw [there]; exact repulled) inOrder (by rw [there]; exact settled.respelled same)
    fun id absent => unlisted id fun member => absent (listed.mem_iff.mpr member)
  refine ⟨?_, kept, idle, ?_⟩
  · rw [reconciled, ← listed.length_eq]
    exact result
  · rw [told, retold]
    exact listed.map _

/-- Failures of two nodes, before a pass and, in another order and spelling, before the next. -/
def mixedAssignments : List Wire.Assignment :=
  [⟨"brief", "node", "timeout: 1s\nattacks:\n- scripted_ok: null\n", 1, 1, 3⟩,
    ⟨"held", "node", "attacks:\n- scripted_ok: null\n", 0, 1, 0⟩,
    ⟨"ended", "node", "attacks:\n- scripted_ok: null\n", 1, 2, 1⟩,
    ⟨"open", "node", "attacks:\n- scripted_fail: null\n", 0, 0, 0⟩,
    ⟨"far", "elsewhere", "nothing", 0, 1, 0⟩]

def mixedRespelled : List Wire.Assignment :=
  [⟨"ended", "node", "\x7battacks: [\x7bscripted_ok: ~\x7d]\x7d", 2, 2, 1⟩,
    ⟨"open", "node", "attacks:\n- scripted_fail:\n", 0, 0, 0⟩,
    ⟨"brief", "node", "\x7battacks: [\x7bscripted_ok: ~\x7d], timeout: 1000ms\x7d", 2, 1, 3⟩,
    ⟨"held", "node", "attacks: [\x7bscripted_ok: null\x7d]", 1, 1, 0⟩]

/-- The failures that run before, one of which times out and one of which is removed later. -/
def mixedEarlier : List (AgentCommand ScriptedMaster) :=
  [.sync 0 ⟨[⟨"brief", "node", "timeout: 1s\nattacks:\n- scripted_ok: null\n", 0, 1, 3⟩,
    ⟨"ended", "node", "attacks:\n- scripted_ok: null\n", 0, 1, 0⟩,
    ⟨"gone", "node", "attacks:\n- scripted_ok: null\n", 0, 1, 0⟩], [], []⟩, .advance 1000000000]

abbrev mixedRun : AgentRun Scripted :=
  (start 0 (.ofNode "node" Scripted.catalogue)).after mixedEarlier

/-- The first pass enables a failure, reverts two others and leaves one that has timed out. -/
theorem sync_again_idle_mixed :
    let first := mixedRun.agent.sync ⟨mixedRun.now, 0⟩
      (⟨⟨mixedAssignments, [], []⟩, []⟩ : Overheard ScriptedMaster)
    let second := first.agent.sync ⟨mixedRun.now, 0⟩
      (⟨⟨mixedRespelled, [], []⟩, []⟩ : Overheard ScriptedMaster)
    first.deeds = [("held", .apply 0), ("ended", .revert 0), ("gone", .revert 0)] ∧
      toldIn first.far.calls = [("brief", 2), ("held", 1), ("ended", 2), ("open", 2)] ∧
      second.result = .ok ⟨4, 0, 0⟩ ∧ second.agent = first.agent ∧ second.deeds = [] ∧
      (toldIn second.far.calls).Perm (toldIn first.far.calls) := by
  dsimp only [mixedRun]
  obtain ⟨result, kept, idle, told⟩ := sync_again_idle 0 "node" Scripted.catalogue mixedEarlier 0 0
    (⟨mixedAssignments, [], []⟩ : ScriptedMaster) ⟨mixedRespelled, [], []⟩
    (.assignments mixedAssignments) (.assignments mixedRespelled) ⟨4, 0, 1⟩ rfl rfl
    (by decide) (by decide +kernel) (by decide +kernel) rfl
  exact ⟨by decide +kernel, by decide +kernel, result, kept, idle, told⟩

end AgentRun

end FaultInjection
