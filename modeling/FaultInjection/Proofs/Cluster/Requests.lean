import FaultInjection.Proofs.Cluster.Run

/-!
What becomes of a request to enable a failure. The next pass honours it, unless the agent takes it
for one that it has served already: when it has an engine of the same specification that has run to
its timeout, under a generation that is not below the present one. That can only come about once the
failure was deleted and created anew, which makes the generations start over.
-/

namespace FaultInjection

variable {α : Type} [Attack α]

namespace Cluster

def Accepts (cluster : Cluster α) (request : Request) : Prop :=
  ∃ failure, (request.reply cluster.master).answer = .ok failure

/-- Commands among which there is neither a pass of a node nor an accepted request on one of its
failures. -/
def Quiet (node id : String) : Cluster α → List Command → Prop
  | _, [] => True
  | cluster, command :: rest =>
      command ≠ .sync node ∧ (∀ fates, command ≠ .lossySync node fates) ∧
        (∀ request, command = .request request → request.node = node → request.id = id →
          ¬ cluster.Accepts request) ∧
        Quiet node id (cluster.perform command) rest

def Deletes (node id : String) : Cluster α → List Command → Prop
  | _, [] => False
  | cluster, command :: rest =>
      (command = .request (.delete node id) ∧ cluster.Accepts (.delete node id)) ∨
        Deletes node id (cluster.perform command) rest

/-- What the turn of a failure would come to in a pass of the agent of its node. -/
def turn? (cluster : Cluster α) (node id : String) : Option (AgentOutcome α) := do
  let agent ← cluster.agent? node
  let assignments ← (cluster.master.pull node).toOption
  let assignment ← assignments.find? (·.id = id)
  let earlier := assignments.takeWhile (·.id ≠ id)
  return ((agent.passed cluster.clock cluster.master earlier).agent.reconcile cluster.clock.now
    assignment).1

def engine? (cluster : Cluster α) (node id : String) : Option (Engine α) :=
  (cluster.agent? node).bind (·.engine? id)

/-- The engine of a failure is enabled, and all of its attacks are applied. -/
def Honours (cluster : Cluster α) (node id : String) : Prop :=
  ∃ engine, cluster.engine? node id = some engine ∧ engine.state = .enabled ∧
    ∀ attack ∈ engine.attacks, Attack.isApplied attack = true

/-- The agent of a node takes the present request to enable a failure for one that it has served:
it has an engine of the specification that it would be sent, the engine has run to its timeout, and
the generation that was noted for it is not below the present one. -/
def Mistakes (cluster : Cluster α) (node id : String) : Prop :=
  ∃ agent failure delivered, cluster.agent? node = some agent ∧
    cluster.master.ledger.get? node id = some failure ∧
    (failure.toAssignment >>= Failure.ofAssignment) = .ok delivered ∧ agent.Remembers delivered

/-! The turn of a failure -/

theorem turn?_eq_some (cluster : Cluster α) (node id : String) (outcome : AgentOutcome α)
    (turn : cluster.turn? node id = some outcome) :
    ∃ agent earlier assignment later, cluster.agent? node = some agent ∧
      cluster.master.pull node = .ok (earlier ++ assignment :: later) ∧ assignment.id = id ∧
      outcome = ((agent.passed cluster.clock cluster.master earlier).agent.reconcile
        cluster.clock.now assignment).1 := by
  obtain ⟨agent, known, turn⟩ := Option.bind_eq_some_iff.mp turn
  obtain ⟨assignments, pulled, turn⟩ := Option.bind_eq_some_iff.mp turn
  obtain ⟨assignment, found, turn⟩ := Option.bind_eq_some_iff.mp turn
  cases answer : cluster.master.pull node with
  | error error =>
      rw [answer] at pulled
      cases pulled
  | ok list =>
      rw [answer] at pulled
      cases pulled
      obtain ⟨same, earlier, later, rfl, different⟩ := List.find?_eq_some_iff_append.mp found
      have before : (earlier ++ assignment :: later).takeWhile (·.id ≠ id) = earlier := by
        rw [List.takeWhile_append_of_pos, List.takeWhile_cons_of_neg, List.append_nil]
        · simpa using same
        · simpa using different
      rw [before] at turn
      exact ⟨agent, earlier, assignment, later, known, rfl, of_decide_eq_true same,
        (Option.some.inj turn).symm⟩

omit [Attack α] in
theorem mistakes_iff (cluster : Cluster α) (node id : String) (agent : Agent α)
    (failure delivered : Failure) (known : cluster.agent? node = some agent)
    (stored : cluster.master.ledger.get? node id = some failure)
    (sent : (failure.toAssignment >>= Failure.ofAssignment) = .ok delivered) :
    cluster.Mistakes node id ↔ agent.Remembers delivered := by
  constructor
  · rintro ⟨other, source, received, same, found, reads, remembered⟩
    cases known.symm.trans same
    cases stored.symm.trans found
    cases sent.symm.trans reads
    exact remembered
  · exact fun remembered => ⟨agent, failure, delivered, known, stored, sent, remembered⟩

/-- The pass of a node leaves it with the engine that the turn of a failure came to. -/
theorem sync_turn (cluster : Cluster α) (agent : Agent α)
    (known : cluster.agent? agent.node = some agent) (earlier later : List Wire.Assignment)
    (assignment : Wire.Assignment)
    (pulled : cluster.master.pull agent.node = .ok (earlier ++ assignment :: later))
    (distinct : ((earlier ++ assignment :: later).map (·.id)).Nodup)
    (own : assignment.node = agent.node) :
    (cluster.sync agent.node).2.engine? agent.node assignment.id =
      ((agent.passed cluster.clock cluster.master earlier).agent.reconcile cluster.clock.now
        assignment).1.agent.engine? assignment.id := by
  obtain ⟨_, _, slots, _, _⟩ :=
    agent.follow_turn cluster.clock cluster.master earlier later assignment distinct own
  rcases agent.sync_cases cluster.clock cluster.master with ⟨error, failed, _⟩ |
    ⟨assignments, again, _, _, driven⟩
  · rw [pulled] at failed
    cases failed
  · cases pulled.symm.trans again
    rw [engine?, sync_agent?, if_pos rfl, known, Option.map_some, driven, Option.bind_some,
      Agent.engine?, slots, Agent.engine?]

/-- A pass honours the wish to have a failure enabled, if and only if the agent does not mistake
it. -/
theorem sync_honours [LawfulAttack α] (cluster : Cluster α) (sound : cluster.Sound)
    (node id : String) (outcome : AgentOutcome α) (turn : cluster.turn? node id = some outcome)
    (succeeded : outcome.result = .ok ()) (failure : Failure)
    (stored : cluster.master.ledger.get? node id = some failure)
    (expected : failure.expected = .enabled) :
    (cluster.sync node).2.Honours node id ↔ ¬ cluster.Mistakes node id := by
  obtain ⟨agent, earlier, assignment, later, known, pulled, rfl, rfl⟩ :=
    cluster.turn?_eq_some node id outcome turn
  obtain ⟨rfl, valid⟩ := sound.agents node agent known
  obtain ⟨distinct, ours, _⟩ := Master.pull_lists _ sound.ledger _ _ pulled
  obtain ⟨own, source, kept, written⟩ :=
    ours assignment (List.mem_append_right _ List.mem_cons_self)
  cases stored.symm.trans kept
  have sameExpected := (failure.toAssignment_eq_ok assignment written).2.2.1
  obtain ⟨slotsBefore, armedBefore, _⟩ :=
    agent.follow_turn cluster.clock cluster.master earlier later assignment distinct own
  have left := cluster.sync_turn agent known earlier later assignment pulled distinct own
  have start : (agent.passed cluster.clock cluster.master earlier).agent.Valid :=
    Agent.visits_valid cluster.clock ⟨cluster.master, agent, ⟨0, 0, 0⟩, []⟩ earlier valid
  cases read : Failure.ofAssignment assignment with
  | error error =>
      rw [Agent.reconcile, read] at succeeded
      cases succeeded
  | ok delivered =>
      obtain ⟨deliveredId, _, deliveredExpected⟩ :=
        Agent.ofAssignment_eq_ok assignment delivered read
      rw [sameExpected, expected, Failure.State.ofCode_code] at deliveredExpected
      simp only [Agent.reconcile, read] at succeeded left
      rw [← deliveredId] at left slotsBefore armedBefore stored ⊢
      have sent : (failure.toAssignment >>= Failure.ofAssignment) = .ok delivered := by
        rw [written]
        exact read
      have mistaken : cluster.Mistakes agent.node delivered.id ↔
          (agent.passed cluster.clock cluster.master earlier).agent.Remembers delivered := by
        rw [cluster.mistakes_iff _ _ agent failure delivered known stored sent, Agent.Remembers,
          Agent.Remembers, slotsBefore, armedBefore]
      rw [mistaken]
      obtain ⟨slot, found, _, outcome⟩ := Agent.drive_enabled _ cluster.clock.now delivered
        (Except.ok.inj deliveredExpected).symm succeeded
      have fit := Agent.drive_valid _ cluster.clock.now delivered start delivered.id slot found
      have engine : (cluster.sync agent.node).2.engine? agent.node delivered.id =
          some slot.engine := by rw [left, Agent.engine?, found, Option.map_some]
      rcases outcome with ⟨remembered, before, _⟩ | ⟨forgotten, enabled, _⟩
      · refine ⟨fun honoured => absurd remembered ?_, fun wrong => absurd remembered wrong⟩
        obtain ⟨other, same, enabled, _⟩ := honoured
        cases engine.symm.trans same
        obtain ⟨old, known, _, expired, _⟩ := remembered
        cases before.symm.trans known
        exact absurd enabled (fit.timed.expired expired)
      · exact ⟨fun _ => forgotten, fun _ => ⟨slot.engine, engine, enabled, fit.enabled enabled⟩⟩

/-! How generations go on -/

/-- How the generation that the agent of a node has noted for a failure compares with the one that
the master has. -/
def Notes (cluster : Cluster α) (node id : String) (related : UInt64 → UInt64 → Prop) : Prop :=
  ∀ agent generation, cluster.agent? node = some agent →
    agent.armed.get? id = some generation → ∃ failure,
      cluster.master.ledger.get? node id = some failure ∧ related generation failure.generation

/-- Only passes of a node make its agent note anything. -/
theorem perform_armed (cluster : Cluster α) (command : Command) (node id : String)
    (agent : Agent α) (generation : UInt64) (idle : command ≠ .sync node)
    (lossless : ∀ fates, command ≠ .lossySync node fates)
    (found : (cluster.perform command).agent? node = some agent)
    (noted : agent.armed.get? id = some generation) :
    ∃ before, cluster.agent? node = some before ∧ before.armed.get? id = some generation := by
  cases cluster.perform_moves command node agent found with
  | stays known => exact ⟨agent, known, noted⟩
  | enters labels => cases noted
  | syncs known => exact absurd rfl idle
  | losesCalls fates known => exact absurd rfl (lossless fates)
  | @shutsDown before known =>
      rw [before.revertAll_kept.2.1] at noted
      cases noted
  | @advances before span known => exact ⟨before, known, noted⟩

theorem wanted?_found {before after : Ledger} {node id : String}
    (same : after.wanted? node id = before.wanted? node id) (failure : Failure)
    (stored : before.get? node id = some failure) :
    ∃ later, after.get? node id = some later ∧ later.wanted = failure.wanted := by
  rw [Ledger.wanted?, Ledger.wanted?, stored, Option.map_some] at same
  obtain ⟨later, found, wanted⟩ := Option.map_eq_some_iff.mp same
  exact ⟨later, found, wanted⟩

omit [Attack α] in
theorem Notes.kept {before after : Cluster α} {node id : String}
    {related : UInt64 → UInt64 → Prop} (notes : before.Notes node id related)
    (armed : ∀ agent generation, after.agent? node = some agent →
      agent.armed.get? id = some generation →
        ∃ old, before.agent? node = some old ∧ old.armed.get? id = some generation)
    (wanted : after.master.ledger.wanted? node id = before.master.ledger.wanted? node id) :
    after.Notes node id related := by
  intro agent generation found noted
  obtain ⟨old, known, same⟩ := armed agent generation found noted
  obtain ⟨failure, stored, holds⟩ := notes old generation known same
  obtain ⟨later, still, unchanged⟩ := wanted?_found wanted failure stored
  exact ⟨later, still, (Failure.wanted_fields unchanged).2.2 ▸ holds⟩

/-- An agent notes nothing that the master has not handed out. -/
theorem perform_noted (cluster : Cluster α) (sound : cluster.Sound) (command : Command)
    (node id : String) (agent : Agent α) (generation : UInt64)
    (found : (cluster.perform command).agent? node = some agent)
    (noted : agent.armed.get? id = some generation) :
    (∃ before, cluster.agent? node = some before ∧ before.armed.get? id = some generation) ∨
      ∃ failure, cluster.master.ledger.get? node id = some failure ∧
        failure.generation = generation := by
  by_cases pass : command = .sync node ∨ ∃ fates, command = .lossySync node fates
  · cases cluster.perform_moves command node agent found with
    | stays known => exact Or.inl ⟨agent, known, noted⟩
    | @syncs before known =>
        obtain ⟨rfl, _⟩ := sound.agents node before known
        exact (before.sync_armed (fun master : Master => master) (fun _ _ _ _ heard => heard)
          cluster.clock cluster.master sound.ledger id generation noted).imp_left
          fun earlier => ⟨before, known, earlier⟩
    | @losesCalls before fates known =>
        obtain ⟨rfl, _⟩ := sound.agents node before known
        exact (before.sync_armed Channel.master Channel.ask_eq_ok cluster.clock
          ⟨cluster.master, fates⟩ sound.ledger id generation noted).imp_left
          fun earlier => ⟨before, known, earlier⟩
    | enters labels | shutsDown known | advances span known =>
        rcases pass with wrong | ⟨_, wrong⟩ <;> cases wrong
  -- other commands note nothing at all
  · rw [not_or, not_exists] at pass
    exact Or.inl (cluster.perform_armed command node id agent generation pass.1 pass.2 found noted)

/-- What holds of a failure that was never deleted, after some commands: the agent is not ahead of
the master, and the generation has not outrun the commands. -/
structure Tally (cluster : Cluster α) (node id : String) (count : Nat) : Prop where
  notes : cluster.Notes node id (· ≤ ·)
  counted : ∀ failure, cluster.master.ledger.get? node id = some failure →
    failure.generation.toNat ≤ count

omit [Attack α] in
theorem tally_of_unasked {before after : Cluster α} {node id : String} {count : Nat}
    (tally : before.Tally node id count) (notes : after.Notes node id (· ≤ ·))
    (wanted : after.master.ledger.wanted? node id = before.master.ledger.wanted? node id) :
    after.Tally node id (count + 1) := by
  refine ⟨notes, fun failure stored => ?_⟩
  obtain ⟨earlier, found, unchanged⟩ := wanted?_found wanted.symm failure stored
  rw [← (Failure.wanted_fields unchanged).2.2]
  exact Nat.le_succ_of_le (tally.counted earlier found)

theorem perform_tally (cluster : Cluster α) (sound : cluster.Sound) (command : Command)
    (other : ∀ request, command ≠ .request request) (node id : String) (count : Nat)
    (tally : cluster.Tally node id count) :
    (cluster.perform command).Tally node id (count + 1) := by
  have wanted := (cluster.perform_unasked command other).wanted node id
  refine tally_of_unasked tally (fun agent generation found noted => ?_) wanted
  have current : ∃ failure, cluster.master.ledger.get? node id = some failure ∧
      generation ≤ failure.generation := by
    rcases cluster.perform_noted sound command node id agent generation found noted with
      ⟨before, known, earlier⟩ | ⟨failure, stored, rfl⟩
    · exact tally.notes before generation known earlier
    · exact ⟨failure, stored, UInt64.le_refl _⟩
  obtain ⟨failure, stored, holds⟩ := current
  obtain ⟨later, still, unchanged⟩ := wanted?_found wanted failure stored
  exact ⟨later, still, (Failure.wanted_fields unchanged).2.2 ▸ holds⟩

/-- A request that changes nothing of what is asked for. -/
theorem Tally.unchanged {cluster : Cluster α} {node id : String} {count : Nat}
    (tally : cluster.Tally node id count) (request : Request)
    (same : (request.reply cluster.master).master.ledger.wanted? node id =
      cluster.master.ledger.wanted? node id) :
    (cluster.perform (.request request)).Tally node id (count + 1) :=
  tally_of_unasked tally
    (tally.notes.kept (fun agent _ found noted => ⟨agent, found, noted⟩) same) same

theorem request_tally (cluster : Cluster α) (request : Request) (node id : String) (count : Nat)
    (few : count + 1 < UInt64.size) (tally : cluster.Tally node id count)
    (kept : ¬ (request = .delete node id ∧ cluster.Accepts (.delete node id))) :
    (cluster.perform (.request request)).Tally node id (count + 1) := by
  cases answer : (request.reply cluster.master).answer with
  | error error =>
      exact tally.unchanged request (by rw [request.reply_error cluster.master error answer])
  | ok failure =>
      have done := request.reply_ok cluster.master failure answer
      by_cases here : request.node = node ∧ request.id = id
      · obtain ⟨rfl, rfl⟩ := here
        cases stored : cluster.master.ledger.get? request.node request.id with
        | none =>
            obtain ⟨made, after, new, _⟩ := done.makes stored
            constructor
            · intro agent generation found noted
              -- without a failure there was nothing to note
              obtain ⟨failure, impossible, _⟩ := tally.notes agent generation found noted
              cases stored.symm.trans impossible
            · intro other found
              cases after.symm.trans found
              rw [new]
              exact Nat.zero_le _
        | some old =>
            have counted := tally.counted old stored
            rcases done.revises old stored with deleted | ⟨specification, expected, _, after⟩
            · exact absurd ⟨deleted, failure, deleted ▸ answer⟩ kept
            · have grown := Request.revised_grows specification expected old (by omega)
              constructor
              · intro agent generation found noted
                obtain ⟨same, again, current⟩ := tally.notes agent generation found noted
                cases stored.symm.trans again
                exact ⟨_, after, UInt64.le_trans current (UInt64.le_iff_toNat_le.mpr grown.1)⟩
              · intro revised found
                cases after.symm.trans found
                omega
      · have after := done.ledger node id
        rw [if_neg here] at after
        exact tally.unchanged request (congrArg (Option.map Failure.wanted) after)

theorem after_tally [LawfulAttack α] (cluster : Cluster α) (sound : cluster.Sound)
    (commands : List Command) (node id : String) (count : Nat)
    (few : count + commands.length < UInt64.size) (kept : ¬ cluster.Deletes node id commands)
    (tally : cluster.Tally node id count) :
    (cluster.after commands).Tally node id (count + commands.length) := by
  induction commands generalizing cluster count with
  | nil => exact tally
  | cons command rest ih =>
      rw [Deletes, not_or] at kept
      rw [List.length_cons] at few ⊢
      have first : (cluster.perform command).Tally node id (count + 1) := by
        by_cases asked : ∃ request, command = .request request
        · obtain ⟨request, rfl⟩ := asked
          refine cluster.request_tally request node id count (by omega) tally ?_
          rintro ⟨rfl, accepted⟩
          exact kept.1 ⟨rfl, accepted⟩
        · exact cluster.perform_tally sound command (fun request same => asked ⟨request, same⟩)
            node id count tally
      have others := ih (cluster.perform command) (cluster.perform_sound command sound) (count + 1)
        (by omega) kept.2 first
      rw [show count + (rest.length + 1) = count + 1 + rest.length by omega]
      exact others

/-- An accepted request to enable a failure is ahead of all that its agent has noted. -/
theorem request_fresh (cluster : Cluster α) (request : Request) (count : Nat)
    (few : count + 1 < UInt64.size) (tally : cluster.Tally request.node request.id count)
    (asks : request.asksEnabled = true) (accepted : cluster.Accepts request) :
    (cluster.perform (.request request)).Notes request.node request.id (· < ·) := by
  obtain ⟨answered, answer⟩ := accepted
  have done := request.reply_ok cluster.master answered answer
  intro agent generation found noted
  obtain ⟨old, stored, current⟩ := tally.notes agent generation found noted
  have counted := tally.counted old stored
  rcases done.revises old stored with deleted | ⟨specification, expected, asking, after⟩
  · rw [deleted] at asks
    cases asks
  · rw [asking, decide_eq_true_eq] at asks
    have next := Request.next_generation old.generation (by omega)
    refine ⟨_, after, UInt64.lt_of_le_of_lt current ?_⟩
    rw [UInt64.lt_iff_toNat_lt, Request.revised_generation, if_pos asks]
    omega

/-- What an accepted request to enable a failure leaves with the master. -/
theorem request_expected (cluster : Cluster α) (request : Request)
    (asks : request.asksEnabled = true) (accepted : cluster.Accepts request) :
    ∃ failure, (cluster.perform (.request request)).master.ledger.get? request.node request.id =
      some failure ∧ failure.expected = .enabled := by
  obtain ⟨answered, answer⟩ := accepted
  have done := request.reply_ok cluster.master answered answer
  cases stored : cluster.master.ledger.get? request.node request.id with
  | none =>
      obtain ⟨made, after, _, expected⟩ := done.makes stored
      exact ⟨made, after, expected asks⟩
  | some old =>
      rcases done.revises old stored with deleted | ⟨specification, expected, asking, after⟩
      · rw [deleted] at asks
        cases asks
      · rw [asking, decide_eq_true_eq] at asks
        exact ⟨_, after, Request.revised_expected specification expected .enabled old asks⟩

/-- Without passes and accepted requests in between, a request stands as it was made. -/
theorem quiet_kept (cluster : Cluster α) (commands : List Command) (node id : String)
    (related : UInt64 → UInt64 → Prop) (quiet : Quiet node id cluster commands) :
    (cluster.after commands).master.ledger.wanted? node id =
        cluster.master.ledger.wanted? node id ∧
      (cluster.Notes node id related → (cluster.after commands).Notes node id related) := by
  induction commands generalizing cluster with
  | nil => exact ⟨rfl, fun notes => notes⟩
  | cons command rest ih =>
      obtain ⟨idle, lossless, unasked, quiet⟩ := quiet
      have wanted : (cluster.perform command).master.ledger.wanted? node id =
          cluster.master.ledger.wanted? node id := by
        by_cases asked : ∃ request, command = .request request
        · obtain ⟨request, rfl⟩ := asked
          cases answer : (request.reply cluster.master).answer with
          | error error =>
              exact congrArg (·.ledger.wanted? node id)
                (request.reply_error cluster.master error answer)
          | ok failure =>
              have elsewhere : ¬ (request.node = node ∧ request.id = id) := fun here =>
                unasked request rfl here.1 here.2 ⟨failure, answer⟩
              have same := (request.reply_ok cluster.master failure answer).ledger node id
              rw [if_neg elsewhere] at same
              exact congrArg (Option.map Failure.wanted) same
        · exact (cluster.perform_unasked command fun request same => asked ⟨request, same⟩).wanted
            node id
      obtain ⟨still, notes⟩ := ih (cluster.perform command) quiet
      refine ⟨still.trans wanted, fun before => notes (before.kept ?_ wanted)⟩
      intro agent generation found noted
      exact cluster.perform_armed command node id agent generation idle lossless found noted

/-- When the agent takes up the latest request to enable a failure, it honours the request, if and
only if it does not mistake it for one that it has served. It can only mistake requests on a failure
that was deleted before, unless the generations have overflowed. -/
theorem request_honoured_iff [LawfulAttack α] (policy : LivenessPolicy) (catalogue : Catalogue α)
    (earlier later : List Command) (request : Request) (outcome : AgentOutcome α)
    (asks : request.asksEnabled = true)
    (accepted : ((empty policy catalogue).after earlier).Accepts request)
    (quiet : Quiet request.node request.id
      (((empty policy catalogue).after earlier).perform (.request request)) later)
    (turn : ((empty policy catalogue).after (earlier ++ .request request :: later)).turn?
      request.node request.id = some outcome)
    (succeeded : outcome.result = .ok ()) :
    let before := (empty policy catalogue).after (earlier ++ .request request :: later)
    ((before.sync request.node).2.Honours request.node request.id ↔
        ¬ before.Mistakes request.node request.id) ∧
      (before.Mistakes request.node request.id →
        (empty policy catalogue).Deletes request.node request.id earlier ∨
          UInt64.size ≤ earlier.length + 1) := by
  intro before
  have start : (empty policy catalogue).Sound := empty_sound policy catalogue
  have whole : before =
      (((empty policy catalogue).after earlier).perform (.request request)).after later := by
    simp [before, after]
  have sound : before.Sound := after_sound _ _ start
  obtain ⟨asked, stored, expected⟩ := request_expected _ request asks accepted
  have standing := quiet_kept _ later request.node request.id (· < ·) quiet
  rw [← whole] at standing
  obtain ⟨failure, found, same⟩ := wanted?_found standing.1 asked stored
  have wanted : failure.expected = .enabled := (Failure.wanted_fields same).2.1.trans expected
  refine ⟨before.sync_honours sound _ _ outcome turn succeeded failure found wanted, ?_⟩
  rintro ⟨agent, source, delivered, known, kept, sent, slot, _, _, _, generation, noted, late⟩
  by_cases few : earlier.length + 1 < UInt64.size
  -- the generations have not overflowed, so a mistake needs a deletion
  · by_cases deleted : (empty policy catalogue).Deletes request.node request.id earlier
    · exact Or.inl deleted
    · have tally : (empty policy catalogue).Tally request.node request.id 0 :=
        ⟨fun _ _ impossible => (nomatch impossible), fun _ impossible => (nomatch impossible)⟩
      have tallied := after_tally _ start earlier request.node request.id 0 (by omega) deleted tally
      -- the request is ahead of all that was noted, and nothing is noted before the pass
      have fresh := request_fresh _ request _ (by omega) tallied asks accepted
      obtain ⟨assignment, written, read⟩ := (bind_eq_ok _ _ _).mp sent
      obtain ⟨sameId, _, _, sameGeneration⟩ := source.toAssignment_eq_ok assignment written
      obtain ⟨readId, readGeneration, _⟩ := Agent.ofAssignment_eq_ok assignment delivered read
      have id := (sound.ledger.fits _ _ source kept).id
      rw [readId, sameId, id] at noted
      obtain ⟨other, again, ahead⟩ := standing.2 fresh agent generation known noted
      cases kept.symm.trans again
      rw [readGeneration, sameGeneration] at late
      exact absurd ahead (UInt64.not_lt.mpr late)
  · exact Or.inr (by omega)

/-- A machine on which no attack fails. -/
local instance roomyHost : Host where
  cores := 1
  blockFault _ _ := none
  threadFault _ _ := none

def briefSpecification : OrderedSpecification :=
  ⟨⟨⟨100000000, by decide⟩, [.ofKind "memory_allocation" (some [("size", .integer 1)])]⟩,
    by decide⟩

def briefRequest : Request := .create "node" "brief" briefSpecification .enabled

/-- A failure that is enabled and runs to its timeout. -/
def spentCommands : List Command :=
  [.enter "node" [], .join "node", .request briefRequest, .sync "node", .advance 200000000]

theorem turn_of_check [Host] (cluster : Cluster BuiltIn) (node id : String)
    (check : (cluster.turn? node id).any (·.result.isOk) = true) :
    ∃ outcome, cluster.turn? node id = some outcome ∧ outcome.result = .ok () := by
  obtain ⟨outcome, turn, succeeded⟩ := (Option.any_eq_true _ _).mp check
  obtain ⟨_, result⟩ := (isOk_iff _).mp succeeded
  exact ⟨outcome, turn, result⟩

theorem accepts_of_check [Host] (cluster : Cluster BuiltIn) (request : Request)
    (check : (request.reply cluster.master).answer.isOk = true) : cluster.Accepts request :=
  (isOk_iff _).mp check

theorem request_honoured_again :
    let before := (empty .standard BuiltIn.catalogue).after
      (spentCommands ++ .request (.apply "node" "brief") :: [.advance 1000000])
    ∃ outcome, before.turn? "node" "brief" = some outcome ∧ outcome.result = .ok () ∧
      (before.sync "node").2.Honours "node" "brief" := by
  obtain ⟨outcome, turn, succeeded⟩ := turn_of_check ((empty .standard BuiltIn.catalogue).after
    (spentCommands ++ .request (.apply "node" "brief") :: [.advance 1000000])) "node" "brief"
    (by decide +kernel)
  have facts := request_honoured_iff .standard BuiltIn.catalogue spentCommands [.advance 1000000]
    (.apply "node" "brief") outcome rfl (accepts_of_check _ _ (by decide +kernel))
    ⟨nofun, nofun, nofun, trivial⟩ turn succeeded
  refine ⟨outcome, turn, succeeded, facts.1.mpr fun mistaken => ?_⟩
  rcases facts.2 mistaken with deleted | many
  · simp only [spentCommands, Deletes, reduceCtorEq, false_and, false_or, or_false,
      Command.request.injEq] at deleted
    cases deleted.1
  · revert many
    decide

/-- A request is lost when its failure was deleted and created anew since the last pass: the agent
still has the engine that ran to its timeout, and the generations start over. -/
theorem request_lost : ¬ ∀ (earlier later : List Command) (request : Request)
    (outcome : AgentOutcome BuiltIn)
      (report : SyncReport), request.asksEnabled = true →
      ((empty .standard BuiltIn.catalogue).after earlier).Accepts request →
      Quiet request.node request.id
        (((empty .standard BuiltIn.catalogue).after earlier).perform (.request request)) later →
      let before := (empty .standard BuiltIn.catalogue).after (earlier ++ .request request :: later)
      (before.sync request.node).1 = some (.ok report) → report.errors = 0 →
      before.turn? request.node request.id = some outcome → outcome.result = .ok () →
      (before.sync request.node).2.Honours request.node request.id := by
  intro honoured
  let before := (empty .standard BuiltIn.catalogue).after
    (spentCommands ++ [.request (.delete "node" "brief")] ++ .request briefRequest :: [])
  obtain ⟨outcome, turn, succeeded⟩ :=
    turn_of_check before briefRequest.node briefRequest.id (by decide +kernel)
  have result := honoured (spentCommands ++ [.request (.delete "node" "brief")]) [] briefRequest
    outcome ⟨1, 0, 0⟩ rfl (accepts_of_check _ _ (by decide +kernel)) trivial
  dsimp only at result
  have synced : (before.sync briefRequest.node).1 = some (.ok ⟨1, 0, 0⟩) := by decide +kernel
  obtain ⟨engine, found, enabled, _⟩ := result synced rfl turn succeeded
  have up : ((before.sync briefRequest.node).2.engine? briefRequest.node briefRequest.id).map
      (·.state) = some .enabled := Option.map_eq_some_iff.mpr ⟨engine, found, enabled⟩
  have down : ((before.sync briefRequest.node).2.engine? briefRequest.node briefRequest.id).map
      (·.state) = some .disabled := by decide +kernel
  cases up.symm.trans down

end Cluster

end FaultInjection
