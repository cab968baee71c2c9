import FaultInjection.Proofs.Engine.Outcome
import FaultInjection.Proofs.Node.Again
import FaultInjection.Proofs.Node.Alike
import FaultInjection.Proofs.Node.Note
import FaultInjection.Proofs.Wire.Exchange

/-!
What a pass gives account of. Every assignment of the node has one turn and one report, which tells
the state that the turn has come to; the counts of the pass are those of its turns and of the
engines that it has given up.
-/

namespace FaultInjection

variable {α σ : Type} [Attack α]

/-! Deeds that start nothing -/

def OnlyReverts (deeds : List Deed) : Prop := ∀ deed ∈ deeds, ∃ place, deed.2 = .revert place

theorem onlyReverts_nil : OnlyReverts [] := fun _ impossible => nomatch impossible

theorem Engine.revert_onlyReverts (engine : Engine α) (id : String) :
    OnlyReverts (deedsOf id engine.revert.uses) := by
  have relieved : Relieved engine.attacks engine.revert :=
    Engine.subside_relieved { engine with expired := false }
  intro deed member
  rw [deedsOf, relieved.uses, List.map_map] at member
  obtain ⟨place, _, rfl⟩ := List.mem_map.mp member
  exact ⟨place, rfl⟩

namespace Agent

theorem retire_onlyReverts (agent : Agent α) (id : String) :
    OnlyReverts (agent.retire id).deeds := by
  unfold retire
  split
  · exact onlyReverts_nil
  · exact Engine.revert_onlyReverts _ id

theorem prepare_onlyReverts (agent : Agent α) (failure : Failure) :
    OnlyReverts (agent.prepare failure).deeds := by
  unfold prepare
  split
  · rw [install_deeds]
    exact onlyReverts_nil
  · split
    · exact onlyReverts_nil
    · dsimp only
      rw [install_deeds, List.append_nil]
      exact agent.retire_onlyReverts failure.id

/-! What a turn comes to -/

/-- The engine that is to be driven for a failure: the one that it has, if that is of the same
specification, and else a new one. -/
def engineFor (agent : Agent α) (failure : Failure) : Except Error (Engine α) :=
  match agent.engine? failure.id with
  | some engine =>
      if engine.specification.same failure.specification then .ok engine
      else Engine.ofFailure agent.catalogue failure
  | none => Engine.ofFailure agent.catalogue failure

def driven (agent : Agent α) (now : Nat) (failure : Failure) (engine : Engine α) :
    EngineOutcome α :=
  match failure.expected with
  | .enabled =>
      if agent.staysDown failure engine then ⟨.ok (), engine, []⟩
      else (engine.fail now agent.stopped).1
  | .disabled => engine.revert
  | .unknown => ⟨.ok (), engine, []⟩

theorem retire_gone (agent : Agent α) (id : String) :
    (agent.retire id).agent.engine? id = none := by
  simp [engine?, retire_slots]

theorem prepare_built (agent : Agent α) (failure : Failure) (engine : Engine α)
    (ready : agent.engineFor failure = .ok engine) :
    (agent.prepare failure).result = .ok () ∧
      (agent.prepare failure).agent.engine? failure.id = some engine := by
  have catalogue := (agent.retire_elsewhere failure.id).catalogue
  unfold engineFor at ready
  unfold prepare
  split at ready
  next old found =>
    simp only [found]
    split at ready
    next same =>
      cases ready
      rw [if_pos same]
      exact ⟨rfl, found⟩
    next different =>
      rw [if_neg different]
      exact install_built _ failure engine (catalogue ▸ ready)
  next absent =>
    simp only [absent]
    exact agent.install_built failure engine ready

theorem prepare_unbuilt (agent : Agent α) (failure : Failure) (error : Error)
    (refused : agent.engineFor failure = .error error) :
    (agent.prepare failure).result = .error error ∧
      (agent.prepare failure).agent.engine? failure.id = none := by
  have catalogue := (agent.retire_elsewhere failure.id).catalogue
  unfold engineFor at refused
  unfold prepare
  split at refused
  next old found =>
    simp only [found]
    split at refused
    · cases refused
    next different =>
      rw [if_neg different]
      dsimp only
      rw [install_unbuilt _ failure error (catalogue ▸ refused)]
      exact ⟨rfl, agent.retire_gone failure.id⟩
  next absent =>
    simp only [absent]
    rw [agent.install_unbuilt failure error refused]
    exact ⟨rfl, absent⟩

/-- Whether an engine is to stay down is the same before and after it was prepared, and so is the
token. -/
theorem prepare_driven (agent : Agent α) (now : Nat) (failure : Failure) (engine : Engine α) :
    (agent.prepare failure).agent.driven now failure engine =
      agent.driven now failure engine := by
  rw [driven, driven, (agent.prepare_apart failure).stopped, staysDown, staysDown, prepare_armed]

theorem enable_driven (agent : Agent α) (now : Nat) (failure : Failure) (slot : Slot α)
    (expected : failure.expected = .enabled) (found : agent.slots.get? failure.id = some slot) :
    (agent.enable now failure slot).result = (agent.driven now failure slot.engine).result ∧
      (agent.enable now failure slot).agent.engine? failure.id =
        some (agent.driven now failure slot.engine).engine := by
  simp only [enable, driven, expected]
  split
  · exact ⟨rfl, by rw [engine?, found]; rfl⟩
  · dsimp only
    refine ⟨rfl, ?_⟩
    split <;> simp [engine?, store, Table.get?_put]

theorem drive_built (agent : Agent α) (now : Nat) (failure : Failure) (engine : Engine α)
    (ready : agent.engineFor failure = .ok engine) :
    (agent.drive now failure).result = (agent.driven now failure engine).result ∧
      (agent.drive now failure).agent.engine? failure.id =
        some (agent.driven now failure engine).engine := by
  obtain ⟨prepared, stored⟩ := agent.prepare_built failure engine ready
  obtain ⟨slot, found, rfl⟩ := Option.map_eq_some_iff.mp stored
  rw [← agent.prepare_driven now failure slot.engine]
  simp only [drive, prepared, found]
  cases expected : failure.expected with
  | enabled => exact enable_driven _ now failure slot expected found
  | disabled => simp [disable, driven, expected, engine?, store, Table.get?_put]
  | unknown => simp [driven, expected, engine?, found]

theorem drive_unbuilt (agent : Agent α) (now : Nat) (failure : Failure) (error : Error)
    (refused : agent.engineFor failure = .error error) :
    agent.drive now failure = agent.prepare failure ∧
      (agent.prepare failure).result = .error error ∧
      (agent.prepare failure).agent.engine? failure.id = none := by
  have prepared := agent.prepare_unbuilt failure error refused
  refine ⟨?_, prepared⟩
  simp only [drive, prepared.1]

end Agent

/-- A turn of a pass: the agent that it has found, and the assignment that it has taken up. -/
structure Turn (α : Type) where
  agent : Agent α
  assignment : Wire.Assignment

namespace Turn

def outcome (turn : Turn α) (now : Nat) : AgentOutcome α :=
  (turn.agent.reconcile now turn.assignment).1

def told (turn : Turn α) (now : Nat) : Failure.State :=
  (turn.agent.reconcile now turn.assignment).2

def failed (turn : Turn α) (now : Nat) : Bool := !(turn.outcome now).result.isOk

/-- The report after a turn is the assignment, but for the current state. -/
def report (turn : Turn α) (now : Nat) : Call :=
  .report turn.assignment.node { turn.assignment with current := (turn.told now).code }

/-- What a turn comes to. It ends early if its assignment cannot be read or its engine cannot be
built; then no attack is applied in it. -/
inductive ComesTo (turn : Turn α) (now : Nat) : Prop where
  | unread (error : Error)
      (refused : Failure.ofAssignment turn.assignment = .error error)
      (unchanged : turn.outcome now = ⟨.error error, turn.agent, []⟩)
      (told : turn.told now = .unknown)
  | unbuilt (failure : Failure) (error : Error)
      (read : Failure.ofAssignment turn.assignment = .ok failure)
      (refused : turn.agent.engineFor failure = .error error)
      (result : (turn.outcome now).result = .error error)
      (gone : (turn.outcome now).agent.engine? turn.assignment.id = none)
      (unapplied : OnlyReverts (turn.outcome now).deeds)
      (told : turn.told now = .unknown)
  | driven (failure : Failure) (engine : Engine α)
      (read : Failure.ofAssignment turn.assignment = .ok failure)
      (ready : turn.agent.engineFor failure = .ok engine)
      (result : (turn.outcome now).result = (turn.agent.driven now failure engine).result)
      (kept : (turn.outcome now).agent.engine? turn.assignment.id =
        some (turn.agent.driven now failure engine).engine)
      (told : turn.told now = (turn.agent.driven now failure engine).engine.state)

/-- Why a turn has failed. An engine that was replaced, as its failure has another specification
now, may complain without harm. -/
inductive Fails (turn : Turn α) (now : Nat) : Prop where
  | reading (error : Error)
      (refused : Failure.ofAssignment turn.assignment = .error error)
  | building (failure : Failure) (error : Error)
      (read : Failure.ofAssignment turn.assignment = .ok failure)
      (refused : turn.agent.engineFor failure = .error error)
  | applying (failure : Failure) (engine : Engine α) (error : Error)
      (read : Failure.ofAssignment turn.assignment = .ok failure)
      (ready : turn.agent.engineFor failure = .ok engine)
      (expected : failure.expected = .enabled)
      (awake : turn.agent.staysDown failure engine = false)
      (refused : (engine.fail now turn.agent.stopped).1.result = .error error)
  | reverting (failure : Failure) (engine : Engine α) (error : Error)
      (read : Failure.ofAssignment turn.assignment = .ok failure)
      (ready : turn.agent.engineFor failure = .ok engine)
      (expected : failure.expected = .disabled)
      (refused : engine.revert.result = .error error)

theorem unread (turn : Turn α) (now : Nat) (error : Error)
    (refused : Failure.ofAssignment turn.assignment = .error error) :
    turn.outcome now = ⟨.error error, turn.agent, []⟩ ∧ turn.told now = .unknown := by
  simp only [outcome, told, Agent.reconcile, refused, and_self]

theorem read (turn : Turn α) (now : Nat) (failure : Failure)
    (read : Failure.ofAssignment turn.assignment = .ok failure) :
    failure.id = turn.assignment.id ∧ turn.outcome now = turn.agent.drive now failure ∧
      turn.told now = Agent.reached (turn.agent.drive now failure) failure.id := by
  refine ⟨(Agent.ofAssignment_eq_ok turn.assignment failure read).1, ?_⟩
  simp only [outcome, told, Agent.reconcile, read, and_self]

/-- Each turn comes to what it should, and the state that it tells is the one that was reached. -/
theorem comesTo (turn : Turn α) (now : Nat) (noted : turn.agent.Noted) : turn.ComesTo now := by
  cases decoded : Failure.ofAssignment turn.assignment with
  | error error =>
      obtain ⟨unchanged, told⟩ := turn.unread now error decoded
      exact .unread error decoded unchanged told
  | ok failure =>
      obtain ⟨sameId, outcome, told⟩ := turn.read now failure decoded
      cases ready : turn.agent.engineFor failure with
      | error error =>
          obtain ⟨ended, result, gone⟩ := turn.agent.drive_unbuilt now failure error ready
          rw [ended] at outcome told
          refine .unbuilt failure error decoded ready (outcome ▸ result) ?_ ?_ ?_
          · rw [outcome, ← sameId]
            exact gone
          · rw [outcome]
            exact turn.agent.prepare_onlyReverts failure
          · simp only [told, Agent.reached, gone]
      | ok engine =>
          obtain ⟨result, kept⟩ := turn.agent.drive_built now failure engine ready
          obtain ⟨slot, found, stored⟩ := Option.map_eq_some_iff.mp kept
          refine .driven failure engine decoded ready (outcome ▸ result) ?_ ?_
          · rw [outcome, ← sameId]
            exact kept
          · have notedAfter := (turn.agent.drive_edits now failure).keeps Agent.edit_noted noted
            have published := (notedAfter.engines failure.id slot found).published
            rw [stored] at published
            simp only [told, Agent.reached, kept, published]

theorem failed_iff_error (turn : Turn α) (now : Nat) :
    turn.failed now = true ↔ ∃ error, (turn.outcome now).result = .error error := by
  unfold failed
  cases (turn.outcome now).result <;> simp [Except.isOk, Except.toBool]

/-- A turn counts as an error for these reasons, and for no other. -/
theorem failed_iff (turn : Turn α) (now : Nat) : turn.failed now = true ↔ turn.Fails now := by
  rw [failed_iff_error]
  constructor
  · rintro ⟨error, failed⟩
    cases decoded : Failure.ofAssignment turn.assignment with
    | error error => exact .reading error decoded
    | ok failure =>
        obtain ⟨_, outcome, _⟩ := turn.read now failure decoded
        cases ready : turn.agent.engineFor failure with
        | error error => exact .building failure error decoded ready
        | ok engine =>
            rw [outcome, (turn.agent.drive_built now failure engine ready).1] at failed
            unfold Agent.driven at failed
            split at failed
            next expected =>
              split at failed
              · cases failed
              next awake =>
                exact .applying failure engine error decoded ready expected
                  (Bool.eq_false_iff.mpr awake) failed
            next expected => exact .reverting failure engine error decoded ready expected failed
            next => cases failed
  · intro fails
    cases fails with
    | reading error refused =>
        exact ⟨error, congrArg AgentOutcome.result (turn.unread now error refused).1⟩
    | building failure error decoded refused =>
        obtain ⟨ended, result, _⟩ := turn.agent.drive_unbuilt now failure error refused
        refine ⟨error, ?_⟩
        rw [(turn.read now failure decoded).2.1, ended, result]
    | applying failure engine error decoded ready expected awake refused =>
        refine ⟨error, ?_⟩
        rw [(turn.read now failure decoded).2.1,
          (turn.agent.drive_built now failure engine ready).1]
        simp only [Agent.driven, expected, awake, Bool.false_eq_true, ↓reduceIte, refused]
    | reverting failure engine error decoded ready expected refused =>
        refine ⟨error, ?_⟩
        rw [(turn.read now failure decoded).2.1,
          (turn.agent.drive_built now failure engine ready).1]
        simp only [Agent.driven, expected, refused]

end Turn

/-! The turns of a pass -/

namespace Agent

/-- The turns of a pass, in order. Assignments of other nodes have none. -/
def turns (now : Nat) : Agent α → List Wire.Assignment → List (Turn α)
  | _, [] => []
  | agent, assignment :: rest =>
      if assignment.node = agent.node then
        ⟨agent, assignment⟩ :: turns now (agent.reconcile now assignment).1.agent rest
      else turns now agent rest

theorem turns_own (agent : Agent α) (now : Nat) (assignment : Wire.Assignment)
    (rest : List Wire.Assignment) (own : assignment.node = agent.node) :
    agent.turns now (assignment :: rest) =
      ⟨agent, assignment⟩ :: (agent.reconcile now assignment).1.agent.turns now rest :=
  if_pos own

theorem turns_foreign (agent : Agent α) (now : Nat) (assignment : Wire.Assignment)
    (rest : List Wire.Assignment) (foreign : assignment.node ≠ agent.node) :
    agent.turns now (assignment :: rest) = agent.turns now rest :=
  if_neg foreign

/-- Each assignment of the node has its turn, in the order of the list. -/
theorem turns_assignments (agent : Agent α) (now : Nat) (assignments : List Wire.Assignment) :
    (agent.turns now assignments).map (·.assignment) =
      assignments.filter fun assignment => assignment.node = agent.node := by
  induction assignments generalizing agent with
  | nil => rfl
  | cons assignment rest ih =>
      by_cases own : assignment.node = agent.node
      · have same := (agent.reconcile_elsewhere now assignment).node
        rw [agent.turns_own now assignment rest own, List.map_cons, ih, same]
        simp [own]
      · rw [agent.turns_foreign now assignment rest own, ih]
        simp [own]

/-- What edits keep holds of the agent in every turn. -/
theorem turns_keep (kept : Agent α → Prop)
    (edit : ∀ before after, Edit before after → kept before → kept after) (now : Nat)
    (assignments : List Wire.Assignment) (agent : Agent α) (start : kept agent) :
    ∀ turn ∈ agent.turns now assignments, kept turn.agent := by
  induction assignments generalizing agent with
  | nil => exact nofun
  | cons assignment rest ih =>
      by_cases own : assignment.node = agent.node
      · rw [agent.turns_own now assignment rest own, List.forall_mem_cons]
        exact ⟨start, ih _ ((agent.reconcile_edits now assignment).keeps edit start)⟩
      · rw [agent.turns_foreign now assignment rest own]
        exact ih agent start

omit [Attack α] in
theorem faultCount_eq (result : Except Error Unit) :
    faultCount result = if (!result.isOk) = true then 1 else 0 := by
  cases result <;> rfl

/-- The pass so far, told from its turns. -/
theorem visits_turns [Link σ] (clock : Clock) (progress : SyncProgress (Overheard σ) α)
    (assignments : List Wire.Assignment) :
    let turns := progress.agent.turns clock.now assignments
    let after := visits clock progress assignments
    after.far.calls = progress.far.calls ++ turns.map (·.report clock.now) ∧
      after.deeds = progress.deeds ++ turns.flatMap (fun turn => (turn.outcome clock.now).deeds) ∧
      after.report = ⟨progress.report.reconciled + turns.length,
        progress.report.errors + turns.countP (·.failed clock.now), progress.report.removed⟩ := by
  induction assignments generalizing progress with
  | nil => simp [turns, visits]
  | cons assignment rest ih =>
      obtain ⟨calls, deeds, report⟩ := ih (visit clock progress assignment)
      by_cases own : assignment.node = progress.agent.node
      · obtain ⟨agent, moreDeeds, moreCalls⟩ := visit_own clock progress assignment own
        have counted := visit_report clock progress assignment own
        have reported : progress.agent.reportOn clock.now assignment =
            (⟨progress.agent, assignment⟩ : Turn α).report clock.now := by
          rw [reportOn, ← own]
          rfl
        rw [agent, moreCalls, reported, List.append_assoc] at calls
        rw [agent, moreDeeds, List.append_assoc] at deeds
        rw [agent, counted, faultCount_eq] at report
        rw [progress.agent.turns_own clock.now assignment rest own]
        refine ⟨calls, deeds, report.trans ?_⟩
        simp only [List.length_cons, List.countP_cons, Turn.failed, Turn.outcome]
        congr 1 <;> omega
      · rw [visit_foreign clock progress assignment own] at calls deeds report
        rw [progress.agent.turns_foreign clock.now assignment rest own]
        rw [visits, List.foldl_cons, visit_foreign clock progress assignment own]
        exact ⟨calls, deeds, report⟩

/-! Engines that are given up -/

omit [Attack α] in
def dropped (agent : Agent α) (assignments : List Wire.Assignment) : Table (Slot α) :=
  agent.slots.filter fun entry => !(agent.listed assignments).contains entry.1

omit [Attack α] in
theorem dropped_keys (agent : Agent α) (assignments : List Wire.Assignment) :
    (agent.dropped assignments).keys =
      agent.slots.keys.filter fun id => !(agent.listed assignments).contains id := by
  rw [dropped, Table.keys, Table.keys, List.filter_map]
  rfl

/-- Turns leave the failures alone that are not listed. -/
theorem visits_unlisted [Link σ] (clock : Clock) (progress : SyncProgress σ α)
    (assignments : List Wire.Assignment) (id : String)
    (unlisted : id ∉ progress.agent.listed assignments) :
    (visits clock progress assignments).agent.slots.get? id = progress.agent.slots.get? id := by
  induction assignments generalizing progress with
  | nil => rfl
  | cons assignment rest ih =>
      have first := visit_elsewhere clock progress assignment
      have later := ih (visit clock progress assignment)
      rw [listed_congr _ _ first.node rest] at later
      by_cases own : assignment.node = progress.agent.node
      · rw [listed_own _ assignment rest own, List.mem_cons, not_or] at unlisted
        exact (later unlisted.2).trans (first.slots id unlisted.1)
      · rw [listed_foreign _ assignment rest own] at unlisted
        rw [visit_foreign clock progress assignment own] at later
        rw [visits, List.foldl_cons, visit_foreign clock progress assignment own]
        exact later unlisted

/-- The engines that are given up are those that the pass has found, and that are not listed. -/
theorem stale_dropped [Link σ] (agent : Agent α) (clock : Clock) (far : σ)
    (assignments : List Wire.Assignment) (ordered : agent.slots.Ordered)
    (after : (agent.passed clock far assignments).agent.slots.Ordered) :
    agent.stale clock far assignments = (agent.dropped assignments).keys := by
  have same : ∀ id, id ∉ agent.listed assignments →
      (agent.passed clock far assignments).agent.slots.get? id = agent.slots.get? id :=
    visits_unlisted clock ⟨far, agent, ⟨0, 0, 0⟩, []⟩ assignments
  rw [dropped_keys, stale]
  apply List.Pairwise.eq_of_mem_iff ((Table.keys_ascend _ after).filter _)
    ((Table.keys_ascend _ ordered).filter _)
  intro id
  simp only [List.mem_filter, Table.mem_keys_iff, Bool.not_eq_true', List.contains_eq_mem,
    decide_eq_false_iff_not]
  refine and_congr_left fun unlisted => ?_
  rw [same id unlisted]

/-- Giving up an engine that is there counts one, and one more if it complains. -/
theorem discard_entry (progress : SyncProgress σ α) (id : String) (slot : Slot α)
    (found : progress.agent.slots.get? id = some slot) :
    (discard progress id).deeds = progress.deeds ++ deedsOf id slot.engine.revert.uses ∧
      (discard progress id).report = ⟨progress.report.reconciled,
        progress.report.errors + faultCount slot.engine.revert.result,
        progress.report.removed + 1⟩ := by
  simp only [discard, retire, found, and_self]

/-- The end of a pass, told from the engines that are given up. -/
theorem discards_entries (progress : SyncProgress σ α) (entries : Table (Slot α))
    (distinct : entries.keys.Nodup)
    (present : ∀ entry ∈ entries, progress.agent.slots.get? entry.1 = some entry.2) :
    let after := entries.keys.foldl discard progress
    after.deeds = progress.deeds ++
        entries.flatMap (fun entry => deedsOf entry.1 entry.2.engine.revert.uses) ∧
      after.report = ⟨progress.report.reconciled,
        progress.report.errors + entries.countP (fun entry => !entry.2.engine.revert.result.isOk),
        progress.report.removed + entries.length⟩ := by
  induction entries generalizing progress with
  | nil => simp [Table.keys]
  | cons first rest ih =>
      obtain ⟨absent, others⟩ := List.nodup_cons.mp distinct
      obtain ⟨found, behind⟩ := List.forall_mem_cons.mp present
      have remaining : ∀ entry ∈ rest,
          (discard progress first.1).agent.slots.get? entry.1 = some entry.2 := by
        intro entry member
        have different : first.1 ≠ entry.1 := by
          intro same
          apply absent
          dsimp only
          rw [same]
          exact List.mem_map_of_mem member
        simp only [discard, retire_slots, if_neg different]
        exact behind entry member
      obtain ⟨moreDeeds, counted⟩ := discard_entry progress first.1 first.2 found
      obtain ⟨deeds, report⟩ := ih (discard progress first.1) others remaining
      rw [moreDeeds, List.append_assoc] at deeds
      rw [counted, faultCount_eq] at report
      refine ⟨deeds, report.trans ?_⟩
      simp only [List.length_cons, List.countP_cons]
      congr 1 <;> omega

/-! A whole pass -/

/-- A pass over some assignments, told from its turns and from the engines that it gives up. -/
theorem follow_turns [Link σ] (agent : Agent α) (clock : Clock) (far : Overheard σ)
    (assignments : List Wire.Assignment) (noted : agent.Noted) :
    let turns := agent.turns clock.now assignments
    let dropped := agent.dropped assignments
    let after := agent.follow clock far assignments
    after.far.calls = far.calls ++ turns.map (·.report clock.now) ∧
      after.deeds = turns.flatMap (fun turn => (turn.outcome clock.now).deeds) ++
        dropped.flatMap (fun entry => deedsOf entry.1 entry.2.engine.revert.uses) ∧
      after.report = ⟨turns.length, turns.countP (·.failed clock.now) +
        dropped.countP (fun entry => !entry.2.engine.revert.result.isOk), dropped.length⟩ := by
  let passed := agent.passed clock far assignments
  have notedAfter : passed.agent.Noted :=
    (visits_edits clock ⟨far, agent, ⟨0, 0, 0⟩, []⟩ assignments).keeps edit_noted noted
  have after : agent.follow clock far assignments =
      (agent.dropped assignments).keys.foldl discard passed := by
    rw [follow_eq, agent.stale_dropped clock far assignments noted.ordered notedAfter.ordered]
  have distinct : (agent.dropped assignments).keys.Nodup :=
    Table.keys_nodup _ (Table.filter_ordered _ _ noted.ordered)
  -- the turns have left these engines as the pass has found them
  have present : ∀ entry ∈ agent.dropped assignments,
      passed.agent.slots.get? entry.1 = some entry.2 := by
    intro entry member
    obtain ⟨before, unlisted⟩ := List.mem_filter.mp member
    rw [← (Table.mem_iff_get? _ noted.ordered entry.1 entry.2).mp before]
    exact visits_unlisted clock ⟨far, agent, ⟨0, 0, 0⟩, []⟩ assignments entry.1
      (by simpa using unlisted)
  obtain ⟨calls, deeds, report⟩ := visits_turns clock ⟨far, agent, ⟨0, 0, 0⟩, []⟩ assignments
  obtain ⟨moreDeeds, counted⟩ := discards_entries passed _ distinct present
  have quiet := (discards_kept passed (agent.dropped assignments).keys).1
  simp only [List.nil_append, Nat.zero_add] at deeds report
  intro turns dropped outcome
  refine ⟨?calls, ?deeds, ?report⟩
  case calls =>
    simp only [outcome, after, quiet]
    exact calls
  case deeds =>
    simp only [outcome, after]
    exact moreDeeds.trans (congrArg (· ++ _) deeds)
  case report =>
    simp only [outcome, after]
    refine counted.trans ?_
    simp only [passed, show (agent.passed clock far assignments).report = _ from report,
      Nat.zero_add]
    rfl

/-- A pass over some assignments that gives full account of what it does. -/
structure Accounted (agent : Agent α) (clock : Clock) (assignments : List Wire.Assignment)
    (outcome : SyncOutcome (Overheard σ) α) : Prop where
  turns : (agent.turns clock.now assignments).map (·.assignment) =
    assignments.filter fun assignment => assignment.node = agent.node
  each : ∀ turn ∈ agent.turns clock.now assignments,
    turn.ComesTo clock.now ∧ (turn.failed clock.now = true ↔ turn.Fails clock.now)
  calls : outcome.far.calls =
    .pull agent.node :: (agent.turns clock.now assignments).map (·.report clock.now)
  deeds : outcome.deeds =
    (agent.turns clock.now assignments).flatMap (fun turn => (turn.outcome clock.now).deeds) ++
      (agent.dropped assignments).flatMap fun entry => deedsOf entry.1 entry.2.engine.revert.uses
  result : outcome.result = .ok ⟨(agent.turns clock.now assignments).length,
    (agent.turns clock.now assignments).countP (·.failed clock.now) +
      (agent.dropped assignments).countP fun entry => !entry.2.engine.revert.result.isOk,
    (agent.dropped assignments).length⟩
  gone : ∀ id, id ∉ agent.listed assignments → outcome.agent.engine? id = none

theorem sync_accounted [Link σ] (agent : Agent α) (clock : Clock) (far : σ) (answer : CallAnswer)
    (noted : agent.Noted)
    (answered : (Link.ask far clock.instant (.pull agent.node)).1 = .ok answer) :
    agent.Accounted clock answer.toList (agent.sync clock (⟨far, []⟩ : Overheard σ)) := by
  rw [show agent.sync clock (⟨far, []⟩ : Overheard σ) = _ from
    agent.sync_answered clock far [] answer answered]
  obtain ⟨calls, deeds, report⟩ := agent.follow_turns clock
    (⟨_, [.pull agent.node]⟩ : Overheard σ) answer.toList noted
  refine ⟨agent.turns_assignments clock.now answer.toList, ?each, calls, deeds,
    congrArg Except.ok report, ?gone⟩
  case each =>
    intro turn member
    have found := agent.turns_keep Agent.Noted edit_noted clock.now answer.toList noted turn member
    exact ⟨turn.comesTo clock.now found, turn.failed_iff clock.now⟩
  case gone =>
    intro id unlisted
    rw [engine?, agent.follow_unlisted clock _ answer.toList id unlisted]
    rfl

end Agent

namespace AgentRun

/-- A pass fails only if its assignments cannot be fetched, and then nothing happens. Otherwise
each assignment of the node has one turn and one report, in the order of the list, whatever
becomes of the turns and of the reports; and the counts are exact. -/
theorem sync_accounts [Link σ] (start : Nat) (node : String) (catalogue : Catalogue α)
    (commands : List (AgentCommand σ)) (clock : Clock) (far : σ) :
    let agent := ((AgentRun.start start (.ofNode node catalogue)).after commands).agent
    let pulled := Link.ask far clock.instant (.pull agent.node)
    let outcome := agent.sync clock (⟨far, []⟩ : Overheard σ)
    (∀ error, pulled.1 = .error error →
      outcome = ⟨.error error, ⟨pulled.2, [.pull agent.node]⟩, agent, []⟩) ∧
    (∀ answer, pulled.1 = .ok answer → agent.Accounted clock answer.toList outcome) := by
  intro agent pulled outcome
  have noted : agent.Noted :=
    after_keeps Agent.Noted Agent.edit_noted Agent.advance_noted Agent.revertAll_noted _ commands
      (Agent.ofNode_noted node catalogue)
  refine ⟨?_, fun answer => agent.sync_accounted clock far answer noted⟩
  intro error refused
  rcases agent.sync_overheard clock far [] with ⟨other, same, failed⟩ | ⟨answer, answered, _⟩
  · cases refused.symm.trans same
    exact failed
  · cases refused.symm.trans answered

end AgentRun

/-- An agent with two engines that are enabled and cannot be reverted. -/
def stuckAgent : Agent Scripted :=
  ((Agent.ofNode "node" Scripted.catalogue).sync ⟨0, 0⟩
    (⟨[⟨"stuck", "node", "attacks:\n- scripted_stuck:\n", 0, 1, 0⟩,
      ⟨"gone", "node", "attacks:\n- scripted_stuck:\n", 0, 1, 0⟩], [], []⟩ : ScriptedMaster)).agent

/-- All turns but the last fail, and so do the reports and the revert of an engine that is given
up. -/
example :
    let outcome := stuckAgent.sync ⟨0, 0⟩ (⟨⟨[
      ⟨"uncoded", "node", "attacks:\n- scripted_ok:\n", 0, 9, 0⟩,
      ⟨"unread", "node", "attacks", 0, 1, 0⟩,
      ⟨"unbuilt", "node", "attacks:\n- scripted_ok:\n- no_such_kind:\n", 0, 1, 0⟩,
      ⟨"failing", "node", "attacks:\n- scripted_ok:\n- scripted_fail:\n", 0, 1, 0⟩,
      ⟨"far", "elsewhere", "attacks:\n- scripted_ok:\n", 0, 1, 0⟩,
      ⟨"stuck", "node", "attacks:\n- scripted_stuck:\n", 1, 2, 0⟩,
      ⟨"stuck", "node", "attacks:\n- scripted_stuck:\n", 1, 1, 0⟩], [.report], []⟩, []⟩ :
        Overheard ScriptedMaster)
    outcome.result.toOption = some ⟨6, 6, 1⟩ ∧
      toldIn outcome.far.calls = [("uncoded", 0), ("unread", 0), ("unbuilt", 0), ("failing", 0),
        ("stuck", 2), ("stuck", 1)] := by
  decide +kernel

end FaultInjection
