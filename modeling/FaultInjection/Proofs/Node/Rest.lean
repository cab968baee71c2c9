import FaultInjection.Master.Rehearsal
import FaultInjection.Proofs.Node.Deed
import FaultInjection.Proofs.Node.Note

/-!
A failure that has run to its timeout. Its engine is expired, the generation that it was enabled
with is noted, and the engine is kept as long as the specification stays the same: together they
keep the failure down until it is asked for with a later generation.
-/

namespace FaultInjection

variable {α σ : Type}

namespace Engine

variable [Attack α]

structure AtRest (engine : Engine α) : Prop where
  expired : engine.expired = true
  down : engine.state = .disabled
  published : engine.published = .disabled
  unarmed : engine.armed = none

theorem advance_atRest (engine : Engine α) (now : Nat)
    (faithful : engine.published = engine.state)
    (ends : (engine.due now).any engine.heeds = true) : (engine.advance now).1.AtRest := by
  rw [advance_eq, if_pos ends]
  exact ⟨subside_expired _, subside_state _, subside_published _ faithful, subside_armed _⟩

theorem AtRest.advance {engine : Engine α} (rest : engine.AtRest) (now : Nat) :
    (engine.advance now).1.AtRest ∧ (engine.advance now).2 = [] := by
  rw [engine.advance_unarmed now rest.unarmed]
  exact ⟨⟨rest.expired, rest.down, rest.published, rest.unarmed⟩, rfl⟩

end Engine

namespace Wire.Assignment

/-- An assignment that asks for nothing that its failure was not enabled for already. -/
structure Repeats (assignment : Wire.Assignment) (specification : Specification)
    (generation : UInt64) : Prop where
  expected : assignment.expected = Failure.State.enabled.code
  definition : ∃ read, Specification.parse assignment.definition = .ok read ∧
    specification.same read = true
  generation : assignment.generation ≤ generation

/-- The assignment of a failure that is down, as it is reported. An assignment cannot be taken up
if the code of its current state is none. -/
def settled (assignment : Wire.Assignment) : Wire.Assignment :=
  { assignment with
    current := match Failure.State.ofCode assignment.current with
      | .ok _ => Failure.State.disabled.code
      | .error _ => Failure.State.unknown.code }

end Wire.Assignment

namespace Agent

variable [Attack α]

/-- The engine of a failure has run to its timeout, and the agent has not forgotten what it was
enabled with. -/
structure Rests (agent : Agent α) (id : String) (number : Nat) (specification : Specification)
    (generation : UInt64) : Prop where
  engine : ∃ slot, agent.slots.get? id = some slot ∧ slot.number = number ∧
    slot.engine.specification = specification ∧ slot.engine.AtRest
  noted : agent.armed.get? id = some generation

section

variable {id : String} {number : Nat} {specification : Specification} {generation : UInt64}

omit [Attack α] in
theorem Rests.elsewhere {before after : Agent α} {other : String} (different : other ≠ id)
    (elsewhere : Elsewhere other before after)
    (rests : before.Rests id number specification generation) :
    after.Rests id number specification generation := by
  refine ⟨?_, (elsewhere.armed id different.symm).trans rests.noted⟩
  rw [elsewhere.slots id different.symm]
  exact rests.engine

/-- A turn that asks for nothing new changes nothing. -/
theorem Rests.reconcile {agent : Agent α} {assignment : Wire.Assignment}
    (rests : agent.Rests assignment.id number specification generation)
    (repeats : assignment.Repeats specification generation) (now : Nat) :
    (agent.reconcile now assignment).1.agent = agent ∧
      (agent.reconcile now assignment).1.deeds = [] ∧
      agent.reportOn now assignment = .report agent.node assignment.settled := by
  obtain ⟨slot, found, _, rfl, rest⟩ := rests.engine
  obtain ⟨read, parsed, same⟩ := repeats.definition
  have expected : Failure.State.ofCode assignment.expected = .ok .enabled := by
    rw [repeats.expected]
    rfl
  cases current : Failure.State.ofCode assignment.current with
  -- an assignment that cannot be read is not taken up at all
  | error error =>
      have unread : Failure.ofAssignment assignment = .error error := by
        simp only [Failure.ofAssignment, current]
        rfl
      simp [Agent.reconcile, unread, reportOn, Wire.Assignment.settled, current]
  | ok state =>
      have taken : Failure.ofAssignment assignment = .ok ⟨assignment.node, assignment.id, read,
          state, .enabled, assignment.generation⟩ := by
        simp only [Failure.ofAssignment, current, expected, parsed]
        rfl
      have stays := (agent.staysDown_iff ⟨assignment.node, assignment.id, read, state, .enabled,
        assignment.generation⟩ slot.engine).mpr
          ⟨rest.expired, generation, rests.noted, repeats.generation⟩
      simp [Agent.reconcile, taken, drive, prepare, engine?, found, same, enable, stays, reached,
        rest.published, reportOn, Wire.Assignment.settled, current]

end

/-- A failure that rests, as far as some deeds and calls tell: nothing was done to its attacks, and
each report on it settles an assignment that was handed out. -/
structure Quiet (id : String) (number : Nat) (specification : Specification) (generation : UInt64)
    (handed : Wire.Assignment → Prop) (agent : Agent α) (deeds : List Deed) (calls : List Call) :
    Prop where
  rests : agent.Rests id number specification generation
  untouched : ∀ deed ∈ deeds, deed.1 ≠ id
  told : ∀ reporter sent, .report reporter sent ∈ calls → sent.id = id →
    ∃ assignment, handed assignment ∧ sent = assignment.settled

section

variable {id : String} {number : Nat} {specification : Specification} {generation : UInt64}
  {handed : Wire.Assignment → Prop}

omit [Attack α] in
theorem Quiet.elsewhere {before after : Agent α} {deeds more : List Deed} {calls later : List Call}
    {other : String} (quiet : Quiet id number specification generation handed before deeds calls)
    (different : other ≠ id) (elsewhere : Elsewhere other before after) (done : DoneTo other more)
    (said : ∀ reporter sent, .report reporter sent ∈ later → sent.id = other) :
    Quiet id number specification generation handed after (deeds ++ more) (calls ++ later) := by
  refine ⟨quiet.rests.elsewhere different elsewhere, ?_, ?_⟩
  · intro deed member
    rcases List.mem_append.mp member with old | new
    · exact quiet.untouched deed old
    · exact done deed new ▸ different
  · intro reporter sent member same
    rcases List.mem_append.mp member with old | new
    · exact quiet.told reporter sent old same
    · exact absurd ((said reporter sent new).symm.trans same) different

theorem visit_quiet [Link σ] (clock : Clock) (progress : SyncProgress (Overheard σ) α)
    (assignment : Wire.Assignment)
    (repeats : assignment.node = progress.agent.node → assignment.id = id →
      handed assignment ∧ assignment.Repeats specification generation)
    (quiet : Quiet id number specification generation handed progress.agent progress.deeds
      progress.far.calls) :
    Quiet id number specification generation handed (visit clock progress assignment).agent
      (visit clock progress assignment).deeds (visit clock progress assignment).far.calls := by
  by_cases own : assignment.node = progress.agent.node
  · obtain ⟨agent, deeds, calls⟩ := visit_own clock progress assignment own
    rw [agent, deeds, calls]
    by_cases same : assignment.id = id
    · obtain ⟨known, repeated⟩ := repeats own same
      subst same
      obtain ⟨kept, none, said⟩ := quiet.rests.reconcile repeated clock.now
      rw [kept, none, said, List.append_nil]
      refine ⟨quiet.rests, quiet.untouched, ?_⟩
      intro reporter sent member same
      rcases List.mem_append.mp member with old | new
      · exact quiet.told reporter sent old same
      · cases List.mem_singleton.mp new
        exact ⟨assignment, known, rfl⟩
    · refine quiet.elsewhere same (progress.agent.reconcile_elsewhere clock.now assignment)
        (progress.agent.reconcile_deeds clock.now assignment) ?_
      intro reporter sent member
      cases List.mem_singleton.mp member
      rfl
  · rw [visit_foreign clock progress assignment own]
    exact quiet

theorem visits_quiet [Link σ] (clock : Clock) (progress : SyncProgress (Overheard σ) α)
    (assignments : List Wire.Assignment)
    (repeats : ∀ assignment ∈ assignments, assignment.node = progress.agent.node →
      assignment.id = id → handed assignment ∧ assignment.Repeats specification generation)
    (quiet : Quiet id number specification generation handed progress.agent progress.deeds
      progress.far.calls) :
    Quiet id number specification generation handed (visits clock progress assignments).agent
      (visits clock progress assignments).deeds (visits clock progress assignments).far.calls := by
  induction assignments generalizing progress with
  | nil => exact quiet
  | cons assignment rest ih =>
      have node := (visit_elsewhere clock progress assignment).node
      apply ih (visit clock progress assignment)
      · intro later member own
        exact repeats later (List.mem_cons_of_mem _ member) (own.trans node)
      · exact visit_quiet clock progress assignment (repeats assignment List.mem_cons_self) quiet

theorem discard_elsewhere (progress : SyncProgress σ α) (id : String) :
    Elsewhere id progress.agent (discard progress id).agent := by
  have retired := progress.agent.retire_elsewhere id
  refine ⟨retired.node, retired.catalogue, retired.slots, ?_⟩
  intro other different
  simp only [discard, Table.get?_erase, if_neg different.symm]
  exact retired.armed other different

theorem discards_quiet (progress : SyncProgress (Overheard σ) α) (ids : List String)
    (listed : id ∉ ids)
    (quiet : Quiet id number specification generation handed progress.agent progress.deeds
      progress.far.calls) :
    Quiet id number specification generation handed (ids.foldl discard progress).agent
      (ids.foldl discard progress).deeds (ids.foldl discard progress).far.calls := by
  induction ids generalizing progress with
  | nil => exact quiet
  | cons other rest ih =>
      rw [List.mem_cons, not_or] at listed
      have silent : ∀ reporter sent, Call.report reporter sent ∈ ([] : List Call) →
          sent.id = other := nofun
      have left := quiet.elsewhere (Ne.symm listed.1) (discard_elsewhere progress other)
        (progress.agent.retire_deeds other) silent
      rw [List.append_nil] at left
      exact ih (discard progress other) listed.2 left

theorem follow_quiet [Link σ] (agent : Agent α) (clock : Clock) (far : Overheard σ)
    (assignments : List Wire.Assignment)
    (listed : ∃ assignment ∈ assignments, assignment.node = agent.node ∧ assignment.id = id)
    (repeats : ∀ assignment ∈ assignments, assignment.node = agent.node →
      assignment.id = id → handed assignment ∧ assignment.Repeats specification generation)
    (quiet : Quiet id number specification generation handed agent [] far.calls) :
    Quiet id number specification generation handed (agent.follow clock far assignments).agent
      (agent.follow clock far assignments).deeds
      (agent.follow clock far assignments).far.calls := by
  have passed := visits_quiet clock ⟨far, agent, ⟨0, 0, 0⟩, []⟩ assignments repeats quiet
  rw [follow_eq]
  refine discards_quiet _ _ ?_ passed
  obtain ⟨assignment, known, own, rfl⟩ := listed
  exact agent.listed_not_stale clock far assignments _ (agent.mem_listed _ assignment known own)

end

end Agent

namespace AgentCommand

variable [Link σ]

def Hands (node : String) (assignment : Wire.Assignment) : AgentCommand σ → Prop
  | .sync instant far => assignment.node = node ∧
      ∃ answer, (Link.ask far instant (.pull node)).1 = .ok answer ∧ assignment ∈ answer.toList
  | _ => False

/-- Whether a command asks for nothing new of a failure: a pull that is answered lists it, and
each assignment of it repeats what was asked for before. -/
def Repeats (node id : String) (specification : Specification) (generation : UInt64) :
    AgentCommand σ → Prop
  | .sync instant far => ∀ answer, (Link.ask far instant (.pull node)).1 = .ok answer →
      (∃ assignment ∈ answer.toList, assignment.node = node ∧ assignment.id = id) ∧
      ∀ assignment ∈ answer.toList, assignment.node = node → assignment.id = id →
        assignment.Repeats specification generation
  | .advance _ => True
  | .revertAll => False

end AgentCommand

namespace AgentRun

open Agent

variable [Attack α] [Link σ] {id : String} {number : Nat} {specification : Specification}
  {generation : UInt64} {handed : Wire.Assignment → Prop}

omit [Link σ] in
theorem advance_quiet (run : AgentRun α) (now : Nat) (ordered : run.agent.slots.Ordered)
    (quiet : Quiet id number specification generation handed run.agent run.deeds run.calls) :
    Quiet id number specification generation handed (run.agent.advance now)
      (run.deeds ++ run.agent.advanceDeeds now) run.calls := by
  obtain ⟨slot, found, numbered, specified, rest⟩ := quiet.rests.engine
  refine ⟨⟨⟨{ slot with engine := (slot.engine.advance now).1 }, ?_, numbered, ?_,
    (rest.advance now).1⟩, quiet.rests.noted⟩, ?_, quiet.told⟩
  · rw [advance_slots, found]
    rfl
  · exact (slot.engine.advance_specification now).trans specified
  · intro deed member
    rcases List.mem_append.mp member with old | new
    · exact quiet.untouched deed old
    -- of all engines only the one that rests has this id, and it has no timer left
    · intro same
      obtain ⟨⟨other, kept⟩, known, done⟩ := List.mem_flatMap.mp new
      have own : other = id := (doneTo_deedsOf other _ deed done).symm.trans same
      subst own
      cases (Table.get?_of_mem _ ordered _ _ known).symm.trans found
      change deed ∈ deedsOf other (slot.engine.advance now).2 at done
      rw [(rest.advance now).2] at done
      cases done

theorem sync_quiet (run : AgentRun α) (instant : Int) (far : σ)
    (repeats : (AgentCommand.sync instant far).Repeats run.agent.node id specification generation)
    (hands : ∀ assignment, (AgentCommand.sync instant far).Hands run.agent.node assignment →
      handed assignment)
    (quiet : Quiet id number specification generation handed run.agent run.deeds run.calls) :
    Quiet id number specification generation handed
      (run.perform (.sync instant far)).agent (run.perform (.sync instant far)).deeds
      (run.perform (.sync instant far)).calls := by
  have asked : ∀ reporter sent, .report reporter sent ∈ run.calls ++ [.pull run.agent.node] →
      sent.id = id → ∃ assignment, handed assignment ∧ sent = assignment.settled := by
    intro reporter sent member
    rcases List.mem_append.mp member with old | new
    · exact quiet.told reporter sent old
    · cases List.mem_singleton.mp new
  rcases run.agent.sync_overheard ⟨run.now, instant⟩ far run.calls with ⟨error, _, outcome⟩ |
    ⟨answer, answered, agent, deeds, heard⟩
  · simp only [perform, outcome, List.append_nil]
    exact ⟨quiet.rests, quiet.untouched, asked⟩
  · obtain ⟨listed, repeated⟩ := repeats answer answered
    have followed := run.agent.follow_quiet ⟨run.now, instant⟩
      ⟨(Link.ask far instant (.pull run.agent.node)).2, run.calls ++ [.pull run.agent.node]⟩
      answer.toList listed
      (fun assignment member own same => ⟨hands assignment ⟨own, answer, answered, member⟩,
        repeated assignment member own same⟩)
      ⟨quiet.rests, nofun, asked⟩
    simp only [perform, agent, deeds, heard]
    refine ⟨followed.rests, ?_, followed.told⟩
    intro deed member
    rcases List.mem_append.mp member with old | new
    · exact quiet.untouched deed old
    · exact followed.untouched deed new

theorem after_quiet (run : AgentRun α) (commands : List (AgentCommand σ)) (node : String)
    (at_node : run.agent.node = node) (noted : run.agent.Noted)
    (repeats : ∀ command ∈ commands, command.Repeats node id specification generation)
    (hands : ∀ command ∈ commands, ∀ assignment, command.Hands node assignment →
      handed assignment)
    (quiet : Quiet id number specification generation handed run.agent run.deeds run.calls) :
    Quiet id number specification generation handed (run.after commands).agent
      (run.after commands).deeds (run.after commands).calls := by
  induction commands generalizing run with
  | nil => exact quiet
  | cons command rest ih =>
      subst at_node
      have first := repeats command List.mem_cons_self
      have given := hands command List.mem_cons_self
      have kept := perform_keeps Agent.Noted edit_noted advance_noted revertAll_noted run command
        noted
      apply ih (run.perform command) (run.perform_node command) kept
      · exact fun later member => repeats later (List.mem_cons_of_mem _ member)
      · exact fun later member => hands later (List.mem_cons_of_mem _ member)
      · cases command with
        | sync instant far => exact run.sync_quiet instant far first given quiet
        | advance span => exact run.advance_quiet _ noted.ordered quiet
        | revertAll => exact first.elim

/-- An engine whose timer has run out is down, and stays down for as long as nothing new is asked
of its failure. Nothing is done to its attacks, and it is reported as disabled, but for assignments
whose current state is none; those are reported as unknown. -/
theorem timed_out_stays_down (now : Nat) (node : String) (catalogue : Catalogue α)
    (earlier : List (AgentCommand σ)) (span : Nat) (id : String) (slot : Slot α) (timer : Timer)
    (found : ((start now (.ofNode node catalogue)).after earlier).agent.slots.get? id = some slot)
    (set : timer ∈ slot.engine.timers) (heeded : slot.engine.heeds timer = true)
    (late : timer.deadline ≤ ((start now (.ofNode node catalogue)).after earlier).now + span) :
    let before := (start now (.ofNode node catalogue)).after earlier
    let spent := before.perform (.advance span : AgentCommand σ)
    ∃ generation, before.agent.armed.get? id = some generation ∧
      ∀ later : List (AgentCommand σ),
        (∀ command ∈ later, command.Repeats node id slot.engine.specification generation) →
        let after := (start spent.now spent.agent).after later
        (∃ kept, after.agent.slots.get? id = some kept ∧ kept.number = slot.number ∧
          kept.engine.state = .disabled) ∧
        (∀ deed ∈ after.deeds, deed.1 ≠ id) ∧
        ∀ reporter sent, .report reporter sent ∈ after.calls → sent.id = id →
          ∃ assignment, (∃ command ∈ later, command.Hands node assignment) ∧
            sent = assignment.settled := by
  intro before spent
  have notes : before.agent.Noted :=
    after_keeps Agent.Noted edit_noted advance_noted revertAll_noted _ earlier
      (ofNode_noted node catalogue)
  have noted := notes.engines id slot found
  -- a timer that is heeded belongs to an enabled engine, whose generation is noted
  have ends : (slot.engine.due spent.now).any slot.engine.heeds = true :=
    List.any_eq_true.mpr ⟨timer, List.mem_filter.mpr ⟨set, decide_eq_true late⟩, heeded⟩
  have enabled := (noted.timed.live_iff.mp ⟨timer, set, heeded⟩).1
  obtain ⟨generation, armed⟩ := Option.isSome_iff_exists.mp (noted.noted enabled)
  refine ⟨generation, armed, fun later repeats => ?_⟩
  have rests : spent.agent.Rests id slot.number slot.engine.specification generation := by
    refine ⟨⟨{ slot with engine := (slot.engine.advance spent.now).1 }, ?_, rfl,
      slot.engine.advance_specification _, slot.engine.advance_atRest _ noted.published ends⟩,
      armed⟩
    exact (before.agent.advance_slots spent.now id).trans (congrArg _ found)
  let handed assignment := ∃ command ∈ later, command.Hands node assignment
  have quiet : Quiet id slot.number slot.engine.specification generation handed _ _ _ :=
    after_quiet (start spent.now spent.agent) later node (after_node _ earlier)
      (before.agent.advance_noted _ notes) repeats
      (fun command member assignment hands => ⟨command, member, hands⟩) ⟨rests, nofun, nofun⟩
  obtain ⟨last, stands, numbered, _, rest⟩ := quiet.rests.engine
  exact ⟨⟨last, stands, numbered, rest.down⟩, quiet.untouched, quiet.told⟩

def repeatsIn (master : ScriptedMaster) (node id : String) (specification : Specification)
    (generation : UInt64) : Bool :=
  let own := master.assigned.filter fun assignment => assignment.node = node ∧ assignment.id = id
  .pull ∈ master.faults || !own.isEmpty && own.all fun assignment =>
    assignment.expected = Failure.State.enabled.code && assignment.generation ≤ generation &&
      match Specification.parse assignment.definition with
      | .ok read => specification.same read
      | .error _ => false

theorem repeats_of_check (instant : Int) (master : ScriptedMaster) (node id : String)
    (specification : Specification) (generation : UInt64)
    (check : repeatsIn master node id specification generation = true) :
    (AgentCommand.sync instant master).Repeats node id specification generation := by
  simp only [repeatsIn, Bool.or_eq_true, Bool.and_eq_true, Bool.not_eq_true', List.all_eq_true,
    List.mem_filter, decide_eq_true_eq] at check
  intro answer answered
  simp only [Link.ask, ScriptedMaster.answer] at answered
  split at answered
  · cases answered
  next reached =>
    cases answered
    obtain ⟨some, all⟩ := check.resolve_left reached
    constructor
    · obtain ⟨assignment, member⟩ := List.exists_mem_of_ne_nil _ (List.isEmpty_eq_false_iff.mp some)
      obtain ⟨known, own, same⟩ := by simpa using List.mem_filter.mp member
      exact ⟨assignment, known, own, same⟩
    · intro assignment known own same
      obtain ⟨⟨expected, late⟩, reads⟩ := all assignment ⟨known, own, same⟩
      refine ⟨expected, ?_, late⟩
      split at reads
      next read parsed => exact ⟨read, parsed, reads⟩
      next => cases reads

def briefAssignment (definition : String) (current : Int32) : Wire.Assignment :=
  ⟨"brief", "node", definition, current, 1, 3⟩

def briefText : String := "timeout: 1s\nattacks:\n- scripted_ok: null\n"

def briefFlow : String := "\x7battacks: [\x7bscripted_ok: ~\x7d], timeout: 1000ms\x7d"

def otherAssignment : Wire.Assignment :=
  ⟨"other", "node", "attacks:\n- scripted_ok:\n", 0, 1, 0⟩

def briefEarlier : List (AgentCommand ScriptedMaster) :=
  [.sync 0 ⟨[briefAssignment briefText 0], [], []⟩]

abbrev briefStart : AgentRun Scripted :=
  (start 0 (.ofNode "node" Scripted.catalogue)).after briefEarlier

/-- The engine that runs for a second, when some masters ask for nothing new of its failure. -/
theorem briefStart_slot (masters : List ScriptedMaster)
    (check : ((briefStart.agent.slots.get? "brief").any fun slot =>
      slot.number = 0 && (slot.engine.timers.any fun timer =>
        slot.engine.heeds timer && timer.deadline ≤ briefStart.now + 1000000000) &&
      masters.all (repeatsIn · "node" "brief" slot.engine.specification 3)) = true) :
    ∃ slot timer, briefStart.agent.slots.get? "brief" = some slot ∧ slot.number = 0 ∧
      timer ∈ slot.engine.timers ∧ slot.engine.heeds timer = true ∧
      timer.deadline ≤ briefStart.now + 1000000000 ∧
      ∀ master ∈ masters,
        (AgentCommand.sync 0 master).Repeats "node" "brief" slot.engine.specification 3 := by
  obtain ⟨slot, found, facts⟩ := (Option.any_eq_true _ _).mp check
  simp only [Bool.and_eq_true, decide_eq_true_eq, List.any_eq_true, List.all_eq_true] at facts
  obtain ⟨⟨numbered, timer, set, heeded, late⟩, repeats⟩ := facts
  exact ⟨slot, timer, found, numbered, set, heeded, late, fun master member =>
    repeats_of_check 0 master _ _ _ _ (repeats master member)⟩

/-- A master that cannot be reported to, one that cannot be pulled from, and one that spells the
definition in another way. -/
def briefMasters : List ScriptedMaster :=
  [⟨[briefAssignment briefText 1, otherAssignment], [.report], []⟩, ⟨[], [.pull], []⟩,
    ⟨[briefAssignment briefFlow 2], [], []⟩]

def briefCommands : List (AgentCommand ScriptedMaster) :=
  .advance 2000000000 :: briefMasters.map (.sync 0)

/-- The failure stays down though the agent goes on to enable another one. -/
theorem timed_out_stays_down_brief :
    let spent := briefStart.perform (.advance 1000000000 : AgentCommand ScriptedMaster)
    let after := (start spent.now spent.agent).after briefCommands
    (∃ kept, after.agent.slots.get? "brief" = some kept ∧ kept.number = 0 ∧
      kept.engine.state = .disabled) ∧
      (∀ deed ∈ after.deeds, deed.1 ≠ "brief") ∧ ("other", .apply 0) ∈ after.deeds := by
  obtain ⟨slot, timer, found, numbered, set, heeded, late, repeats⟩ :=
    briefStart_slot briefMasters (by decide +kernel)
  obtain ⟨generation, armed, stays⟩ := timed_out_stays_down 0 "node" Scripted.catalogue
    briefEarlier 1000000000 "brief" slot timer found set heeded late
  have noted : briefStart.agent.armed.get? "brief" = some 3 := by decide +kernel
  cases noted.symm.trans armed
  have repeated : ∀ command ∈ briefCommands,
      command.Repeats "node" "brief" slot.engine.specification 3 := by
    intro command member
    rcases List.mem_cons.mp member with rfl | pass
    · trivial
    · obtain ⟨master, known, rfl⟩ := List.mem_map.mp pass
      exact repeats master known
  obtain ⟨⟨kept, stands, same, down⟩, untouched, _⟩ := stays briefCommands repeated
  dsimp only [briefStart]
  exact ⟨⟨kept, stands, same.trans numbered, down⟩, untouched, by decide +kernel⟩

/-- An assignment whose current state is none cannot be taken up, and is not reported as
disabled. -/
theorem timed_out_reported_unknown :
    ¬ ∀ (earlier later : List (AgentCommand ScriptedMaster)) (span : Nat) (id : String)
      (slot : Slot Scripted) (timer : Timer) (generation : UInt64),
      let before := (start 0 (.ofNode "node" Scripted.catalogue)).after earlier
      let spent := before.perform (.advance span : AgentCommand ScriptedMaster)
      before.agent.slots.get? id = some slot → timer ∈ slot.engine.timers →
      slot.engine.heeds timer = true → timer.deadline ≤ before.now + span →
      before.agent.armed.get? id = some generation →
      (∀ command ∈ later, command.Repeats "node" id slot.engine.specification generation) →
      ∀ reporter sent, .report reporter sent ∈ ((start spent.now spent.agent).after later).calls →
        sent.id = id → sent.current = Failure.State.disabled.code := by
  intro claimed
  let garbled : ScriptedMaster := ⟨[briefAssignment briefText 7], [], []⟩
  obtain ⟨slot, timer, found, _, set, heeded, late, repeats⟩ :=
    briefStart_slot [garbled] (by decide +kernel)
  have reported := claimed briefEarlier [.sync 0 garbled] 1000000000 "brief" slot timer 3 found set
    heeded late (by decide +kernel) (by simpa using repeats garbled) "node"
    (briefAssignment briefText 0) (by decide +kernel) rfl
  revert reported
  decide

end AgentRun

end FaultInjection
