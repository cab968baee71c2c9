import FaultInjection.Proofs.Engine.Token
import FaultInjection.Proofs.Node.Custody
import FaultInjection.Proofs.Node.Deed

/-!
The end of an agent. A shutdown reverts every engine and makes the token of the agent fire. From
then on no apply starts an attack, neither on an engine from before nor on a new one, and since
nothing is applied there is nothing left to revert either.
-/

namespace FaultInjection

variable {α σ : Type}

/-! Engines without applied attacks -/

theorem revertAll_idle [Attack α] (index : Nat) (attacks : List α)
    (idle : ∀ attack ∈ attacks, Attack.isApplied attack = false) :
    (revertAll index attacks).uses = [] := by
  induction attacks generalizing index with
  | nil => rfl
  | cons first rest ih =>
      have unused := ih (index + 1) fun attack member => idle attack (List.mem_cons_of_mem _ member)
      simp [revertAll, idle first List.mem_cons_self, unused]

namespace Engine

variable [Attack α]

/-- An engine without applied attacks has nothing to revert. -/
theorem subside_untouched [LawfulAttack α] (engine : Engine α) (idle : engine.applied = 0) :
    engine.subside.uses = [] ∧ engine.subside.engine.applied = 0 := by
  have down := engine.applied_eq_zero.mp idle
  constructor
  · unfold subside
    dsimp only
    split
    · rfl
    · exact revertAll_idle 0 engine.attacks down
  · rw [applied_eq_zero, subside_attacks]
    intro attack member
    obtain ⟨before, known, rfl⟩ := List.mem_map.mp member
    refine reverted_idle before fun applied => ?_
    rw [down before known] at applied
    cases applied

theorem revert_untouched [LawfulAttack α] (engine : Engine α) (idle : engine.applied = 0) :
    engine.revert.uses = [] ∧ engine.revert.engine.applied = 0 :=
  subside_untouched { engine with expired := false } idle

theorem advance_untouched [LawfulAttack α] (engine : Engine α) (now : Nat)
    (idle : engine.applied = 0) :
    (engine.advance now).2 = [] ∧ (engine.advance now).1.applied = 0 := by
  rw [advance_eq]
  split
  · obtain ⟨unused, down⟩ :=
      subside_untouched { engine.waiting now with expired := true } idle
    exact ⟨unused, (applied_elapse _ now).trans down⟩
  · exact ⟨rfl, (applied_elapse _ now).trans idle⟩

end Engine

namespace Agent

/-- An agent whose token has fired, and which can build no engine that has an applied attack. -/
structure Halted [Attack α] (agent : Agent α) : Prop where
  stopped : agent.stopped = true
  builds : agent.catalogue.BuildsIdle

structure Ended [Attack α] (agent : Agent α) : Prop extends Halted agent where
  idle : ∀ slot ∈ agent.known, slot.engine.applied = 0

variable [Attack α]

theorem edit_builds (before after : Agent α) (edit : Edit before after)
    (builds : before.catalogue.BuildsIdle) : after.catalogue.BuildsIdle := by
  cases edit with
  | enable now failure slot found =>
      rw [(before.enable_elsewhere now failure slot).catalogue]
      exact builds
  | install | retire | disable | forget => exact builds

theorem enable_stopped (agent : Agent α) (now : Nat) (failure : Failure) (slot : Slot α)
    (stopped : agent.stopped = true) : (agent.enable now failure slot).agent.stopped = true := by
  unfold enable
  split
  · exact stopped
  · obtain ⟨_, _, fired⟩ := slot.engine.fail_fired now
    dsimp only
    split <;> simpa only [stopped] using fired

theorem edit_halted (before after : Agent α) (edit : Edit before after) (halted : before.Halted) :
    after.Halted := by
  refine ⟨?_, edit_builds before after edit halted.builds⟩
  cases edit with
  | enable now failure slot found => exact before.enable_stopped now failure slot halted.stopped
  | install | retire | disable | forget => exact halted.stopped

omit [Attack α] in
theorem mem_known_put (agent : Agent α) (id : String) (slot other : Slot α)
    (member : other ∈ ({ agent with slots := agent.slots.put id slot } : Agent α).known) :
    other = slot ∨ other ∈ agent.known := by
  rcases List.mem_append.mp member with held | given
  · obtain ⟨entry, known, rfl⟩ := List.mem_map.mp held
    rcases Table.mem_put _ _ _ _ known with rfl | old
    · exact Or.inl rfl
    · exact Or.inr (List.mem_append_left _ (List.mem_map_of_mem old))
  · exact Or.inr (List.mem_append_right _ given)

theorem Ended.found {agent : Agent α} (ended : agent.Ended) {id : String} {slot : Slot α}
    (found : agent.slots.get? id = some slot) : slot.engine.applied = 0 :=
  ended.idle slot (List.mem_append_left _ (List.mem_map_of_mem (Table.mem_of_get? _ _ _ found)))

section

variable [LawfulAttack α]

theorem edit_ended (before after : Agent α) (edit : Edit before after) (ended : before.Ended) :
    after.Ended := by
  refine ⟨edit_halted before after edit ended.toHalted, ?_⟩
  intro slot member
  cases edit with
  | install failure engine free built =>
      rcases before.mem_known_put _ _ slot member with rfl | old
      · exact engine.applied_eq_zero.mpr (Engine.ofFailure_idle _ ended.builds failure engine built)
      · exact ended.idle slot old
  | retire id given found =>
      rcases List.mem_append.mp member with held | gone
      · obtain ⟨entry, known, rfl⟩ := List.mem_map.mp held
        have old := Table.mem_erase _ _ _ known
        exact ended.idle _ (List.mem_append_left _ (List.mem_map_of_mem old))
      · rcases List.mem_cons.mp gone with rfl | old
        · exact given.engine.revert_untouched (ended.found found) |>.2
        · exact ended.idle slot (List.mem_append_right _ old)
  | enable now failure given found =>
      obtain ⟨same, _⟩ := given.engine.fail_fired now
      have idle : (given.engine.fail now before.stopped).1.engine.applied = 0 := by
        rw [ended.stopped, Engine.applied, same]
        exact ended.found found
      have stored : ∀ kept ∈ (before.store failure.id given
          (given.engine.fail now before.stopped).1.engine).known, kept.engine.applied = 0 := by
        intro kept known
        rcases before.mem_known_put _ _ kept known with rfl | old
        · exact idle
        · exact ended.idle kept old
      unfold enable at member
      split at member
      · exact ended.idle slot member
      · dsimp only at member
        split at member <;> exact stored slot member
  | disable id given found =>
      rcases before.mem_known_put _ _ slot member with rfl | old
      · exact given.engine.revert_untouched (ended.found found) |>.2
      · exact ended.idle slot old
  | forget id gone => exact ended.idle slot member

theorem advance_ended (agent : Agent α) (now : Nat) (ended : agent.Ended) :
    (agent.advance now).Ended := by
  refine ⟨⟨ended.stopped, ended.builds⟩, ?_⟩
  intro later member
  rcases List.mem_append.mp member with held | given
  · obtain ⟨entry, known, rfl⟩ := List.mem_map.mp held
    obtain ⟨⟨id, slot⟩, stood, rfl⟩ := List.mem_map.mp known
    exact (slot.engine.advance_untouched now
      (ended.idle slot (List.mem_append_left _ (List.mem_map_of_mem stood)))).2
  · obtain ⟨slot, known, rfl⟩ := List.mem_map.mp given
    exact (slot.engine.advance_untouched now
      (ended.idle slot (List.mem_append_right _ known))).2

theorem Ended.revertAll {agent : Agent α} (ended : agent.Ended) : agent.revertAll.Ended :=
  agent.revertAll_edits.1.keeps edit_ended ⟨⟨rfl, ended.builds⟩, ended.idle⟩

/-! What an agent that has ended does -/

theorem Ended.retire_deeds {agent : Agent α} (ended : agent.Ended) (id : String) :
    (agent.retire id).deeds = [] := by
  unfold retire
  split
  · rfl
  next slot found =>
    dsimp only
    rw [(slot.engine.revert_untouched (ended.found found)).1]
    rfl

theorem Ended.prepare_deeds {agent : Agent α} (ended : agent.Ended) (failure : Failure) :
    (agent.prepare failure).deeds = [] := by
  unfold prepare
  split
  · exact install_deeds agent failure
  · split
    · rfl
    · dsimp only
      rw [ended.retire_deeds, install_deeds]
      rfl

omit [LawfulAttack α] in
theorem Ended.enable_deeds {agent : Agent α} (ended : agent.Ended) (now : Nat) (failure : Failure)
    (slot : Slot α) : (agent.enable now failure slot).deeds = [] := by
  unfold enable
  split
  · rfl
  · dsimp only
    rw [ended.stopped, (slot.engine.fail_fired now).2.1]
    rfl

theorem Ended.drive_deeds {agent : Agent α} (ended : agent.Ended) (now : Nat) (failure : Failure) :
    (agent.drive now failure).deeds = [] := by
  have prepared := (agent.prepare_edits failure).keeps edit_ended ended
  have untouched := ended.prepare_deeds failure
  unfold drive
  dsimp only
  split
  next slot _ found =>
    dsimp only
    rw [untouched, List.nil_append]
    split
    · exact prepared.enable_deeds now failure slot
    · simp [disable, (slot.engine.revert_untouched (prepared.found found)).1, deedsOf]
    · rfl
  · exact untouched

theorem Ended.reconcile_deeds {agent : Agent α} (ended : agent.Ended) (now : Nat)
    (assignment : Wire.Assignment) : (agent.reconcile now assignment).1.deeds = [] := by
  unfold reconcile
  split
  · rfl
  · exact ended.drive_deeds now _

theorem visits_untouched [Link σ] (clock : Clock) (progress : SyncProgress σ α)
    (assignments : List Wire.Assignment) (ended : progress.agent.Ended) :
    (visits clock progress assignments).deeds = progress.deeds := by
  induction assignments generalizing progress with
  | nil => rfl
  | cons assignment rest ih =>
      have kept := (visit_edits clock progress assignment).keeps edit_ended ended
      refine (ih (visit clock progress assignment) kept).trans ?_
      unfold visit
      split
      · rfl
      · dsimp only
        rw [ended.reconcile_deeds, List.append_nil]

theorem discards_untouched (progress : SyncProgress σ α) (ids : List String)
    (ended : progress.agent.Ended) :
    (ids.foldl discard progress).deeds = progress.deeds := by
  induction ids generalizing progress with
  | nil => rfl
  | cons id rest ih =>
      have kept := (discard_edits progress id).keeps edit_ended ended
      refine (ih (discard progress id) kept).trans ?_
      dsimp only [discard]
      rw [ended.retire_deeds, List.append_nil]

theorem sync_untouched [Link σ] (agent : Agent α) (clock : Clock) (far : σ)
    (ended : agent.Ended) : (agent.sync clock far).deeds = [] := by
  unfold sync
  split
  · rfl
  next answer after _ =>
    have start : (⟨after, agent, ⟨0, 0, 0⟩, []⟩ : SyncProgress σ α).agent.Ended := ended
    have kept := (visits_edits clock _ answer.toList).keeps edit_ended start
    exact (discards_untouched _ _ kept).trans (visits_untouched clock _ answer.toList start)

theorem Ended.advanceDeeds {agent : Agent α} (ended : agent.Ended) (now : Nat) :
    agent.advanceDeeds now = [] := by
  rw [Agent.advanceDeeds, List.flatMap_eq_nil_iff]
  rintro ⟨id, slot⟩ member
  have idle := ended.idle slot (List.mem_append_left _ (List.mem_map_of_mem member))
  simp [(slot.engine.advance_untouched now idle).1, deedsOf]

end

/-! How an agent ends -/

theorem revertAll_ended [ReversibleAttack α] (agent : Agent α) (custody : agent.Custody)
    (builds : agent.catalogue.BuildsIdle) : agent.revertAll.Ended := by
  obtain ⟨edits, none⟩ := agent.revertAll_edits
  have halted : agent.revertAll.Halted := edits.keeps edit_halted ⟨rfl, builds⟩
  refine ⟨halted, ?_⟩
  intro slot member
  rw [known, none] at member
  exact ((agent.revertAll_custody custody).released slot member).idle

/-- What edits keep, and time as well, a loop keeps until it comes to its end. -/
theorem run_keeps [Link σ] (kept : Agent α → Prop)
    (edit : ∀ before after, Edit before after → kept before → kept after)
    (advance : ∀ agent now, kept agent → kept (agent.advance now))
    (agent : Agent α) (clock : Clock) (interval span : Nat) (far : σ) (start : kept agent) :
    ∃ last, kept last ∧ (agent.run clock interval span far).2 = last.revertAll := by
  have rounds : ∀ (times : List Nat) (state : σ × Agent α), kept state.2 →
      kept (times.foldl (round clock.instant) state).2 := by
    intro times
    induction times with
    | nil => exact fun state before => before
    | cons now rest ih =>
        intro state before
        apply ih (round clock.instant state now)
        exact (sync_edits _ _ _).keeps edit (advance state.2 now before)
  exact ⟨_, advance _ (clock.now + span) (rounds _ (far, agent) start), rfl⟩

/-- All engines of an agent are accounted for, and it builds none that has an applied attack. -/
structure Closable [Attack α] (agent : Agent α) : Prop extends agent.Custody where
  builds : agent.catalogue.BuildsIdle

theorem edit_closable [ReversibleAttack α] (before after : Agent α) (edit : Edit before after)
    (closable : before.Closable) : after.Closable :=
  ⟨edit_custody before after edit closable.toCustody, edit_builds before after edit closable.builds⟩

theorem advance_closable [ReversibleAttack α] (agent : Agent α) (now : Nat)
    (closable : agent.Closable) : (agent.advance now).Closable :=
  ⟨agent.advance_custody now closable.toCustody, closable.builds⟩

theorem revertAll_closable [ReversibleAttack α] (agent : Agent α) (closable : agent.Closable) :
    agent.revertAll.Closable :=
  ⟨agent.revertAll_custody closable.toCustody,
    agent.revertAll_edits.1.keeps edit_builds closable.builds⟩

end Agent

inductive Shutdown (σ : Type) where
  | atOnce
  /-- When its loop has come to the end. -/
  | afterLoop (interval span : Nat) (instant : Int) (far : σ)

namespace AgentRun

open Agent

/-- The agent when it has shut down, of which nothing is noted yet. -/
def shutDown [Attack α] [Link σ] (run : AgentRun α) : Shutdown σ → AgentRun α
  | .atOnce => start run.now run.agent.revertAll
  | .afterLoop interval span instant far =>
      start (run.now + span) (run.agent.run ⟨run.now, instant⟩ interval span far).2

/-- A loop, too, ends with a shutdown of the agent that its rounds have led to. -/
theorem shutDown_keeps [Attack α] [LawfulAttack α] [Link σ] (kept : Agent α → Prop)
    (edit : ∀ before after, Edit before after → kept before → kept after)
    (advance : ∀ agent now, kept agent → kept (agent.advance now))
    (run : AgentRun α) (shutdown : Shutdown σ) (start : kept run.agent) :
    ∃ last, kept last ∧ (run.shutDown shutdown).agent = last.revertAll ∧
      (run.shutDown shutdown).deeds = [] := by
  cases shutdown with
  | atOnce => exact ⟨run.agent, start, rfl, rfl⟩
  | afterLoop interval span instant far =>
      obtain ⟨last, held, same⟩ :=
        run_keeps kept edit advance run.agent ⟨run.now, instant⟩ interval span far start
      exact ⟨last, held, same, rfl⟩

theorem perform_ended [Attack α] [LawfulAttack α] [Link σ] (run : AgentRun α)
    (command : AgentCommand σ) (ended : run.agent.Ended) :
    (run.perform command).agent.Ended ∧ (run.perform command).deeds = run.deeds := by
  constructor
  · exact perform_keeps Ended edit_ended advance_ended (fun _ => Ended.revertAll) run command ended
  · cases command with
    | sync instant far => simp [perform, run.agent.sync_untouched _ _ ended]
    | advance span => simp [perform, ended.advanceDeeds]
    | revertAll => rfl

theorem after_ended [Attack α] [LawfulAttack α] [Link σ] (run : AgentRun α)
    (commands : List (AgentCommand σ)) (ended : run.agent.Ended) :
    (run.after commands).agent.Ended ∧ (run.after commands).deeds = run.deeds := by
  induction commands generalizing run with
  | nil => exact ⟨ended, rfl⟩
  | cons command rest ih =>
      obtain ⟨first, same⟩ := run.perform_ended command ended
      obtain ⟨last, unchanged⟩ := ih (run.perform command) first
      exact ⟨last, unchanged.trans same⟩

/-- However an agent is shut down, and whichever of its reverts fail, it has no engine and no note
of a generation left, and whatever is done with it from then on, nothing at all included, no engine
that it has ever built has an applied attack and no attack is touched. The attacks may be any that
start out idle and that a revert ends, as the built-in ones do. -/
theorem shutdown_is_final [Attack α] [ReversibleAttack α] [Link σ] (now : Nat) (node : String)
    (catalogue : Catalogue α) (builds : catalogue.BuildsIdle) (commands : List (AgentCommand σ))
    (shutdown : Shutdown σ) :
    let down := ((start now (.ofNode node catalogue)).after commands).shutDown shutdown
    down.agent.slots = [] ∧ down.agent.armed = [] ∧
    ∀ later : List (AgentCommand σ),
      let after := down.after later
      (after.agent.known.map (·.number)).Perm (List.range after.agent.built) ∧
      (∀ slot ∈ after.agent.known, slot.engine.applied = 0) ∧ after.deeds = [] := by
  intro down
  have before : ((start now (.ofNode node catalogue)).after commands).agent.Closable :=
    after_keeps Closable edit_closable advance_closable revertAll_closable _ commands
      ⟨ofNode_custody node catalogue, builds⟩
  obtain ⟨last, closable, same, nothing⟩ :=
    shutDown_keeps Closable edit_closable advance_closable _ shutdown before
  refine ⟨?_, ?_, fun later => ?_⟩
  · rw [same]
    exact last.revertAll_edits.2
  · rw [same]
    exact last.revertAll_kept.2.1
  · have ended : down.agent.Ended := same ▸ last.revertAll_ended closable.toCustody closable.builds
    have custody : (down.after later).agent.Custody :=
      after_keeps Agent.Custody edit_custody advance_custody revertAll_custody down later
        (same ▸ last.revertAll_custody closable.toCustody)
    obtain ⟨still, untouched⟩ := down.after_ended later ended
    exact ⟨custody.counted, still.idle, untouched.trans nothing⟩

local instance endingHost : Host := frailHost

/-- An agent that has ended is handed out what it had, and something new. -/
def frailLater : List (AgentCommand ScriptedMaster) :=
  [.sync 0 ⟨[frailAssignment "changed" spikeText, frailAssignment "new" leakText], [], []⟩,
    .advance 60000000000, .revertAll]

/-- Both engines tell that they could not be reverted, and both are over. -/
theorem shutdown_is_final_frail :
    let before := (start 0 (.ofNode "node" BuiltIn.catalogue)).after frailBefore
    let down := before.shutDown (.atOnce : Shutdown ScriptedMaster)
    let after := down.after frailLater
    before.agent.slots.map (fun entry =>
      (entry.2.engine.applied, entry.2.engine.revert.result.isOk)) = [(2, false), (1, false)] ∧
    down.agent.slots = [] ∧ down.agent.armed = [] ∧
    after.agent.retired.map (·.engine.id) = ["new", "changed", "gone", "changed"] ∧
    (∀ slot ∈ after.agent.known, slot.engine.applied = 0) ∧ after.deeds = [] := by
  obtain ⟨none, forgotten, stays⟩ := shutdown_is_final 0 "node" BuiltIn.catalogue
    BuiltIn.catalogue_buildsIdle frailBefore .atOnce
  obtain ⟨_, idle, untouched⟩ := stays frailLater
  exact ⟨by decide +kernel, none, forgotten, by decide +kernel, idle, untouched⟩

end AgentRun

end FaultInjection
