import Mathlib.Logic.Relation
import FaultInjection.Proofs.Node.Pass

/-!
Runs of an agent: passes over whatever is handed out, the going on of time, and shutting down. A
pass changes an agent only by edits, each of which concerns one engine or one note; what every edit
keeps, and time and a shutdown keep as well, holds after every run.
-/

namespace FaultInjection

variable {α σ : Type}

/-- A way to a master on which the calls are noted, newest last. -/
structure Overheard (σ : Type) where
  far : σ
  calls : List Call

instance [Link σ] : Link (Overheard σ) where
  ask overheard now call :=
    let (answer, far) := Link.ask overheard.far now call
    (answer, ⟨far, overheard.calls ++ [call]⟩)

inductive AgentCommand (σ : Type) where
  | sync (instant : Int) (far : σ)
  | advance (span : Nat)
  | revertAll

structure AgentRun (α : Type) where
  now : Nat
  agent : Agent α
  deeds : List Deed
  calls : List Call

namespace Agent

def advanceDeeds [Attack α] (agent : Agent α) (now : Nat) : List Deed :=
  agent.slots.flatMap fun (id, slot) => deedsOf id (slot.engine.advance now).2

end Agent

namespace AgentRun

def start (now : Nat) (agent : Agent α) : AgentRun α := ⟨now, agent, [], []⟩

def perform [Attack α] [Link σ] (run : AgentRun α) : AgentCommand σ → AgentRun α
  | .sync instant far =>
      let outcome := run.agent.sync ⟨run.now, instant⟩ (⟨far, run.calls⟩ : Overheard σ)
      { run with
        agent := outcome.agent
        deeds := run.deeds ++ outcome.deeds
        calls := outcome.far.calls }
  | .advance span =>
      { run with
        now := run.now + span
        agent := run.agent.advance (run.now + span)
        deeds := run.deeds ++ run.agent.advanceDeeds (run.now + span) }
  | .revertAll => { run with agent := run.agent.revertAll }

def after [Attack α] [Link σ] (run : AgentRun α) (commands : List (AgentCommand σ)) : AgentRun α :=
  commands.foldl perform run

end AgentRun

namespace Agent

variable [Attack α]

/-- A change to one engine of an agent, or to what is noted of one failure that has none. -/
inductive Edit : Agent α → Agent α → Prop where
  | install (agent : Agent α) (failure : Failure) (engine : Engine α)
      (free : agent.slots.get? failure.id = none)
      (built : Engine.ofFailure agent.catalogue failure = .ok engine) :
      Edit agent { agent with
        slots := agent.slots.put failure.id ⟨agent.built, engine⟩
        built := agent.built + 1 }
  | retire (agent : Agent α) (id : String) (slot : Slot α)
      (found : agent.slots.get? id = some slot) :
      Edit agent { agent with
        slots := agent.slots.erase id
        retired := { slot with engine := slot.engine.revert.engine } :: agent.retired }
  | enable (agent : Agent α) (now : Nat) (failure : Failure) (slot : Slot α)
      (found : agent.slots.get? failure.id = some slot) :
      Edit agent (agent.enable now failure slot).agent
  | disable (agent : Agent α) (id : String) (slot : Slot α)
      (found : agent.slots.get? id = some slot) :
      Edit agent (agent.disable id slot).agent
  | forget (agent : Agent α) (id : String) (gone : agent.slots.get? id = none) :
      Edit agent { agent with armed := agent.armed.erase id }

def Edits : Agent α → Agent α → Prop := Relation.ReflTransGen Edit

theorem Edits.keeps {kept : Agent α → Prop} {first last : Agent α} (edits : Edits first last)
    (edit : ∀ before after, Edit before after → kept before → kept after) (start : kept first) :
    kept last := by
  induction edits with
  | refl => exact start
  | tail _ change ih => exact edit _ _ change ih

theorem Edits.node {first last : Agent α} (edits : Edits first last) : last.node = first.node := by
  have step : ∀ before after : Agent α, Edit before after → before.node = first.node →
      after.node = first.node := by
    intro before after edit same
    cases edit with
    | enable now failure slot found =>
        exact (before.enable_elsewhere now failure slot).node.trans same
    | install | retire | disable | forget => exact same
  exact edits.keeps step rfl

theorem install_edits (agent : Agent α) (failure : Failure)
    (free : agent.slots.get? failure.id = none) : Edits agent (agent.install failure).agent := by
  unfold install
  split
  · exact .refl
  next engine built => exact .single (.install agent failure engine free built)

theorem retire_edits (agent : Agent α) (id : String) : Edits agent (agent.retire id).agent := by
  unfold retire
  split
  · exact .refl
  next slot found => exact .single (.retire agent id slot found)

theorem prepare_edits (agent : Agent α) (failure : Failure) :
    Edits agent (agent.prepare failure).agent := by
  unfold prepare
  split
  next none => exact agent.install_edits failure (Option.map_eq_none_iff.mp none)
  next =>
    split
    · exact .refl
    · have free : (agent.retire failure.id).agent.slots.get? failure.id = none := by
        rw [retire_slots, if_pos rfl]
      exact (agent.retire_edits failure.id).trans (install_edits _ failure free)

theorem drive_edits (agent : Agent α) (now : Nat) (failure : Failure) :
    Edits agent (agent.drive now failure).agent := by
  have prepared := agent.prepare_edits failure
  unfold drive
  dsimp only
  split
  next slot _ found =>
    split
    · exact prepared.tail (.enable _ now failure slot found)
    · exact prepared.tail (.disable _ failure.id slot found)
    · exact prepared
  · exact prepared

theorem reconcile_edits (agent : Agent α) (now : Nat) (assignment : Wire.Assignment) :
    Edits agent (agent.reconcile now assignment).1.agent := by
  unfold reconcile
  split
  · exact .refl
  · exact agent.drive_edits now _

theorem discard_edits (progress : SyncProgress σ α) (id : String) :
    Edits progress.agent (discard progress id).agent := by
  refine (progress.agent.retire_edits id).tail (.forget _ id ?_)
  rw [retire_slots, if_pos rfl]

theorem discards_edits (progress : SyncProgress σ α) (ids : List String) :
    Edits progress.agent (ids.foldl discard progress).agent := by
  induction ids generalizing progress with
  | nil => exact .refl
  | cons id rest ih => exact (discard_edits progress id).trans (ih (discard progress id))

section

variable [Link σ]

theorem visit_edits (clock : Clock) (progress : SyncProgress σ α) (assignment : Wire.Assignment) :
    Edits progress.agent (visit clock progress assignment).agent := by
  unfold visit
  split
  · exact .refl
  · exact progress.agent.reconcile_edits clock.now assignment

theorem visits_edits (clock : Clock) (progress : SyncProgress σ α)
    (assignments : List Wire.Assignment) :
    Edits progress.agent (visits clock progress assignments).agent := by
  induction assignments generalizing progress with
  | nil => exact .refl
  | cons assignment rest ih =>
      exact (visit_edits clock progress assignment).trans (ih (visit clock progress assignment))

theorem follow_edits (agent : Agent α) (clock : Clock) (far : σ)
    (assignments : List Wire.Assignment) :
    Edits agent (agent.follow clock far assignments).agent :=
  (visits_edits clock ⟨far, agent, ⟨0, 0, 0⟩, []⟩ assignments).trans (discards_edits _ _)

theorem sync_edits (agent : Agent α) (clock : Clock) (far : σ) :
    Edits agent (agent.sync clock far).agent := by
  unfold sync
  split
  · exact .refl
  · exact agent.follow_edits clock _ _

end

def stopping (agent : Agent α) : Agent α := { agent with stopped := true, armed := [] }

/-- A shutdown gives up every engine. -/
theorem revertAll_edits (agent : Agent α) :
    Edits agent.stopping agent.revertAll ∧ agent.revertAll.slots = [] := by
  have general : ∀ (ids : List String) (before : Agent α),
      let after := ids.foldl (fun agent id => (agent.retire id).agent) before
      Edits before after ∧
        ∀ id, after.slots.get? id = if id ∈ ids then none else before.slots.get? id := by
    intro ids
    induction ids with
    | nil => exact fun before => ⟨.refl, by simp⟩
    | cons first rest ih =>
        intro before
        obtain ⟨edits, slots⟩ := ih (before.retire first).agent
        refine ⟨(before.retire_edits first).trans edits, fun id => ?_⟩
        rw [List.foldl_cons, slots, retire_slots]
        by_cases same : first = id <;> simp [same, eq_comm]
  obtain ⟨edits, slots⟩ := general agent.slots.keys agent.stopping
  refine ⟨edits, Table.eq_nil_of_absent _ fun id => (slots id).trans ?_⟩
  split
  · rfl
  next unlisted =>
    rw [Table.mem_keys_iff, Option.isSome_iff_ne_none, not_not] at unlisted
    exact unlisted

end Agent

namespace AgentRun

variable [Attack α] [Link σ]

theorem perform_node (run : AgentRun α) (command : AgentCommand σ) :
    (run.perform command).agent.node = run.agent.node := by
  cases command with
  | sync instant far => exact (run.agent.sync_edits _ _).node
  | advance span => rfl
  | revertAll => exact run.agent.revertAll_kept.1

theorem after_node (run : AgentRun α) (commands : List (AgentCommand σ)) :
    (run.after commands).agent.node = run.agent.node := by
  induction commands generalizing run with
  | nil => rfl
  | cons command rest ih => exact (ih (run.perform command)).trans (run.perform_node command)

section

variable (kept : Agent α → Prop)
  (edit : ∀ before after, Agent.Edit before after → kept before → kept after)
  (advance : ∀ agent now, kept agent → kept (agent.advance now))
  (revertAll : ∀ agent, kept agent → kept agent.revertAll)

include edit advance revertAll

theorem perform_keeps (run : AgentRun α) (command : AgentCommand σ) (start : kept run.agent) :
    kept (run.perform command).agent := by
  cases command with
  | sync instant far => exact (run.agent.sync_edits _ _).keeps edit start
  | advance span => exact advance _ _ start
  | revertAll => exact revertAll _ start

/-- What every edit keeps, and time and a shutdown keep as well, holds after every run. -/
theorem after_keeps (run : AgentRun α) (commands : List (AgentCommand σ)) (start : kept run.agent) :
    kept (run.after commands).agent := by
  induction commands generalizing run with
  | nil => exact start
  | cons command rest ih =>
      exact ih (run.perform command) (perform_keeps kept edit advance revertAll run command start)

end

end AgentRun

end FaultInjection
