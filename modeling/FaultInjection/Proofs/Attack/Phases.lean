import FaultInjection.Proofs.Attack.Lifecycle
import FaultInjection.Proofs.Attack.Run

/-!
The phases of the attacks that every node has. An attempt that succeeds leaves an attack applied,
one that fails changes nothing, and ending an attack makes it what it was when it was built,
whatever has become of what it had running. So nothing of one period of harm is left in the next.
-/

namespace FaultInjection

variable {α : Type}

theorem startUnless_spares (fired applied : Bool) (attack : α) (start : Attempt α) (error : Error)
    (law : start.result = .error error → start.attack = attack)
    (failed : (startUnless fired applied attack start).result = .error error) :
    (startUnless fired applied attack start).attack = attack := by
  cases fired with
  | true => rfl
  | false =>
      cases applied with
      | true => rfl
      | false => exact law failed

theorem startUnless_keeps (kept : α → Prop) (fired applied : Bool) (attack : α)
    (start : Attempt α) (before : kept attack) (law : kept start.attack) :
    kept (startUnless fired applied attack start).attack := by
  cases fired with
  | true => exact before
  | false =>
      cases applied with
      | true => exact before
      | false => exact law

theorem Leak.leaked_ofOptions (options : Option Options) (attack : Leak)
    (built : Leak.ofOptions options = .ok attack) : attack.leaked = 0 := by
  obtain ⟨checked, _, built⟩ := (bind_eq_ok _ _ _).mp built
  obtain ⟨size, _, built⟩ := (bind_eq_ok _ _ _).mp built
  dsimp only at built
  split at built
  · cases built
    rfl
  · cases built

def AttackStep.Granted : AttackStep → Prop
  | apply host _ | advance host _ =>
      (∀ now size, host.blockFault now size = none) ∧
        ∀ now index, host.threadFault now index = none
  | revert _ => True

namespace BuiltIn

def bytes : BuiltIn → Nat
  | allocation attack => attack.allocated
  | leak attack => attack.leaked
  | load _ => 0

def workers : BuiltIn → Nat
  | load attack => attack.workers
  | _ => 0

/-- Whether an attack is applied. The machine that it runs on has no say in it. -/
def applied : BuiltIn → Bool
  | allocation attack => attack.held.isSome
  | leak attack => attack.run.isSome
  | load attack => attack.workers ≠ 0

theorem isApplied_eq [Host] (attack : BuiltIn) : Attack.isApplied attack = attack.applied := by
  cases attack <;> rfl

/-- What an attack does once nothing stands against it. -/
def begin [Host] (now : Nat) : BuiltIn → Attempt BuiltIn
  | allocation attack =>
      let attempt := attack.start now
      ⟨attempt.result, allocation attempt.attack, attempt.fires⟩
  | leak attack => .succeed (leak (Leak.advance now { attack with run := some ⟨[], now⟩ }))
  | load attack =>
      let attempt := attack.start now
      ⟨attempt.result, load attempt.attack, attempt.fires⟩

/-- What an attack can have become since it was built. Only while it is applied is there anything
that it did not have then. -/
inductive Becomes : BuiltIn → BuiltIn → Prop
  | allocation (size : Nat) (held : Option Nat) :
      Becomes (.allocation ⟨size, none⟩) (.allocation ⟨size, held⟩)
  | idle (plan : LeakPlan) : Becomes (.leak ⟨plan, 0, none⟩) (.leak ⟨plan, 0, none⟩)
  | leaking (plan : LeakPlan) (leaked : Nat) (run : LeakRun) :
      Becomes (.leak ⟨plan, 0, none⟩) (.leak ⟨plan, leaked, some run⟩)
  | load (cores percent workers since : Nat) (positive : 0 < cores)
      (rested : workers = 0 → since = 0) :
      Becomes (.load ⟨cores, percent, 0, 0, positive⟩)
        (.load ⟨cores, percent, workers, since, positive⟩)

theorem apply_eq [Host] (now : Nat) (fired : Bool) (attack : BuiltIn) :
    Attack.apply now fired attack =
      startUnless fired attack.applied attack (attack.begin now) := by
  cases attack with
  | allocation attack =>
      cases fired <;> cases held : attack.held <;>
        simp [Attack.apply, applied, startUnless, begin, held, Attempt.refuse]
  | leak attack =>
      cases fired <;> cases running : attack.run <;>
        simp [Attack.apply, applied, startUnless, begin, running, Attempt.refuse,
          Attempt.succeed]
  | load attack =>
      cases fired <;> by_cases idle : attack.workers = 0 <;>
        simp [Attack.apply, applied, startUnless, begin, idle, Attempt.refuse]

/-- A start that fails leaves nothing behind. -/
theorem begin_spares [Host] (now : Nat) (attack : BuiltIn) (error : Error)
    (failed : (attack.begin now).result = .error error) : (attack.begin now).attack = attack := by
  cases attack with
  | allocation attack =>
      simp only [begin, Allocation.start] at failed ⊢
      split at failed
      · rfl
      · cases failed
  | leak attack => cases failed
  | load attack =>
      simp only [begin, Load.start] at failed ⊢
      split at failed
      · rfl
      · cases failed

theorem begin_becomes [Host] (now : Nat) (new attack : BuiltIn) (becomes : Becomes new attack) :
    Becomes new (attack.begin now).attack := by
  cases becomes with
  | allocation size held =>
      simp only [begin, Allocation.start]
      split <;> exact .allocation size _
  | idle plan => exact .leaking plan _ _
  | leaking plan leaked run => exact .leaking plan _ _
  | load cores percent workers since positive rested =>
      simp only [begin, Load.start]
      split
      · exact .load cores percent workers since positive rested
      · exact .load cores percent cores now positive fun none => absurd none (Nat.ne_of_gt positive)

theorem release_eq (aftermath : Aftermath) (new attack : BuiltIn) (becomes : Becomes new attack) :
    (attack.release aftermath).2 = new := by
  cases becomes <;> rfl

/-- What is new is idle and holds nothing. -/
theorem Becomes.empty {new attack : BuiltIn} (becomes : Becomes new attack) :
    new.applied = false ∧ new.bytes = 0 ∧ new.workers = 0 := by
  cases becomes <;> exact ⟨rfl, rfl, rfl⟩

theorem Becomes.new {new attack : BuiltIn} (becomes : Becomes new attack) :
    Becomes new new := by
  cases becomes with
  | allocation size held => exact .allocation size none
  | idle plan => exact .idle plan
  | leaking plan leaked run => exact .idle plan
  | load cores percent workers since positive rested =>
      exact .load cores percent 0 0 positive fun _ => rfl

theorem advance_becomes [Host] (now : Nat) (new attack : BuiltIn) (becomes : Becomes new attack) :
    Becomes new (Attack.advance now attack) := by
  cases becomes with
  | allocation size held => exact .allocation size held
  | idle plan => exact .idle plan
  | leaking plan leaked run => exact .leaking plan _ _
  | load cores percent workers since positive rested =>
      exact .load cores percent workers since positive rested

/-- An idle attack is as it was built. -/
theorem Becomes.eq_of_idle {new attack : BuiltIn} (becomes : Becomes new attack)
    (idle : attack.applied = false) : attack = new := by
  cases becomes with
  | allocation size held =>
      cases held with
      | none => rfl
      | some held => cases idle
  | idle plan => rfl
  | leaking plan leaked run => cases idle
  | load cores percent workers since positive rested =>
      have none : workers = 0 := by simpa [applied] using idle
      rw [none, rested none]

theorem begin_ok [Host] (now : Nat) (attack : BuiltIn)
    (blocks : ∀ now size, Host.blockFault now size = none)
    (threads : ∀ now index, Host.threadFault now index = none) :
    (attack.begin now).result = .ok () := by
  cases attack with
  | allocation attack => simp [begin, Allocation.start, blocks, Attempt.succeed]
  | leak attack => rfl
  | load attack =>
      have none : Load.threadFault? now attack.cores = none := by simp [Load.threadFault?, threads]
      simp [begin, Load.start, none, Attempt.succeed]

/-- What is built is of its kind, from options that its own check has let through. -/
theorem create_cases [Host] (kind : String) (options : Option Options) (attack : BuiltIn)
    (created : BuiltIn.catalogue.create kind options = .ok attack) :
    (kind = Allocation.kind ∧
      ∃ made, Allocation.ofOptions options = .ok made ∧ allocation made = attack) ∨
    (kind = Leak.kind ∧ ∃ made, Leak.ofOptions options = .ok made ∧ leak made = attack) ∨
    (kind = Load.kind ∧ ∃ made, Load.ofOptions options = .ok made ∧ load made = attack) := by
  unfold Catalogue.create at created
  split at created
  next build found =>
    have listed := Table.mem_ofEntries _ (kind, build) (Table.mem_of_get? _ kind build found)
    simp only [List.mem_cons, List.not_mem_nil, or_false, Prod.mk.injEq] at listed
    rcases listed with ⟨rfl, rfl⟩ | ⟨rfl, rfl⟩ | ⟨rfl, rfl⟩
    · exact Or.inl ⟨rfl, (map_eq_ok _ _ _).mp created⟩
    · exact Or.inr (Or.inl ⟨rfl, (map_eq_ok _ _ _).mp created⟩)
    · exact Or.inr (Or.inr ⟨rfl, (map_eq_ok _ _ _).mp created⟩)
  next => cases created

theorem becomes_of_create [Host] (kind : String) (options : Option Options) (attack : BuiltIn)
    (created : BuiltIn.catalogue.create kind options = .ok attack) : Becomes attack attack := by
  rcases create_cases kind options attack created with
    ⟨_, made, built, rfl⟩ | ⟨_, made, built, rfl⟩ | ⟨_, made, built, rfl⟩
  · have held := Allocation.held_ofOptions options made built
    obtain ⟨size, _⟩ := made
    cases held
    exact .allocation size none
  · have stopped := Leak.run_ofOptions options made built
    have empty := Leak.leaked_ofOptions options made built
    obtain ⟨plan, _, _⟩ := made
    cases stopped
    cases empty
    exact .idle plan
  · obtain ⟨none, never⟩ := Load.workers_ofOptions options made built
    obtain ⟨cores, percent, _, _, positive⟩ := made
    cases none
    cases never
    exact .load cores percent 0 0 positive fun _ => rfl

/-- What holds of a turn of an attack that was `new` when it was built. -/
structure Obeys (new : BuiltIn) (turn : AttackTurn BuiltIn) : Prop where
  applied : turn.step.attempt?.isSome = true → turn.result = .ok () → turn.after.applied = true
  cancelled : turn.step.attempt? = some true → turn.result = .error (.cancelled 0)
  repeated : turn.step.attempt? = some false → turn.before.applied = true →
    turn.result = .error .alreadyApplied
  started : turn.step.attempt? = some false → turn.before.applied = false → turn.step.Granted →
    turn.result = .ok ()
  spared : ∀ error, turn.step.attempt?.isSome = true → turn.result = .error error →
    turn.after = turn.before
  ended : turn.step.ends = true → turn.after = new
  waited : turn.step.attempt? = none → turn.step.ends = false →
    turn.after.applied = turn.before.applied

theorem apply_obeys (run : AttackRun BuiltIn) (new : BuiltIn) (host : Host) (fired : Bool) :
    Obeys new (run.turn (.apply host fired)) := by
  have ruled := run.attack.apply_eq run.now fired
  constructor
  case applied =>
    intro _ succeeded
    change (Attack.apply run.now fired run.attack).attack.applied = true
    rw [← isApplied_eq]
    exact LawfulAttack.applied_of_ok run.now fired run.attack succeeded
  case cancelled =>
    intro firing
    cases firing
    exact congrArg Attempt.result ruled
  case repeated =>
    intro unfired applied
    cases unfired
    rw [show run.attack.applied = true from applied] at ruled
    exact congrArg Attempt.result ruled
  case started =>
    intro unfired idle granted
    cases unfired
    rw [show run.attack.applied = false from idle] at ruled
    exact (congrArg Attempt.result ruled).trans
      (run.attack.begin_ok run.now granted.1 granted.2)
  case spared =>
    intro error _ failed
    have spares := startUnless_spares fired run.attack.applied run.attack
      (run.attack.begin run.now) error (run.attack.begin_spares run.now error)
    rw [← ruled] at spares
    exact spares failed
  case ended => exact nofun
  case waited => exact nofun

theorem turn_obeys (run : AttackRun BuiltIn) (new : BuiltIn) (step : AttackStep)
    (becomes : Becomes new run.attack) : Obeys new (run.turn step) := by
  cases step with
  | apply host fired => exact apply_obeys run new host fired
  | revert aftermath =>
      constructor
      case ended => exact fun _ => release_eq aftermath new run.attack becomes
      all_goals exact nofun
  | advance host span =>
      constructor
      case waited =>
        intro _ _
        change (Attack.advance (run.now + span) run.attack).applied = run.attack.applied
        rw [← isApplied_eq, ← isApplied_eq]
        exact LawfulAttack.applied_advance (run.now + span) run.attack
      all_goals exact nofun

theorem turn_becomes (run : AttackRun BuiltIn) (new : BuiltIn) (step : AttackStep)
    (becomes : Becomes new run.attack) : Becomes new (run.turn step).after := by
  cases step with
  | apply host fired =>
      change Becomes new (Attack.apply run.now fired run.attack).attack
      rw [apply_eq]
      exact startUnless_keeps (Becomes new) fired _ _ _ becomes
        (begin_becomes run.now new run.attack becomes)
  | revert aftermath =>
      change Becomes new (run.attack.release aftermath).2
      rw [release_eq aftermath new run.attack becomes]
      exact becomes.new
  | advance host span => exact advance_becomes (run.now + span) new run.attack becomes

/-- Whatever is asked of an attack that was built from options, and whatever the machine has to
give, attempts and ends keep to the phases of the attack; and once an attack is idle it is as it was
when it was built. The threads of a load are started one by one and come to the same, and none of
them is left under a flag that has told others to stop. -/
theorem lifecycle_obeyed [Host] (kind : String) (options : Option Options) (attack : BuiltIn)
    (created : BuiltIn.catalogue.create kind options = .ok attack) (now : Nat)
    (steps : List AttackStep) :
    let run := (AttackRun.start now attack).after steps
    (attack.applied = false ∧ attack.bytes = 0 ∧ attack.workers = 0) ∧
    (∀ turn ∈ run.turns, Obeys attack turn) ∧
    (run.attack.applied = false → run.attack = attack) ∧
    ∀ load, attack = .load load →
      AttackRun.Staffs ((AttackRun.start now (Crew.ofLoad load)).after steps) run := by
  intro run
  have new := becomes_of_create kind options attack created
  -- a turn obeys as long as the attack before it is one that the new attack can have become
  have kept : Becomes attack run.attack ∧ ∀ turn ∈ run.turns, Obeys attack turn := by
    refine AttackRun.after_keeps
      (fun run => Becomes attack run.attack ∧ ∀ turn ∈ run.turns, Obeys attack turn) ?step
      (.start now attack) steps ⟨new, List.forall_mem_nil _⟩
    intro run step before
    exact ⟨turn_becomes run attack step before.1,
      List.forall_mem_cons.mpr ⟨turn_obeys run attack step before.1, before.2⟩⟩
  refine ⟨new.empty, kept.2, kept.1.eq_of_idle, ?_⟩
  rintro load rfl
  cases new with
  | load cores percent _ _ positive _ => exact AttackRun.staffs_after now _ rfl rfl steps

/-- A machine of one core that refuses nothing. -/
local instance freeHost : Host where
  cores := 1
  coresPositive := Nat.one_pos
  blockFault _ _ := none
  threadFault _ _ := none

/-- A load of two threads that are busy half of the time. -/
def spike : Load := ⟨2, 50, 0, 0, by decide⟩

/-- An attempt whose second thread cannot be started, attempts on a machine that has all, and an
end that finds one of the threads broken. -/
def spikeSteps : List AttackStep :=
  let short : Host :=
    { freeHost with threadFault := fun _ index => if index = 1 then some "no threads" else none }
  [.apply short false, .apply freeHost false, .apply freeHost false, .apply freeHost true,
    .revert ⟨none, 1⟩, .apply freeHost false]

theorem lifecycle_obeyed_spike :
    let run := (AttackRun.start 0 (.load spike)).after spikeSteps
    run.turns.reverse.map (·.result) =
      [.error (.attack "cannot start cpu worker: no threads"), .ok (), .error .alreadyApplied,
        .error (.cancelled 0), .error (.attack "1 cpu workers panicked"), .ok ()] ∧
    (∀ turn ∈ run.turns, Obeys (.load spike) turn) ∧ run.attack.workers = 2 ∧
    ((AttackRun.start 0 (Crew.ofLoad spike)).after spikeSteps).attack.working = [0, 1] := by
  have created : BuiltIn.catalogue.create Load.kind
      (some [("cores", .integer 2), ("load", .integer 50)]) = .ok (.load spike) := by rfl
  obtain ⟨_, obeyed, _, staffed⟩ := lifecycle_obeyed _ _ (.load spike) created 0 spikeSteps
  have atWork := (staffed spike rfl).atWork
  exact ⟨by rfl, obeyed, by rfl, atWork.trans (by rfl)⟩

end BuiltIn

end FaultInjection
