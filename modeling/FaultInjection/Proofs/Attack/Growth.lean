import Mathlib.Algebra.GroupWithZero.Nat
import FaultInjection.Proofs.Attack.Options
import FaultInjection.Proofs.Attack.Phases

/-!
How much a leak holds. As long as no block is refused it is a number of steps that the clock tells,
cut off at the limit; whatever is refused, the counter says what the blocks that are held come to,
and the limit is kept.
-/

namespace FaultInjection

namespace LeakPlan

/-- What a number of steps come to if no block is refused. -/
def grown (plan : LeakPlan) (steps : Nat) : Nat :=
  match plan.limit with
  | none => steps * plan.size
  | some limit => min limit (steps * plan.size)

/-- How many steps have been due by a time, the first one at `since`. -/
def due (plan : LeakPlan) (since now : Nat) : Nat := 1 + (now - since) / plan.interval

/-- What is held at a time, if anything is leaked since an earlier one and no block is refused. -/
def expected (plan : LeakPlan) (since : Option Nat) (now : Nat) : Nat :=
  match since with
  | none => 0
  | some since => plan.grown (plan.due since now)

variable (plan : LeakPlan)

theorem grown_zero : plan.grown 0 = 0 := by
  unfold grown
  split <;> simp

/-- The last step before the limit is cut short, and those after it are nothing. -/
theorem grown_succ (steps : Nat) :
    plan.grown (steps + 1) = plan.grown steps + Leak.stepSize plan (plan.grown steps) := by
  unfold grown Leak.stepSize
  cases plan.limit with
  | none => exact Nat.succ_mul steps plan.size
  | some limit =>
      have longer := Nat.succ_mul steps plan.size
      simp only [longer]
      omega

theorem due_of_next (since now steps : Nat) (here : since ≤ now)
    (known : steps ≤ plan.due since now) (last : now < since + steps * plan.interval) :
    steps = plan.due since now := by
  have passed : (now - since) / plan.interval < steps :=
    (Nat.div_lt_iff_lt_mul plan.intervalPositive).mpr (by omega)
  unfold due at known ⊢
  omega

theorem succ_le_due (since now steps : Nat) (next : since + steps * plan.interval ≤ now) :
    steps + 1 ≤ plan.due since now := by
  have passed : steps ≤ (now - since) / plan.interval :=
    (Nat.le_div_iff_mul_le plan.intervalPositive).mpr (by omega)
  unfold due
  omega

theorem due_mono (since now later : Nat) (order : now ≤ later) :
    plan.due since now ≤ plan.due since later := by
  unfold due
  have passed := Nat.div_le_div_right (c := plan.interval) (Nat.sub_le_sub_right order since)
  omega

/-- A plan is what the options ask for, with a step each second if they do not tell. -/
structure Follows (plan : LeakPlan) (options : Options) : Prop where
  size : options.get? "size" = some (.integer plan.size)
  told : ∀ value, options.given? "interval" = some value →
    ∃ text length, value = .string text ∧ Duration.parse? text = some length ∧
      plan.interval = length.nanos
  untold : options.given? "interval" = none → plan.interval = 1000000000
  limit : options.given? "limit" = plan.limit.map fun limit : Nat => .integer limit

end LeakPlan

namespace Leak

def held (leak : Leak) : Nat :=
  match leak.run with
  | none => 0
  | some run => run.blocks.sum

/-- The blocks that cannot be had at the steps that are due, each with the time when it is asked
for. -/
def refused [Host] (plan : LeakPlan) (now leaked : Nat) (run : LeakRun) : List (Nat × Nat) :=
  if run.next ≤ now then
    let size := stepSize plan leaked
    let after := step plan run.next leaked run.blocks
    let later := refused plan now after.1 ⟨after.2, run.next + plan.interval⟩
    if size ≠ 0 ∧ (Host.blockFault run.next size).isSome = true then (run.next, size) :: later
    else later
  else []
termination_by now + 1 - run.next
decreasing_by have := plan.intervalPositive; simp; omega

theorem refused_eq_nil [Host] (plan : LeakPlan) (now leaked : Nat) (run : LeakRun)
    (free : ∀ now size, Host.blockFault now size = none) : refused plan now leaked run = [] := by
  fun_induction refused plan now leaked run with
  | case1 leaked run due size after later fault =>
      rw [free] at fault
      cases fault.2
  | case2 leaked run due size after later granted ih => exact ih
  | case3 leaked run early => rfl

/-- The counter says what is held, and that keeps to the limit. -/
structure Balanced (plan : LeakPlan) (leaked : Nat) (blocks : List Nat) : Prop where
  counted : leaked = blocks.sum
  limited : ∀ limit ∈ plan.limit, leaked ≤ limit

theorem stepSize_limited (plan : LeakPlan) (leaked : Nat)
    (limited : ∀ limit ∈ plan.limit, leaked ≤ limit) :
    ∀ limit ∈ plan.limit, leaked + stepSize plan leaked ≤ limit := by
  intro limit known
  have below := limited limit known
  simp only [stepSize, Option.mem_def.mp known]
  omega

theorem step_balanced [Host] (plan : LeakPlan) (now leaked : Nat) (blocks : List Nat)
    (balanced : Balanced plan leaked blocks) :
    Balanced plan (step plan now leaked blocks).1 (step plan now leaked blocks).2 := by
  simp only [step]
  split
  · exact balanced
  · split
    · exact balanced
    · constructor
      · rw [List.sum_cons, ← balanced.counted, Nat.add_comm]
      · exact stepSize_limited plan leaked balanced.limited

theorem steps_balanced [Host] (plan : LeakPlan) (now leaked : Nat) (run : LeakRun)
    (balanced : Balanced plan leaked run.blocks) :
    Balanced plan (steps plan now leaked run).1 (steps plan now leaked run).2.blocks := by
  fun_induction steps plan now leaked run with
  | case1 leaked run due after ih =>
      exact ih (step_balanced plan run.next leaked run.blocks balanced)
  | case2 leaked run early => exact balanced

/-- A step whose block is not refused. -/
theorem step_granted [Host] (plan : LeakPlan) (now leaked : Nat) (blocks : List Nat)
    (granted : ¬ (stepSize plan leaked ≠ 0 ∧
      (Host.blockFault now (stepSize plan leaked)).isSome = true)) :
    (step plan now leaked blocks).1 = leaked + stepSize plan leaked := by
  simp only [step]
  split
  next none => rw [none, Nat.add_zero]
  next some =>
    split
    next reason fault => exact absurd ⟨some, by rw [fault]; rfl⟩ granted
    next => rfl

/-- After the steps that are due the leak is where the clock says, if it was on the way there. -/
theorem steps_grow [Host] (plan : LeakPlan) (now leaked : Nat) (run : LeakRun) (since count : Nat)
    (here : since ≤ now) (known : count ≤ plan.due since now)
    (grown : leaked = plan.grown count) (next : run.next = since + count * plan.interval)
    (granted : refused plan now leaked run = []) :
    (steps plan now leaked run).1 = plan.grown (plan.due since now) ∧
      (steps plan now leaked run).2.next = since + plan.due since now * plan.interval := by
  fun_induction steps plan now leaked run generalizing count with
  | case1 leaked run due after ih =>
      rw [refused, if_pos due] at granted
      dsimp only at granted
      split at granted
      next => cases granted
      next free =>
        -- the step that was due is counted, and the next one is an interval later
        apply ih (count + 1)
        · exact plan.succ_le_due since now count (by omega)
        · rw [plan.grown_succ, ← grown]
          exact step_granted plan run.next leaked run.blocks free
        · rw [Nat.succ_mul]
          dsimp only
          omega
        · exact granted
  | case2 leaked run early =>
      have last := plan.due_of_next since now count here known (by omega)
      rw [← last]
      exact ⟨grown, next⟩

/-- Where a leak is that runs since some time or is idle. It is on time if it has been granted all
its blocks. -/
inductive Stands (plan : LeakPlan) (now : Nat) (granted : Prop) : Option Nat → Leak → Prop
  | idle : Stands plan now granted none ⟨plan, 0, none⟩
  | running (since leaked : Nat) (run : LeakRun) (here : since ≤ now)
      (balanced : Balanced plan leaked run.blocks)
      (onTime : granted → leaked = plan.grown (plan.due since now) ∧
        run.next = since + plan.due since now * plan.interval) :
      Stands plan now granted (some since) ⟨plan, leaked, some run⟩

variable {plan : LeakPlan} {now : Nat} {granted : Prop} {since : Option Nat} {leak : Leak}

theorem Stands.weaken {less : Prop} (stands : Stands plan now granted since leak)
    (implied : less → granted) : Stands plan now less since leak := by
  cases stands with
  | idle => exact .idle
  | running since leaked run here balanced onTime =>
      exact .running since leaked run here balanced fun holds => onTime (implied holds)

/-- A leak that has just been started. -/
theorem stands_started [Host] (plan : LeakPlan) (now : Nat) (granted : Prop)
    (free : granted → refused plan now 0 ⟨[], now⟩ = []) :
    Stands plan now granted (some now) (advance now ⟨plan, 0, some ⟨[], now⟩⟩) := by
  have empty : Balanced plan 0 [] := ⟨rfl, fun limit _ => Nat.zero_le limit⟩
  apply Stands.running now _ _ (Nat.le_refl now) (steps_balanced plan now 0 ⟨[], now⟩ empty)
  intro holds
  exact steps_grow plan now 0 ⟨[], now⟩ now 0 (Nat.le_refl now) (Nat.zero_le _)
    plan.grown_zero.symm (by simp) (free holds)

theorem Stands.advance [Host] (stands : Stands plan now granted since leak) (later : Nat)
    (order : now ≤ later)
    (free : granted → ∀ run ∈ leak.run, refused leak.plan later leak.leaked run = []) :
    Stands plan later granted since (advance later leak) := by
  cases stands with
  | idle => exact .idle
  | running since leaked run here balanced onTime =>
      apply Stands.running since _ _ (Nat.le_trans here order)
        (steps_balanced plan later leaked run balanced)
      intro holds
      obtain ⟨grown, next⟩ := onTime holds
      exact steps_grow plan later leaked run since (plan.due since now) (Nat.le_trans here order)
        (plan.due_mono since now later order) grown next (free holds run rfl)

theorem Stands.plan_eq (stands : Stands plan now granted since leak) : leak.plan = plan := by
  cases stands <;> rfl

theorem Stands.running_eq (stands : Stands plan now granted since leak) :
    leak.run.isSome = since.isSome := by
  cases stands <;> rfl

theorem Stands.empty_of_idle (stands : Stands plan now granted since leak)
    (idle : leak.run = none) : leak.leaked = 0 := by
  cases stands with
  | idle => rfl
  | running => cases idle

theorem Stands.held_eq (stands : Stands plan now granted since leak) :
    leak.leaked = leak.held := by
  cases stands with
  | idle => rfl
  | running since leaked run here balanced onTime => exact balanced.counted

theorem Stands.limited (stands : Stands plan now granted since leak) :
    ∀ limit ∈ plan.limit, leak.leaked ≤ limit := by
  cases stands with
  | idle => exact fun limit _ => Nat.zero_le limit
  | running since leaked run here balanced onTime => exact balanced.limited

theorem Stands.expected_eq (stands : Stands plan now granted since leak) (holds : granted) :
    leak.leaked = plan.expected since now := by
  cases stands with
  | idle => rfl
  | running since leaked run here balanced onTime => exact (onTime holds).1

end Leak

/-! The plan of a leak -/

theorem Allocation.eq_some_of_required (kind name : String) (value : Option Nat) (found : Nat)
    (required : Allocation.required kind name value = .ok found) : value = some found := by
  cases value with
  | none => cases required
  | some value =>
      cases required
      rfl

theorem Leak.follows_ofOptions (options : Option Options) (attack : Leak)
    (built : Leak.ofOptions options = .ok attack) : attack.plan.Follows (options.getD []) := by
  obtain ⟨checked, passed, built⟩ := (bind_eq_ok _ _ _).mp built
  obtain ⟨size, required, built⟩ := (bind_eq_ok _ _ _).mp built
  have admitted := Leak.schema.admits_of_check options checked passed
  have keeps := Leak.schema.check_keeps options checked (by decide) passed
  dsimp only at built
  split at built
  next =>
    cases built
    constructor
    case size =>
      have found := Allocation.eq_some_of_required _ _ _ size required
      exact ((keeps.integers "size" size).mp found).1
    case told =>
      intro raw given
      obtain ⟨value, kept, read⟩ :=
        keeps.kept_of_given admitted ⟨"interval", .duration, false⟩ (by decide) raw given
      cases read with
      | duration text length spelled =>
          exact ⟨text, length, rfl, spelled, by simp [CheckedOptions.duration?, kept]⟩
    case untold =>
      intro absent
      have missing := keeps.get?_of_left_out "interval" absent
      simp only [CheckedOptions.duration?, missing]
      rfl
    case limit =>
      cases given : (options.getD []).given? "limit" with
      | none =>
          have missing := keeps.get?_of_left_out "limit" given
          simp [CheckedOptions.integer?, missing]
      | some raw =>
          obtain ⟨value, kept, read⟩ :=
            keeps.kept_of_given admitted ⟨"limit", .positiveInteger, false⟩ (by decide) raw given
          cases read with
          | positive number positive => simp [CheckedOptions.integer?, kept]
  next => cases built

/-! A leak in a run -/

/-- Since when an attack is applied, after some turns, the newest first. -/
def appliedSince {α : Type} : List (AttackTurn α) → Option Nat
  | [] => none
  | turn :: earlier =>
      match turn.step, turn.result with
      | .revert _, _ => none
      | .apply _ _, .ok _ => some turn.now
      | _, _ => appliedSince earlier

def AttackTurn.refused (turn : AttackTurn BuiltIn) : List (Nat × Nat) :=
  match turn.step, turn.before with
  | .apply host false, .leak ⟨plan, leaked, none⟩ =>
      @Leak.refused host plan turn.now leaked ⟨[], turn.now⟩
  | .advance host _, .leak ⟨plan, leaked, some run⟩ =>
      @Leak.refused host plan turn.now leaked run
  | _, _ => []

theorem AttackTurn.refused_of_granted (turn : AttackTurn BuiltIn) (granted : turn.step.Granted) :
    turn.refused = [] := by
  unfold refused
  split
  next host _ _ step _ =>
    rw [step] at granted
    exact @Leak.refused_eq_nil host _ _ _ _ granted.1
  next host _ _ _ _ step _ =>
    rw [step] at granted
    exact @Leak.refused_eq_nil host _ _ _ _ granted.1
  next => rfl

namespace AttackRun

def Leaks (plan : LeakPlan) (run : AttackRun BuiltIn) : Prop :=
  ∃ leak, run.attack = .leak leak ∧
    Leak.Stands plan run.now (∀ turn ∈ run.turns, turn.refused = []) (appliedSince run.turns) leak

theorem leaks_perform (plan : LeakPlan) (run : AttackRun BuiltIn) (step : AttackStep)
    (leaks : run.Leaks plan) : (run.perform step).Leaks plan := by
  obtain ⟨now, attack, turns⟩ := run
  obtain ⟨leak, same, stands⟩ := leaks
  dsimp only at same stands
  subst same
  -- nothing was refused at all just if nothing was before and nothing is in this turn
  generalize next : AttackRun.turn ⟨now, .leak leak, turns⟩ step = turn
  have stays := stands.weaken fun (free : ∀ past ∈ turn :: turns, past.refused = []) =>
    (List.forall_mem_cons.mp free).2
  have free (all : ∀ past ∈ turn :: turns, past.refused = []) := (List.forall_mem_cons.mp all).1
  subst next
  generalize known : appliedSince turns = since at stands
  cases step with
  | apply host fired =>
      cases fired with
      | true => exact ⟨leak, rfl, stays⟩
      | false =>
          cases stands with
          | idle => exact ⟨_, rfl, Leak.stands_started plan now _ free⟩
          | running => exact ⟨_, rfl, stays⟩
  | revert aftermath =>
      cases stands with
      | idle => exact ⟨_, rfl, .idle⟩
      | running => exact ⟨_, rfl, .idle⟩
  | advance host span =>
      refine ⟨_, rfl, stays.advance (now + span) (Nat.le_add_right now span) ?_⟩
      intro all run running
      obtain ⟨own, leaked, _⟩ := leak
      cases running
      exact free all

end AttackRun

namespace Leak

/-- A leak grows by the clock as long as it gets the blocks that it asks for: a step when it is
applied, one more with each interval, and the last one cut short at the limit. Whatever it gets, it
tells what it holds, keeps to its limit, and while it is idle it holds nothing. -/
theorem grows_exactly [Host] (options : Option Options) (attack : BuiltIn)
    (created : BuiltIn.catalogue.create kind options = .ok attack) (now : Nat)
    (steps : List AttackStep) :
    let run := (AttackRun.start now attack).after steps
    ∃ leak, run.attack = .leak leak ∧ leak.plan.Follows (options.getD []) ∧
      leak.leaked = leak.held ∧ (∀ limit ∈ leak.plan.limit, leak.leaked ≤ limit) ∧
      leak.run.isSome = (appliedSince run.turns).isSome ∧ (leak.run = none → leak.leaked = 0) ∧
      ((∀ turn ∈ run.turns, turn.refused = []) →
        leak.leaked = leak.plan.expected (appliedSince run.turns) run.now) := by
  intro run
  rcases BuiltIn.create_cases kind options attack created with
    ⟨other, _⟩ | ⟨_, new, built, rfl⟩ | ⟨other, _⟩
  case inl => exact absurd other (by decide)
  case inr.inr => exact absurd other (by decide)
  case inr.inl =>
    have follows := follows_ofOptions options new built
    have idle : new = ⟨new.plan, 0, none⟩ := by
      rw [← leaked_ofOptions options new built, ← run_ofOptions options new built]
    have start : (AttackRun.start now (.leak new)).Leaks new.plan :=
      ⟨new, rfl, idle ▸ .idle⟩
    obtain ⟨leak, same, stands⟩ :=
      AttackRun.after_keeps (·.Leaks new.plan) (AttackRun.leaks_perform new.plan) _ steps start
    have plan : leak.plan = new.plan := stands.plan_eq
    rw [← plan] at stands follows
    exact ⟨leak, same, follows, stands.held_eq, stands.limited, stands.running_eq,
      stands.empty_of_idle, stands.expected_eq⟩

/-- A machine that refuses nothing. -/
local instance openHost : Host where
  cores := 1
  coresPositive := Nat.one_pos
  blockFault _ _ := none
  threadFault _ _ := none

/-- A thousand bytes each ten milliseconds, and no more than 2500. -/
def dripOptions : Options :=
  [("interval", .string "10ms"), ("limit", .integer 2500), ("size", .integer 1000)]

def dripPlan : LeakPlan := ⟨1000, 10000000, some 2500, by decide⟩

/-- A leak that is ended with its second step and applied anew. -/
def dripSteps : List AttackStep :=
  [.apply openHost false, .advance openHost 15000000, .revert .clean, .apply openHost false,
    .advance openHost 19000000, .advance openHost 1000000]

theorem grows_exactly_drip :
    let run := (AttackRun.start 0 (BuiltIn.leak ⟨dripPlan, 0, none⟩)).after dripSteps
    ∃ leak, run.attack = .leak leak ∧ leak.leaked = 2500 ∧ leak.held = 2500 := by
  intro run
  have created : BuiltIn.catalogue.create kind (some dripOptions) =
      .ok (.leak ⟨dripPlan, 0, none⟩) := by rfl
  obtain ⟨leak, same, follows, counted, _, _, _, grown⟩ :=
    grows_exactly (some dripOptions) _ created 0 dripSteps
  have granted : ∀ turn ∈ run.turns, turn.refused = [] := by
    have all : ∀ step ∈ dripSteps.reverse, step.Granted := by
      simp [dripSteps, AttackStep.Granted, openHost]
    have taken : run.turns.map (·.step) = dripSteps.reverse := by rfl
    intro turn member
    rw [← taken] at all
    exact turn.refused_of_granted (all _ (List.mem_map_of_mem member))
  have since : appliedSince run.turns = some 15000000 := by rfl
  have now : run.now = 35000000 := by rfl
  have plan : leak.plan = dripPlan := by
    cases same
    rfl
  have grew : leak.leaked = 2500 := by
    rw [grown granted, plan, since, now]
    decide
  exact ⟨leak, same, grew, counted.symm.trans grew⟩

end Leak

end FaultInjection
