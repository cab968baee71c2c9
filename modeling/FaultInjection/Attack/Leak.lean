import FaultInjection.Attack.Allocation

/-!
An attack that takes memory in steps: one when it is applied, and one more whenever its interval
has passed, until it holds as much as its limit allows. A step that cannot be had is left out.
-/

namespace FaultInjection

structure LeakPlan where
  size : Nat
  /-- The time between steps, in nanoseconds. -/
  interval : Nat
  limit : Option Nat
  intervalPositive : 0 < interval

structure LeakRun where
  blocks : List Nat
  next : Nat
  deriving DecidableEq, Repr

structure Leak where
  plan : LeakPlan
  leaked : Nat
  run : Option LeakRun

namespace Leak

def kind : String := "memory_leak"

def schema : Schema :=
  ⟨kind, [⟨"size", .positiveInteger, true⟩, ⟨"interval", .duration, false⟩,
    ⟨"limit", .positiveInteger, false⟩]⟩

def defaultInterval : Duration := .ofSeconds 1

def ofOptions (options : Option Options) : Except Error Leak := do
  let checked ← schema.check options
  let size ← Allocation.required kind "size" (checked.integer? "size")
  let interval := (checked.duration? "interval").getD defaultInterval
  if positive : 0 < interval.nanos then
    .ok ⟨⟨size, interval.nanos, checked.integer? "limit", positive⟩, 0, none⟩
  else .error (.invalidOption kind "interval" "must be greater than zero")

def stepSize (plan : LeakPlan) (held : Nat) : Nat :=
  match plan.limit with
  | some limit => min plan.size (limit - held)
  | none => plan.size

/-- One step: the bytes that are leaked after it, and the blocks that are held. -/
def step [Host] (plan : LeakPlan) (now leaked : Nat) (blocks : List Nat) : Nat × List Nat :=
  let size := stepSize plan leaked
  if size = 0 then (leaked, blocks)
  else match Host.blockFault now size with
    | some _ => (leaked, blocks)
    | none => (leaked + size, size :: blocks)

def steps [Host] (plan : LeakPlan) (now leaked : Nat) (run : LeakRun) : Nat × LeakRun :=
  if run.next ≤ now then
    let after := step plan run.next leaked run.blocks
    steps plan now after.1 ⟨after.2, run.next + plan.interval⟩
  else (leaked, run)
termination_by now + 1 - run.next
decreasing_by have := plan.intervalPositive; simp; omega

def advance [Host] (now : Nat) (leak : Leak) : Leak :=
  match leak.run with
  | none => leak
  | some run =>
      let after := steps leak.plan now leak.leaked run
      { leak with leaked := after.1, run := some after.2 }

def release (aftermath : Aftermath) (leak : Leak) : Except Error Unit × Leak :=
  (if leak.run.isSome then aftermath.ofTask else .ok (), { leak with leaked := 0, run := none })

def aftermath [Host] (leak : Leak) : Aftermath :=
  match leak.run with
  | none => .clean
  | some run => Host.taskEnd run.next leak.leaked

instance [Host] : Attack Leak where
  kind _ := kind
  isApplied leak := leak.run.isSome
  apply now fired leak :=
    startUnless fired leak.run.isSome leak <|
      .succeed (advance now { leak with run := some ⟨[], now⟩ })
  revert leak := leak.release leak.aftermath
  advance := advance

end Leak

end FaultInjection
