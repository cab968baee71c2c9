import FaultInjection.Attack.Basic
import FaultInjection.Attack.Schema

/-!
An attack that keeps threads busy for a share of the time.
-/

namespace FaultInjection

structure Load where
  cores : Nat
  percent : Nat
  workers : Nat
  since : Nat
  coresPositive : 0 < cores
  deriving DecidableEq, Repr

namespace Load

def kind : String := "cpu_spike"

def schema : Schema :=
  ⟨kind, [⟨"cores", .positiveInteger, false⟩, ⟨"load", .range 1 100, false⟩]⟩

def threadsPerCore : Nat := 4

def chosenCores [Host] (checked : CheckedOptions) : Nat :=
  (checked.integer? "cores").getD Host.cores

theorem chosenCores_positive [Host] (options : Option Options) (checked : CheckedOptions)
    (passed : schema.check options = .ok checked) : 0 < chosenCores checked := by
  have typed : ∀ rule ∈ schema.rules, rule.name = "cores" → rule.type = .positiveInteger := by
    decide
  have positive := schema.check_positive options "cores" typed checked passed
  unfold chosenCores
  cases given : checked.integer? "cores" with
  | none => exact Host.coresPositive
  | some number => exact positive number given

def ofOptions [Host] (options : Option Options) : Except Error Load :=
  match passed : schema.check options with
  | .error error => .error error
  | .ok checked =>
      let cores := chosenCores checked
      let most := Host.cores * threadsPerCore
      if most < cores then
        .error (.invalidOption kind "cores" s!"must be at most {most} on this host, got {cores}")
      else .ok ⟨cores, (checked.integer? "load").getD 100, 0, 0,
        chosenCores_positive options checked passed⟩

def threadFault? [Host] (now : Nat) (cores : Nat) : Option String :=
  (List.range cores).findSome? (Host.threadFault now)

def start [Host] (now : Nat) (attack : Load) : Attempt Load :=
  match threadFault? now attack.cores with
  | some reason => .refuse (.attack s!"cannot start cpu worker: {reason}") attack
  | none => .succeed { attack with workers := attack.cores, since := now }

def release (aftermath : Aftermath) (load : Load) : Except Error Unit × Load :=
  (if load.workers ≠ 0 then aftermath.ofThreads else .ok (), { load with workers := 0, since := 0 })

def aftermath [Host] (load : Load) : Aftermath := Host.threadsEnd load.since load.workers

instance [Host] : Attack Load where
  kind _ := kind
  isApplied attack := attack.workers ≠ 0
  apply now fired attack := startUnless fired (attack.workers ≠ 0) attack (start now attack)
  revert attack := attack.release attack.aftermath
  advance _ attack := attack

end Load

end FaultInjection
