import FaultInjection.Attack.Basic
import FaultInjection.Attack.Schema

/-!
An attack that holds a block of memory while it is applied.
-/

namespace FaultInjection

structure Allocation where
  size : Nat
  held : Option Nat
  deriving DecidableEq, Repr

namespace Allocation

def kind : String := "memory_allocation"

def schema : Schema := ⟨kind, [⟨"size", .positiveInteger, true⟩]⟩

def required (kind name : String) (value : Option Nat) : Except Error Nat :=
  match value with
  | some value => .ok value
  | none => .error (.invalidOption kind name "missing required option")

def ofOptions (options : Option Options) : Except Error Allocation := do
  let checked ← schema.check options
  let size ← required kind "size" (checked.integer? "size")
  .ok ⟨size, none⟩

def allocated (attack : Allocation) : Nat := attack.held.getD 0

def fault (size : Nat) (reason : String) : Error :=
  .attack s!"cannot allocate {size} bytes: {reason}"

def start [Host] (now : Nat) (attack : Allocation) : Attempt Allocation :=
  match Host.blockFault now attack.size with
  | some reason => .refuse (fault attack.size reason) attack
  | none => .succeed { attack with held := some attack.size }

instance [Host] : Attack Allocation where
  kind _ := kind
  isApplied attack := attack.held.isSome
  apply now fired attack := startUnless fired attack.held.isSome attack (start now attack)
  revert attack := (.ok (), { attack with held := none })
  advance _ attack := attack

end Allocation

end FaultInjection
