import FaultInjection.Error

/-!
What an attack is to those who run it. Applying an attack starts some harm and reverting ends it;
an attack that is applied is not applied again before it was reverted. Times are nanoseconds on a
clock that never goes back.
-/

namespace FaultInjection

structure Attempt (α : Type) where
  result : Except Error Unit
  attack : α
  /-- Whether the call made its caller's token fire. -/
  fires : Bool

class Attack (α : Type) where
  kind : α → String
  isApplied : α → Bool
  /-- Starts the attack, unless the token of the caller has fired. -/
  apply : (now : Nat) → (fired : Bool) → α → Attempt α
  revert : α → Except Error Unit × α
  /-- The attack after what it does by itself up to a time. -/
  advance : (now : Nat) → α → α

/-- What has become of a task, or of threads, by the time they are waited for. -/
structure Aftermath where
  fault : Option String
  panics : Nat
  deriving DecidableEq, Repr

namespace Aftermath

def clean : Aftermath := ⟨none, 0⟩

def ofTask (aftermath : Aftermath) : Except Error Unit :=
  match aftermath.fault with
  | some reason => .error (.attack s!"leak task failed: {reason}")
  | none => .ok ()

def ofThreads (aftermath : Aftermath) : Except Error Unit :=
  match aftermath.fault with
  | some reason => .error (.attack s!"cpu worker join failed: {reason}")
  | none =>
      if 0 < aftermath.panics then .error (.attack s!"{aftermath.panics} cpu workers panicked")
      else .ok ()

end Aftermath

/-- What attacks find on the machine they run on, and what it makes of what they run. -/
class Host where
  cores : Nat
  coresPositive : 0 < cores := by decide
  /-- Why a block of some bytes cannot be had at some time, if it cannot. -/
  blockFault : (now size : Nat) → Option String
  threadFault : (now index : Nat) → Option String
  /-- What a task comes to that holds some bytes and has its next step before it. -/
  taskEnd : (next held : Nat) → Aftermath := fun _ _ => .clean
  /-- What threads come to that were started at some time. -/
  threadsEnd : (since workers : Nat) → Aftermath := fun _ _ => .clean

namespace Attempt

variable {α : Type}

def refuse (error : Error) (attack : α) : Attempt α := ⟨.error error, attack, false⟩

def succeed (attack : α) : Attempt α := ⟨.ok (), attack, false⟩

end Attempt

/-- The rule that all attacks share: a fired token is told first, then that the attack is applied
already, and only then is anything started. -/
def startUnless {α : Type} (fired applied : Bool) (attack : α) (start : Attempt α) : Attempt α :=
  if fired then .refuse (.cancelled 0) attack
  else if applied then .refuse .alreadyApplied attack
  else start

end FaultInjection
