import FaultInjection.Attack.Load

/-!
The threads behind a load. They are started one by one; when one of them cannot be started, those
before it are told to stop and are waited for. Ending a load waits for all of its threads, and tells
if some have failed meanwhile.
-/

namespace FaultInjection

/-- The threads of a load. All that are started by one attempt share a flag. -/
structure Crew where
  cores : Nat
  percent : Nat
  /-- When an attempt was last made to start them. -/
  since : Nat
  coresPositive : 0 < cores
  stop : Bool
  /-- The numbers of the threads that were started and have not been waited for. -/
  threads : List Nat

namespace Crew

def ofLoad (load : Load) : Crew := ⟨load.cores, load.percent, 0, load.coresPositive, false, []⟩

def load (crew : Crew) : Load :=
  ⟨crew.cores, crew.percent, crew.threads.length, if crew.threads = [] then 0 else crew.since,
    crew.coresPositive⟩

/-- The threads that keep a processor busy: one that is told to stop does not. -/
def working (crew : Crew) : List Nat := if crew.stop then [] else crew.threads

def dismiss (crew : Crew) : Crew := { crew with stop := true, threads := [] }

/-- Starts threads with some numbers, up to the first one that cannot be started. -/
def hire [Host] (now : Nat) (crew : Crew) : List Nat → Attempt Crew
  | [] => .succeed crew
  | index :: rest =>
      match Host.threadFault now index with
      | none => hire now { crew with threads := crew.threads ++ [index] } rest
      | some reason => .refuse (.attack s!"cannot start cpu worker: {reason}") crew.dismiss

def apply [Host] (now : Nat) (fired : Bool) (crew : Crew) : Attempt Crew :=
  startUnless fired (crew.threads ≠ []) crew <|
    { crew with stop := false, since := now }.hire now (List.range crew.cores)

def release (aftermath : Aftermath) (crew : Crew) : Except Error Unit × Crew :=
  (if crew.threads ≠ [] then aftermath.ofThreads else .ok (), crew.dismiss)

end Crew

end FaultInjection
