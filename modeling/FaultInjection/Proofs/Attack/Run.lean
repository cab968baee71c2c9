import FaultInjection.Attack.Catalogue
import FaultInjection.Attack.Threads

/-!
Runs of one attack: it is applied, reverted and left to itself in any order, and each time the
machine may have something else to give. What holds of a run is shown turn by turn, and the threads
of a load go through the same run as the load that they make up.
-/

namespace FaultInjection

/-- Attacks as they are operated on a machine that is described anew each time. -/
class Operable (α : Type) where
  attempt : (host : Host) → (now : Nat) → (fired : Bool) → α → Attempt α
  release : Aftermath → α → Except Error Unit × α
  elapse : (host : Host) → (now : Nat) → α → α

instance : Operable BuiltIn where
  attempt _ now fired attack := Attack.apply now fired attack
  release := BuiltIn.release
  elapse _ now attack := Attack.advance now attack

instance : Operable Crew where
  attempt _ now fired crew := crew.apply now fired
  release := Crew.release
  elapse _ _ crew := crew

inductive AttackStep where
  | apply (host : Host) (fired : Bool)
  | revert (aftermath : Aftermath)
  | advance (host : Host) (span : Nat)

namespace AttackStep

def attempt? : AttackStep → Option Bool
  | apply _ fired => some fired
  | _ => none

def ends : AttackStep → Bool
  | revert _ => true
  | _ => false

end AttackStep

structure AttackTurn (α : Type) where
  step : AttackStep
  now : Nat
  result : Except Error Unit
  before : α
  after : α

structure AttackRun (α : Type) where
  now : Nat
  attack : α
  turns : List (AttackTurn α)

namespace AttackRun

variable {α : Type} [Operable α]

def start (now : Nat) (attack : α) : AttackRun α := ⟨now, attack, []⟩

def turn (run : AttackRun α) : AttackStep → AttackTurn α
  | .apply host fired =>
      let attempt := Operable.attempt host run.now fired run.attack
      ⟨.apply host fired, run.now, attempt.result, run.attack, attempt.attack⟩
  | .revert aftermath =>
      let outcome := Operable.release aftermath run.attack
      ⟨.revert aftermath, run.now, outcome.1, run.attack, outcome.2⟩
  | .advance host span =>
      let now := run.now + span
      ⟨.advance host span, now, .ok (), run.attack, Operable.elapse host now run.attack⟩

def perform (run : AttackRun α) (step : AttackStep) : AttackRun α :=
  let turn := run.turn step
  ⟨turn.now, turn.after, turn :: run.turns⟩

def after (run : AttackRun α) (steps : List AttackStep) : AttackRun α := steps.foldl perform run

/-- What each step keeps and tells of its turn holds after every run. -/
theorem after_keeps (kept : AttackRun α → Prop)
    (step : ∀ run step, kept run → kept (run.perform step)) (run : AttackRun α)
    (steps : List AttackStep) (start : kept run) : kept (run.after steps) := by
  induction steps generalizing run with
  | nil => exact start
  | cons first rest ih => exact ih _ (step run first start)

end AttackRun

/-! The threads of a load -/

namespace Crew

/-- All of some threads are started, or the crew is dismissed. -/
theorem hire_eq [Host] (now : Nat) (crew : Crew) (indices : List Nat) :
    crew.hire now indices =
      match indices.findSome? (Host.threadFault now) with
      | none => .succeed { crew with threads := crew.threads ++ indices }
      | some reason => .refuse (.attack s!"cannot start cpu worker: {reason}") crew.dismiss := by
  induction indices generalizing crew with
  | nil => simp [hire]
  | cons index rest ih =>
      cases first : Host.threadFault now index with
      | some reason => simp [hire, first]
      | none =>
          simp only [hire, first, ih, List.findSome?_cons, List.append_assoc, List.singleton_append]
          rfl

/-- No thread that is still to be waited for has been told to stop. -/
def AtWork (crew : Crew) : Prop := crew.working = crew.threads

/-- An attempt at a crew is an attempt at its load. -/
theorem apply_load [Host] (now : Nat) (fired : Bool) (crew : Crew) :
    (crew.apply now fired).result = (Attack.apply now fired crew.load).result ∧
      (crew.apply now fired).attack.load = (Attack.apply now fired crew.load).attack := by
  cases fired with
  | true => exact ⟨rfl, rfl⟩
  | false =>
      cases busy : crew.threads with
      | cons index rest => simp [apply, Attack.apply, startUnless, load, busy, Attempt.refuse]
      | nil =>
          have hired : crew.apply now false =
              { crew with stop := false, since := now }.hire now (List.range crew.cores) := by
            simp [apply, startUnless, busy]
          have started : Attack.apply now false crew.load = crew.load.start now := by
            simp [Attack.apply, startUnless, load, busy]
          rw [hired, started, hire_eq]
          simp only [Load.start, Load.threadFault?, load]
          cases (List.range crew.cores).findSome? (Host.threadFault now) with
          | none => simp [Attempt.succeed, busy, Nat.ne_of_gt crew.coresPositive]
          | some reason => simp [Attempt.refuse, dismiss, busy]

theorem apply_atWork [Host] (now : Nat) (fired : Bool) (crew : Crew) (atWork : crew.AtWork) :
    (crew.apply now fired).attack.AtWork := by
  unfold apply startUnless
  split
  · exact atWork
  · split
    · exact atWork
    · rw [hire_eq]
      split <;> rfl

theorem release_load (aftermath : Aftermath) (crew : Crew) :
    (crew.release aftermath).1 = (crew.load.release aftermath).1 ∧
      (crew.release aftermath).2.load = (crew.load.release aftermath).2 := by
  simp [release, Load.release, load, dismiss]

theorem load_ofLoad (load : Load) (idle : load.workers = 0) (rested : load.since = 0) :
    (ofLoad load).load = load := by
  obtain ⟨cores, percent, workers, since, positive⟩ := load
  cases idle
  cases rested
  rfl

end Crew

namespace AttackRun

/-- A load, and the threads that make it up, have come to the same in all turns. -/
structure Staffs (crewRun : AttackRun Crew) (run : AttackRun BuiltIn) : Prop where
  now : run.now = crewRun.now
  attack : run.attack = .load crewRun.attack.load
  results : run.turns.map (·.result) = crewRun.turns.map (·.result)
  atWork : crewRun.attack.AtWork

theorem Staffs.perform {crewRun : AttackRun Crew} {run : AttackRun BuiltIn}
    (staffs : Staffs crewRun run) (step : AttackStep) :
    Staffs (crewRun.perform step) (run.perform step) := by
  obtain ⟨time, crew, crewTurns⟩ := crewRun
  obtain ⟨now, attack, turns⟩ := run
  obtain ⟨sameTime, sameAttack, results, atWork⟩ := staffs
  dsimp only at sameTime sameAttack results atWork
  subst sameTime sameAttack
  cases step with
  | apply host fired =>
      obtain ⟨result, load⟩ := crew.apply_load now fired
      exact ⟨rfl, congrArg BuiltIn.load load.symm, List.cons_eq_cons.mpr ⟨result.symm, results⟩,
        crew.apply_atWork now fired atWork⟩
  | revert aftermath =>
      obtain ⟨result, load⟩ := crew.release_load aftermath
      exact ⟨rfl, congrArg BuiltIn.load load.symm, List.cons_eq_cons.mpr ⟨result.symm, results⟩,
        rfl⟩
  | advance host span => exact ⟨rfl, rfl, congrArg (List.cons _) results, atWork⟩

theorem staffs_after (now : Nat) (load : Load) (idle : load.workers = 0)
    (rested : load.since = 0) (steps : List AttackStep) :
    Staffs ((start now (Crew.ofLoad load)).after steps) ((start now (.load load)).after steps) := by
  have general : ∀ (crewRun : AttackRun Crew) (run : AttackRun BuiltIn), Staffs crewRun run →
      Staffs (crewRun.after steps) (run.after steps) := by
    induction steps with
    | nil => exact fun _ _ staffs => staffs
    | cons step rest ih => exact fun _ _ staffs => ih _ _ (staffs.perform step)
  exact general _ _ ⟨rfl, congrArg BuiltIn.load (Crew.load_ofLoad load idle rested).symm, rfl, rfl⟩

end AttackRun

end FaultInjection
