import FaultInjection.Attack.Catalogue

/-!
Attacks that do no harm and misbehave on purpose. They stand in for real ones where it is rehearsed
what becomes of attacks that fail.
-/

namespace FaultInjection

inductive Script where
  | nothing
  | failing
  | flaky
  | cancelled
  /-- The attempt succeeds and makes the token of its caller fire. -/
  | cancelling
  | stuck
  /-- The attack is reverted, and still tells an error. -/
  | noisy
  deriving DecidableEq, Repr

structure Scripted where
  script : Script
  label : String
  applied : Bool
  attempted : Bool
  deriving DecidableEq, Repr

namespace Script

def all : List Script := [nothing, failing, flaky, cancelled, cancelling, stuck, noisy]

def kind : Script → String
  | nothing => "scripted_ok"
  | failing => "scripted_fail"
  | flaky => "scripted_flaky"
  | cancelled => "scripted_cancelled"
  | cancelling => "scripted_cancel"
  | stuck => "scripted_stuck"
  | noisy => "scripted_noisy"

end Script

namespace Scripted

/-- An attack is called by its option `name`, and else by its kind. -/
def ofOptions (script : Script) (options : Option Options) : Scripted :=
  match options.bind (Table.get? · "name") with
  | some (.string name) => ⟨script, name, false, false⟩
  | _ => ⟨script, script.kind, false, false⟩

def play (scripted : Scripted) : Attempt Scripted :=
  let idle := { scripted with attempted := true }
  let applied := { idle with applied := true }
  let failure := Attempt.refuse (.attack "scripted failure") idle
  match scripted.script with
  | .failing => failure
  | .flaky => if scripted.attempted then .succeed applied else failure
  | .cancelled => .refuse (.cancelled 77) idle
  | .cancelling => ⟨.ok (), applied, true⟩
  | _ => .succeed applied

instance : Attack Scripted where
  kind scripted := scripted.script.kind
  isApplied scripted := scripted.applied
  apply _ fired scripted := startUnless fired scripted.applied scripted scripted.play
  revert scripted :=
    match scripted.script with
    | .stuck => (.error (.attack "scripted stuck"), scripted)
    | .noisy => (.error (.attack "scripted noise"), { scripted with applied := false })
    | _ => (.ok (), { scripted with applied := false })
  advance _ scripted := scripted

end Scripted

inductive Rehearsal where
  | scripted (attack : Scripted)
  | real (attack : BuiltIn)

namespace Rehearsal

def label? : Rehearsal → Option String
  | scripted attack => some attack.label
  | real _ => none

instance [Host] : Attack Rehearsal where
  kind
    | scripted attack => Attack.kind attack
    | real attack => Attack.kind attack
  isApplied
    | scripted attack => Attack.isApplied attack
    | real attack => Attack.isApplied attack
  apply now fired
    | scripted attack =>
        let attempt := Attack.apply now fired attack
        ⟨attempt.result, scripted attempt.attack, attempt.fires⟩
    | real attack =>
        let attempt := Attack.apply now fired attack
        ⟨attempt.result, real attempt.attack, attempt.fires⟩
  revert
    | scripted attack =>
        let outcome := Attack.revert attack
        (outcome.1, scripted outcome.2)
    | real attack =>
        let outcome := Attack.revert attack
        (outcome.1, real outcome.2)
  advance now
    | scripted attack => scripted (Attack.advance now attack)
    | real attack => real (Attack.advance now attack)

/-- The kinds that every node has, and one kind for each script. -/
def catalogue [Host] : Catalogue Rehearsal :=
  let real := BuiltIn.catalogue.map fun (kind, build) =>
    (kind, fun options => (build options).map Rehearsal.real)
  let scripted := Script.all.map fun script =>
    (script.kind, fun options => Except.ok (.scripted (.ofOptions script options)))
  Table.ofEntries (real ++ scripted)

end Rehearsal

end FaultInjection
