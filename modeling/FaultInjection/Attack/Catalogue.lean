import FaultInjection.Attack.Leak
import FaultInjection.Attack.Load

/-!
The attack kinds that a node knows, by name, each with the way its attacks are built from options.
-/

namespace FaultInjection

abbrev Catalogue (α : Type) := Table (Option Options → Except Error α)

namespace Catalogue

variable {α : Type}

def create (catalogue : Catalogue α) (kind : String) (options : Option Options) : Except Error α :=
  match catalogue.get? kind with
  | some build => build options
  | none => .error (.unknownAttack kind)

end Catalogue

inductive BuiltIn where
  | allocation (attack : Allocation)
  | leak (attack : Leak)
  | load (attack : Load)

namespace BuiltIn

def release (aftermath : Aftermath) : BuiltIn → Except Error Unit × BuiltIn
  | allocation attack => (.ok (), allocation { attack with held := none })
  | leak attack =>
      let outcome := attack.release aftermath
      (outcome.1, leak outcome.2)
  | load attack =>
      let outcome := attack.release aftermath
      (outcome.1, load outcome.2)

def aftermath [Host] : BuiltIn → Aftermath
  | allocation _ => .clean
  | leak attack => attack.aftermath
  | load attack => attack.aftermath

instance [Host] : Attack BuiltIn where
  kind
    | allocation attack => Attack.kind attack
    | leak attack => Attack.kind attack
    | load attack => Attack.kind attack
  isApplied
    | allocation attack => Attack.isApplied attack
    | leak attack => Attack.isApplied attack
    | load attack => Attack.isApplied attack
  apply now fired
    | allocation attack =>
        let attempt := Attack.apply now fired attack
        ⟨attempt.result, allocation attempt.attack, attempt.fires⟩
    | leak attack =>
        let attempt := Attack.apply now fired attack
        ⟨attempt.result, leak attempt.attack, attempt.fires⟩
    | load attack =>
        let attempt := Attack.apply now fired attack
        ⟨attempt.result, load attempt.attack, attempt.fires⟩
  revert attack := attack.release attack.aftermath
  advance now
    | allocation attack => allocation (Attack.advance now attack)
    | leak attack => leak (Attack.advance now attack)
    | load attack => load (Attack.advance now attack)

def catalogue [Host] : Catalogue BuiltIn :=
  Table.ofEntries [
    (Allocation.kind, fun options => (Allocation.ofOptions options).map allocation),
    (Leak.kind, fun options => (Leak.ofOptions options).map leak),
    (Load.kind, fun options => (Load.ofOptions options).map load)]

end BuiltIn

end FaultInjection
