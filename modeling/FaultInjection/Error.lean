import FaultInjection.Yaml.Mismatch

/-!
Everything that can go wrong, as causes, and the one wording of each cause.
-/

namespace FaultInjection

inductive DefinitionFault where
  /-- The text is not one well-formed YAML document, or its values cannot be written as one. -/
  | document
  | shape (path : Yaml.Path) (fault : Yaml.Mismatch)
  | unreadable (path : String) (cause : String)
  | missingIds
  | undesirableState
  | other (text : String)
  deriving DecidableEq, Repr

def DefinitionFault.message : DefinitionFault → String
  | .document => "<yaml>"
  | .shape path fault =>
      if path = .root then fault.message else path.text ++ ": " ++ fault.message
  | .unreadable path cause => s!"cannot read {path}: {cause}"
  | .missingIds => "failure id and node id are required"
  | .undesirableState => "expected state must be enabled or disabled"
  | .other text => text

inductive Error where
  | attacksFormat
  | multiKeyAttackMap
  | definition (fault : DefinitionFault)
  | invalidDuration (text : String)
  | unknownAttack (kind : String)
  | invalidOption (kind option reason : String)
  | invalidSelector (reason : String)
  | unknownState (value : Int)
  | alreadyApplied
  | attackFailed (index : Nat) (kind : String) (source : Error)
  | cancelled (applied : Nat)
  | revertFailed (reasons : String)
  | attack (reason : String)
  | invalidInterval
  | notRegistered
  | heartbeatActive
  | registration (reason : String)
  | nodeNotFound (node : String)
  | failureNotFound (node id : String)
  | duplicateFailure (node id : String)
  | notOwner (reporter node id : String)
  | transport (reason : String)
  deriving DecidableEq, Repr

namespace Error

def message : Error → String
  | attacksFormat => "attacks format error, tip: check indentation and '-' indicator"
  | multiKeyAttackMap => "each attack map of the attack list needs to be a single map"
  | definition fault => "invalid failure definition: " ++ fault.message
  | invalidDuration text => s!"invalid duration '{text}'"
  | unknownAttack kind => s!"unknown attack kind: {kind}"
  | invalidOption kind option reason =>
      s!"invalid option '{option}' for attack '{kind}': {reason}"
  | invalidSelector reason => s!"invalid label selector: {reason}"
  | unknownState value => s!"unknown failure state value: {value}"
  | alreadyApplied => "attack already applied"
  | attackFailed index kind source => s!"attack #{index} ({kind}) failed to apply: {source.message}"
  | cancelled applied => s!"apply cancelled after {applied} attack(s)"
  | revertFailed reasons => s!"revert failed: {reasons}"
  | attack reason => s!"attack runtime error: {reason}"
  | invalidInterval => "heartbeat interval must be a positive duration"
  | notRegistered => "node is not registered on the master"
  | heartbeatActive => "heartbeat loop is already running"
  | registration reason => s!"registration rejected: {reason}"
  | nodeNotFound node => s!"node not found: {node}"
  | failureNotFound node id => s!"failure not found: {node}/{id}"
  | duplicateFailure node id => s!"failure already exists: {node}/{id}"
  | notOwner reporter node id => s!"node '{reporter}' does not own failure {node}/{id}"
  | transport reason => s!"transport error: {reason}"

def source? : Error → Option Error
  | attackFailed _ _ source => some source
  | _ => none

/-- Whether the request itself is at fault, and not the state it met. -/
def isValidation : Error → Bool
  | attacksFormat | multiKeyAttackMap | definition _ | invalidDuration _ | unknownAttack _
  | invalidOption _ _ _ | invalidSelector _ | unknownState _ => true
  | _ => false

end Error

end FaultInjection
