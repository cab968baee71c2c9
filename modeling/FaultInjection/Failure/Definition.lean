import FaultInjection.Failure.Specification
import FaultInjection.Yaml.Decode

/-!
Specifications from text: on their own, or under the key `spec` of a definition document.
-/

namespace FaultInjection

open Yaml

/-- One field of a specification. Unknown fields are skipped, known ones stand at most once. -/
def readSpecificationField (document : Document) (depth : Nat) (record : Path)
    (seen : Option (Option String) × Option (Option Value)) (name : String) (path : Path)
    (node : Yaml.Node) : Decoding (Option (Option String) × Option (Option Value)) := do
  let twice : Decoding (Option (Option String) × Option (Option Value)) :=
    Decoding.fail (.shape record (.duplicateField name))
  if name = "timeout" then
    if seen.1.isSome then twice
    else return (some (← decodeText? document path node), seen.2)
  else if name = "attacks" then
    if seen.2.isSome then twice
    else return (seen.1, some (← decodeValue? document depth path node))
  else do
    skipNode node
    return seen

def decodeSpecification (document : Document) (depth : Nat) (path : Path) (node : Yaml.Node) :
    Decoding RawSpecification := do
  let fields ← decodeRecord document .specification
    (readSpecificationField document (depth - 1) path) (none, none) depth path node
  return ⟨fields.1.join, fields.2.join⟩

def readDefinitionField (document : Document) (depth : Nat) (record : Path)
    (seen : Option RawSpecification) (name : String) (path : Path) (node : Yaml.Node) :
    Decoding (Option RawSpecification) := do
  if name = "spec" then
    if seen.isSome then Decoding.fail (.shape record (.duplicateField name))
    else return some (← decodeSpecification document depth path node)
  else do
    skipNode node
    return seen

def decodeDefinition (document : Document) (depth : Nat) (path : Path) (node : Yaml.Node) :
    Decoding RawSpecification := do
  match ← decodeRecord document .definition (readDefinitionField document (depth - 1) path) none
    depth path node with
  | some specification => return specification
  | none => Decoding.fail (.shape path (.missingField "spec"))

def Specification.ofDecoded (decoded : Except DefinitionFault RawSpecification) :
    Except Error Specification :=
  match decoded with
  | .ok raw => ofRaw raw
  | .error fault => .error (.definition fault)

def Specification.parse (text : String) : Except Error Specification :=
  ofDecoded <| decodeDocument text fun document node =>
    decodeSpecification document nestingLimit .root node

def Specification.parseDefinition (text : String) : Except Error Specification :=
  ofDecoded <| decodeDocument text fun document node =>
    decodeDefinition document nestingLimit .root node

end FaultInjection
