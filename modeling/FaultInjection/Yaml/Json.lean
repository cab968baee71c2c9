import FaultInjection.Decimal.Notation
import FaultInjection.Json.Basic
import FaultInjection.Yaml.Value

/-!
YAML values as JSON and back. Mapping keys become strings where they have a text of their own; a
mapping with any other key has no JSON form. A tagged value becomes an object of one member.
-/

namespace FaultInjection.Yaml

/-- As in YAML, except that a positive exponent shows its sign. -/
def jsonNumberStyle : Binary64.DecimalStyle := ⟨16, 5, true⟩

def tagName (tag : String) : String := "!" ++ tag

inductive JsonFault where
  | unnamedMember
  | endlessMember
  deriving DecidableEq, Repr

def JsonFault.message : JsonFault → String
  | .unnamedMember => "key must be a string"
  | .endlessMember => "float key must be finite (got NaN or +/-inf)"

def Value.memberName : Value → Except JsonFault String
  | .bool value => .ok (if value then "true" else "false")
  | .integer value => .ok (toString value)
  | .float value =>
      match value.write jsonNumberStyle with
      | some text => .ok text
      | none => .error .endlessMember
  | .string text => .ok text
  | _ => .error .unnamedMember

/-- A number is whole, unless it has a fraction or an exponent. -/
def Value.ofNumber (text : String) : Value :=
  if text.toList.any fun c => c == '.' || c == 'e' || c == 'E' then
    .float ((Decimal.binary64? text.toList).getD .nan)
  else .integer ((text.toInt?).getD 0)

mutual

def Value.ofJson : Json → Value
  | .null => .null
  | .bool value => .bool value
  | .number text => .ofNumber text
  | .string text => .string text
  | .array items => .sequence (itemsOfJson items)
  | .object members => .mapping (entriesOfJson members)

def itemsOfJson : List Json → List Value
  | [] => []
  | item :: rest => .ofJson item :: itemsOfJson rest

def entriesOfJson : List (String × Json) → List (Value × Value)
  | [] => []
  | (name, value) :: rest => (.string name, .ofJson value) :: entriesOfJson rest

end

mutual

/-- The value as JSON. Of several faults the first one in the text counts. -/
def Value.json : Value → Except JsonFault Json
  | .null => .ok .null
  | .bool value => .ok (.bool value)
  | .integer value => .ok (.ofInt value)
  | .float value => .ok (((value.write jsonNumberStyle).map Json.number).getD .null)
  | .string text => .ok (.string text)
  | .sequence items => (itemsJson items).map Json.array
  | .mapping entries => (entriesJson entries).map Json.object
  | .tagged tag value => value.json.map fun json => .object [(tagName tag, json)]

def itemsJson : List Value → Except JsonFault (List Json)
  | [] => .ok []
  | item :: rest => do
      let first ← item.json
      let others ← itemsJson rest
      .ok (first :: others)

def entriesJson : List (Value × Value) → Except JsonFault (List (String × Json))
  | [] => .ok []
  | (key, value) :: rest => do
      let name ← key.memberName
      let first ← value.json
      let others ← entriesJson rest
      .ok ((name, first) :: others)

end

end FaultInjection.Yaml
