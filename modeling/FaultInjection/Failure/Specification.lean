import FaultInjection.Duration
import FaultInjection.Error
import FaultInjection.Table
import FaultInjection.Yaml.Printer
import FaultInjection.Yaml.Json

/-!
What a failure does: a list of attacks with their options, and a time after which they are
reverted. Specifications are checked when they come from a document; one that is put together by
hand may hold attack maps of several entries, which are refused wherever an attack is needed.
-/

namespace FaultInjection

abbrev Options := Table Yaml.Value

/-- One element of an attack list: attack kinds with their options. -/
abbrev AttackMap := Table (Option Options)

structure Specification where
  /-- No time at all means that nothing is reverted by itself. -/
  timeout : Duration
  attacks : List AttackMap
  deriving Inhabited

structure RawSpecification where
  timeout : Option String
  attacks : Option Yaml.Value

def Duration.ofText (text : String) : Except Error Duration :=
  match Duration.parse? text with
  | some duration => .ok duration
  | none => .error (.invalidDuration text)

namespace Options

def sameEntries : Options → Options → Bool
  | [], [] => true
  | (name, value) :: rest, (name', value') :: rest' =>
      name == name' && value.same value' && sameEntries rest rest'
  | _, _ => false

end Options

namespace AttackMap

def ofKind (kind : String) (options : Option Options) : AttackMap := [(kind, options)]

def single : AttackMap → Except Error (String × Option Options)
  | [entry] => .ok entry
  | _ => .error .multiKeyAttackMap

def sameOptions : Option Options → Option Options → Bool
  | none, none => true
  | some a, some b => Options.sameEntries a b
  | _, _ => false

def same : AttackMap → AttackMap → Bool
  | [], [] => true
  | (kind, options) :: rest, (kind', options') :: rest' =>
      kind == kind' && sameOptions options options' && same rest rest'
  | _, _ => false

def value (map : AttackMap) : Yaml.Value :=
  .mapping <| map.map fun entry =>
    (.string entry.1,
      match entry.2 with
      | none => .null
      | some options => .mapping (options.map fun option => (.string option.1, option.2)))

end AttackMap

namespace Yaml

/-- What the entries of a mapping are sorted by: a string itself, another key's text. -/
def Value.sortKey : Value → String
  | .string text => text
  | key => key.text?.getD ""

/-- The entries in ascending order of their keys; entries with equal sort keys keep their order. -/
def sortEntries (entries : List (Value × Value)) : List (Value × Value) :=
  entries.mergeSort fun a b => !decide (b.1.sortKey < a.1.sortKey)

mutual

/-- The value with all mappings sorted, except those inside keys. -/
def Value.canonical : Value → Value
  | .mapping entries => .mapping (sortEntries (canonicalEntries entries))
  | .sequence items => .sequence (canonicalItems items)
  | .tagged tag value => .tagged tag value.canonical
  | other => other

def canonicalItems : List Value → List Value
  | [] => []
  | item :: rest => item.canonical :: canonicalItems rest

def canonicalEntries : List (Value × Value) → List (Value × Value)
  | [] => []
  | (key, value) :: rest => (key, value.canonical) :: canonicalEntries rest

end

end Yaml

def Options.ofEntries : List (Yaml.Value × Yaml.Value) → Except Error (List (String × Yaml.Value))
  | [] => .ok []
  | (.string name, value) :: rest => do
      let others ← ofEntries rest
      .ok ((name, value.canonical) :: others)
  | _ => .error .attacksFormat

def AttackMap.ofValue : Yaml.Value → Except Error AttackMap
  | .mapping [(.string kind, .null)] => .ok (ofKind kind none)
  | .mapping [(.string kind, .mapping entries)] => do
      let options ← Options.ofEntries entries
      .ok (ofKind kind (some (Table.ofEntries options)))
  | _ => .error .attacksFormat

def attacksOfItems : List Yaml.Value → Except Error (List AttackMap)
  | [] => .ok []
  | item :: rest => do
      let first ← AttackMap.ofValue item
      let others ← attacksOfItems rest
      .ok (first :: others)

def attacksOfValue : Option Yaml.Value → Except Error (List AttackMap)
  | none => .ok []
  | some .null => .ok []
  | some (.sequence items) => attacksOfItems items
  | some _ => .error .attacksFormat

namespace Specification

def empty : Specification := ⟨Duration.zero, []⟩

/-- Checks a specification: first its timeout, then its attacks in order. -/
def ofRaw (raw : RawSpecification) : Except Error Specification := do
  let timeout ← match raw.timeout with
    | none => .ok Duration.zero
    | some text => Duration.ofText text
  let attacks ← attacksOfValue raw.attacks
  .ok ⟨timeout, attacks⟩

def sameAttacks : List AttackMap → List AttackMap → Bool
  | [], [] => true
  | a :: as, b :: bs => a.same b && sameAttacks as bs
  | _, _ => false

/-- Equality of specifications, up to the order of mapping entries in option values. -/
def same (a b : Specification) : Bool :=
  a.timeout == b.timeout && sameAttacks a.attacks b.attacks

/-- The specification as a document; a zero timeout is left out. -/
def value (specification : Specification) : Yaml.Value :=
  let attacks := (Yaml.Value.string "attacks",
    Yaml.Value.sequence (specification.attacks.map AttackMap.value))
  .mapping <|
    if specification.timeout.isZero then [attacks]
    else [(.string "timeout", .string specification.timeout.text), attacks]

def json (specification : Specification) : Except Yaml.JsonFault Json := specification.value.json

def hasSingleMaps (specification : Specification) : Bool :=
  specification.attacks.all fun map => map.length = 1

def renderValue (specification : Specification) (document : Yaml.Value) : Except Error String :=
  if specification.hasSingleMaps then
    match document.text? with
    | some text => .ok text
    | none => .error (.definition .document)
  else .error .multiKeyAttackMap

def render (specification : Specification) : Except Error String :=
  specification.renderValue specification.value

def renderDefinition (specification : Specification) : Except Error String :=
  specification.renderValue (.mapping [(.string "spec", specification.value)])

end Specification

end FaultInjection
