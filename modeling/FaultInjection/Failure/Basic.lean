import FaultInjection.Failure.Specification

/-!
A failure: a specification that is meant for one node, the state that the node was last seen in,
and the state that the operator asks for.
-/

namespace FaultInjection

inductive Failure.State where
  | unknown
  | enabled
  | disabled
  deriving DecidableEq, Repr, Inhabited

namespace Failure.State

def text : State → String
  | unknown => "unknown"
  | enabled => "enabled"
  | disabled => "disabled"

def code : State → Int32
  | unknown => 0
  | enabled => 1
  | disabled => 2

def ofCode (code : Int32) : Except Error State :=
  if code = 0 then .ok unknown
  else if code = 1 then .ok enabled
  else if code = 2 then .ok disabled
  else .error (.unknownState code.toInt)

end Failure.State

/-- Ids are unique on a node. The node alone writes the current state, the operator alone the
expected one; the generation counts the requests to enable the failure. -/
structure Failure where
  node : String
  id : String
  specification : Specification
  current : Failure.State
  expected : Failure.State
  generation : UInt64
  deriving Inhabited

namespace Failure

def isConverged (failure : Failure) : Bool := failure.current = failure.expected

def json (failure : Failure) : Except Yaml.JsonFault Json :=
  failure.specification.json.map fun specification =>
    .object [
      ("metadata", .object [("id", .string failure.id), ("node_id", .string failure.node)]),
      ("spec", specification),
      ("status", .object [("current_state", .string failure.current.text),
        ("expected_state", .string failure.expected.text),
        ("generation", Json.ofNat failure.generation.toNat)])]

/-- Equality of failures, up to the order of mapping entries in option values. -/
def same (a b : Failure) : Bool :=
  a.node == b.node && a.id == b.id && a.specification.same b.specification &&
    a.current == b.current && a.expected == b.expected && a.generation == b.generation

end Failure

end FaultInjection
