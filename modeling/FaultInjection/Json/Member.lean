import FaultInjection.Json.Reader
import FaultInjection.Table

/-!
The members of objects by name. A member that is missing, or is of another kind than was asked for,
counts as empty, zero or false.
-/

namespace FaultInjection.Json

def sub (json : Json) (name : String) : Json := (json.member? name).getD .null

def str? (json : Json) (name : String) : Option String :=
  match json.sub name with
  | string text => some text
  | number text => some text
  | _ => none

def str (json : Json) (name : String) : String := (json.str? name).getD ""

def int (json : Json) (name : String) : Int := ((json.str name).toInt?).getD 0

def nat (json : Json) (name : String) : Nat := (json.int name).toNat

def span (json : Json) (name : String) : Nat := json.nat name * 1000000

def flag? (json : Json) (name : String) : Option Bool :=
  match json.sub name with
  | bool value => some value
  | _ => none

def flag (json : Json) (name : String) : Bool := (json.flag? name).getD false

def items (json : Json) (name : String) : List Json :=
  match json.sub name with
  | array items => items
  | _ => []

def members : Json → List (String × Json)
  | object members => members
  | _ => []

def texts (json : Json) (name : String) : Table String :=
  Table.ofEntries <| (json.sub name).members.map fun (name, value) =>
    match value with
    | string text => (name, text)
    | _ => (name, "")

mutual

def sorted : Json → Json
  | array items => array (sortedItems items)
  | object members => object (Table.ofEntries (sortedMembers members))
  | json => json

def sortedItems : List Json → List Json
  | [] => []
  | item :: rest => item.sorted :: sortedItems rest

def sortedMembers : List (String × Json) → List (String × Json)
  | [] => []
  | (name, value) :: rest => (name, value.sorted) :: sortedMembers rest

end

end FaultInjection.Json
