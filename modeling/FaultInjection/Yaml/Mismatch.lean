import FaultInjection.Decimal.Shortest
import FaultInjection.Text.Quoted

/-!
What is wrong with a well-formed document whose shape is not the expected one: where the offending
node stands, what it is, and what should stand there.
-/

namespace FaultInjection.Yaml

inductive Path where
  | root
  | item (parent : Path) (index : Nat)
  | field (parent : Path) (name : String)
  | unnamed (parent : Path)
  deriving DecidableEq, Repr

def Path.text : Path → String
  | .root => "."
  | .item parent index => s!"{parent.text}[{index}]"
  | .field .root name => name
  | .field parent name => s!"{parent.text}.{name}"
  | .unnamed .root => "?"
  | .unnamed parent => s!"{parent.text}.?"

/-- How finite numbers are spelled in messages: never with an exponent. -/
def messageNumbers : Binary64.DecimalStyle := ⟨400, 400, false⟩

inductive Found where
  | unit
  | boolean (value : Bool)
  | integer (value : Int)
  | wideInteger (value : Int)
  | number (value : Binary64)
  | text (value : String)
  | sequence
  | mapping
  deriving DecidableEq, Repr

def Found.describe : Found → String
  | .unit => "unit value"
  | .boolean value => "boolean \x60" ++ toString value ++ "\x60"
  | .integer value => "integer \x60" ++ toString value ++ "\x60"
  | .wideInteger value =>
      "integer \x60" ++ toString value ++ (if value < 0 then "\x60 as i128" else "\x60 as u128")
  | .number value =>
      let body := match value with
        | .nan => "NaN"
        | .infinite negative => if negative then "-inf" else "inf"
        | finite => (finite.write messageNumbers).getD ""
      "floating point \x60" ++ body ++ "\x60"
  | .text value => "string " ++ Text.quoted value
  | .sequence => "sequence"
  | .mapping => "map"

inductive Expected where
  | specification
  | definition
  | text
  | anyValue
  | fieldName
  deriving DecidableEq, Repr

def Expected.describe : Expected → String
  | .specification => "struct RawSpec"
  | .definition => "struct RawDefinition"
  | .text => "a string"
  | .anyValue => "any YAML value"
  | .fieldName => "field identifier"

inductive Mismatch where
  | wrongType (found : Found) (expected : Expected)
  | missingField (name : String)
  | duplicateField (name : String)
  deriving DecidableEq, Repr

def Mismatch.message : Mismatch → String
  | .wrongType found expected => s!"invalid type: {found.describe}, expected {expected.describe}"
  | .missingField name => "missing field \x60" ++ name ++ "\x60"
  | .duplicateField name => "duplicate field \x60" ++ name ++ "\x60"

end FaultInjection.Yaml
