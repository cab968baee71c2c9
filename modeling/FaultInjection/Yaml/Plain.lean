import FaultInjection.Decimal.Notation
import FaultInjection.Yaml.Value
import FaultInjection.Yaml.Cursor
import FaultInjection.Yaml.Mismatch

/-!
What an unquoted scalar means: nothing, a truth value, an integer, a floating-point number, or the
text itself. Digits after a leading zero are text.
-/

namespace FaultInjection.Yaml

inductive Plain where
  | null
  | bool (value : Bool)
  | integer (value : Int)
  | wide (value : Int)
  | float (value : Binary64)
  | text
  deriving DecidableEq, Repr

namespace Plain

def isNull (text : String) : Bool :=
  text == "~" || text == "null" || text == "Null" || text == "NULL"

def bool? (text : String) : Option Bool :=
  if text == "true" || text == "True" || text == "TRUE" then some true
  else if text == "false" || text == "False" || text == "FALSE" then some false
  else none

def digits? (base : Nat) (chars : List Char) : Option Nat :=
  if chars.isEmpty then none
  else chars.foldlM (fun value c => do
    let digit ← hexValue c
    if digit < base then some (base * value + digit) else none) 0

def based? : List Char → Option Nat
  | '0' :: 'x' :: rest => digits? 16 rest
  | '0' :: 'o' :: rest => digits? 8 rest
  | '0' :: 'b' :: rest => digits? 2 rest
  | _ => none

/-- Whether the text is digits with a needless zero in front. -/
def hasIdleZero (chars : List Char) : Bool :=
  let unsigned := match chars with
    | '-' :: rest => rest
    | '+' :: rest => rest
    | _ => chars
  match unsigned with
  | '0' :: next :: rest => (next :: rest).all Char.isDigit
  | _ => false

def integer? (chars : List Char) : Option Int :=
  let magnitude (unsigned : List Char) : Option Nat :=
    match based? unsigned with
    | some value => some value
    | none => if hasIdleZero chars then none else digits? 10 unsigned
  match chars with
  | '-' :: rest => (magnitude rest).map fun value => -(value : Int)
  | '+' :: rest => (magnitude rest).map fun value => (value : Int)
  | _ => (magnitude chars).map fun value => (value : Int)

def ofInteger (value : Int) : Option Plain :=
  if -9223372036854775808 ≤ value ∧ value < 18446744073709551616 then some (integer value)
  else if -170141183460469231731687303715884105728 ≤ value ∧
      value < 340282366920938463463374607431768211456 then some (wide value)
  else none

/-- The floating-point number a text writes. A decimal beyond the range of the format is none. -/
def float? (chars : List Char) : Option Binary64 :=
  let text := String.ofList chars
  let positive := match chars with
    | '+' :: rest => rest
    | _ => chars
  let name := String.ofList positive
  if name == ".inf" || name == ".Inf" || name == ".INF" then some (.infinite false)
  else if text == "-.inf" || text == "-.Inf" || text == "-.INF" then some (.infinite true)
  else if text == ".nan" || text == ".NaN" || text == ".NAN" then some .nan
  else
    let number := match chars with
      | '-' :: rest => Decimal.unsigned? true rest
      | _ => Decimal.unsigned? false positive
    number.filter Binary64.isFinite

def ofText (text : String) : Plain :=
  let chars := text.toList
  if text == "" || isNull text then null
  else match bool? text with
    | some value => bool value
    | none => match (integer? chars).bind ofInteger with
      | some meaning => meaning
      | none =>
          if hasIdleZero chars then Plain.text
          else match float? chars with
            | some value => float value
            | none => Plain.text

def value? (text : String) : Except Found Value :=
  match ofText text with
  | .null => .ok .null
  | .bool value => .ok (.bool value)
  | .integer value => .ok (.integer value)
  | .wide value => .error (.wideInteger value)
  | .float value => .ok (.float value)
  | .text => .ok (.string text)

end Plain

end FaultInjection.Yaml
