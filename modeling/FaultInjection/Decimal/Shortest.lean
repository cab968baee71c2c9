import FaultInjection.Decimal.Binary64

/-!
The fewest decimal digits that read back as a given floating-point number, and of those the ones
nearest to it. A number stands for the interval of reals that round to it; a grid of decimal
multiples is coarse enough exactly when one of the two grid points around the number lies in that
interval.
-/

namespace FaultInjection.Binary64

/-- A positive number as an exact ratio, with the half-widths of its rounding interval, all in
quarters of its last place. -/
structure Interval where
  low : Nat
  middle : Nat
  high : Nat
  unit : Int
  closed : Bool

def interval (significand : Nat) (exponent : Int) : Interval where
  low := 4 * significand - (if significand = leadingBit ∧ minExponent < exponent then 1 else 2)
  middle := 4 * significand
  high := 4 * significand + 2
  unit := exponent - 2
  closed := significand % 2 = 0

/-- Whether `digits * 10 ^ power` rounds to the number. -/
def Interval.contains (range : Interval) (digits : Nat) (power : Int) : Bool :=
  let point := scaled (digits * Nat.pow 10 power.toNat) (Nat.pow 10 (-power).toNat) range.unit
  let low := range.low * point.2
  let high := range.high * point.2
  if range.closed then low ≤ point.1 && point.1 ≤ high else low < point.1 && point.1 < high

def Interval.distances (range : Interval) (digits : Nat) (power : Int) : Nat × Nat :=
  let below := scaled (digits * Nat.pow 10 power.toNat) (Nat.pow 10 (-power).toNat) range.unit
  let above := scaled ((digits + 1) * Nat.pow 10 power.toNat) (Nat.pow 10 (-power).toNat) range.unit
  (range.middle * below.2 - below.1, above.1 - range.middle * above.2)

def Interval.floor (range : Interval) (power : Int) : Nat :=
  let value :=
    scaled (range.middle * Nat.pow 10 (-power).toNat) (Nat.pow 10 power.toNat) (-range.unit)
  value.1 / value.2

/-- The point of one decimal grid that stands for the number, if the grid has one: the nearer of
two, and of two equally near the even one. -/
def Interval.onGrid (range : Interval) (power : Int) : Option Nat :=
  let below := range.floor power
  let hitBelow := 0 < below && range.contains below power
  let hitAbove := range.contains (below + 1) power
  match hitBelow, hitAbove with
  | false, false => none
  | true, false => some below
  | false, true => some (below + 1)
  | true, true =>
      let gap := range.distances below power
      if gap.1 < gap.2 then some below
      else if gap.2 < gap.1 then some (below + 1)
      else some (below + below % 2)

def ceilingPower (significand : Nat) (exponent : Int) : Int :=
  let bits : Int := significand.log2 + exponent + 1
  if 0 ≤ bits then bits * 30103 / 100000 + 2 else bits * 30102 / 100000 + 2

/-- The digits and the power of ten of the shortest decimal for a positive number. -/
def shortest (significand : Nat) (exponent : Int) : Nat × Int :=
  let range := interval significand exponent
  let top := ceilingPower significand exponent
  let powers := (List.range 24).map fun (step : Nat) => top - (step : Int)
  (powers.findSome? fun power => (range.onGrid power).map (·, power)).getD (significand, 0)

/-- How a format writes finite numbers: up to which power of ten without an exponent, from how
many leading zeros with one, and whether a positive exponent shows its sign. -/
structure DecimalStyle where
  positionalDigits : Int
  leadingZeros : Int
  plusSign : Bool

def writeExponent (style : DecimalStyle) (power : Int) : String :=
  if 0 ≤ power && style.plusSign then s!"e+{power}" else s!"e{power}"

def writeDigits (style : DecimalStyle) (digits : Nat) (power : Int) : String :=
  let figures := Nat.toDigits 10 digits
  let count : Int := figures.length
  let point := count + power
  let zeros (n : Int) : List Char := List.replicate n.toNat '0'
  if 0 ≤ power && point ≤ style.positionalDigits then
    String.ofList (figures ++ zeros power ++ ['.', '0'])
  else if 0 < point && point ≤ style.positionalDigits then
    String.ofList (figures.take point.toNat ++ ['.'] ++ figures.drop point.toNat)
  else if -style.leadingZeros < point && point ≤ 0 then
    String.ofList (['0', '.'] ++ zeros (-point) ++ figures)
  else match figures with
    | [only] => String.singleton only ++ writeExponent style (point - 1)
    | first :: others => String.ofList (first :: '.' :: others) ++ writeExponent style (point - 1)
    | [] => ""

def writeMagnitude (style : DecimalStyle) (significand : Nat) (exponent : Int) : String :=
  if significand = 0 then "0.0"
  else
    let decimal := shortest significand exponent
    writeDigits style decimal.1 decimal.2

/-- The text of a finite number; `none` for the others, which each format spells its own way. -/
def write (style : DecimalStyle) : Binary64 → Option String
  | finite negative significand exponent =>
      some ((if negative then "-" else "") ++ writeMagnitude style significand exponent)
  | _ => none

end FaultInjection.Binary64
