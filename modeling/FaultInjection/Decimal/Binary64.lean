/-!
Floating-point numbers as data: a sign, a significand and a power of two, so that reading and
writing them is exact arithmetic on natural numbers. A finite number is in lowest form: its
significand has 53 bits, or fewer at the smallest exponent.
-/

namespace FaultInjection

inductive Binary64 where
  | nan
  | infinite (negative : Bool)
  /-- The number `significand * 2 ^ exponent`, negated if `negative`. -/
  | finite (negative : Bool) (significand : Nat) (exponent : Int)
  deriving DecidableEq, Repr, Inhabited

namespace Binary64

def minExponent : Int := -1074

def maxExponent : Int := 971

def leadingBit : Nat := 4503599627370496

def isFinite : Binary64 → Bool
  | finite _ _ _ => true
  | _ => false

/-- Numeric equality, under which the two zeros are one number and so is every NaN. -/
def same : Binary64 → Binary64 → Bool
  | nan, nan => true
  | infinite a, infinite b => a == b
  | finite a m p, finite b n q => (m == 0 && n == 0) || (a == b && m == n && p == q)
  | _, _ => false

/-- The quotient rounded to the nearest whole number, a half to the even neighbour. -/
def roundDiv (numerator denominator : Nat) : Nat :=
  let quotient := numerator / denominator
  let twice := 2 * (numerator % denominator)
  if twice < denominator then quotient
  else if denominator < twice then quotient + 1
  else quotient + quotient % 2

def scaled (numerator denominator : Nat) (exponent : Int) : Nat × Nat :=
  match exponent with
  | .ofNat e => (numerator, denominator * Nat.pow 2 e)
  | .negSucc e => (numerator * Nat.pow 2 (e + 1), denominator)

def ofRatio (negative : Bool) (numerator denominator : Nat) : Binary64 :=
  if numerator = 0 then finite negative 0 minExponent
  else
    let guess : Int := (numerator.log2 : Int) - (denominator.log2 : Int) - 52
    let parts := scaled numerator denominator guess
    let exponent := max minExponent (if parts.1 / parts.2 < leadingBit then guess - 1 else guess)
    let ratio := scaled numerator denominator exponent
    let rounded := roundDiv ratio.1 ratio.2
    let significand := if rounded = 2 * leadingBit then leadingBit else rounded
    let lifted := if rounded = 2 * leadingBit then exponent + 1 else exponent
    if maxExponent < lifted then infinite negative else finite negative significand lifted

/-- The number nearest to `digits * 10 ^ power`. Powers far outside the range of the format are
decided by the count of digits alone. -/
def ofDecimal (negative : Bool) (digits : Nat) (power : Int) : Binary64 :=
  if digits = 0 then finite negative 0 minExponent
  else
    let magnitude : Int := (Nat.toDigits 10 digits).length + power
    if 310 < magnitude then infinite negative
    else if magnitude < -330 then finite negative 0 minExponent
    else match power with
      | .ofNat p => ofRatio negative (digits * Nat.pow 10 p) 1
      | .negSucc p => ofRatio negative digits (Nat.pow 10 (p + 1))

def ofInt (n : Int) : Binary64 := ofRatio (n < 0) n.natAbs 1

end Binary64

end FaultInjection
