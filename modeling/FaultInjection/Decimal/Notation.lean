import FaultInjection.Decimal.Binary64

/-!
Decimals as text: digits, a fraction behind a point, and a power of ten behind the letter e.
-/

namespace FaultInjection.Decimal

def digits? (chars : List Char) : Option Nat :=
  if chars.isEmpty then none
  else chars.foldlM (fun value c =>
    if c.isDigit then some (10 * value + (c.toNat - '0'.toNat)) else none) 0

def exponent? : List Char → Option Int
  | [] => some 0
  | mark :: rest =>
      if mark == 'e' || mark == 'E' then
        match rest with
        | '-' :: digits => (digits? digits).map fun value => -(value : Int)
        | '+' :: digits => (digits? digits).map fun value => (value : Int)
        | digits => (digits? digits).map fun value => (value : Int)
      else none

def unsigned? (negative : Bool) (chars : List Char) : Option Binary64 := do
  let whole := chars.takeWhile Char.isDigit
  let afterWhole := chars.dropWhile Char.isDigit
  let (fraction, afterFraction) := match afterWhole with
    | '.' :: rest => (rest.takeWhile Char.isDigit, rest.dropWhile Char.isDigit)
    | rest => ([], rest)
  let figures ← digits? (whole ++ fraction)
  let power ← exponent? afterFraction
  return Binary64.ofDecimal negative figures (power - fraction.length)

def binary64? : List Char → Option Binary64
  | '-' :: rest => unsigned? true rest
  | chars => unsigned? false chars

end FaultInjection.Decimal
