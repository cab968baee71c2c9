import FaultInjection.Text.Blank

/-!
Lengths of time, and the text they are written as: counts with units, such as `1h30m`. Reading
takes the units in any order and any number of times; writing is canonical, largest unit first
and zero counts left out.
-/

namespace FaultInjection

/-- A length of time in nanoseconds, of fewer than `2 ^ 64` seconds. -/
structure Duration where
  nanos : Nat
  inRange : nanos < 18446744073709551616 * 1000000000
  deriving DecidableEq

namespace Duration

def limit : Nat := 18446744073709551616 * 1000000000

def ofNanos? (nanos : Nat) : Option Duration :=
  if h : nanos < 18446744073709551616 * 1000000000 then some ⟨nanos, h⟩ else none

def zero : Duration := ⟨0, by decide⟩

def ofSeconds (seconds : UInt64) : Duration :=
  ⟨seconds.toNat * 1000000000, by have := seconds.toNat_lt; omega⟩

def isZero (duration : Duration) : Bool := duration.nanos = 0

instance : Inhabited Duration := ⟨zero⟩

def units : List (String × Nat) :=
  [("h", 3600000000000), ("m", 60000000000), ("s", 1000000000), ("ms", 1000000), ("us", 1000),
    ("ns", 1)]

def unitLength (name : List Char) : Option Nat :=
  (units.find? fun unit => unit.1.toList = name).map (·.2)

def digitsValue (digits : List Char) : Nat :=
  digits.foldl (fun value digit => 10 * value + (digit.toNat - '0'.toNat)) 0

def component (digits unit : List Char) : Option Nat :=
  if digits.all Char.isDigit then (unitLength unit).map (digitsValue digits * ·) else none

/-- The sum of counts with units, given as alternating runs of digits and other characters. -/
def total : List (List Char) → Option Nat
  | [] => some 0
  | digits :: unit :: rest => do
      let first ← component digits unit
      let others ← total rest
      return first + others
  | [_] => none

/-- The maximal runs of digits and of other characters. -/
def runs (chars : List Char) : List (List Char) :=
  chars.splitBy fun a b => a.isDigit == b.isDigit

def nanosOf (chars : List Char) : Option Nat :=
  if chars = [] then none
  else if chars = ['0'] then some 0
  else total (runs chars)

/-- The duration that a text stands for, read without regard to white space around it. -/
def parse? (text : String) : Option Duration :=
  (nanosOf (Text.trimChars text.toList)).bind ofNanos?

/-- The counts for the given units, each as many as fit into what the larger units left. -/
def counts : Nat → List (String × Nat) → List (Nat × String)
  | _, [] => []
  | remaining, (name, length) :: rest =>
      (remaining / length, name) :: counts (remaining % length) rest

/-- The canonical text: no zero counts, and `0s` for no time at all. -/
def text (duration : Duration) : String :=
  if duration.nanos = 0 then "0s"
  else String.join <| ((counts duration.nanos units).filter (·.1 ≠ 0)).map fun count =>
    toString count.1 ++ count.2

end Duration

end FaultInjection
