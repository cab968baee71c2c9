import FaultInjection.Duration

/-!
Durations read from left to right in numbers of 128 bits. Each number on the way has to fit: the
digits of a count so far, the count in nanoseconds, and the sum. The seconds of the whole then have
to fit into 64 bits.
-/

namespace FaultInjection.Duration

def fit? (value : Nat) : Option Nat :=
  if value < 18446744073709551616 * 18446744073709551616 then some value else none

def extend? (value : Nat) : List Char → Option Nat
  | [] => some value
  | digit :: rest => do
      let shifted ← fit? (10 * value)
      let extended ← fit? (shifted + (digit.toNat - '0'.toNat))
      extend? extended rest

theorem behind_count_shorter (chars : List Char) (counted : chars.takeWhile Char.isDigit ≠ []) :
    ((chars.dropWhile Char.isDigit).dropWhile (!·.isDigit)).length < chars.length := by
  have unit := ((chars.dropWhile Char.isDigit).dropWhile_suffix (!·.isDigit)).length_le
  have whole := congrArg List.length (chars.takeWhile_append_dropWhile (p := Char.isDigit))
  have digits := List.length_pos_iff.mpr counted
  rw [List.length_append] at whole
  omega

/-- What the counts in a text raise `sum` to. A count goes up to the first character that is no
digit, and its unit goes from there to the next digit. -/
def scan? (sum : Nat) (chars : List Char) : Option Nat :=
  if chars = [] then some sum
  else if chars.takeWhile Char.isDigit = [] then none
  else do
    let behind := chars.dropWhile Char.isDigit
    let count ← extend? 0 (chars.takeWhile Char.isDigit)
    let length ← unitLength (behind.takeWhile (!·.isDigit))
    let nanos ← fit? (count * length)
    let next ← fit? (sum + nanos)
    scan? next (behind.dropWhile (!·.isDigit))
termination_by chars.length
decreasing_by exact behind_count_shorter chars ‹_›

def ofSum? (nanos : Nat) : Option Duration :=
  if h : nanos / 1000000000 < 18446744073709551616 then
    some ⟨nanos / 1000000000 * 1000000000 + nanos % 1000000000, by omega⟩
  else none

/-- The duration that a text stands for, with every number checked where it comes up. -/
def scanned? (text : String) : Option Duration :=
  let chars := Text.trimChars text.toList
  if chars = [] then none
  else if chars = ['0'] then some zero
  else (scan? 0 chars).bind ofSum?

end FaultInjection.Duration
