/-!
Text in bytes. A byte that starts no character, or one whose character breaks off, is given up
together with the part of the character that it has.
-/

namespace FaultInjection.Text

def tailRanges? (first : UInt8) : Option (List (UInt8 × UInt8)) :=
  let tail : UInt8 × UInt8 := (0x80, 0xBF)
  if first < 0x80 then some []
  else if 0xC2 ≤ first && first ≤ 0xDF then some [tail]
  else if first = 0xE0 then some [(0xA0, 0xBF), tail]
  else if first = 0xED then some [(0x80, 0x9F), tail]
  else if 0xE1 ≤ first && first ≤ 0xEF then some [tail, tail]
  else if first = 0xF0 then some [(0x90, 0xBF), tail, tail]
  else if 0xF1 ≤ first && first ≤ 0xF3 then some [tail, tail, tail]
  else if first = 0xF4 then some [(0x80, 0x8F), tail, tail]
  else none

def leadBits (first : UInt8) (tails : Nat) : Nat :=
  if tails = 0 then first.toNat else first.toNat % Nat.pow 2 (6 - tails)

def readTails (code : Nat) : List (UInt8 × UInt8) → List UInt8 → Option Nat × List UInt8
  | [], rest => (some code, rest)
  | range :: ranges, byte :: rest =>
      if range.1 ≤ byte && byte ≤ range.2 then
        readTails (64 * code + byte.toNat % 64) ranges rest
      else (none, byte :: rest)
  | _ :: _, [] => (none, [])

theorem readTails_length_le (code : Nat) (ranges : List (UInt8 × UInt8)) (bytes : List UInt8) :
    (readTails code ranges bytes).2.length ≤ bytes.length := by
  fun_induction readTails code ranges bytes with
  | case1 => exact Nat.le_refl _
  | case2 code range ranges byte rest fits ih =>
      simp only [List.length_cons]
      omega
  | case3 => exact Nat.le_refl _
  | case4 => exact Nat.le_refl _

/-- The characters of some bytes, with nothing for each part that is given up. -/
def decode : List UInt8 → List (Option Char)
  | [] => []
  | first :: rest =>
      match tailRanges? first with
      | none => none :: decode rest
      | some ranges =>
          let read := readTails (leadBits first ranges.length) ranges rest
          read.1.map Char.ofNat :: decode read.2
termination_by bytes => bytes.length
decreasing_by
  · simp
  · have := readTails_length_le (leadBits first ranges.length) ranges rest
    simp only [List.length_cons]
    omega

def replacement : Char := '\uFFFD'

/-- The text of some bytes, with a replacement for each part that cannot be read. -/
def decodeLossy (bytes : List UInt8) : String :=
  String.ofList ((decode bytes).map fun character => character.getD replacement)

def decodeStrict? (bytes : List UInt8) : Option String := String.fromUTF8? ⟨bytes.toArray⟩

def encode (text : String) : List UInt8 := text.toUTF8.toList

end FaultInjection.Text
