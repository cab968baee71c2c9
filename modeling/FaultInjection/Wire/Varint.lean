/-!
Numbers as runs of bytes: seven bits a byte, lowest bits first, and a mark on every byte but the
last. A run holds at most ten bytes, and its number fits into 64 bits.
-/

namespace FaultInjection.Wire

abbrev Bytes := List UInt8

namespace Varint

def encode (value : Nat) : Bytes :=
  if value < 128 then [UInt8.ofNat value]
  else UInt8.ofNat (value % 128 + 128) :: encode (value / 128)
termination_by value

/-- The number at the start, of at most `limit` bytes, and what follows it. -/
def decodeWithin : (limit : Nat) → Bytes → Option (Nat × Bytes)
  | 0, _ => none
  | _, [] => none
  | limit + 1, byte :: rest =>
      if byte.toNat < 128 then some (byte.toNat, rest)
      else match decodeWithin limit rest with
        | none => none
        | some (high, after) => some (128 * high + (byte.toNat - 128), after)

def decode? (bytes : Bytes) : Option (Nat × Bytes) :=
  match decodeWithin 10 bytes with
  | some (value, rest) => if value < 18446744073709551616 then some (value, rest) else none
  | none => none

end Varint

end FaultInjection.Wire
