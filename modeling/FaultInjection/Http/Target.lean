import FaultInjection.Json.Reader
import FaultInjection.Text.Blank
import FaultInjection.Text.Utf8

/-!
What a request is addressed to: a path of segments, and a query of names with values. Bytes may be
written as a percent sign with two hexadecimal digits; a percent sign without them is itself.
-/

namespace FaultInjection.Http

structure Target where
  segments : List String
  query : List (String × String)
  deriving DecidableEq, Repr

def percentDecode : List UInt8 → List UInt8
  | 0x25 :: high :: low :: rest =>
      match Json.hexDigit? (Char.ofNat high.toNat), Json.hexDigit? (Char.ofNat low.toNat) with
      | some high, some low => UInt8.ofNat (16 * high + low) :: percentDecode rest
      | _, _ => 0x25 :: percentDecode (high :: low :: rest)
  | byte :: rest => byte :: percentDecode rest
  | [] => []

def segmentText? (segment : String) : Option String :=
  Text.decodeStrict? (percentDecode (Text.encode segment))

namespace Target

/-- The text of a name or a value, in which a plus sign is a blank. -/
def formText (chars : List Char) : String :=
  let plain := chars.map fun c => if c = '+' then ' ' else c
  Text.decodeLossy (percentDecode (Text.encode (String.ofList plain)))

/-- The parts of a query; a name without a value has an empty one. -/
def formPairs (query : List Char) : List (String × String) :=
  let parts := (Text.splitAll '&' query).filter fun part => !part.isEmpty
  parts.map fun part =>
    match Text.splitFirst '=' part with
    | some (name, value) => (formText name, formText value)
    | none => (formText part, "")

/-- What a text is addressed to. Whatever stands behind a number sign is for the client alone. -/
def ofText (text : String) : Target :=
  let sent := text.toList.takeWhile (· != '#')
  let (path, query) := (Text.splitFirst '?' sent).getD (sent, [])
  ⟨(Text.splitAll '/' path).map String.ofList, formPairs query⟩

end Target

end FaultInjection.Http
