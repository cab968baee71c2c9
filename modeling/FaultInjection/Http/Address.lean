import FaultInjection.Text.Blank
import FaultInjection.Text.Utf8

/-!
Addresses on the web in one spelling: the scheme and the host in small letters, no port where it is
the usual one, no credentials, and a path without detours in which every odd byte is written as a
percent sign with two digits.
-/

namespace FaultInjection.Http

structure Address where
  scheme : String
  host : String
  port : Option Nat
  path : String
  deriving DecidableEq, Repr

namespace Address

def isSchemeChar (c : Char) : Bool := c.isAlphanum || c == '+' || c == '-' || c == '.'

def splitScheme? (chars : List Char) : Option (String × List Char) :=
  match chars with
  | first :: _ =>
      match Text.splitFirst ':' chars with
      | some (scheme, rest) =>
          if first.isAlpha && scheme.all isSchemeChar then
            some (String.ofList (scheme.map Char.toLower), rest)
          else none
      | none => none
  | [] => none

def usualPorts : List (String × Nat) :=
  [("http", 80), ("https", 443), ("ftp", 21), ("ws", 80), ("wss", 443)]

def isSlash (c : Char) : Bool := c == '/' || c == '\\'

def endsHost (c : Char) : Bool := isSlash c || c == '?' || c == '#'

def isForbiddenInHost (c : Char) : Bool :=
  c.toNat ≤ 0x20 || c.toNat == 0x7F || "#/:<>?@[\\]^|%".toList.contains c

/-- The number of a port, if it is one. No digits at all are no port. -/
def port? (digits : List Char) : Option (Option Nat) :=
  if !digits.all Char.isDigit then none
  else
    let value := digits.foldl (fun value c => 10 * value + (c.toNat - '0'.toNat)) 0
    if digits.isEmpty then some none else if value < 65536 then some (some value) else none

/-- A host in small letters; one in brackets is kept as it is. -/
def host? (chars : List Char) : Option String :=
  match chars with
  | [] => none
  | '[' :: rest => if rest.getLast? == some ']' then some (String.ofList chars) else none
  | _ =>
      if chars.any isForbiddenInHost then none else some (String.ofList (chars.map Char.toLower))

/-- A host and a port. The last colon separates them, unless it stands in brackets. -/
def hostAndPort? (chars : List Char) : Option (String × Option Nat) :=
  let digits := (chars.reverse.takeWhile fun c => c != ':' && c != ']').reverse
  let front := chars.take (chars.length - digits.length)
  if front.getLast? == some ':' then do
    return (← host? front.dropLast, ← port? digits)
  else (host? chars).map (·, none)

def isPlain (c : Char) : Bool :=
  0x21 ≤ c.toNat && c.toNat < 0x7F && !"\"#<>\x60\x7b\x7d".toList.contains c

def percentEncode (byte : UInt8) : List Char :=
  '%' :: [byte.toNat / 16, byte.toNat % 16].map fun digit => (Nat.digitChar digit).toUpper

def encoded (chars : List Char) : List Char :=
  chars.flatMap fun c =>
    if isPlain c then [c] else (Text.encode (String.singleton c)).flatMap percentEncode

def withoutDetours (kept : List (List Char)) : List (List Char) → List (List Char)
  | [] => kept.reverse
  | segment :: rest =>
      let kept := if segment == ['.', '.'] then kept.drop 1
        else if segment == ['.'] then kept else segment :: kept
      let isDetour := segment == ['.'] || segment == ['.', '.']
      if isDetour && rest.isEmpty then ([] :: kept).reverse else withoutDetours kept rest

def pathText (chars : List Char) : List Char :=
  let slashed := chars.map fun c => if c == '\\' then '/' else c
  let segments := Text.splitAll '/' (slashed.dropWhile (· == '/') |> fun rest =>
    List.replicate ((slashed.takeWhile (· == '/')).length - 1) '/' ++ rest)
  (withoutDetours [] segments).flatMap fun segment => '/' :: encoded segment

def ofRest? (scheme : String) (usual : Nat) (chars : List Char) : Option Address := do
  let named := chars.dropWhile isSlash
  let authority := named.takeWhile fun c => !endsHost c
  let rest := named.dropWhile fun c => !endsHost c
  let hostText := (authority.reverse.takeWhile (· != '@')).reverse
  let (host, port) ← hostAndPort? hostText
  let sent := rest.takeWhile (· != '#')
  let path := pathText (sent.takeWhile (· != '?'))
  let query := encoded (sent.dropWhile (· != '?'))
  return ⟨scheme, host, port.filter (· != usual), String.ofList (path ++ query)⟩

def text (address : Address) : String :=
  let port := match address.port with
    | some port => s!":{port}"
    | none => ""
  address.scheme ++ "://" ++ address.host ++ port ++ address.path

end Address

inductive AddressUse where
  | web (address : Address)
  | foreign (text : String)
  | invalid
  deriving DecidableEq, Repr

def AddressUse.ofText (text : String) : AddressUse :=
  match Address.splitScheme? (Text.trimChars text.toList) with
  | none => .invalid
  | some (scheme, rest) =>
      match Address.usualPorts.lookup scheme with
      | none => .foreign (scheme ++ ":" ++ String.ofList rest)
      | some usual => match Address.ofRest? scheme usual rest with
        | none => .invalid
        | some address =>
            if scheme == "http" || scheme == "https" then .web address else .foreign address.text

end FaultInjection.Http
