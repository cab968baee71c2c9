/-!
Media types as they stand in the head of a request: a type, a subtype that may end in a suffix, and
parameters.
-/

namespace FaultInjection.Http.MediaType

def isToken (c : Char) : Bool :=
  c.isAlphanum || "!#$%&'*+-.^_\x60|~".toList.contains c

def isQuotable (c : Char) : Bool := c == '\t' || (0x20 ≤ c.toNat && c.toNat < 0x7F)

/-- What follows a quoted text whose opening quote was read. Its first character is never the
closing quote. -/
def afterQuoted? : List Char → Option (List Char)
  | [] => none
  | first :: rest =>
      if isQuotable first && first != '\t' then
        match rest.dropWhile fun c => isQuotable c && c != '\t' && c != '"' with
        | '"' :: after => some after
        | _ => none
      else none

/-- Whether parameters are well formed. `steps` bounds the number of characters. -/
def areParameters : Nat → List Char → Bool
  | 0, _ => false
  | steps + 1, chars =>
      let named := chars.dropWhile (· == ' ')
      if named.isEmpty then true
      else if (named.takeWhile isToken).isEmpty then false
      else match named.dropWhile isToken with
        | '=' :: '"' :: quoted =>
            match afterQuoted? quoted with
            | none => false
            | some after => match after.dropWhile (· == ' ') with
              | [] => true
              | ';' :: rest => areParameters steps rest
              | _ => false
        | '=' :: value =>
            match value.dropWhile isToken with
            | [] => true
            | ';' :: rest => !(value.takeWhile isToken).isEmpty && areParameters steps rest
            | _ => false
        | _ => false

def splitSuffix (subtype : List Char) : String × Option String :=
  let suffix := (subtype.reverse.takeWhile (· != '+')).reverse
  let front := subtype.take (subtype.length - suffix.length - 1)
  if front.isEmpty then (String.ofList subtype, none)
  else (String.ofList front, some (String.ofList suffix))

/-- Whether a media type is JSON, or has it as its suffix. -/
def isJson (text : String) : Bool :=
  let chars := text.toList.map Char.toLower
  match chars.dropWhile isToken with
  | '/' :: rest =>
      let subtype := rest.takeWhile isToken
      let wellFormed := match rest.dropWhile isToken with
        | [] => true
        | ';' :: parameters =>
            !subtype.isEmpty && areParameters (parameters.length + 1) parameters
        | _ => false
      let (name, suffix) := splitSuffix subtype
      wellFormed && chars.takeWhile isToken == "application".toList &&
        (name == "json" || suffix == some "json")
  | _ => false

example : isJson "APPLICATION/json;" = true := by decide +kernel

example : isJson "application/vnd.x+json; charset=\"utf-8\"" = true := by decide +kernel

example : isJson "text/json" = false := by decide +kernel

end FaultInjection.Http.MediaType
