import FaultInjection.Json.Basic

/-!
Reading JSON: strings, numbers and whole values at the start of a list of characters, with the
characters that follow. Numbers keep their digits and objects all of their members. A text with a
fault is read up to it.
-/

namespace FaultInjection.Json

/-- A value as far as it can be read. What follows the first fault of a text is not in it. -/
inductive Draft where
  | null
  | bool (value : Bool)
  | number (text : String)
  /-- A string that ends, though it may hold what is no text. -/
  | string (text : Option String)
  | array (items : List Draft) (closed : Bool)
  | object (members : List (Option String × Draft)) (closed : Bool)
  | broken
  deriving Inhabited

namespace Draft

mutual

def json? : Draft → Option Json
  | null => some .null
  | bool value => some (.bool value)
  | number text => some (.number text)
  | string text => text.map Json.string
  | array items closed => if closed then (items? items).map Json.array else none
  | object members closed => if closed then (members? members).map Json.object else none
  | broken => none

def items? : List Draft → Option (List Json)
  | [] => some []
  | item :: rest => do
      let first ← item.json?
      let others ← items? rest
      some (first :: others)

def members? : List (Option String × Draft) → Option (List (String × Json))
  | [] => some []
  | (name, value) :: rest => do
      let name ← name
      let first ← value.json?
      let others ← members? rest
      some ((name, first) :: others)

end

end Draft

def isJsonSpace (c : Char) : Bool := c == ' ' || c == '\n' || c == '\r' || c == '\t'

def skipSpace (chars : List Char) : List Char := chars.dropWhile isJsonSpace

def hexDigit? (c : Char) : Option Nat :=
  if c.isDigit then some (c.toNat - '0'.toNat)
  else if 'a' ≤ c ∧ c ≤ 'f' then some (c.toNat - 'a'.toNat + 10)
  else if 'A' ≤ c ∧ c ≤ 'F' then some (c.toNat - 'A'.toNat + 10)
  else none

def hexUnit? (a b c d : Char) : Option Nat := do
  return 4096 * (← hexDigit? a) + 256 * (← hexDigit? b) + 16 * (← hexDigit? c) + (← hexDigit? d)

def charOf? (code : Nat) : Option Char :=
  if h : code.isValidChar then some (Char.ofNatAux code h) else none

def letterEscape? (c : Char) : Option Char :=
  match c with
  | '"' => some '"'
  | '\\' => some '\\'
  | '/' => some '/'
  | 'b' => some '\x08'
  | 'f' => some '\x0c'
  | 'n' => some '\n'
  | 'r' => some '\r'
  | 't' => some '\t'
  | _ => none

def pair? (high low : Nat) : Option Char :=
  if 0xD800 ≤ high && high ≤ 0xDBFF && 0xDC00 ≤ low && low ≤ 0xDFFF then
    charOf? (0x10000 + (high - 0xD800) * 1024 + (low - 0xDC00))
  else none

def extend (read : Option (List Char)) (character : Option Char) : Option (List Char) :=
  match read, character with
  | some chars, some c => some (c :: chars)
  | _, _ => none

/-- The rest of a string behind its opening quote, and what follows its closing one. `read` is what
was read so far, last character first, as long as it is text. A character outside the basic plane
is written as two escaped units; half of such a pair is no text. -/
def readString (read : Option (List Char)) :
    List Char → Option (Option (List Char) × List Char)
  | [] => none
  | '"' :: rest => some (read.map List.reverse, rest)
  | '\\' :: 'u' :: a :: b :: c :: d :: '\\' :: 'u' :: e :: f :: g :: h :: rest =>
      match hexUnit? a b c d with
      | none => none
      | some high =>
          match (hexUnit? e f g h).bind (pair? high) with
          | some character => readString (read.map (character :: ·)) rest
          | none =>
              readString (extend read (charOf? high))
                ('\\' :: 'u' :: e :: f :: g :: h :: rest)
  | '\\' :: 'u' :: a :: b :: c :: d :: rest =>
      match hexUnit? a b c d with
      | none => none
      | some unit => readString (extend read (charOf? unit)) rest
  | '\\' :: letter :: rest =>
      match letterEscape? letter with
      | none => none
      | some character => readString (read.map (character :: ·)) rest
  | c :: rest =>
      if c == '\\' || c.toNat < 0x20 then none else readString (read.map (c :: ·)) rest

def readDigits (chars : List Char) : Option (List Char × List Char) :=
  let digits := chars.takeWhile Char.isDigit
  if digits.isEmpty then none else some (digits, chars.dropWhile Char.isDigit)

/-- The text of a number. Its whole part has no needless zeros. -/
def readNumber (chars : List Char) : Option (List Char × List Char) := do
  let (sign, unsigned) := match chars with
    | '-' :: rest => (['-'], rest)
    | _ => ([], chars)
  let (whole, afterWhole) ← match unsigned with
    | '0' :: rest =>
        if (rest.head?.map Char.isDigit).getD false then none else some (['0'], rest)
    | _ => readDigits unsigned
  let (fraction, afterFraction) ← match afterWhole with
    | '.' :: rest => (readDigits rest).map fun read => ('.' :: read.1, read.2)
    | rest => some ([], rest)
  let (exponent, rest) ← match afterFraction with
    | mark :: rest =>
        if mark == 'e' || mark == 'E' then
          match rest with
          | '+' :: digits => (readDigits digits).map fun read => (mark :: '+' :: read.1, read.2)
          | '-' :: digits => (readDigits digits).map fun read => (mark :: '-' :: read.1, read.2)
          | digits => (readDigits digits).map fun read => (mark :: read.1, read.2)
        else some ([], mark :: rest)
    | [] => some ([], [])
  return (sign ++ whole ++ fraction ++ exponent, rest)

def readWord (word : String) (value : Draft) (chars : List Char) : Draft × List Char :=
  if word.toList.isPrefixOf chars then (value, chars.drop word.length) else (.broken, [])

mutual

/-- The value at the start. `steps` bounds the number of characters. -/
def readValue : Nat → List Char → Draft × List Char
  | 0, _ => (.broken, [])
  | steps + 1, chars =>
      match skipSpace chars with
      | [] => (.broken, [])
      | '"' :: rest =>
          match readString (some []) rest with
          | some (text, after) => (.string (text.map String.ofList), after)
          | none => (.broken, [])
      | '[' :: rest =>
          match skipSpace rest with
          | ']' :: after => (.array [] true, after)
          | _ =>
              let (items, closed, after) := readItems steps rest
              (.array items closed, after)
      | '\x7b' :: rest =>
          match skipSpace rest with
          | '\x7d' :: after => (.object [] true, after)
          | _ =>
              let (members, closed, after) := readMembers steps rest
              (.object members closed, after)
      | c :: rest =>
          if c == 'n' then readWord "null" .null (c :: rest)
          else if c == 't' then readWord "true" (.bool true) (c :: rest)
          else if c == 'f' then readWord "false" (.bool false) (c :: rest)
          else match readNumber (c :: rest) with
            | some (digits, after) => (.number (String.ofList digits), after)
            | none => (.broken, [])

def readItems : Nat → List Char → List Draft × Bool × List Char
  | 0, _ => ([], false, [])
  | steps + 1, chars =>
      let (item, rest) := readValue steps chars
      match skipSpace rest with
      | ']' :: after => ([item], true, after)
      | ',' :: after =>
          let (items, closed, beyond) := readItems steps after
          (item :: items, closed, beyond)
      | _ => ([item], false, [])

def readMembers : Nat → List Char → List (Option String × Draft) × Bool × List Char
  | 0, _ => ([], false, [])
  | steps + 1, chars =>
      match skipSpace chars with
      | '"' :: afterQuote =>
          match readString (some []) afterQuote with
          | none => ([], false, [])
          | some (name, afterName) =>
              let name := name.map String.ofList
              match skipSpace afterName with
              | ':' :: afterColon =>
                  let (value, rest) := readValue steps afterColon
                  match skipSpace rest with
                  | '\x7d' :: after => ([(name, value)], true, after)
                  | ',' :: after =>
                      let (members, closed, beyond) := readMembers steps after
                      ((name, value) :: members, closed, beyond)
                  | _ => ([(name, value)], false, [])
              | _ => ([(name, .broken)], false, [])
      | _ => ([], false, [])

end

def read (chars : List Char) : Draft × List Char := readValue (chars.length + 1) chars

def parse? (text : String) : Option Json :=
  let (draft, rest) := read text.toList
  if (skipSpace rest).isEmpty then draft.json? else none

end FaultInjection.Json
