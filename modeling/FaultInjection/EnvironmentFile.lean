import FaultInjection.Configuration
import FaultInjection.Table
import FaultInjection.Text.Utf8

/-!
Files of variables: one `name=value` a line, with blank lines and comments. A value may be quoted,
and may refer to variables that are set already. Reading ends at the first line with a fault.
-/

namespace FaultInjection.EnvironmentFile

def isNameStart (c : Char) : Bool := c.isAlpha || c == '_'

def isNameChar (c : Char) : Bool := c.isAlphanum || c == '_' || c == '.'

/-- Whether a character goes on with the name behind a dollar sign. Beyond the basic letters and
digits these are all characters from the accented letters on. -/
def isReferenceChar (c : Char) : Bool := c.isAlphanum || 0xC0 ≤ c.toNat

def readName? (chars : List Char) : Option (String × List Char) :=
  match chars with
  | c :: _ =>
      if isNameStart c then
        some (String.ofList (chars.takeWhile isNameChar), chars.dropWhile isNameChar)
      else none
  | [] => none

inductive Mode where
  | plain
  /-- Between single quotes everything stands for itself. -/
  | single
  /-- Between double quotes references and escapes are replaced. -/
  | double
  /-- A name behind a dollar sign, read backwards. -/
  | reference (within : Bool) (name : List Char)
  | braced (within : Bool) (name : List Char)
  | escaped (within : Bool)
  /-- Behind a blank only a comment may follow. -/
  | ended
  deriving DecidableEq, Repr

def Mode.inside (within : Bool) : Mode := if within then .double else .plain

def escape? (c : Char) : Option Char :=
  if c == 'n' then some '\n'
  else if ['\\', '\x27', '"', '$', ' '].contains c then some c
  else none

/-- The value of a reference whose name was read backwards, itself backwards. -/
def resolve (environment : Variables) (name : List Char) : List Char :=
  ((environment (String.ofList name.reverse)).getD "").toList.reverse

/-- The value that the characters write; `read` is what was read so far, last character first. -/
def readValue (environment : Variables) (read : List Char) :
    Mode → List Char → Option (List Char)
  | .ended, [] => some read.reverse
  | .ended, c :: rest =>
      if c == ' ' || c == '\t' then readValue environment read .ended rest
      else if c == '#' then some read.reverse
      else none
  | .plain, [] => some read.reverse
  | .plain, c :: rest =>
      if c == '$' then readValue environment read (.reference false []) rest
      else if c == '\x27' then readValue environment read .single rest
      else if c == '"' then readValue environment read .double rest
      else if c == '\\' then readValue environment read (.escaped false) rest
      else if c == ' ' || c == '\t' then readValue environment read .ended rest
      else readValue environment (c :: read) .plain rest
  | .single, [] => none
  | .single, c :: rest =>
      if c == '\x27' then readValue environment read .plain rest
      else readValue environment (c :: read) .single rest
  | .double, [] => none
  | .double, c :: rest =>
      if c == '$' then readValue environment read (.reference true []) rest
      else if c == '"' then readValue environment read .plain rest
      else if c == '\\' then readValue environment read (.escaped true) rest
      else readValue environment (c :: read) .double rest
  | .escaped within, [] => if within then none else some read.reverse
  | .escaped within, c :: rest =>
      match escape? c with
      | some character => readValue environment (character :: read) (.inside within) rest
      | none => none
  | .reference within name, [] =>
      if within then none else some (resolve environment name ++ read).reverse
  | .reference within name, c :: rest =>
      if isReferenceChar c then readValue environment read (.reference within (c :: name)) rest
      else if c == '\x7b' && name.isEmpty then readValue environment read (.braced within []) rest
      else
        let read := resolve environment name ++ read
        if c == '$' then readValue environment read (.reference within []) rest
        else readValue environment (c :: read) (.inside within) rest
  | .braced _ _, [] => none
  | .braced within name, c :: rest =>
      if c == '\x7d' then
        readValue environment (resolve environment name ++ read) (.inside within) rest
      else readValue environment read (.braced within (c :: name)) rest

inductive Line where
  | nothing
  | variable (name value : String)
  | fault
  deriving DecidableEq, Repr

def readAssignment (environment : Variables) (name : String) (chars : List Char) : Line :=
  match Text.trimStart chars with
  | '=' :: rest =>
      match Text.trimStart rest with
      | [] => .variable name ""
      | '#' :: _ => .variable name ""
      | value => match readValue environment [] .plain value with
        | some value => .variable name (String.ofList value)
        | none => .fault
  | _ => .fault

/-- A line, in which `export` may stand in front of the name. -/
def readLine (environment : Variables) (line : List Char) : Line :=
  match Text.trimStart (Text.trimEnd line) with
  | [] => .nothing
  | '#' :: _ => .nothing
  | chars =>
      match readName? chars with
      | none => .fault
      | some (name, rest) =>
          let isExport := name == "export" && (Text.trimStart rest).head? != some '='
          if !isExport then readAssignment environment name rest
          else match readName? (Text.trimStart rest) with
            | none => .fault
            | some (name, rest) => readAssignment environment name rest

def overlay (environment : Variables) (values : Table String) : Variables :=
  fun name => (environment name).orElse fun _ => values.get? name

/-- Reads lines on top of the variables that the lines before have set. `values` holds those that
were set by the file, `latest` the last value of each, which references fall back to. -/
def readLines (environment : Variables) (values latest : Table String) :
    List (List Char) → Table String
  | [] => values
  | line :: rest =>
      match readLine (overlay (overlay environment values) latest) line with
      | .nothing => readLines environment values latest rest
      | .fault => values
      | .variable name value =>
          let values := if (overlay environment values name).isSome then values
            else values.put name value
          readLines environment values (latest.put name value) rest

/-- The lines in front of the first one that is no text. -/
def linesOf (bytes : List UInt8) : List (List Char) :=
  let lines := (bytes.splitOn 0x0A).map Text.decodeStrict?
  (lines.takeWhile Option.isSome).filterMap fun line => line.map String.toList

/-- The variables that are set, together with those that a file sets. Variables that are set
already keep their values. -/
def load (environment : Variables) (bytes : List UInt8) : Variables :=
  overlay environment (readLines environment [] [] (linesOf bytes))

end FaultInjection.EnvironmentFile
