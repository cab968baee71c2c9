import FaultInjection.Yaml.Plain

/-!
The text of a value. Collections are written in block style, two columns per level, with the items
of a sequence in a mapping as far left as its key; empty ones are written in brackets. A string is
written without quotes where it would read back as the same string, as a literal block if it has
several lines, and otherwise in the plainest quotes that can hold it. Lines are never folded.
-/

namespace FaultInjection.Yaml

/-- What has been written: the text, the column reached, whether the text ends in white space, and
whether the line so far is only indentation and indicators. -/
structure Pen where
  text : String
  column : Nat
  spaced : Bool
  indented : Bool

namespace Pen

def start : Pen := ⟨"", 0, true, true⟩

def put (pen : Pen) (c : Char) : Pen :=
  { pen with text := pen.text.push c, column := pen.column + 1 }

def putAll (pen : Pen) (chars : List Char) : Pen := chars.foldl put pen

def putBreak (pen : Pen) (c : Char) : Pen := { pen with text := pen.text.push c, column := 0 }

/-- Goes to a column of a line that holds nothing but indentation and indicators. -/
def toColumn (pen : Pen) (column : Nat) : Pen :=
  let broken :=
    if !pen.indented || column < pen.column || (pen.column == column && !pen.spaced) then
      pen.putBreak '\n'
    else pen
  let padded := broken.putAll (List.replicate (column - broken.column) ' ')
  { padded with spaced := true, indented := true }

def indicator (pen : Pen) (mark : List Char) (needsSpace isSpace isIndent : Bool) : Pen :=
  let spaced := if needsSpace && !pen.spaced then pen.put ' ' else pen
  { spaced.putAll mark with spaced := isSpace, indented := spaced.indented && isIndent }

def finishWord (pen : Pen) : Pen := { pen with spaced := false, indented := false }

end Pen

/-! Scalars -/

inductive Quoting where
  | plain
  | single
  | double
  | literal
  deriving DecidableEq, Repr

def isPrintable (c : Char) : Bool :=
  let code := c.toNat
  c == '\n' || (0x20 ≤ code && code ≤ 0x7E) || (0xA0 ≤ code && code ≤ 0xD7FF) ||
    (0xE000 ≤ code && code ≤ 0xFFFD && code != 0xFEFF) || 0x10000 ≤ code

def endsWordOrZero : Option Char → Bool
  | some '\x00' => true
  | other => endsWord other

def startIndicators : List Char :=
  ['#', ',', '[', ']', '\x7b', '\x7d', '&', '*', '!', '|', '>', '\'', '"', '%', '@', '\x60']

/-- Whether an indicator in the text would end or disturb a plain scalar. `before` tells whether a
blank precedes the rest of the text. -/
def hasIndicator : (first before : Bool) → List Char → Bool
  | _, _, [] => false
  | first, before, c :: rest =>
      let after := endsWordOrZero rest.head?
      let here :=
        if first then
          startIndicators.contains c || ((c == '?' || c == ':' || c == '-') && after)
        else (c == ':' && after) || (c == '#' && before)
      here || hasIndicator false (endsWordOrZero (some c)) rest

def startsWithMarker (chars : List Char) : Bool :=
  chars.take 3 == ['-', '-', '-'] || chars.take 3 == ['.', '.', '.']

def adjacent (first second : Char → Bool) : List Char → Bool
  | a :: b :: rest => (first a && second b) || adjacent first second (b :: rest)
  | _ => false

def isLineSpace (c : Char) : Bool := c == ' '

structure Analysis where
  multiline : Bool
  plainAllowed : Bool
  singleAllowed : Bool
  literalAllowed : Bool

def analyze (chars : List Char) : Analysis :=
  if chars.isEmpty then ⟨false, true, true, false⟩
  else
    let edge (test : Char → Bool) : Bool :=
      (chars.head?.map test).getD false || (chars.getLast?.map test).getD false
    let multiline := chars.any isBreak
    let special := chars.any (!isPrintable ·) || adjacent isLineSpace isBreak chars
    let breakSpace := adjacent isBreak isLineSpace chars
    let trailingSpace := (chars.getLast?.map isLineSpace).getD false
    { multiline := multiline
      plainAllowed :=
        !(edge isLineSpace || edge isBreak || breakSpace || special || multiline ||
          startsWithMarker chars || hasIndicator true true chars)
      singleAllowed := !(breakSpace || special)
      literalAllowed := !(trailingSpace || special) }

/-- How a scalar is written whose preferred way is `wanted`. -/
def chooseQuoting (wanted : Quoting) (analysis : Analysis) (isEmpty asKey : Bool) : Quoting :=
  let first := if asKey && analysis.multiline then Quoting.double else wanted
  let second :=
    if first = .plain && (!analysis.plainAllowed || (isEmpty && asKey)) then .single else first
  let third := if second = .single && !analysis.singleAllowed then .double else second
  if third = .literal && (!analysis.literalAllowed || asKey) then .double else third

/-- The preferred way to write a string: as a block if it has several lines, in quotes if it would
otherwise read as something else. -/
def preferredQuoting (text : String) : Quoting :=
  if text.toList.contains '\n' then .literal
  else if Plain.ofText text = .text && !Plain.hasIdleZero text.toList then .plain
  else .single

def hexDigits (width value : Nat) : List Char :=
  let digits := (Nat.toDigits 16 value).map Char.toUpper
  List.replicate (width - digits.length) '0' ++ digits

def doubleEscape (c : Char) : List Char :=
  let code := c.toNat
  if code = 0 then ['0']
  else if code = 7 then ['a']
  else if code = 8 then ['b']
  else if code = 9 then ['t']
  else if code = 10 then ['n']
  else if code = 11 then ['v']
  else if code = 12 then ['f']
  else if code = 13 then ['r']
  else if code = 27 then ['e']
  else if c = '"' || c = '\\' then [c]
  else if code = 0x85 then ['N']
  else if code = 0xA0 then ['_']
  else if code = 0x2028 then ['L']
  else if code = 0x2029 then ['P']
  else if code ≤ 0xFF then 'x' :: hexDigits 2 code
  else if code ≤ 0xFFFF then 'u' :: hexDigits 4 code
  else 'U' :: hexDigits 8 code

def writeDoubleChar (pen : Pen) (c : Char) : Pen :=
  if !isPrintable c || isBreak c || c == '"' || c == '\\' then
    pen.putAll ('\\' :: doubleEscape c)
  else pen.put c

def writeDouble (pen : Pen) (chars : List Char) : Pen :=
  let opened := pen.indicator ['"'] true false false
  ((chars.foldl writeDoubleChar opened).indicator ['"'] false false false).finishWord

/-- Writes the characters between single quotes. `broken` tells that a line break came last. -/
def writeSingleChars (column : Nat) : Bool → Pen → List Char → Pen
  | broken, pen, [] => if broken then pen.toColumn column else pen
  | broken, pen, c :: rest =>
      if c == ' ' then writeSingleChars column broken (pen.put c) rest
      else if isBreak c then
        let started := if !broken && c == '\n' then pen.putBreak '\n' else pen
        writeSingleChars column true { started.putBreak c with indented := true } rest
      else
        let placed := if broken then pen.toColumn column else pen
        let quoted := if c == '\'' then placed.put '\'' else placed
        writeSingleChars column false { quoted.put c with indented := false } rest

def writeSingle (pen : Pen) (column : Nat) (chars : List Char) : Pen :=
  let body := writeSingleChars column false (pen.indicator ['\''] true false false) chars
  (body.indicator ['\''] false false false).finishWord

/-- The signs after the indicator of a literal block: the indentation if the text starts with
white space, and what becomes of the line breaks at its end. -/
def literalHints (chars : List Char) : List Char :=
  let indent := match chars with
    | c :: _ => if c == ' ' || isBreak c then ['2'] else []
    | [] => []
  let chomp := match chars.reverse with
    | [] => ['-']
    | last :: before =>
        if !isBreak last then ['-']
        else match before with
          | [] => ['+']
          | previous :: _ => if isBreak previous then ['+'] else []
  indent ++ chomp

def writeLiteralChars (column : Nat) : Bool → Pen → List Char → Pen
  | _, pen, [] => pen
  | broken, pen, c :: rest =>
      if isBreak c then
        writeLiteralChars column true { pen.putBreak c with indented := true } rest
      else
        let placed := if broken then pen.toColumn column else pen
        writeLiteralChars column false { placed.put c with indented := false } rest

def writeLiteral (pen : Pen) (column : Nat) (chars : List Char) : Pen :=
  let opened := pen.indicator ['|'] true false false
  let header := opened.indicator (literalHints chars) false false false
  writeLiteralChars column true
    { header.putBreak '\n' with spaced := true, indented := true } chars

def writePlain (pen : Pen) (chars : List Char) : Pen :=
  let spaced := if !pen.spaced && !chars.isEmpty then pen.put ' ' else pen
  (spaced.putAll chars).finishWord

/-! Tags -/

/-- How a tag is written: after the handle of local tags, or in full. -/
def tagSuffix (tag : String) : Bool × String := if tag = "!" then (false, "!") else (true, tag)

def isTagTextChar (c : Char) : Bool :=
  isWordChar c || ";/?:@&=+$,.~*'()[]".toList.contains c

def tagText (tag : String) : List Char :=
  tag.toList.flatMap fun c =>
    if isTagTextChar c then [c]
    else (String.singleton c).toUTF8.toList.flatMap fun byte => '%' :: hexDigits 2 byte.toNat

def writeTag (pen : Pen) : Option String → Pen
  | none => pen
  | some tag =>
      let (isLocal, suffix) := tagSuffix tag
      if isLocal then (pen.indicator ['!'] true false false).putAll (tagText suffix)
      else
        let opened := (pen.indicator ['!', '<'] true false false).putAll (tagText suffix)
        opened.indicator ['>'] false false false

def tagLength : Option String → Nat
  | none => 0
  | some tag =>
      let (isLocal, suffix) := tagSuffix tag
      suffix.utf8ByteSize + if isLocal then 1 else 0

/-! Nodes -/

/-- Numbers are written with an exponent from 17 digits on, and below five leading zeros. -/
def numberStyle : Binary64.DecimalStyle := ⟨16, 5, false⟩

def floatText (value : Binary64) : String :=
  match value with
  | .nan => ".nan"
  | .infinite negative => if negative then "-.inf" else ".inf"
  | finite => (finite.write numberStyle).getD ""

def scalarText? : Value → Option (String × Quoting)
  | .null => some ("null", .plain)
  | .bool value => some (if value then "true" else "false", .plain)
  | .integer value => some (toString value, .plain)
  | .float value => some (floatText value, .plain)
  | .string text => some (text, preferredQuoting text)
  | _ => none

/-- The longest key, in bytes, that is written on one line with its value. -/
def keyLimit : Nat := 128

def isSimpleKey (tag : Option String) : Value → Bool
  | .sequence items => items.isEmpty && tagLength tag ≤ keyLimit
  | .mapping entries => entries.isEmpty && tagLength tag ≤ keyLimit
  | .tagged inner value => isSimpleKey (some inner) value
  | value =>
      match scalarText? value with
      | some (text, _) =>
          !text.toList.any isBreak && tagLength tag + text.utf8ByteSize ≤ keyLimit
      | none => false

def writeScalar (pen : Pen) (indent : Option Nat) (asKey : Bool) (text : String)
    (wanted : Quoting) : Pen :=
  let chars := text.toList
  let column := (indent.map (· + 2)).getD 2
  match chooseQuoting wanted (analyze chars) chars.isEmpty asKey with
  | .plain => writePlain pen chars
  | .single => writeSingle pen column chars
  | .double => writeDouble pen chars
  | .literal => writeLiteral pen column chars

/-- The column of a collection's members, given the column of those around it, if any. -/
def deeper (indent : Option Nat) (flush : Bool) : Nat :=
  match indent with
  | none => 0
  | some column => if flush then column else column + 2

mutual

/-- Writes a node whose tag is already known. `indent` is the column of the collection around it,
`inMapping` tells whether that is a mapping, and `asKey` whether the node is a key on the line of
its value. -/
def writeValue (tag : Option String) (indent : Option Nat) (inMapping asKey : Bool) (pen : Pen) :
    Value → Pen
  | .tagged inner value => writeValue (some inner) indent inMapping asKey pen value
  | .sequence [] => (writeTag pen tag).indicator ['[', ']'] true false false
  | .sequence items =>
      let tagged := writeTag pen tag
      writeItems (deeper indent (inMapping && !tagged.indented)) tagged items
  | .mapping [] => (writeTag pen tag).indicator ['\x7b', '\x7d'] true false false
  | .mapping entries => writeEntries (deeper indent false) (writeTag pen tag) entries
  | .null => writeScalar (writeTag pen tag) indent asKey "null" .plain
  | .bool value => writeScalar (writeTag pen tag) indent asKey (toString value) .plain
  | .integer value => writeScalar (writeTag pen tag) indent asKey (toString value) .plain
  | .float value => writeScalar (writeTag pen tag) indent asKey (floatText value) .plain
  | .string text => writeScalar (writeTag pen tag) indent asKey text (preferredQuoting text)

def writeItems (column : Nat) (pen : Pen) : List Value → Pen
  | [] => pen
  | item :: rest =>
      let marked := (pen.toColumn column).indicator ['-'] true false true
      writeItems column (writeValue none (some column) false false marked item) rest

def writeEntries (column : Nat) (pen : Pen) : List (Value × Value) → Pen
  | [] => pen
  | (key, value) :: rest =>
      let placed := pen.toColumn column
      let marked :=
        if isSimpleKey none key then
          (writeValue none (some column) true true placed key).indicator [':'] false false false
        else
          let keyed :=
            writeValue none (some column) true false (placed.indicator ['?'] true false true) key
          (keyed.toColumn column).indicator [':'] true false true
      writeEntries column (writeValue none (some column) true false marked value) rest

end

def Value.isTagged : Value → Bool
  | .tagged _ _ => true
  | _ => false

/-- Whether the value is a key that a mapping of one entry cannot carry: the mapping would be taken
for a tag. -/
def Value.isTagLike : Value → Bool
  | .tagged _ _ => true
  | .mapping [_] => true
  | _ => false

mutual

/-- Whether the value has a text. A tag cannot stand directly on a tagged value. -/
def Value.hasText : Value → Bool
  | .sequence items => itemsHaveText items
  | .mapping [(key, value)] => !key.isTagLike && key.hasText && value.hasText
  | .mapping entries => entriesHaveText entries
  | .tagged _ (.tagged _ _) => false
  | .tagged _ (.mapping entries) => entriesHaveText entries
  | .tagged _ value => value.hasText
  | _ => true

def itemsHaveText : List Value → Bool
  | [] => true
  | item :: rest => item.hasText && itemsHaveText rest

def entriesHaveText : List (Value × Value) → Bool
  | [] => true
  | (key, value) :: rest => key.hasText && value.hasText && entriesHaveText rest

end

def Value.text? (value : Value) : Option String :=
  if value.hasText then some ((writeValue none none false false Pen.start value).toColumn 0).text
  else none

end FaultInjection.Yaml
