import FaultInjection.Yaml.Token.Scalar

/-!
The words of a text, in order. A word that may turn out to be the key of a mapping is held back
until it is settled whether a colon follows it; the marks for the key and for the mapping are then
put in front of it. Indentation opens and closes block collections.
-/

namespace FaultInjection.Yaml

structure PossibleKey where
  number : Nat
  required : Bool
  index : Nat
  line : Nat
  column : Nat

/-- `waiting` are the words read and not yet handed out, `released` counts those handed out.
`keys` holds one place for a possible key per open flow collection and one for the block level,
innermost first. `size` is the length of the whole text. -/
structure Lexer where
  cursor : Cursor
  size : Nat
  waiting : List Token
  released : Nat
  indent : Int
  indents : List Int
  keys : List (Option PossibleKey)
  keyAllowed : Bool
  started : Bool

namespace Lexer

def ofChars (chars : List Char) : Lexer where
  cursor := ⟨chars, 0, 0, 0⟩
  size := chars.length
  waiting := []
  released := 0
  indent := -1
  indents := []
  keys := []
  keyAllowed := false
  started := false

abbrev Step := Lexer → Except SyntaxFault Lexer

def inFlow (lexer : Lexer) : Bool := 1 < lexer.keys.length

def push (lexer : Lexer) (token : Token) : Lexer :=
  { lexer with waiting := lexer.waiting ++ [token] }

def insert (lexer : Lexer) (number : Nat) (token : Token) : Lexer :=
  { lexer with waiting := lexer.waiting.insertIdx (number - lexer.released) token }

def skip (lexer : Lexer) (count : Nat) : Lexer :=
  { lexer with cursor := lexer.cursor.skip count }

/-- Whether a possible key has become impossible: keys stay on one line and are short. -/
def isStale (lexer : Lexer) (key : PossibleKey) : Bool :=
  key.line < lexer.cursor.line || key.index + 1024 < lexer.cursor.index

def dropStaleKeys : Step := fun lexer => do
  let keys ← lexer.keys.mapM fun key => match key with
    | none => .ok none
    | some key =>
        if lexer.isStale key then
          if key.required then .error SyntaxFault.missingKeyMark else .ok none
        else .ok (some key)
  .ok { lexer with keys := keys }

def dropKey : Step := fun lexer =>
  match lexer.keys with
  | some key :: rest =>
      if key.required then .error .missingKeyMark else .ok { lexer with keys := none :: rest }
  | _ => .ok lexer

def noteKey : Step := fun lexer =>
  if lexer.keyAllowed then do
    let cleared ← dropKey lexer
    let key : PossibleKey :=
      { number := lexer.released + lexer.waiting.length
        required := !lexer.inFlow && lexer.indent == (lexer.cursor.column : Int)
        index := lexer.cursor.index
        line := lexer.cursor.line
        column := lexer.cursor.column }
    .ok { cleared with keys := some key :: cleared.keys.tail }
  else .ok lexer

/-- Opens a block collection at a column, if it is indented more than the one around it. -/
def openBlock (column : Nat) (number : Option Nat) (token : Token) (lexer : Lexer) : Lexer :=
  if lexer.inFlow || (column : Int) ≤ lexer.indent then lexer
  else
    let deeper := { lexer with indent := column, indents := lexer.indent :: lexer.indents }
    match number with
    | some n => deeper.insert n token
    | none => deeper.push token

def closeBlocks (column : Int) (lexer : Lexer) : Lexer :=
  if lexer.inFlow then lexer
  else
    let closed := (lexer.indent :: lexer.indents).takeWhile (column < ·)
    let remaining := (lexer.indent :: lexer.indents).drop closed.length
    { lexer with
      waiting := lexer.waiting ++ closed.map fun _ => Token.blockEnd
      indent := remaining.headD (-1)
      indents := remaining.tail }

/-- Skips blanks, comments and line breaks before the next word. A tab may not stand where a key
could start. `steps` bounds the number of lines. -/
def skipGap : Nat → Lexer → Lexer
  | 0, lexer => lexer
  | steps + 1, lexer =>
      let afterMark :=
        if lexer.cursor.index = 0 && lexer.cursor.looksAt '\ufeff' then lexer.cursor.skip 1
        else lexer.cursor
      let tabs := lexer.inFlow || !lexer.keyAllowed
      let afterBlanks := afterMark.skipWhile fun c => c == ' ' || (tabs && c == '\t')
      let afterComment := if afterBlanks.looksAt '#' then afterBlanks.skipToBreak else afterBlanks
      match afterComment.lineBreak? with
      | none => { lexer with cursor := afterComment }
      | some (_, next) =>
          skipGap steps
            { lexer with cursor := next, keyAllowed := lexer.keyAllowed || !lexer.inFlow }

/-! One word of each kind -/

def startStream (lexer : Lexer) : Lexer :=
  { lexer with keys := [none], keyAllowed := true, started := true }.push .streamStart

def endStream : Step := fun lexer => do
  let atLineStart := { lexer with cursor := { lexer.cursor with
    column := 0
    line := if lexer.cursor.column = 0 then lexer.cursor.line else lexer.cursor.line + 1 } }
  let cleared ← dropKey (atLineStart.closeBlocks (-1))
  .ok ({ cleared with keyAllowed := false }.push .streamEnd)

def readDirectiveWord : Step := fun lexer => do
  let cleared ← dropKey (lexer.closeBlocks (-1))
  let (token, next) ← readDirective cleared.cursor
  .ok ({ cleared with keyAllowed := false, cursor := next }.push token)

def readDocumentMark (token : Token) : Step := fun lexer => do
  let cleared ← dropKey (lexer.closeBlocks (-1))
  .ok (({ cleared with keyAllowed := false }.skip 3).push token)

def openFlow (token : Token) : Step := fun lexer => do
  let noted ← noteKey lexer
  .ok (({ noted with keys := none :: noted.keys, keyAllowed := true }.skip 1).push token)

def closeFlow (token : Token) : Step := fun lexer => do
  let cleared ← dropKey lexer
  let keys := if lexer.inFlow then cleared.keys.tail else cleared.keys
  .ok (({ cleared with keys := keys, keyAllowed := false }.skip 1).push token)

def readFlowEntry : Step := fun lexer => do
  let cleared ← dropKey lexer
  .ok (({ cleared with keyAllowed := true }.skip 1).push .flowEntry)

def readBlockEntry : Step := fun lexer => do
  if !lexer.inFlow && !lexer.keyAllowed then .error .misplacedIndicator
  else
    let cleared ← dropKey (lexer.openBlock lexer.cursor.column none .blockSequenceStart)
    .ok (({ cleared with keyAllowed := true }.skip 1).push .blockEntry)

def readKeyMark : Step := fun lexer => do
  if !lexer.inFlow && !lexer.keyAllowed then .error .misplacedIndicator
  else
    let cleared ← dropKey (lexer.openBlock lexer.cursor.column none .blockMappingStart)
    .ok (({ cleared with keyAllowed := !lexer.inFlow }.skip 1).push .key)

def readValueMark : Step := fun lexer => do
  match lexer.keys with
  | some key :: rest =>
      let marked := lexer.insert key.number .key
      let opened := marked.openBlock key.column (some key.number) .blockMappingStart
      .ok (({ opened with keys := none :: rest, keyAllowed := false }.skip 1).push .value)
  | _ =>
      if !lexer.inFlow && !lexer.keyAllowed then .error .misplacedIndicator
      else
        let opened := lexer.openBlock lexer.cursor.column none .blockMappingStart
        .ok (({ opened with keyAllowed := !lexer.inFlow }.skip 1).push .value)

/-- A word that may be a key and after which, on the same line, none may start. -/
def readKeyWord (read : Cursor → Except SyntaxFault (Token × Cursor)) : Step := fun lexer => do
  let noted ← noteKey lexer
  let (token, next) ← read noted.cursor
  .ok ({ noted with keyAllowed := false, cursor := next }.push token)

def readBlockText (literal : Bool) : Step := fun lexer => do
  let cleared ← dropKey lexer
  let (token, next) ← readBlock literal lexer.indent lexer.size cleared.cursor
  .ok ({ cleared with keyAllowed := true, cursor := next }.push token)

def readPlainText : Step := fun lexer => do
  let noted ← noteKey lexer
  let (token, next, broken) ←
    readPlain lexer.inFlow (lexer.indent + 1).toNat lexer.size noted.cursor
  .ok ({ noted with keyAllowed := broken, cursor := next }.push token)

def indicators : List Char :=
  ['-', '?', ':', ',', '[', ']', '\x7b', '\x7d', '#', '&', '*', '!', '|', '>', '\'', '"', '%', '@',
    '\x60']

def startsPlain (lexer : Lexer) (c : Char) (next : Option Char) : Bool :=
  !(isBlank c || isBreak c || indicators.contains c) ||
    (c == '-' && !(next.map isBlank).getD false) ||
    (!lexer.inFlow && (c == '?' || c == ':') && !endsWord next)

def readWord (c : Char) : Step := fun lexer =>
  let next := lexer.cursor.peekAt 1
  let alone := endsWord next
  if lexer.cursor.column == 0 && c == '%' then readDirectiveWord lexer
  else if lexer.cursor.atMarker '-' then readDocumentMark .documentStart lexer
  else if lexer.cursor.atMarker '.' then readDocumentMark .documentEnd lexer
  else if c == '[' then openFlow .flowSequenceStart lexer
  else if c == '\x7b' then openFlow .flowMappingStart lexer
  else if c == ']' then closeFlow .flowSequenceEnd lexer
  else if c == '\x7d' then closeFlow .flowMappingEnd lexer
  else if c == ',' then readFlowEntry lexer
  else if c == '-' && alone then readBlockEntry lexer
  else if c == '?' && (lexer.inFlow || alone) then readKeyMark lexer
  else if c == ':' && (lexer.inFlow || alone) then readValueMark lexer
  else if c == '*' then
    readKeyWord (fun cursor => (readAnchorName cursor).map fun read => (.alias read.1, read.2))
      lexer
  else if c == '&' then
    readKeyWord (fun cursor => (readAnchorName cursor).map fun read => (.anchor read.1, read.2))
      lexer
  else if c == '!' then readKeyWord (readTag lexer.inFlow) lexer
  else if c == '|' && !lexer.inFlow then readBlockText true lexer
  else if c == '>' && !lexer.inFlow then readBlockText false lexer
  else if c == '\'' then readKeyWord (readQuoted true lexer.size) lexer
  else if c == '"' then readKeyWord (readQuoted false lexer.size) lexer
  else if lexer.startsPlain c next then readPlainText lexer
  else .error .strayCharacter

def readNext : Step := fun lexer =>
  if !lexer.started then .ok lexer.startStream
  else do
    let kept ← dropStaleKeys (lexer.skipGap (lexer.size + 1))
    let closed := kept.closeBlocks kept.cursor.column
    match closed.cursor.peek with
    | none => endStream closed
    | some c => readWord c closed

def headUnsettled (lexer : Lexer) : Bool :=
  lexer.keys.any fun key => match key with
    | some key => key.number == lexer.released
    | none => false

def settle : Nat → Step
  | 0, lexer => .ok lexer
  | steps + 1, lexer =>
      if lexer.waiting.isEmpty then do settle steps (← readNext lexer)
      else do
        let kept ← dropStaleKeys lexer
        if kept.headUnsettled then settle steps (← readNext kept) else .ok kept

/-- All words up to the end of the stream, or up to the first fault. `steps` bounds their number. -/
def words : Nat → Lexer → List Token × Option SyntaxFault
  | 0, _ => ([], none)
  | steps + 1, lexer =>
      match settle (lexer.size + 3) lexer with
      | .error fault => ([], some fault)
      | .ok settled =>
          match settled.waiting with
          | [] => ([], none)
          | .streamEnd :: _ => ([.streamEnd], none)
          | token :: rest =>
              let others := words steps
                { settled with waiting := rest, released := settled.released + 1 }
              (token :: others.1, others.2)

end Lexer

def isAllowed (c : Char) : Bool :=
  let code := c.toNat
  c == '\t' || c == '\n' || c == '\r' || (0x20 ≤ code && code ≤ 0x7E) || code == 0x85 ||
    (0xA0 ≤ code && code ≤ 0xD7FF) || (0xE000 ≤ code && code ≤ 0xFFFD) || 0x10000 ≤ code

/-- The words of a text, which may start with a byte order mark. A character that may not stand in
it is found before any word. A word is preceded by at most two marks, and a collection is closed
once per word that opens it. -/
def tokens (text : String) : List Token × Option SyntaxFault :=
  let chars := match text.toList with
    | '\ufeff' :: rest => rest
    | chars => chars
  if chars.all isAllowed then Lexer.words (4 * chars.length + 8) (Lexer.ofChars chars)
  else ([], some .controlCharacter)

end FaultInjection.Yaml
