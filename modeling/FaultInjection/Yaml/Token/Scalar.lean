import FaultInjection.Yaml.Token.Property

/-!
Scalars: plain words, quoted text and block text. Between the lines of plain and quoted text a
single line break reads as a space, and of several the first is dropped; block text keeps its
lines, and folded block text joins them by the same rule where neither line starts with a blank.
-/

namespace FaultInjection.Yaml

structure Gap where
  spaces : List Char
  firstBreak : Option Char
  moreBreaks : List Char
  broken : Bool

def Gap.none (broken : Bool) : Gap := ⟨[], .none, [], broken⟩

def foldBreaks (firstBreak : Option Char) (moreBreaks : List Char) : List Char :=
  if firstBreak == some '\n' then
    if moreBreaks.isEmpty then [' '] else moreBreaks
  else firstBreak.toList ++ moreBreaks

def Gap.folded (gap : Gap) : List Char :=
  if gap.broken then foldBreaks gap.firstBreak gap.moreBreaks else gap.spaces

/-- Reads blanks and line breaks. In plain text no tab may stand in the indentation, that is, left
of `indent`. `steps` bounds the number of characters. -/
def readGap (indent : Nat) : Nat → Gap → Cursor → Except SyntaxFault (Gap × Cursor)
  | 0, gap, cursor => .ok (gap, cursor)
  | steps + 1, gap, cursor =>
      match cursor.peek with
      | none => .ok (gap, cursor)
      | some c =>
          if isBlank c then
            if gap.broken then
              if c == '\t' && cursor.column < indent then .error .plainScalar
              else readGap indent steps gap (cursor.skip 1)
            else readGap indent steps { gap with spaces := gap.spaces ++ [c] } (cursor.skip 1)
          else match cursor.lineBreak? with
            | none => .ok (gap, cursor)
            | some (read, next) =>
                if gap.broken then
                  readGap indent steps { gap with moreBreaks := gap.moreBreaks ++ [read] } next
                else
                  readGap indent steps
                    { gap with spaces := [], firstBreak := some read, broken := true } next

/-! Quoted text -/

def simpleEscape (c : Char) : Option Char :=
  match c with
  | '0' => some '\x00'
  | 'a' => some '\x07'
  | 'b' => some '\x08'
  | 't' | '\t' => some '\t'
  | 'n' => some '\n'
  | 'v' => some '\x0b'
  | 'f' => some '\x0c'
  | 'r' => some '\r'
  | 'e' => some '\x1b'
  | ' ' => some ' '
  | '"' => some '"'
  | '/' => some '/'
  | '\\' => some '\\'
  | 'N' => some '\u0085'
  | '_' => some '\u00a0'
  | 'L' => some '\u2028'
  | 'P' => some '\u2029'
  | _ => none

def escapeWidth (c : Char) : Option Nat :=
  match c with
  | 'x' => some 2
  | 'u' => some 4
  | 'U' => some 8
  | _ => none

def readHex (digits : List Char) : Option Nat :=
  digits.foldlM (fun value digit => (hexValue digit).map (16 * value + ·)) 0

def readEscape (cursor : Cursor) : Option (Char × Nat) := do
  let letter ← cursor.peekAt 1
  match simpleEscape letter with
  | some c => return (c, 2)
  | none =>
      let width ← escapeWidth letter
      let digits := (cursor.rest.drop 2).take width
      if digits.length < width then none
      else
        let code ← readHex digits
        if h : code.isValidChar then return (Char.ofNatAux code h, width + 2) else none

/-- Reads up to a blank, a line break, the closing quote or the end of the text; `run` is what was
read so far, last character first. The last component tells whether an escaped line break ended
the run. -/
def readQuotedRun (single : Bool) :
    Nat → List Char → Cursor → Except SyntaxFault (List Char × Cursor × Bool)
  | 0, run, cursor => .ok (run.reverse, cursor, false)
  | steps + 1, run, cursor =>
      match cursor.peek with
      | none => .ok (run.reverse, cursor, false)
      | some c =>
          if isBlank c || isBreak c then .ok (run.reverse, cursor, false)
          else if single then
            if c == '\'' then
              if cursor.peekAt 1 == some '\'' then
                readQuotedRun single steps ('\'' :: run) (cursor.skip 2)
              else .ok (run.reverse, cursor, false)
            else readQuotedRun single steps (c :: run) (cursor.skip 1)
          else if c == '"' then .ok (run.reverse, cursor, false)
          else if c == '\\' then
            if ((cursor.peekAt 1).map isBreak).getD false then
              .ok (run.reverse, (cursor.skip 1).skipBreak, true)
            else match readEscape cursor with
              | some (character, length) =>
                  readQuotedRun single steps (character :: run) (cursor.skip length)
              | none => .error .quotedScalar
          else readQuotedRun single steps (c :: run) (cursor.skip 1)

def readQuotedBody (single : Bool) :
    Nat → List Char → Cursor → Except SyntaxFault (List Char × Cursor)
  | 0, _, _ => .error .quotedScalar
  | steps + 1, read, cursor =>
      if cursor.atDocumentMarker || cursor.atEnd then .error .quotedScalar
      else do
        let (run, afterRun, escaped) ← readQuotedRun single (steps + 1) [] cursor
        if afterRun.looksAt (if single then '\'' else '"') then
          .ok (read ++ run, afterRun.skip 1)
        else
          let (gap, next) ← readGap 0 (steps + 1) (Gap.none escaped) afterRun
          readQuotedBody single steps (read ++ run ++ gap.folded) next

/-- Reads quoted text from its opening quote on. As everywhere in this module, `size` is at least
the number of characters still to come. -/
def readQuoted (single : Bool) (size : Nat) (cursor : Cursor) :
    Except SyntaxFault (Token × Cursor) := do
  let (text, next) ← readQuotedBody single (size + 1) [] (cursor.skip 1)
  .ok (.scalar (String.ofList text) .quoted, next)

/-! Plain text -/

def endsPlain (inFlow : Bool) (c : Char) (next : Option Char) : Bool :=
  (c == ':' && endsWord next) ||
    (inFlow && (c == ',' || c == '[' || c == ']' || c == '\x7b' || c == '\x7d'))

/-- In flow collections a colon directly before an indicator is refused. -/
def refusedColon (inFlow : Bool) (c : Char) (next : Option Char) : Bool :=
  inFlow && c == ':' &&
    (match next with
      | some n => [',', '?', '[', ']', '\x7b', '\x7d'].contains n
      | none => false)

/-- Reads one word of plain text; `word` is what was read so far, last character first. -/
def readPlainWord (inFlow : Bool) :
    Nat → List Char → Cursor → Except SyntaxFault (List Char × Cursor)
  | 0, word, cursor => .ok (word.reverse, cursor)
  | steps + 1, word, cursor =>
      match cursor.peek with
      | none => .ok (word.reverse, cursor)
      | some c =>
          if isBlank c || isBreak c then .ok (word.reverse, cursor)
          else if refusedColon inFlow c (cursor.peekAt 1) then .error .plainScalar
          else if endsPlain inFlow c (cursor.peekAt 1) then .ok (word.reverse, cursor)
          else readPlainWord inFlow steps (c :: word) (cursor.skip 1)

/-- Reads plain text word by word. The result tells whether a line break was crossed after the
last word. -/
def readPlainBody (inFlow : Bool) (indent : Nat) :
    Nat → List Char → Gap → Cursor → Except SyntaxFault (List Char × Cursor × Bool)
  | 0, read, gap, cursor => .ok (read, cursor, gap.broken)
  | steps + 1, read, gap, cursor =>
      if cursor.atDocumentMarker || cursor.looksAt '#' then .ok (read, cursor, gap.broken)
      else do
        let (word, afterWord) ← readPlainWord inFlow (steps + 1) [] cursor
        let extended := if word.isEmpty then read else read ++ gap.folded ++ word
        let carried := if word.isEmpty then gap else Gap.none false
        match afterWord.peek with
        | some c =>
            if isBlank c || isBreak c then
              let (next, afterGap) ← readGap indent (steps + 1) carried afterWord
              if !inFlow && afterGap.column < indent then .ok (extended, afterGap, next.broken)
              else readPlainBody inFlow indent steps extended next afterGap
            else .ok (extended, afterWord, carried.broken)
        | none => .ok (extended, afterWord, carried.broken)

def readPlain (inFlow : Bool) (indent size : Nat) (cursor : Cursor) :
    Except SyntaxFault (Token × Cursor × Bool) := do
  let (text, next, broken) ← readPlainBody inFlow indent (size + 1) [] (Gap.none false) cursor
  .ok (.scalar (String.ofList text) .plain, next, broken)

/-! Block text -/

inductive Chomping where
  | strip
  | clip
  | keep
  deriving DecidableEq

def readBlockHeader (cursor : Cursor) : Except SyntaxFault ((Chomping × Option Nat) × Cursor) :=
  let chomping (c : Option Char) : Option Chomping :=
    match c with
    | some '+' => some .keep
    | some '-' => some .strip
    | _ => none
  let increment (c : Option Char) : Except SyntaxFault (Option Nat) :=
    match c with
    | some d =>
        if d == '0' then .error .blockScalar
        else if d.isDigit then .ok (some (d.toNat - '0'.toNat))
        else .ok none
    | none => .ok none
  match chomping cursor.peek with
  | some mode => do
      let amount ← increment (cursor.peekAt 1)
      .ok ((mode, amount), cursor.skip (if amount.isSome then 2 else 1))
  | none => do
      match ← increment cursor.peek with
      | none => .ok ((.clip, none), cursor)
      | some amount =>
          match chomping (cursor.peekAt 1) with
          | some mode => .ok ((mode, some amount), cursor.skip 2)
          | none => .ok ((.clip, some amount), cursor.skip 1)

def skipIndent (limit : Option Nat) : Nat → Cursor → Cursor
  | 0, cursor => cursor
  | steps + 1, cursor =>
      let within := match limit with
        | some column => cursor.column < column
        | none => true
      if within && cursor.looksAt ' ' then skipIndent limit steps (cursor.skip 1) else cursor

/-- Reads empty lines and the indentation after them. The first component is the widest
indentation seen, which settles the indentation of the text when `limit` leaves it open. -/
def readEmptyLines (limit : Option Nat) :
    Nat → Nat → List Char → Cursor → Except SyntaxFault (Nat × List Char × Cursor)
  | 0, widest, breaks, cursor => .ok (widest, breaks, cursor)
  | steps + 1, widest, breaks, cursor =>
      let next := skipIndent limit (steps + 1) cursor
      let wider := max widest next.column
      let within := match limit with
        | some column => next.column < column
        | none => true
      if within && next.looksAt '\t' then .error .blockScalar
      else match next.lineBreak? with
        | none => .ok (wider, breaks, next)
        | some (read, afterBreak) =>
            readEmptyLines limit steps wider (breaks ++ [read]) afterBreak

structure BlockText where
  text : List Char
  lastBreak : Option Char
  moreBreaks : List Char
  leadingBlank : Bool

/-- The text with the breaks before the next line, which starts with a blank or not. -/
def BlockText.joined (block : BlockText) (literal startsBlank : Bool) : List Char :=
  let joint :=
    if !literal && block.lastBreak == some '\n' && !block.leadingBlank && !startsBlank then
      if block.moreBreaks.isEmpty then [' '] else []
    else block.lastBreak.toList
  block.text ++ joint ++ block.moreBreaks

def readBlockLines (literal : Bool) (indent : Nat) :
    Nat → BlockText → Cursor → Except SyntaxFault (BlockText × Cursor)
  | 0, block, cursor => .ok (block, cursor)
  | steps + 1, block, cursor =>
      if cursor.column != indent || cursor.atEnd then .ok (block, cursor)
      else do
        let startsBlank := (cursor.peek.map isBlank).getD false
        let (line, afterLine) := cursor.span (!isBreak ·)
        let text := block.joined literal startsBlank ++ line
        let (lastBreak, afterBreak) := match afterLine.lineBreak? with
          | some (read, next) => (some read, next)
          | none => (none, afterLine)
        let (_, breaks, next) ←
          readEmptyLines (some indent) (steps + 1) 0 [] afterBreak
        readBlockLines literal indent steps ⟨text, lastBreak, breaks, startsBlank⟩ next

/-- Reads block text from its indicator on. `parentIndent` is the indentation of the collection
around it, -1 outside all collections. -/
def readBlock (literal : Bool) (parentIndent : Int) (size : Nat) (cursor : Cursor) :
    Except SyntaxFault (Token × Cursor) := do
  let ((chomping, increment), afterHeader) ← readBlockHeader (cursor.skip 1)
  let start ← finishLine .blockScalar afterHeader
  let limit := increment.map fun amount => (max parentIndent 0).toNat + amount
  let (widest, breaks, first) ← readEmptyLines limit (size + 1) 0 [] start
  let indent := limit.getD (max (max widest (parentIndent + 1).toNat) 1)
  let (block, next) ←
    readBlockLines literal indent (size + 1) ⟨[], none, breaks, false⟩ first
  let tail := match chomping with
    | .strip => []
    | .clip => block.lastBreak.toList
    | .keep => block.lastBreak.toList ++ block.moreBreaks
  .ok (.scalar (String.ofList (block.text ++ tail)) .block, next)

end FaultInjection.Yaml
