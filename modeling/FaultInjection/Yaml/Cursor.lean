/-!
A position in a YAML text: the characters still to come and the place reached. Line breaks are a
carriage return, a line feed, both together, a next-line character, or a line or paragraph
separator; all but the last two read as a line feed.
-/

namespace FaultInjection.Yaml

def isBlank (c : Char) : Bool := c == ' ' || c == '\t'

def isBreak (c : Char) : Bool :=
  c == '\r' || c == '\n' || c == '\u0085' || c == '\u2028' || c == '\u2029'

def isWordChar (c : Char) : Bool := c.isAlphanum || c == '_' || c == '-'

def endsWord : Option Char → Bool
  | none => true
  | some c => isBlank c || isBreak c

def endsLine : Option Char → Bool
  | none => true
  | some c => isBreak c

def hexValue (c : Char) : Option Nat :=
  if c.isDigit then some (c.toNat - '0'.toNat)
  else if 'a' ≤ c ∧ c ≤ 'f' then some (c.toNat - 'a'.toNat + 10)
  else if 'A' ≤ c ∧ c ≤ 'F' then some (c.toNat - 'A'.toNat + 10)
  else none

structure Cursor where
  rest : List Char
  index : Nat
  line : Nat
  column : Nat
  deriving Repr

namespace Cursor

def peek (cursor : Cursor) : Option Char := cursor.rest.head?

def peekAt (cursor : Cursor) (offset : Nat) : Option Char := cursor.rest[offset]?

def atEnd (cursor : Cursor) : Bool := cursor.rest.isEmpty

def looksAt (cursor : Cursor) (c : Char) : Bool := cursor.peek == some c

def skip (cursor : Cursor) (count : Nat) : Cursor :=
  { cursor with
    rest := cursor.rest.drop count
    index := cursor.index + count
    column := cursor.column + count }

def span (cursor : Cursor) (test : Char → Bool) : List Char × Cursor :=
  let run := cursor.rest.takeWhile test
  (run, cursor.skip run.length)

def skipWhile (cursor : Cursor) (test : Char → Bool) : Cursor := (cursor.span test).2

def skipToBreak (cursor : Cursor) : Cursor := cursor.skipWhile (!isBreak ·)

/-- The character that the line break at this position reads as, and the start of the next line. -/
def lineBreak? (cursor : Cursor) : Option (Char × Cursor) :=
  match cursor.rest with
  | '\r' :: '\n' :: rest => some ('\n', ⟨rest, cursor.index + 2, cursor.line + 1, 0⟩)
  | c :: rest =>
      if isBreak c then
        let read := if c == '\u2028' || c == '\u2029' then c else '\n'
        some (read, ⟨rest, cursor.index + 1, cursor.line + 1, 0⟩)
      else none
  | [] => none

def skipBreak (cursor : Cursor) : Cursor :=
  match cursor.lineBreak? with
  | some (_, next) => next
  | none => cursor

/-- Whether a line starts here with three times `mark` and nothing else in that word. -/
def atMarker (cursor : Cursor) (mark : Char) : Bool :=
  cursor.column == 0 && cursor.rest.take 3 == [mark, mark, mark] && endsWord (cursor.peekAt 3)

def atDocumentMarker (cursor : Cursor) : Bool := cursor.atMarker '-' || cursor.atMarker '.'

end Cursor

end FaultInjection.Yaml
