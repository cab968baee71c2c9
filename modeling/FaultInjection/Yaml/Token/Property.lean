import FaultInjection.Yaml.Cursor
import FaultInjection.Yaml.Token

/-!
Anchors, aliases, tags and directives: the words that start with an ampersand, a star, an
exclamation mark or a percent sign.
-/

namespace FaultInjection.Yaml

def asciiBytes (chars : List Char) : Bytes := chars.map fun c => UInt8.ofNat c.toNat

def anchorStops : List Char := ['?', ':', ',', ']', '\x7d', '%', '@', '\x60']

/-- The name of an anchor or alias, read from its indicator on. -/
def readAnchorName (cursor : Cursor) : Except SyntaxFault (String × Cursor) :=
  let (name, next) := (cursor.skip 1).span isWordChar
  let stops := match next.peek with
    | none => true
    | some c => isBlank c || isBreak c || anchorStops.contains c
  if name.isEmpty || !stops then .error .anchorName
  else .ok (String.ofList name, next)

/-- Characters of a tag, besides letters, digits, underscore and hyphen. -/
def tagChars : List Char :=
  [';', '/', '?', ':', '@', '&', '=', '+', '$', '.', '%', '!', '~', '*', '\'', '(', ')']

def isTagChar (verbatim : Bool) (c : Char) : Bool :=
  isWordChar c || tagChars.contains c || (verbatim && (c == ',' || c == '[' || c == ']'))

def readOctet : List Char → Option (Nat × List Char)
  | '%' :: high :: low :: rest => do
      let h ← hexValue high
      let l ← hexValue low
      return (16 * h + l, rest)
  | _ => none

def utf8Width (first : Nat) : Option Nat :=
  if first < 0x80 then some 1
  else if 0xC0 ≤ first ∧ first < 0xE0 then some 2
  else if 0xE0 ≤ first ∧ first < 0xF0 then some 3
  else if 0xF0 ≤ first ∧ first < 0xF8 then some 4
  else none

def readTrailingOctets : Nat → List Char → Option Bytes
  | 0, _ => some []
  | count + 1, chars => do
      let (octet, rest) ← readOctet chars
      if 0x80 ≤ octet && octet < 0xC0 then
        let others ← readTrailingOctets count rest
        return UInt8.ofNat octet :: others
      else none

def readEscapes (chars : List Char) : Option Bytes := do
  let (first, rest) ← readOctet chars
  let width ← utf8Width first
  let others ← readTrailingOctets (width - 1) rest
  return UInt8.ofNat first :: others

/-- The octets of a run of tag characters, and how many characters they took. `steps` bounds the
number of characters. -/
def readTagOctets (verbatim : Bool) : Nat → List Char → Option (Bytes × Nat)
  | 0, _ => some ([], 0)
  | _, [] => some ([], 0)
  | steps + 1, c :: rest =>
      if c == '%' then do
        let octets ← readEscapes (c :: rest)
        let taken := 3 * octets.length
        let (others, count) ← readTagOctets verbatim steps (rest.drop (taken - 1))
        return (octets ++ others, taken + count)
      else if isTagChar verbatim c then do
        let (others, count) ← readTagOctets verbatim steps rest
        return (UInt8.ofNat c.toNat :: others, count + 1)
      else some ([], 0)

/-- The text of a tag. `head` is what was already read of it as a handle; its exclamation mark is
not part of the text. -/
def readTagText (verbatim : Bool) (head : List Char) (cursor : Cursor) :
    Except SyntaxFault (Bytes × Cursor) :=
  match readTagOctets verbatim cursor.rest.length cursor.rest with
  | none => .error .tagForm
  | some (octets, count) =>
      if count = 0 && head.isEmpty then .error .tagForm
      else .ok (asciiBytes (head.drop 1) ++ octets, cursor.skip count)

/-- A handle: an exclamation mark, a word, and perhaps another exclamation mark. -/
def readTagHandle (inDirective : Bool) (cursor : Cursor) :
    Except SyntaxFault (List Char × Cursor) :=
  if !cursor.looksAt '!' then .error .tagForm
  else
    let (word, next) := (cursor.skip 1).span isWordChar
    if next.looksAt '!' then .ok ('!' :: word ++ ['!'], next.skip 1)
    else if inDirective && !word.isEmpty then .error .directive
    else .ok ('!' :: word, next)

/-- Whether a handle is named, that is, has exclamation marks at both ends. -/
def isNamedHandle (handle : List Char) : Bool :=
  2 ≤ handle.length && handle.getLast? == some '!'

/-- A tag, as a handle and what follows it. A tag without a handle has the empty one. -/
def readTag (inFlow : Bool) (cursor : Cursor) : Except SyntaxFault (Token × Cursor) := do
  let (token, next) ←
    if cursor.peekAt 1 == some '<' then do
      let (suffix, next) ← readTagText true [] (cursor.skip 2)
      if next.looksAt '>' then .ok (Token.tag "" suffix, next.skip 1) else .error .tagForm
    else do
      let (handle, afterHandle) ← readTagHandle false cursor
      if isNamedHandle handle then
        let (suffix, next) ← readTagText false [] afterHandle
        .ok (Token.tag (String.ofList handle) suffix, next)
      else
        let (suffix, next) ← readTagText false handle afterHandle
        if suffix.isEmpty then .ok (Token.tag "" (asciiBytes ['!']), next)
        else .ok (Token.tag "!" suffix, next)
  if (inFlow && next.looksAt ',') || endsWord next.peek then .ok (token, next)
  else .error .tagForm

def readVersionNumber (cursor : Cursor) : Except SyntaxFault (Nat × Cursor) :=
  let (digits, next) := cursor.span Char.isDigit
  if digits.isEmpty || 9 < digits.length then .error .directive
  else .ok (digits.foldl (fun n d => 10 * n + (d.toNat - '0'.toNat)) 0, next)

def readVersion (cursor : Cursor) : Except SyntaxFault (Token × Cursor) := do
  let (major, next) ← readVersionNumber (cursor.skipWhile isBlank)
  if !next.looksAt '.' then .error .directive
  else
    let (minor, last) ← readVersionNumber (next.skip 1)
    .ok (.versionDirective major minor, last)

def readTagDefinition (cursor : Cursor) : Except SyntaxFault (Token × Cursor) := do
  let (handle, next) ← readTagHandle true (cursor.skipWhile isBlank)
  match next.peek with
  | some c =>
      if isBlank c then
        let (expansion, last) ← readTagText true [] (next.skipWhile isBlank)
        if endsWord last.peek then .ok (.tagDirective (String.ofList handle) expansion, last)
        else .error .directive
      else .error .directive
  | none => .error .directive

def finishLine (fault : SyntaxFault) (cursor : Cursor) : Except SyntaxFault Cursor :=
  let afterBlanks := cursor.skipWhile isBlank
  let afterComment := if afterBlanks.looksAt '#' then afterBlanks.skipToBreak else afterBlanks
  if endsLine afterComment.peek then .ok afterComment.skipBreak else .error fault

def readDirective (cursor : Cursor) : Except SyntaxFault (Token × Cursor) := do
  let (name, afterName) := (cursor.skip 1).span isWordChar
  if name.isEmpty || !endsWord afterName.peek then .error .directive
  else
    let (token, next) ←
      if name == "YAML".toList then readVersion afterName
      else if name == "TAG".toList then readTagDefinition afterName
      else .error .directive
    let finished ← finishLine .directive next
    .ok (token, finished)

end FaultInjection.Yaml
