import FaultInjection.Yaml.Token.Lexer

/-!
The structure of a YAML stream: documents, collections, scalars and aliases, in the order of the
text. Events come from words by a machine that remembers what may follow; a fault ends them.
-/

namespace FaultInjection.Yaml

inductive Event where
  | documentStart
  | documentEnd
  | alias (name : String)
  | scalar (anchor : Option String) (tag : Option Bytes) (text : String) (style : ScalarStyle)
  | sequenceStart (anchor : Option String) (tag : Option Bytes)
  | sequenceEnd
  | mappingStart (anchor : Option String) (tag : Option Bytes)
  | mappingEnd
  deriving DecidableEq, Repr

inductive Place where
  | implicitDocument
  | document
  | documentContent
  | documentEnd
  | blockNode
  | blockSequenceFirst
  | blockSequence
  | indentlessSequence
  | blockMappingFirst
  | blockMappingKey
  | blockMappingValue
  | flowSequenceFirst
  | flowSequence
  | flowPairKey
  | flowPairValue
  | flowPairEnd
  | flowMappingFirst
  | flowMappingKey
  | flowMappingValue
  | flowMappingEmptyValue
  | done
  deriving DecidableEq

/-- `words` are the words still to come, and `fault` is what is wrong with the text after them.
`outer` are the places to return to, and `handles` the tag handles of the document. -/
structure EventReader where
  words : List Token
  fault : Option SyntaxFault
  place : Place
  outer : List Place
  handles : List (String × Bytes)

namespace EventReader

abbrev Outcome := Except SyntaxFault (Option Event × EventReader)

def peek (reader : EventReader) : Except SyntaxFault Token :=
  match reader.words with
  | token :: _ => .ok token
  | [] => .error (reader.fault.getD .strayCharacter)

def advance (reader : EventReader) : EventReader := { reader with words := reader.words.tail }

def goto (reader : EventReader) (place : Place) : EventReader := { reader with place := place }

def call (reader : EventReader) (back : Place) : EventReader :=
  { reader with outer := back :: reader.outer }

def leave (reader : EventReader) : EventReader :=
  { reader with place := reader.outer.headD .done, outer := reader.outer.tail }

def emptyScalar : Event := .scalar none none "" .plain

def emit (event : Event) (reader : EventReader) : Outcome := .ok (some event, reader)

def resolveTag (reader : EventReader) (handle : String) (suffix : Bytes) :
    Except SyntaxFault Bytes :=
  if handle = "" then .ok suffix
  else match reader.handles.find? (·.1 = handle) with
    | some (_, expansion) => .ok (expansion ++ suffix)
    | none => .error .undefinedHandle

structure Properties where
  anchor : Option String
  tag : Option (String × Bytes)

/-- An anchor and a tag, in either order, each at most once. -/
def readProperties (reader : EventReader) : Except SyntaxFault (Properties × EventReader) := do
  match ← reader.peek with
  | .anchor name =>
      let next := reader.advance
      match ← next.peek with
      | .tag handle suffix => .ok (⟨some name, some (handle, suffix)⟩, next.advance)
      | _ => .ok (⟨some name, none⟩, next)
  | .tag handle suffix =>
      let next := reader.advance
      match ← next.peek with
      | .anchor name => .ok (⟨some name, some (handle, suffix)⟩, next.advance)
      | _ => .ok (⟨none, some (handle, suffix)⟩, next)
  | _ => .ok (⟨none, none⟩, reader)

/-- A node. `block` admits block collections, and `indentless` a sequence without indentation of
its own. -/
def readNode (block indentless : Bool) (reader : EventReader) : Outcome := do
  match ← reader.peek with
  | .alias name => emit (.alias name) reader.advance.leave
  | _ =>
    let (properties, next) ← reader.readProperties
    let tag ← match properties.tag with
      | none => .ok none
      | some (handle, suffix) => (resolveTag reader handle suffix).map some
    let anchor := properties.anchor
    let blockFault := SyntaxFault.missingContent
    match ← next.peek with
    | .blockEntry =>
        if indentless then emit (.sequenceStart anchor tag) (next.goto .indentlessSequence)
        else if anchor.isSome || tag.isSome then
          emit (.scalar anchor tag "" .plain) next.leave
        else .error blockFault
    | .scalar text style => emit (.scalar anchor tag text style) next.advance.leave
    | .flowSequenceStart => emit (.sequenceStart anchor tag) (next.goto .flowSequenceFirst)
    | .flowMappingStart => emit (.mappingStart anchor tag) (next.goto .flowMappingFirst)
    | token =>
        if block && token = .blockSequenceStart then
          emit (.sequenceStart anchor tag) (next.goto .blockSequenceFirst)
        else if block && token = .blockMappingStart then
          emit (.mappingStart anchor tag) (next.goto .blockMappingFirst)
        else if anchor.isSome || tag.isSome then emit (.scalar anchor tag "" .plain) next.leave
        else .error blockFault

def standardHandles : List (String × Bytes) :=
  [("!", asciiBytes ['!']), ("!!", asciiBytes "tag:yaml.org,2002:".toList)]

/-- Reads the directives of a document. `steps` bounds the number of words. -/
def readDirectives (versioned : Bool) : Nat → EventReader → Except SyntaxFault EventReader
  | 0, reader => .ok reader
  | steps + 1, reader => do
      match ← reader.peek with
      | .versionDirective major minor =>
          if versioned || major != 1 || (minor != 1 && minor != 2) then .error .directive
          else readDirectives true steps reader.advance
      | .tagDirective handle expansion =>
          if reader.handles.any (·.1 = handle) then .error .directive
          else
            let extended := reader.handles ++ [(handle, expansion)]
            readDirectives versioned steps { reader.advance with handles := extended }
      | _ =>
          let missing := standardHandles.filter fun standard =>
            !reader.handles.any (·.1 = standard.1)
          .ok { reader with handles := reader.handles ++ missing }

def isDirectiveOrMark : Token → Bool
  | .versionDirective _ _ | .tagDirective _ _ | .documentStart | .documentEnd | .streamEnd => true
  | _ => false

def skipDocumentEnds : Nat → EventReader → Except SyntaxFault EventReader
  | 0, reader => .ok reader
  | steps + 1, reader => do
      match ← reader.peek with
      | .documentEnd => skipDocumentEnds steps reader.advance
      | _ => .ok reader

def readDocumentStart (implicit : Bool) (reader : EventReader) : Outcome := do
  let steps := reader.words.length + 1
  let start ← if implicit then .ok reader else skipDocumentEnds steps reader
  let token ← start.peek
  if implicit && (!isDirectiveOrMark token || token = .documentEnd) then
    let prepared ← readDirectives false steps start
    emit .documentStart ((prepared.call .documentEnd).goto .blockNode)
  else if token = .streamEnd then .ok (none, start.goto .done)
  else
    let prepared ← readDirectives false steps start
    match ← prepared.peek with
    | .documentStart =>
        emit .documentStart ((prepared.advance.call .documentEnd).goto .documentContent)
    | _ => .error .documentStart

/-- An entry of a collection: the node that starts here, or an empty scalar before one of the words
that `stops` names. -/
def readEntry (block indentless : Bool) (back : Place) (stops : Token → Bool)
    (reader : EventReader) : Outcome := do
  let token ← reader.peek
  if stops token then emit emptyScalar (reader.goto back)
  else readNode block indentless (reader.call back)

def endsBlockItem (token : Token) : Bool := token = .blockEntry || token = .blockEnd

def endsBlockPair (token : Token) : Bool :=
  token = .key || token = .value || token = .blockEnd

def endsIndentlessItem (token : Token) : Bool := token = .blockEntry || endsBlockPair token

def readBlockSequence (reader : EventReader) : Outcome := do
  match ← reader.peek with
  | .blockEntry => readEntry true false .blockSequence endsBlockItem reader.advance
  | .blockEnd => emit .sequenceEnd reader.advance.leave
  | _ => .error .collection

def readIndentlessSequence (reader : EventReader) : Outcome := do
  match ← reader.peek with
  | .blockEntry => readEntry true false .indentlessSequence endsIndentlessItem reader.advance
  | _ => emit .sequenceEnd reader.leave

def readBlockMappingKey (reader : EventReader) : Outcome := do
  match ← reader.peek with
  | .key => readEntry true true .blockMappingValue endsBlockPair reader.advance
  | .blockEnd => emit .mappingEnd reader.advance.leave
  | _ => .error .collection

def readBlockMappingValue (reader : EventReader) : Outcome := do
  match ← reader.peek with
  | .value => readEntry true true .blockMappingKey endsBlockPair reader.advance
  | _ => emit emptyScalar (reader.goto .blockMappingKey)

def endsFlowItem (token : Token) : Bool := token = .flowEntry || token = .flowSequenceEnd

def endsFlowPair (token : Token) : Bool := token = .flowEntry || token = .flowMappingEnd

/-- An item of a flow sequence, or its end. A key mark starts a mapping of one pair. -/
def readFlowItem (reader : EventReader) : Outcome := do
  match ← reader.peek with
  | .flowSequenceEnd => emit .sequenceEnd reader.advance.leave
  | .key => emit (.mappingStart none none) (reader.advance.goto .flowPairKey)
  | _ => readNode false false (reader.call .flowSequence)

def readFlowSequence (first : Bool) (reader : EventReader) : Outcome := do
  match ← reader.peek with
  | .flowSequenceEnd => emit .sequenceEnd reader.advance.leave
  | .flowEntry => if first then readFlowItem reader else readFlowItem reader.advance
  | _ => if first then readFlowItem reader else .error .collection

def readFlowPairKey (reader : EventReader) : Outcome := do
  let token ← reader.peek
  if token = .value || endsFlowItem token then
    emit emptyScalar (reader.advance.goto .flowPairValue)
  else readNode false false (reader.call .flowPairValue)

def readFlowPairValue (reader : EventReader) : Outcome := do
  match ← reader.peek with
  | .value => readEntry false false .flowPairEnd endsFlowItem reader.advance
  | _ => emit emptyScalar (reader.goto .flowPairEnd)

def readFlowPairEnd (reader : EventReader) : Outcome := do
  let _ ← reader.peek
  emit .mappingEnd (reader.goto .flowSequence)

/-- A key of a flow mapping, with or without its mark, or the end of the mapping. -/
def readFlowKey (reader : EventReader) : Outcome := do
  match ← reader.peek with
  | .flowMappingEnd => emit .mappingEnd reader.advance.leave
  | .key =>
      readEntry false false .flowMappingValue (fun token => token = .value || endsFlowPair token)
        reader.advance
  | _ => readNode false false (reader.call .flowMappingEmptyValue)

def readFlowMapping (first : Bool) (reader : EventReader) : Outcome := do
  match ← reader.peek with
  | .flowMappingEnd => emit .mappingEnd reader.advance.leave
  | .flowEntry => if first then readFlowKey reader else readFlowKey reader.advance
  | _ => if first then readFlowKey reader else .error .collection

def readFlowMappingValue (reader : EventReader) : Outcome := do
  match ← reader.peek with
  | .value => readEntry false false .flowMappingKey endsFlowPair reader.advance
  | _ => emit emptyScalar (reader.goto .flowMappingKey)

/-- The next event; none when the stream has ended. -/
def next (reader : EventReader) : Outcome :=
  match reader.place with
  | .implicitDocument => readDocumentStart true reader
  | .document => readDocumentStart false reader
  | .documentContent => do
      if isDirectiveOrMark (← reader.peek) then emit emptyScalar reader.leave
      else readNode true false reader
  | .documentEnd => do
      let following := match ← reader.peek with
        | .documentEnd => reader.advance
        | _ => reader
      emit .documentEnd { following.goto .document with handles := [] }
  | .blockNode => readNode true false reader
  | .blockSequenceFirst => readBlockSequence reader.advance
  | .blockSequence => readBlockSequence reader
  | .indentlessSequence => readIndentlessSequence reader
  | .blockMappingFirst => readBlockMappingKey reader.advance
  | .blockMappingKey => readBlockMappingKey reader
  | .blockMappingValue => readBlockMappingValue reader
  | .flowSequenceFirst => readFlowSequence true reader.advance
  | .flowSequence => readFlowSequence false reader
  | .flowPairKey => readFlowPairKey reader
  | .flowPairValue => readFlowPairValue reader
  | .flowPairEnd => readFlowPairEnd reader
  | .flowMappingFirst => readFlowMapping true reader.advance
  | .flowMappingKey => readFlowMapping false reader
  | .flowMappingValue => readFlowMappingValue reader
  | .flowMappingEmptyValue => do
      let _ ← reader.peek
      emit emptyScalar (reader.goto .flowMappingKey)
  | .done => .ok (none, reader)

/-- The events up to the end of the stream or to the first fault. `steps` bounds their number. -/
def events : Nat → EventReader → List Event × Option SyntaxFault
  | 0, _ => ([], none)
  | steps + 1, reader =>
      match reader.next with
      | .error fault => ([], some fault)
      | .ok (none, _) => ([], none)
      | .ok (some event, following) =>
          let others := events steps following
          (event :: others.1, others.2)

end EventReader

/-- The events of a text. No word yields more than three. -/
def events (text : String) : List Event × Option SyntaxFault :=
  let (words, fault) := tokens text
  match words with
  | .streamStart :: rest =>
      EventReader.events (4 * rest.length + 8) ⟨rest, fault, .implicitDocument, [], []⟩
  | _ => ([], fault)

end FaultInjection.Yaml
