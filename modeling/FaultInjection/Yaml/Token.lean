/-!
The words of a YAML text, and what can be wrong with a text at this level. Tags are kept as bytes,
because their escapes may spell any bytes.
-/

namespace FaultInjection.Yaml

inductive SyntaxFault where
  | controlCharacter
  | missingKeyMark
  | misplacedIndicator
  | directive
  | anchorName
  | tagForm
  | blockScalar
  | quotedScalar
  | plainScalar
  | strayCharacter
  | documentStart
  | undefinedHandle
  | collection
  | missingContent
  | unknownAnchor
  deriving DecidableEq, Repr

inductive ScalarStyle where
  | plain
  | quoted
  | block
  deriving DecidableEq, Repr

abbrev Bytes := List UInt8

inductive Token where
  | streamStart
  | streamEnd
  | versionDirective (major minor : Nat)
  | tagDirective (handle : String) (expansion : Bytes)
  | documentStart
  | documentEnd
  | blockSequenceStart
  | blockMappingStart
  | blockEnd
  | flowSequenceStart
  | flowSequenceEnd
  | flowMappingStart
  | flowMappingEnd
  | blockEntry
  | flowEntry
  | key
  | value
  | alias (name : String)
  | anchor (name : String)
  | tag (handle : String) (suffix : Bytes)
  | scalar (text : String) (style : ScalarStyle)
  deriving DecidableEq, Repr

end FaultInjection.Yaml
