import FaultInjection.Error
import FaultInjection.Yaml.Node
import FaultInjection.Yaml.Plain

/-!
Values from documents. Aliases are followed wherever they stand; collections nest at most 128
deep, and a document whose aliases are followed too often for its size is refused. The first
fault in the order of the text is the one reported.
-/

namespace FaultInjection.Yaml

/-- Decoding counts the aliases that it has followed. -/
abbrev Decoding := StateT Nat (Except DefinitionFault)

def Decoding.fail {α : Type} (fault : DefinitionFault) : Decoding α := fun _ => .error fault

def malformed {α : Type} : Decoding α := Decoding.fail .document

def mismatch {α : Type} (path : Path) (found : Found) (expected : Expected) : Decoding α :=
  Decoding.fail (.shape path (.wrongType found expected))

def nestingLimit : Nat := 128

/-- The node that stands for this one: itself, or the one an alias names. -/
def Document.follow (document : Document) : Node → Decoding Node
  | .alias anchor => do
      let followed := (← get) + 1
      set followed
      if document.size * 100 < followed then malformed
      else return ((document.anchored.find? (·.1 = anchor)).map (·.2)).getD .missing
  | node => return node

/-- The tag of a node as the value keeps it. Only local tags, which start with an exclamation mark,
are kept, and the mark is dropped unless it is the whole tag. A mark alone is no sign that a scalar
should be read as usual: `! 12` is the number 12 under the tag `!`, and is written `!<%21> 12`. -/
def localTag? : Option Bytes → Option String
  | none => none
  | some bytes =>
      match String.fromUTF8? (ByteArray.mk bytes.toArray) with
      | none => none
      | some text =>
          let unmarked (chars : List Char) : List Char :=
            match chars with
            | '!' :: c :: rest => c :: rest
            | _ => chars
          match text.toList with
          | '!' :: rest => some (String.ofList (unmarked (unmarked ('!' :: rest))))
          | _ => none

def nodeTag? : Node → Option Bytes
  | .scalar tag _ _ => tag
  | .sequence tag _ _ => tag
  | .mapping tag _ _ => tag
  | _ => none

def standardTag (name : String) : Bytes := asciiBytes ("tag:yaml.org,2002:" ++ name).toList

def startsWithMark : Bytes → Bool
  | first :: _ => first == 33
  | [] => false

inductive ScalarReading where
  | value (value : Value)
  | found (found : Found)
  | refused

/-- The reading of a scalar. `tag` is the tag that still has to be obeyed, if any. -/
def readScalar (tag : Option Bytes) (text : String) (style : ScalarStyle) : ScalarReading :=
  let plain := match Plain.value? text with
    | .ok value => ScalarReading.value value
    | .error found => .found found
  match tag with
  | none => if style = .plain then plain else .value (.string text)
  | some bytes =>
      if bytes = standardTag "bool" then
        match Plain.bool? text with
        | some value => .value (.bool value)
        | none => .refused
      else if bytes = standardTag "int" then
        match (Plain.integer? text.toList).bind Plain.ofInteger with
        | some (.integer value) => .value (.integer value)
        | some (.wide value) => .found (.wideInteger value)
        | _ => .refused
      else if bytes = standardTag "float" then
        match Plain.float? text.toList with
        | some value => .value (.float value)
        | none => .refused
      else if bytes = standardTag "null" then
        if Plain.isNull text then .value .null else .refused
      else if startsWithMark bytes && style = .plain then plain
      else .value (.string text)

def decodeScalar (path : Path) (tag : Option Bytes) (text : String) (style : ScalarStyle) :
    Decoding Value :=
  match readScalar tag text style with
  | .value value => return value
  | .found found => mismatch path found .anyValue
  | .refused => malformed

def foundNode : Node → Option Found
  | .scalar tag text style =>
      match readScalar tag text style with
      | .value .null => some .unit
      | .value (.bool value) => some (.boolean value)
      | .value (.integer value) => some (.integer value)
      | .value (.float value) => some (.number value)
      | .value (.string value) => some (.text value)
      | .value _ => none
      | .found found => some found
      | .refused => none
  | .sequence _ _ _ => some .sequence
  | .mapping _ _ _ => some .mapping
  | _ => none

def unexpected {α : Type} (path : Path) (node : Node) (expected : Expected) : Decoding α :=
  match foundNode node with
  | some found => mismatch path found expected
  | none => malformed

def Path.under (path : Path) : Node → Path
  | .scalar _ text _ => .field path text
  | _ => .unnamed path

abbrev NodeDecoder := Path → Node → Decoding Value

def decodeItems (decode : NodeDecoder) (path : Path) : Nat → List Node → Decoding (List Value)
  | _, [] => return []
  | index, item :: rest => do
      let value ← decode (.item path index) item
      return value :: (← decodeItems decode path (index + 1) rest)

/-- The entries of a mapping after those in `before`, none of whose keys may come again. -/
def decodeEntries (decode : NodeDecoder) (path : Path) (before : List (Value × Value)) :
    List (Node × Node) → Decoding (List (Value × Value))
  | [] => return before
  | (keyNode, valueNode) :: rest => do
      let key ← decode path keyNode
      if before.any fun entry => entry.1.same key then malformed
      else
        let value ← decode (path.under keyNode) valueNode
        decodeEntries decode path (before ++ [(key, value)]) rest

/-- Fails if a fault cuts the collection short. -/
def requireWhole (whole : Bool) : Decoding Unit := if whole then return () else malformed

/-- The value of a node. `inner` decodes the members of collections; it is absent where nothing may
nest any deeper. -/
def decodeNode (document : Document) (inner : Option NodeDecoder) (path : Path) (node : Node) :
    Decoding Value := do
  let target ← document.follow node
  let tag := localTag? (nodeTag? target)
  let wrap (value : Value) : Value :=
    match tag with
    | some name => .tagged name value
    | none => value
  match target with
  | .scalar ownTag text style =>
      let value ← decodeScalar path (if tag.isSome then none else ownTag) text style
      return wrap value
  | .sequence _ items whole =>
      match inner with
      | none => malformed
      | some decode => do
          let values ← decodeItems decode path 0 items
          requireWhole whole
          return wrap (.sequence values)
  | .mapping _ entries whole =>
      match inner with
      | none => malformed
      | some decode => do
          let values ← decodeEntries decode path [] entries
          requireWhole whole
          return wrap (.mapping values)
  | .void => return .null
  | .alias _ | .missing => malformed

def decodeValue (document : Document) : Nat → NodeDecoder
  | 0 => decodeNode document none
  | depth + 1 => decodeNode document (some (decodeValue document depth))

/-- Whether an optional value is there. A scalar that is null, or nothing at all, is not. -/
def isPresent : Node → Decoding Bool
  | .scalar tag text style =>
      if style != .plain then return true
      else match tag with
        | some bytes =>
            if bytes = standardTag "null" then
              if Plain.isNull text then return false else malformed
            else return true
        | none => return text != "" && !Plain.isNull text
  | .sequence _ _ _ | .mapping _ _ _ => return true
  | .void => return false
  | .alias _ | .missing => malformed

def decodeText? (document : Document) (path : Path) (node : Node) : Decoding (Option String) := do
  let target ← document.follow node
  if ← isPresent target then
    match target with
    | .scalar _ text _ => return some text
    | other => unexpected path other .text
  else return none

def decodeValue? (document : Document) (depth : Nat) (path : Path) (node : Node) :
    Decoding (Option Value) := do
  let target ← document.follow node
  if ← isPresent target then return some (← decodeValue document depth path target) else return none

def decodeFieldName (document : Document) (path : Path) (node : Node) : Decoding String := do
  match ← document.follow node with
  | .scalar _ text _ => return text
  | other => unexpected path other .fieldName

/-- The fields of a record, read one after the other by `read`, which is given what was read so
far, the field's name, its path and its node. An empty scalar is a record without fields. -/
def decodeRecord {α : Type} (document : Document) (expected : Expected)
    (read : α → String → Path → Node → Decoding α) (empty : α) (depth : Nat) (path : Path)
    (node : Node) : Decoding α := do
  match ← document.follow node with
  | .mapping _ entries whole => do
      if depth = 0 then malformed
      else
        let record ← entries.foldlM (fun record entry => do
          let name ← decodeFieldName document path entry.1
          read record name (path.under entry.1) entry.2) empty
        requireWhole whole
        return record
  | .void => return empty
  | .scalar tag text style =>
      if text = "" ∧ style = .plain then return empty
      else unexpected path (.scalar tag text style) expected
  | other => unexpected path other expected

def skipNode (node : Node) : Decoding Unit := requireWhole node.isWhole

def decodeDocument {α : Type} (text : String) (decode : Document → Node → Decoding α) :
    Except DefinitionFault α := do
  let document := Document.ofText text
  let (result, _) ← (decode document document.root).run 0
  if document.fault.isSome || !document.alone then .error .document else .ok result

end FaultInjection.Yaml
