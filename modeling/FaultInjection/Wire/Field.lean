import FaultInjection.Wire.Varint

/-!
The fields that messages are made of. A field has a key, which holds its number and the form of
its payload; a reader that does not know the number can still step over the payload.
-/

namespace FaultInjection.Wire

inductive Form where
  | varint
  | eightBytes
  | counted
  | groupStart
  | groupEnd
  | fourBytes
  deriving DecidableEq, Repr

namespace Form

def code : Form → Nat
  | varint => 0
  | eightBytes => 1
  | counted => 2
  | groupStart => 3
  | groupEnd => 4
  | fourBytes => 5

def ofCode? : Nat → Option Form
  | 0 => some varint
  | 1 => some eightBytes
  | 2 => some counted
  | 3 => some groupStart
  | 4 => some groupEnd
  | 5 => some fourBytes
  | _ => none

end Form

inductive Payload where
  | varint (value : Nat)
  | counted (content : Bytes)
  | foreign
  deriving DecidableEq, Repr

structure Field where
  number : Nat
  payload : Payload
  deriving DecidableEq, Repr

def writeKey (number : Nat) (form : Form) : Bytes := Varint.encode (8 * number + form.code)

/-- A key fits into 32 bits, and no field has the number zero. -/
def readKey (bytes : Bytes) : Option (Nat × Form × Bytes) :=
  match Varint.decode? bytes with
  | none => none
  | some (key, rest) =>
      if 4294967296 ≤ key ∨ key < 8 then none
      else (Form.ofCode? (key % 8)).map fun form => (key / 8, form, rest)

def writeCounted (content : Bytes) : Bytes := Varint.encode content.length ++ content

def readCounted (bytes : Bytes) : Option (Bytes × Bytes) :=
  match Varint.decode? bytes with
  | none => none
  | some (length, rest) =>
      if rest.length < length then none else some (rest.take length, rest.drop length)

def skipBytes (length : Nat) (bytes : Bytes) : Option Bytes :=
  if bytes.length < length then none else some (bytes.drop length)

/-- What follows the group of the given number, whose start was read. Groups hold fields, among
them groups, `depth` levels deep at most; `steps` bounds the number of fields. -/
def skipGroup : (steps depth number : Nat) → Bytes → Option Bytes
  | 0, _, _, _ => none
  | steps + 1, depth, number, bytes =>
      match readKey bytes with
      | none => none
      | some (inner, .groupEnd, rest) => if inner = number then some rest else none
      | some (inner, form, rest) =>
          match depth with
          | 0 => none
          | below + 1 =>
              let after := match form with
                | .varint => (Varint.decode? rest).map (·.2)
                | .eightBytes => skipBytes 8 rest
                | .fourBytes => skipBytes 4 rest
                | .counted => (readCounted rest).map (·.2)
                | .groupStart => skipGroup steps below inner rest
                | .groupEnd => none
              match after with
              | none => none
              | some after => skipGroup steps (below + 1) number after

/-- How deep groups may stand in a message that is `level` messages deep itself. -/
def groupDepth (level : Nat) : Nat := 99 - level

def readPayload (level number : Nat) (form : Form) (bytes : Bytes) : Option (Payload × Bytes) :=
  match form with
  | .varint => (Varint.decode? bytes).map fun read => (.varint read.1, read.2)
  | .counted => (readCounted bytes).map fun read => (.counted read.1, read.2)
  | .eightBytes => (skipBytes 8 bytes).map fun rest => (.foreign, rest)
  | .fourBytes => (skipBytes 4 bytes).map fun rest => (.foreign, rest)
  | .groupStart =>
      (skipGroup bytes.length (groupDepth level) number bytes).map fun rest => (.foreign, rest)
  | .groupEnd => none

/-- The fields of a message. A field of which `isEntry` holds is an entry of a map, and is read as
counted content whatever its key says. -/
def readFields (isEntry : Nat → Bool) (level : Nat) : (steps : Nat) → Bytes → Option (List Field)
  | _, [] => some []
  | 0, _ => none
  | steps + 1, bytes =>
      match readKey bytes with
      | none => none
      | some (number, form, rest) =>
          match readPayload level number (if isEntry number then .counted else form) rest with
          | none => none
          | some (payload, after) =>
              (readFields isEntry level steps after).map (⟨number, payload⟩ :: ·)

def fieldsAt? (isEntry : Nat → Bool) (level : Nat) (bytes : Bytes) : Option (List Field) :=
  readFields isEntry level bytes.length bytes

namespace Payload

def content? : Payload → Option Bytes
  | counted content => some content
  | _ => none

def text? (payload : Payload) : Option String :=
  payload.content?.bind fun content => String.fromUTF8? ⟨content.toArray⟩

def value? : Payload → Option Nat
  | varint value => some value
  | _ => none

/-- A number of 32 bits, of which a longer one keeps the low bits. -/
def int32? (payload : Payload) : Option Int32 :=
  payload.value?.map fun value => Int32.ofInt value

def int64? (payload : Payload) : Option Int64 :=
  payload.value?.map fun value => Int64.ofInt value

def uint64? (payload : Payload) : Option UInt64 :=
  payload.value?.map UInt64.ofNat

end Payload

def textBytes (text : String) : Bytes := text.toUTF8.toList

def writeContent (number : Nat) (content : Bytes) : Bytes :=
  writeKey number .counted ++ writeCounted content

/-- A text field; the empty text is left out. -/
def writeText (number : Nat) (text : String) : Bytes :=
  if text = "" then [] else writeContent number (textBytes text)

/-- A number field; zero is left out, and negative numbers take all 64 bits. -/
def writeNumber (number : Nat) (value : Int) : Bytes :=
  if value = 0 then []
  else writeKey number .varint ++ Varint.encode (value % 18446744073709551616).toNat

end FaultInjection.Wire
