import FaultInjection.Table
import FaultInjection.Wire.Field

/-!
The messages between nodes and the master. A message that is read starts out with every field
empty; of a field that stands several times the last value counts, parts of a nested message are
merged, and list items add up.
-/

namespace FaultInjection.Wire

structure Assignment where
  id : String
  node : String
  definition : String
  current : Int32
  expected : Int32
  generation : UInt64
  deriving DecidableEq, Repr, Inhabited

structure AssignmentList where
  assignments : List Assignment
  deriving DecidableEq, Repr

structure Report where
  reporter : String
  assignment : Option Assignment
  deriving DecidableEq, Repr

structure Registration where
  node : String
  labels : Table String
  deriving DecidableEq, Repr

structure Heartbeat where
  node : String
  /-- Milliseconds since the start of 1970. -/
  sentAt : Int64
  deriving DecidableEq, Repr

structure NodeRef where
  node : String
  deriving DecidableEq, Repr

def plainFields? (level : Nat) (bytes : Bytes) : Option (List Field) :=
  fieldsAt? (fun _ => false) level bytes

namespace Assignment

def empty : Assignment := ⟨"", "", "", 0, 0, 0⟩

def encode (message : Assignment) : Bytes :=
  writeText 1 message.id ++ writeText 2 message.node ++ writeText 3 message.definition ++
    writeNumber 4 message.current.toInt ++ writeNumber 5 message.expected.toInt ++
    writeNumber 6 message.generation.toNat

def withField (message : Assignment) (field : Field) : Option Assignment :=
  match field.number with
  | 1 => field.payload.text?.map fun id => { message with id }
  | 2 => field.payload.text?.map fun node => { message with node }
  | 3 => field.payload.text?.map fun definition => { message with definition }
  | 4 => field.payload.int32?.map fun current => { message with current }
  | 5 => field.payload.int32?.map fun expected => { message with expected }
  | 6 => field.payload.uint64?.map fun generation => { message with generation }
  | _ => some message

/-- The message with the fields of another one read over it. -/
def merge? (level : Nat) (message : Assignment) (bytes : Bytes) : Option Assignment :=
  (plainFields? level bytes).bind fun fields => fields.foldlM withField message

def decode? (bytes : Bytes) : Option Assignment := merge? 0 empty bytes

end Assignment

namespace AssignmentList

def encode (message : AssignmentList) : Bytes :=
  message.assignments.flatMap fun assignment => writeContent 1 assignment.encode

def withField (message : AssignmentList) (field : Field) : Option AssignmentList :=
  match field.number with
  | 1 => do
      let content ← field.payload.content?
      let assignment ← Assignment.merge? 1 .empty content
      return ⟨message.assignments ++ [assignment]⟩
  | _ => some message

def decode? (bytes : Bytes) : Option AssignmentList :=
  (plainFields? 0 bytes).bind fun fields => fields.foldlM withField ⟨[]⟩

end AssignmentList

namespace Report

def encode (message : Report) : Bytes :=
  writeText 1 message.reporter ++
    match message.assignment with
    | none => []
    | some assignment => writeContent 2 assignment.encode

def withField (message : Report) (field : Field) : Option Report :=
  match field.number with
  | 1 => field.payload.text?.map fun reporter => { message with reporter }
  | 2 => do
      let content ← field.payload.content?
      let assignment ← Assignment.merge? 1 (message.assignment.getD .empty) content
      return { message with assignment := some assignment }
  | _ => some message

def decode? (bytes : Bytes) : Option Report :=
  (plainFields? 0 bytes).bind fun fields => fields.foldlM withField ⟨"", none⟩

end Report

namespace Registration

def labelEntry (label : String × String) : Bytes :=
  writeContent 2 (writeText 1 label.1 ++ writeText 2 label.2)

def encodeWith (labels : List (String × String)) (node : String) : Bytes :=
  writeText 1 node ++ labels.flatMap labelEntry

def encode (message : Registration) : Bytes := encodeWith message.labels message.node

def withLabelField (label : String × String) (field : Field) : Option (String × String) :=
  match field.number with
  | 1 => field.payload.text?.map fun name => (name, label.2)
  | 2 => field.payload.text?.map fun value => (label.1, value)
  | _ => some label

def label? (bytes : Bytes) : Option (String × String) :=
  (plainFields? 1 bytes).bind fun fields => fields.foldlM withLabelField ("", "")

def withField (message : Registration) (field : Field) : Option Registration :=
  match field.number with
  | 1 => field.payload.text?.map fun node => { message with node }
  | 2 => do
      let content ← field.payload.content?
      let label ← label? content
      return { message with labels := message.labels.put label.1 label.2 }
  | _ => some message

def decode? (bytes : Bytes) : Option Registration :=
  (fieldsAt? (· == 2) 0 bytes).bind fun fields => fields.foldlM withField ⟨"", []⟩

end Registration

namespace Heartbeat

def encode (message : Heartbeat) : Bytes :=
  writeText 1 message.node ++ writeNumber 2 message.sentAt.toInt

def withField (message : Heartbeat) (field : Field) : Option Heartbeat :=
  match field.number with
  | 1 => field.payload.text?.map fun node => { message with node }
  | 2 => field.payload.int64?.map fun sentAt => { message with sentAt }
  | _ => some message

def decode? (bytes : Bytes) : Option Heartbeat :=
  (plainFields? 0 bytes).bind fun fields => fields.foldlM withField ⟨"", 0⟩

end Heartbeat

namespace NodeRef

def encode (message : NodeRef) : Bytes := writeText 1 message.node

def withField (message : NodeRef) (field : Field) : Option NodeRef :=
  match field.number with
  | 1 => field.payload.text?.map fun node => { message with node }
  | _ => some message

def decode? (bytes : Bytes) : Option NodeRef :=
  (plainFields? 0 bytes).bind fun fields => fields.foldlM withField ⟨""⟩

end NodeRef

end FaultInjection.Wire
