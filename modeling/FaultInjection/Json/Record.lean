import FaultInjection.Decimal.Notation
import FaultInjection.Json.Reader

/-!
Reading records of texts: objects whose members are known by name, or arrays with the same values
in the order of the fields. A text is read from its start, and the first thing wrong with it is
what is told.
-/

namespace FaultInjection.Json

inductive RecordFault where
  | malformed
  /-- The text is JSON as far as it was read, but not the record that was asked for. -/
  | unfit
  deriving DecidableEq, Repr

structure Field where
  name : String
  words : Option (List String)
  nullable : Bool
  required : Bool

namespace Draft

mutual

def isWhole : Draft → Bool
  | .array items closed => closed && areItemsWhole items
  | .object members closed => closed && areMembersWhole members
  | .broken => false
  | _ => true

def areItemsWhole : List Draft → Bool
  | [] => true
  | item :: rest => item.isWhole && areItemsWhole rest

def areMembersWhole : List (Option String × Draft) → Bool
  | [] => true
  | (_, value) :: rest => value.isWhole && areMembersWhole rest

end

def misfit : Draft → RecordFault
  | .string none => .malformed
  | .broken => .malformed
  | .number text =>
      match Decimal.binary64? text.toList with
      | some value => if value.isFinite then .unfit else .malformed
      | none => .malformed
  | _ => .unfit

def text : Draft → Except RecordFault String
  | .string (some text) => .ok text
  | draft => .error draft.misfit

/-- One of some words, or an object that has such a word as its only member and nothing in it. -/
def word (words : List String) : Draft → Except RecordFault String
  | .string (some text) => if words.contains text then .ok text else .error .unfit
  | .object ((some name, value) :: rest) closed =>
      if !words.contains name then .error .unfit
      else match value with
        | .null => if rest.isEmpty && closed then .ok name else .error .malformed
        | _ => .error value.misfit
  | _ => .error .malformed

end Draft

namespace Field

def read (field : Field) (draft : Draft) : Except RecordFault (Option String) :=
  match draft, field.nullable, field.words with
  | .null, true, _ => .ok none
  | _, _, some words => (draft.word words).map some
  | _, _, none => draft.text.map some

end Field

abbrev Record := List (String × Option String)

namespace Record

def has (record : Record) (name : String) : Bool := record.any fun entry => entry.1 == name

def get? (record : Record) (name : String) : Option String := (record.lookup name).join

def get (record : Record) (name : String) : String := (record.get? name).getD ""

/-- Reads members in their order. A field that is read twice is at fault, and so is every
misplaced character; members that are no fields are skipped. -/
def ofMembers (fields : List Field) (record : Record) (closed : Bool) :
    List (Option String × Draft) → Except RecordFault Record
  | [] => if closed then .ok record else .error .malformed
  | (none, _) :: _ => .error .malformed
  | (some name, value) :: rest =>
      match fields.find? (·.name == name) with
      | none =>
          if value.isWhole then ofMembers fields record closed rest else .error .malformed
      | some field =>
          if record.has name then .error .unfit
          else match field.read value with
            | .error fault => .error fault
            | .ok text => ofMembers fields ((name, text) :: record) closed rest

/-- Reads items as the values of the fields. The last fields may be left out unless they are
required, but no item may be left over. -/
def ofItems (closed : Bool) : List Field → List Draft → Except RecordFault Record
  | [], [] => if closed then .ok [] else .error .malformed
  | [], _ :: _ => .error .malformed
  | field :: fields, [] =>
      if !closed then .error .malformed
      else if field.required then .error .unfit
      else ofItems closed fields []
  | field :: fields, item :: rest =>
      match field.read item with
      | .error fault => .error fault
      | .ok text => (ofItems closed fields rest).map ((field.name, text) :: ·)

def ofDraft (fields : List Field) : Draft → Except RecordFault Record
  | .object members closed => do
      let record ← ofMembers fields [] closed members
      if fields.all fun field => !field.required || record.has field.name then .ok record
      else .error .unfit
  | .array items closed => ofItems closed fields items
  | draft => .error draft.misfit

def parse (fields : List Field) (text : String) : Except RecordFault Record :=
  let (draft, rest) := read text.toList
  match ofDraft fields draft with
  | .error fault => .error fault
  | .ok record => if (skipSpace rest).isEmpty then .ok record else .error .malformed

end Record

end FaultInjection.Json
