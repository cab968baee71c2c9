import FaultInjection.Yaml.Event

/-!
Documents as trees. When a fault cuts a document short, the tree holds what stood before it: the
collections around the fault are not whole, and a node that should have followed is missing.
Anchored nodes are found by number, and so a node may contain an alias of itself.
-/

namespace FaultInjection.Yaml

inductive Node where
  | scalar (tag : Option Bytes) (text : String) (style : ScalarStyle)
  | alias (anchor : Nat)
  | sequence (tag : Option Bytes) (items : List Node) (whole : Bool)
  | mapping (tag : Option Bytes) (entries : List (Node × Node)) (whole : Bool)
  | missing
  | void

def Node.isWhole : Node → Bool
  | .sequence _ _ whole => whole
  | .mapping _ _ whole => whole
  | .missing => false
  | _ => true

/-- `size` is the number of events of the document, and `alone` tells that no other document
follows. -/
structure Document where
  root : Node
  anchored : List (Nat × Node)
  size : Nat
  fault : Option SyntaxFault
  alone : Bool

/-- A collection whose end has not been read, with its members last first. -/
inductive OpenNode where
  | sequence (position : Nat) (tag : Option Bytes) (items : List Node)
  | mapping (position : Nat) (tag : Option Bytes) (entries : List (Node × Node)) (key : Option Node)

/-- A document of which some events were read. `names` gives each anchor name its latest number,
`positions` each number the latest event that took it, and `nodes` each event the node that it
starts. -/
structure DocumentDraft where
  opened : List OpenNode
  root : Option Node
  names : List (String × Nat)
  positions : List (Nat × Nat)
  nodes : List (Nat × Node)
  count : Nat

namespace DocumentDraft

def start : DocumentDraft := ⟨[], none, [], [], [], 0⟩

def add (draft : DocumentDraft) (node : Node) : DocumentDraft :=
  match draft.opened with
  | [] => { draft with root := some node }
  | .sequence position tag items :: rest =>
      { draft with opened := .sequence position tag (node :: items) :: rest }
  | .mapping position tag entries none :: rest =>
      { draft with opened := .mapping position tag entries (some node) :: rest }
  | .mapping position tag entries (some key) :: rest =>
      { draft with opened := .mapping position tag ((key, node) :: entries) none :: rest }

/-- Notes an anchor at the next event. Its number is the count of anchor names before it. -/
def note (draft : DocumentDraft) : Option String → DocumentDraft
  | none => draft
  | some name =>
      let number := draft.names.length
      { draft with
        names := (name, number) :: draft.names.filter (·.1 ≠ name)
        positions := (number, draft.count) :: draft.positions }

def tick (draft : DocumentDraft) : DocumentDraft := { draft with count := draft.count + 1 }

def close (whole : Bool) (draft : DocumentDraft) : DocumentDraft :=
  match draft.opened with
  | [] => draft
  | opened :: rest =>
      let (position, node) := match opened with
        | .sequence position tag items => (position, Node.sequence tag items.reverse whole)
        | .mapping position tag entries none =>
            (position, Node.mapping tag entries.reverse whole)
        | .mapping position tag entries (some key) =>
            (position, Node.mapping tag ((key, Node.missing) :: entries).reverse whole)
      { draft with opened := rest, nodes := (position, node) :: draft.nodes }.add node

/-- Finishes all open collections, none of which is whole. -/
def closeAll (draft : DocumentDraft) : DocumentDraft :=
  draft.opened.foldl (fun built _ => built.close false) draft

def finish (draft : DocumentDraft) (fault : Option SyntaxFault) (alone : Bool) : Document :=
  let closed := draft.closeAll
  { root := closed.root.getD .missing
    anchored := closed.positions.filterMap fun entry =>
      (closed.nodes.find? (·.1 = entry.2)).map fun found => (entry.1, found.2)
    size := closed.count
    fault := fault
    alone := alone }

/-- Builds the first document of a stream. -/
def read (fault : Option SyntaxFault) : List Event → DocumentDraft → Document
  | [], draft =>
      if fault.isNone && draft.root.isNone then ⟨.void, [], 1, none, true⟩
      else draft.finish fault true
  | .documentStart :: rest, draft => read fault rest draft
  | .documentEnd :: rest, draft => draft.finish none (rest.isEmpty && fault.isNone)
  | .alias name :: rest, draft =>
      match draft.names.find? (·.1 = name) with
      | some (_, number) => read fault rest (draft.tick.add (.alias number))
      | none => draft.finish (some .unknownAnchor) true
  | .scalar anchor tag text style :: rest, draft =>
      let node := Node.scalar tag text style
      let noted := draft.note anchor
      read fault rest
        ({ noted with nodes := (noted.count, node) :: noted.nodes }.tick.add node)
  | .sequenceStart anchor tag :: rest, draft =>
      let noted := draft.note anchor
      read fault rest
        { noted.tick with opened := .sequence noted.count tag [] :: noted.opened }
  | .mappingStart anchor tag :: rest, draft =>
      let noted := draft.note anchor
      read fault rest
        { noted.tick with opened := .mapping noted.count tag [] none :: noted.opened }
  | .sequenceEnd :: rest, draft => read fault rest (draft.tick.close true)
  | .mappingEnd :: rest, draft => read fault rest (draft.tick.close true)

end DocumentDraft

def Document.ofText (text : String) : Document :=
  let (stream, fault) := events text
  DocumentDraft.read fault stream DocumentDraft.start

end FaultInjection.Yaml
