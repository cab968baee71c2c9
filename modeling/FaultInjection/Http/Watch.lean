import FaultInjection.Master.Basic

/-!
Watchers of failures. A watcher is first told what there is, as if it had just been created, and
then every later change of a failure whose node its selector accepts. It may read slowly: some
events wait for it, and of those that do not fit only the newest are kept by the master.
-/

namespace FaultInjection

structure Watcher where
  selector : Selector
  /-- The failures at the start that have not been taken up yet. -/
  snapshot : List Failure
  /-- How many of the master's events were taken up or missed. -/
  position : Nat
  waiting : List String
  /-- When the watcher is told next that the stream is still open, if it reads nothing else. -/
  reminder : Nat

namespace Watcher

/-- How many events wait at most: a queue of 64, and one that waits to enter it. -/
def capacity : Nat := 65

/-- How many events the master keeps for those who are late. -/
def retention : Nat := 1024

/-- The silence, in nanoseconds, after which a watcher is told that the stream is still open. -/
def patience : Nat := 15 * 1000000000

def reminderText : String := ":\n\n"

def start (master : Master) (selector : Selector) (now : Nat) : Watcher :=
  ⟨selector, master.listFailures selector, master.history.length, [], now + patience⟩

def eventText? (event : Event) : Option String :=
  match event.json with
  | .ok json => some ("event: " ++ event.change.text ++ "\ndata: " ++ json.text ++ "\n\n")
  | .error _ => none

/-- Whether an event is meant for the watcher. The labels that count are those that the node has
when the event is taken up. -/
def concerns (watcher : Watcher) (master : Master) (event : Event) : Bool :=
  watcher.selector.isEmpty ||
    match master.getNode event.failure.node with
    | .ok node => watcher.selector.accepts node.labels
    | .error _ => false

def hasRoom (watcher : Watcher) : Bool := watcher.waiting.length < capacity

def offer (watcher : Watcher) (text : Option String) : Watcher :=
  { watcher with waiting := watcher.waiting ++ text.toList }

def takeSnapshot (watcher : Watcher) : List Failure → Watcher
  | [] => { watcher with snapshot := [] }
  | failure :: rest =>
      if watcher.hasRoom then takeSnapshot (watcher.offer (eventText? ⟨.created, failure⟩)) rest
      else { watcher with snapshot := failure :: rest }

/-- Takes up events for as long as there is room. -/
def takeEvents (master : Master) (watcher : Watcher) : List Event → Watcher
  | [] => watcher
  | event :: rest =>
      if watcher.hasRoom then
        let text := if watcher.concerns master event then eventText? event else none
        takeEvents master { watcher.offer text with position := watcher.position + 1 } rest
      else watcher

/-- A watcher that is late misses the events that are not kept any more. -/
def catchUp (watcher : Watcher) (master : Master) : Watcher :=
  { watcher with position := max watcher.position (master.history.length - retention) }

def follow (watcher : Watcher) (master : Master) : Watcher :=
  let started := watcher.takeSnapshot watcher.snapshot
  if started.hasRoom then
    let late := started.catchUp master
    takeEvents master late (master.eventsSince late.position)
  else started

/-- Reads until nothing waits any more. Each round makes room for at least one event. -/
def readAll (master : Master) : Nat → Watcher → List String × Watcher
  | 0, watcher => ([], watcher)
  | rounds + 1, watcher =>
      let ready := watcher.follow master
      if ready.waiting.isEmpty then ([], ready)
      else
        let (texts, after) := readAll master rounds { ready with waiting := [] }
        (ready.waiting ++ texts, after)

/-- Everything that can be read at some time. Without an event there may be a reminder. -/
def drain (watcher : Watcher) (master : Master) (now : Nat) : List String × Watcher :=
  let pending := watcher.snapshot.length + (master.history.length - watcher.position)
  let (texts, after) := readAll master (pending + 2) watcher
  if !texts.isEmpty then (texts, { after with reminder := now + patience })
  else if after.reminder ≤ now then ([reminderText], { after with reminder := now + patience })
  else ([], after)

end Watcher

end FaultInjection
