import FaultInjection.Master.Call

/-!
A master that answers as it is told to and remembers what it was asked. It stands in for a real one
where it is rehearsed what nodes do when calls fail.
-/

namespace FaultInjection

inductive CallKind where
  | register
  | heartbeat
  | deregister
  | pull
  | report
  deriving DecidableEq, Repr

def CallKind.all : List CallKind := [register, heartbeat, deregister, pull, report]

def CallKind.text : CallKind → String
  | register => "register"
  | heartbeat => "heartbeat"
  | deregister => "deregister"
  | pull => "pull"
  | report => "report"

def Call.kind : Call → CallKind
  | register _ => .register
  | heartbeat _ => .heartbeat
  | deregister _ => .deregister
  | pull _ => .pull
  | report _ _ => .report

structure ScriptedMaster where
  assigned : List Wire.Assignment
  faults : List CallKind
  /-- The calls that came in, newest first. -/
  calls : List Call

namespace ScriptedMaster

def idle : ScriptedMaster := ⟨[], [], []⟩

def setFault (master : ScriptedMaster) (kind : CallKind) (fails : Bool) : ScriptedMaster :=
  let others := master.faults.filter (· ≠ kind)
  { master with faults := if fails then kind :: others else others }

def fault : Call → Error
  | .register _ => .registration "scripted rejection"
  | .heartbeat beat => .nodeNotFound beat.node
  | _ => .transport "scripted outage"

def answer (master : ScriptedMaster) (call : Call) : Except Error CallAnswer :=
  if call.kind ∈ master.faults then .error (fault call)
  else match call with
    | .pull _ => .ok (.assignments master.assigned)
    | _ => .ok .done

instance : Link ScriptedMaster where
  ask master _ call := (master.answer call, { master with calls := call :: master.calls })

end ScriptedMaster

end FaultInjection
