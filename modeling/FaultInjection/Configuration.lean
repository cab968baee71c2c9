import FaultInjection.Master.Roster

/-!
The settings of a master and of a node, which are read from variables. A variable that is not set
has a standard value; one that is set wrongly is named in the complaint.
-/

namespace FaultInjection

structure Complaint where
  message : String
  cause : Option String
  deriving DecidableEq, Repr

def Complaint.text (complaint : Complaint) : String :=
  match complaint.cause with
  | some cause => complaint.message ++ ": " ++ cause
  | none => complaint.message

abbrev Variables := String → Option String

structure MasterSettings where
  listen : String
  policy : LivenessPolicy
  sweepInterval : Duration

structure NodeSettings where
  masterUrl : String
  /-- A node without an id makes one up. -/
  node : Option String
  labels : Labels
  heartbeatInterval : Duration
  syncInterval : Duration
  requestTimeout : Duration

/-- The count of 32 bits that the digits extend `value` to; the first fault from the left counts. -/
def extendCount (value : Nat) : List Char → Except String Nat
  | [] => .ok value
  | c :: rest =>
      let extended := 10 * value + (c.toNat - '0'.toNat)
      if !c.isDigit then .error "invalid digit found in string"
      else if extended < 4294967296 then extendCount extended rest
      else .error "number too large to fit in target type"

/-- A count, with or without a plus sign. -/
def parseCount : List Char → Except String Nat
  | [] => .error "cannot parse integer from empty string"
  | '+' :: c :: rest => extendCount 0 (c :: rest)
  | digits => extendCount 0 digits

namespace Variables

def complain {α : Type} (environment : Variables) (name : String) (standard : α)
    (read : String → Except Complaint α) : Except Complaint α :=
  match environment name with
  | none => .ok standard
  | some text => read text

def parseDuration (name text : String) : Except Complaint Duration :=
  match Duration.parse? text with
  | some duration => .ok duration
  | none => .error ⟨name, some (Error.invalidDuration text).message⟩

def positive (environment : Variables) (name : String) (standard : Duration) :
    Except Complaint Duration :=
  environment.complain name standard fun text => do
    let duration ← parseDuration name text
    if duration.isZero then .error ⟨name ++ " must be a positive duration", none⟩
    else .ok duration

def missedHeartbeats (environment : Variables) : Except Complaint Nat := do
  let name := "INJECTOR_MISSED_HEARTBEATS"
  let count ← environment.complain name LivenessPolicy.standard.missedHeartbeats fun text =>
    match parseCount (Text.trimChars text.toList) with
    | .ok count => .ok count
    | .error cause => .error ⟨s!"{name}: '{text}' is not a count", some cause⟩
  if count = 0 then .error ⟨name ++ " must be at least 1", none⟩ else .ok count

end Variables

def MasterSettings.ofVariables (environment : Variables) : Except Complaint MasterSettings := do
  let missed ← environment.missedHeartbeats
  let heartbeatInterval ← environment.positive "INJECTOR_HEARTBEAT_INTERVAL"
    LivenessPolicy.standard.heartbeatInterval
  let evictAfter ← environment.complain "INJECTOR_EVICT_AFTER" none fun text =>
    (Variables.parseDuration "INJECTOR_EVICT_AFTER" text).map some
  let sweepInterval ← environment.positive "INJECTOR_SWEEP_INTERVAL" (.ofSeconds 1)
  .ok ⟨(environment "INJECTOR_MASTER_LISTEN").getD "0.0.0.0:7070",
    ⟨heartbeatInterval, missed, evictAfter⟩, sweepInterval⟩

def NodeSettings.ofVariables (environment : Variables) : Except Complaint NodeSettings := do
  let labels ← environment.complain "INJECTOR_NODE_LABELS" [] fun text =>
    match Labels.parse text with
    | .ok labels => .ok labels
    | .error error => .error ⟨"INJECTOR_NODE_LABELS", some error.message⟩
  let node := (environment "INJECTOR_NODE_ID").filter fun id =>
    !(Text.trimChars id.toList).isEmpty
  let heartbeatInterval ← environment.positive "INJECTOR_HEARTBEAT_INTERVAL" (.ofSeconds 5)
  let syncInterval ← environment.positive "INJECTOR_SYNC_INTERVAL" (.ofSeconds 2)
  let requestTimeout ← environment.positive "INJECTOR_REQUEST_TIMEOUT" (.ofSeconds 5)
  .ok ⟨(environment "INJECTOR_MASTER_URL").getD "http://127.0.0.1:7070", node, labels,
    heartbeatInterval, syncInterval, requestTimeout⟩

end FaultInjection
