import FaultInjection.Http.Network
import FaultInjection.Http.Refusal
import FaultInjection.Http.Route
import FaultInjection.Http.Status
import FaultInjection.Json.Record

/-!
A master that is reached over a network. Every call becomes a request; what comes back is read so
that the two errors a node has to tell apart are the same as if the master stood next to it.
-/

namespace FaultInjection

namespace Http

def trimSlashes (address : String) : String :=
  String.ofList (address.toList.reverse.dropWhile (· == '/')).reverse

def callBytes : Call → List UInt8
  | .register registration => registration.encode
  | .heartbeat beat => beat.encode
  | .deregister node => Wire.NodeRef.encode ⟨node⟩
  | .pull node => Wire.NodeRef.encode ⟨node⟩
  | .report reporter assignment => Wire.Report.encode ⟨reporter, some assignment⟩

def callRequest (call : Call) : Request :=
  ⟨.post, Route.callPath call, some wireType, callBytes call⟩

def refusalFields : List Json.Field :=
  [⟨"error", none, false, true⟩, ⟨"kind", none, false, true⟩, ⟨"detail", none, false, true⟩]

def Refusal.parse? (text : String) : Option Refusal :=
  match Json.Record.parse refusalFields text with
  | .ok record => some ⟨record.get "error", record.get "kind", record.get "detail"⟩
  | .error _ => none

def responseError (path : String) (response : Response) : Error :=
  let text := Text.decodeLossy response.bytes
  let returned (reason : String) : Error :=
    .transport s!"{path} returned {statusText response.status}: {reason}"
  match Refusal.parse? text with
  | some refusal =>
      if refusal.kind = "registration" then .registration refusal.detail
      else if refusal.kind = "node_not_found" then .nodeNotFound refusal.detail
      else returned refusal.error
  | none =>
      if response.status = 404 then .transport (path ++ " is not served") else returned text

def callAnswer (call : Call) (response : Response) : Except Error CallAnswer :=
  if !response.isSuccess then .error (responseError (Route.callPath call) response)
  else match call with
    | .pull _ => match Wire.AssignmentList.decode? response.bytes with
      | some list => .ok (.assignments list.assignments)
      | none => .error (.transport "malformed message: <protobuf>")
    | _ => .ok .done

end Http

structure Remote (σ : Type) where
  base : String
  network : σ

namespace Remote

variable {σ : Type}

def ofBase (base : String) (network : σ) : Remote σ := ⟨Http.trimSlashes base, network⟩

instance [Http.Network σ] : Link (Remote σ) where
  ask remote now call :=
    let sent := Http.Network.send remote.network now
      (remote.base ++ Http.Route.callPath call) (Http.callRequest call)
    let answer := match sent.1 with
      | .error fault => .error (.transport fault.message)
      | .ok response => Http.callAnswer call response
    (answer, { remote with network := sent.2 })

end Remote

end FaultInjection
