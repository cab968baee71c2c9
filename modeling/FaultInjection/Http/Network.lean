import FaultInjection.Http.Address
import FaultInjection.Http.Server

/-!
Networks on which requests are sent to addresses: one on which nobody answers, and one with a single
master on it.
-/

namespace FaultInjection.Http

inductive SendFault where
  | noAddress
  | foreignAddress (url : String)
  | unreachable (url : String)
  deriving DecidableEq, Repr

def SendFault.message : SendFault → String
  | noAddress => "builder error"
  | foreignAddress url => s!"builder error for url ({url})"
  | unreachable url => s!"error sending request for url ({url})"

class Network (σ : Type) where
  send : σ → (now : Int) → (address : String) → Request → Except SendFault Response × σ

/-- What becomes of a request to an address where nobody answers. -/
def unanswered (address : String) : SendFault :=
  match AddressUse.ofText address with
  | .web url => .unreachable url.text
  | .foreign url => .foreignAddress url
  | .invalid => .noAddress

/-- A network on which nobody answers. -/
structure Isolation where
  deriving DecidableEq, Repr

instance : Network Isolation where
  send isolation _ address _ := (.error (unanswered address), isolation)

/-- A network with one master on it, at the address `origin`. -/
structure Hosted where
  origin : String
  master : Master

def Hosted.target? (hosted : Hosted) (address : String) : Option String :=
  if hosted.origin.toList.isPrefixOf address.toList then
    some (String.ofList (address.toList.drop hosted.origin.length))
  else none

instance : Network Hosted where
  send hosted now address request :=
    match hosted.target? address with
    | none => (.error (unanswered address), hosted)
    | some target =>
        let (response, master) := hosted.master.serve now { request with target }
        (.ok response, { hosted with master })

end FaultInjection.Http
