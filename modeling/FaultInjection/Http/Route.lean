import FaultInjection.Http.Request
import FaultInjection.Master.Call

/-!
The resources of a master and the methods that each of them allows. Nodes use the resources under
`/rpc`, operators those under `/api`.
-/

namespace FaultInjection.Http

/-- A resource. Names of nodes and failures are kept as they are written in the path. -/
inductive Route where
  | health
  | register
  | heartbeat
  | deregister
  | pull
  | report
  | nodes
  | node (node : String)
  | failures
  | drift
  | failure (node id : String)
  | apply (node id : String)
  | revert (node id : String)
  deriving DecidableEq, Repr

namespace Route

/-- The resource at a path. A name may be empty, unless it ends the path. -/
def ofSegments? : List String → Option Route
  | ["", "health"] => some health
  | ["", "rpc", "v1", "register"] => some register
  | ["", "rpc", "v1", "heartbeat"] => some heartbeat
  | ["", "rpc", "v1", "deregister"] => some deregister
  | ["", "rpc", "v1", "failures", "pull"] => some pull
  | ["", "rpc", "v1", "failures", "report"] => some report
  | ["", "api", "v1", "nodes"] => some nodes
  | ["", "api", "v1", "nodes", name] => if name.isEmpty then none else some (node name)
  | ["", "api", "v1", "failures"] => some failures
  | ["", "api", "v1", "drift"] => some drift
  | ["", "api", "v1", "nodes", name, "failures", id] =>
      if id.isEmpty then none else some (failure name id)
  | ["", "api", "v1", "nodes", name, "failures", id, "apply"] => some (apply name id)
  | ["", "api", "v1", "nodes", name, "failures", id, "revert"] => some (revert name id)
  | _ => none

/-- Whatever can be read can also be described without being sent. -/
def allowed : Route → List Method
  | health | nodes | node _ | drift => [.get, .head]
  | failures => [.get, .head, .post]
  | failure _ _ => [.get, .head, .put, .delete]
  | register | heartbeat | deregister | pull | report | apply _ _ | revert _ _ => [.post]

def callPath : Call → String
  | .register _ => "/rpc/v1/register"
  | .heartbeat _ => "/rpc/v1/heartbeat"
  | .deregister _ => "/rpc/v1/deregister"
  | .pull _ => "/rpc/v1/failures/pull"
  | .report _ _ => "/rpc/v1/failures/report"

end Route

end FaultInjection.Http
