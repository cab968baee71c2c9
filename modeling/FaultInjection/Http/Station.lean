import FaultInjection.Clock
import FaultInjection.Http.Server
import FaultInjection.Http.Watch

/-!
A master with the clients that listen to it. Between any two requests all watchers take up what they
have room for.
-/

namespace FaultInjection.Http

structure Station where
  clock : Clock
  master : Master
  watchers : Table Watcher

namespace Station

def ofMaster (master : Master) : Station := ⟨⟨0, 0⟩, master, []⟩

def follow (station : Station) (master : Master) : Station :=
  { station with
    master
    watchers := station.watchers.map fun (name, watcher) => (name, watcher.follow master) }

def serve (station : Station) (request : Request) : Response × Station :=
  let (response, master) := station.master.serve station.clock.instant request
  (response, station.follow master)

/-- Serves a request a number of times, at least once, and gives the last response. -/
def serveRepeatedly (station : Station) (request : Request) : Nat → Response × Station
  | 0 => station.serve request
  | times + 1 => (station.serve request).2.serveRepeatedly request times

def close (station : Station) (name : String) : Station :=
  { station with watchers := station.watchers.erase name }

def watch (station : Station) (name : String) (selector : Selector) : Station :=
  let watcher := Watcher.start station.master selector station.clock.now
  { station with watchers := station.watchers.put name (watcher.follow station.master) }

def drain? (station : Station) (name : String) : Option (List String × Station) :=
  (station.watchers.get? name).map fun watcher =>
    let (texts, after) := watcher.drain station.master station.clock.now
    (texts, { station with watchers := station.watchers.put name after })

def advance (station : Station) (span : Nat) : Station :=
  { station with clock := { station.clock with now := station.clock.now + span } }

end Station

end FaultInjection.Http
