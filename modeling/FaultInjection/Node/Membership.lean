import FaultInjection.Clock
import FaultInjection.Master.Call

/-!
A node's membership of the cluster: it joins, sends heartbeats for as long as it is told to, and
leaves. A heartbeat that fails does not end the loop; its error is put into a feed of limited
size, which is closed when the loop ends.
-/

namespace FaultInjection

variable {σ : Type}

inductive MembershipPhase where
  | unregistered
  | registered
  | beating
  deriving DecidableEq, Repr

structure BeatLoop where
  interval : Nat
  next : Nat
  intervalPositive : 0 < interval

structure ErrorFeed where
  pending : List Error
  isOpen : Bool

inductive FeedAnswer where
  | error (error : Error)
  /-- Nothing is waiting, but something may come. -/
  | nothing
  | closed

def FeedAnswer.errors : FeedAnswer → List Error
  | .error told => [told]
  | _ => []

structure Membership where
  node : String
  labels : Labels
  phase : MembershipPhase
  loop : Option BeatLoop
  /-- The feed of the newest loop, unless its owner has thrown it away. -/
  feed : Option ErrorFeed

structure MembershipOutcome (σ : Type) where
  result : Except Error Unit
  far : σ
  membership : Membership

namespace ErrorFeed

def capacity : Nat := 16

/-- An error that finds the feed full is dropped. -/
def offer (feed : ErrorFeed) (error : Error) : ErrorFeed :=
  if feed.pending.length < capacity then { feed with pending := feed.pending ++ [error] } else feed

def read (feed : ErrorFeed) : FeedAnswer × ErrorFeed :=
  match feed.pending with
  | error :: rest => (.error error, { feed with pending := rest })
  | [] => (if feed.isOpen then .nothing else .closed, feed)

end ErrorFeed

namespace Membership

def ofNode (node : String) (labels : Labels) : Membership :=
  ⟨node, labels, .unregistered, none, none⟩

def isRegistered (membership : Membership) : Bool := membership.phase ≠ .unregistered

def announce [Link σ] (membership : Membership) (instant : Int) (far : σ) : Except Error Unit × σ :=
  let (answer, far) := Link.ask far instant (.register ⟨membership.node, membership.labels⟩)
  (answer.map fun _ => (), far)

/-- Joins the cluster. Nothing is sent if the node has joined already. -/
def register [Link σ] (membership : Membership) (instant : Int) (far : σ) : MembershipOutcome σ :=
  if membership.isRegistered then ⟨.ok (), far, membership⟩
  else match membership.announce instant far with
    | (.ok (), far) => ⟨.ok (), far, { membership with phase := .registered }⟩
    | (.error error, far) => ⟨.error error, far, membership⟩

def rejoin [Link σ] (membership : Membership) (instant : Int) (far : σ) : MembershipOutcome σ :=
  if membership.isRegistered then
    let (result, far) := membership.announce instant far
    ⟨result, far, membership⟩
  else ⟨.error .notRegistered, far, membership⟩

def beatMessage (membership : Membership) (instant : Int) : Wire.Heartbeat :=
  ⟨membership.node, Int64.ofInt (instant.fdiv 1000000)⟩

def beat [Link σ] (membership : Membership) (instant : Int) (far : σ) : σ × Membership :=
  match Link.ask far instant (.heartbeat (membership.beatMessage instant)) with
  | (.ok _, far) => (far, membership)
  | (.error error, far) => (far, { membership with feed := membership.feed.map (·.offer error) })

/-- Sends the heartbeats that are due. Each is served when it is due, and so it never shows what
would become of heartbeats that were missed. -/
def beatUntil [Link σ] (clock : Clock) (loop : BeatLoop) (far : σ) (membership : Membership) :
    σ × Membership :=
  if loop.next ≤ clock.now then
    let after := membership.beat clock.instant far
    beatUntil clock { loop with next := loop.next + loop.interval } after.1 after.2
  else (far, { membership with loop := some loop })
termination_by clock.now + 1 - loop.next
decreasing_by have := loop.intervalPositive; simp; omega

def advance [Link σ] (membership : Membership) (clock : Clock) (far : σ) : σ × Membership :=
  match membership.loop with
  | some loop => membership.beatUntil clock loop far
  | none => (far, membership)

def startBeating [Link σ] (membership : Membership) (clock : Clock) (interval : Int) (far : σ) :
    MembershipOutcome σ :=
  if positive : 0 < interval then
    match membership.phase with
    | .unregistered => ⟨.error .notRegistered, far, membership⟩
    | .beating => ⟨.error .heartbeatActive, far, membership⟩
    | .registered =>
        let loop : BeatLoop := ⟨interval.toNat, clock.now, by omega⟩
        let started := { membership with
          phase := .beating
          loop := some loop
          feed := some ⟨[], true⟩ }
        let after := started.advance clock far
        ⟨.ok (), after.1, after.2⟩
  else ⟨.error .invalidInterval, far, membership⟩

def stopBeating (membership : Membership) : Membership :=
  match membership.loop with
  | none => membership
  | some _ =>
      { membership with
        phase := if membership.phase = .beating then .registered else membership.phase
        loop := none
        feed := membership.feed.map fun feed => { feed with isOpen := false } }

/-- Leaves the cluster. The heartbeats stop even if the master cannot be told. -/
def deregister [Link σ] (membership : Membership) (instant : Int) (far : σ) :
    MembershipOutcome σ :=
  let stopped := membership.stopBeating
  match Link.ask far instant (.deregister membership.node) with
  | (.ok _, far) => ⟨.ok (), far, { stopped with phase := .unregistered }⟩
  | (.error error, far) => ⟨.error error, far, stopped⟩

def dropFeed (membership : Membership) : Membership := { membership with feed := none }

def receive (membership : Membership) : List Error × Membership :=
  match membership.feed with
  | none => ([], membership)
  | some feed => (feed.read.1.errors, { membership with feed := some feed.read.2 })

def drain (membership : Membership) : List Error × Membership :=
  match membership.feed with
  | none => ([], membership)
  | some feed => (feed.pending, { membership with feed := some { feed with pending := [] } })

end Membership

end FaultInjection
