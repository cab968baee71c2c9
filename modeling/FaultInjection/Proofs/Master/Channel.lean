import FaultInjection.Proofs.Master.Call

/-!
A way to the master on which calls may be lost, before they are answered or after. A node cannot
tell the two apart.
-/

namespace FaultInjection

inductive Fate where
  | answered
  /-- The call does not reach the master. -/
  | lost
  /-- The call is answered, and the answer does not reach the node. -/
  | unheard
  deriving DecidableEq, Repr

/-- A master, and what will become of the next calls; later ones are answered. -/
structure Channel where
  master : Master
  fates : List Fate

namespace Channel

def outage : Error := .transport "connection lost"

instance : Link Channel where
  ask channel now call :=
    let reply := channel.master.answer now call
    match channel.fates with
    | [] => (reply.answer, ⟨reply.master, []⟩)
    | .answered :: rest => (reply.answer, ⟨reply.master, rest⟩)
    | .lost :: rest => (.error outage, ⟨channel.master, rest⟩)
    | .unheard :: rest => (.error outage, ⟨reply.master, rest⟩)

theorem ask_unasked (channel : Channel) (now : Int) (call : Call) :
    Master.Unasked channel.master (Link.ask channel now call).2.master := by
  have told := channel.master.answer_unasked now call
  obtain ⟨master, fates⟩ := channel
  cases fates with
  | nil => exact told
  | cons fate rest =>
      cases fate with
      | answered => exact told
      | lost => exact Master.Unasked.refl master
      | unheard => exact told

/-- An answer that reaches the node is the master's. -/
theorem ask_eq_ok (channel : Channel) (now : Int) (call : Call) (answer : CallAnswer)
    (heard : (Link.ask channel now call).1 = .ok answer) :
    (channel.master.answer now call).answer = .ok answer := by
  obtain ⟨master, fates⟩ := channel
  cases fates with
  | nil => exact heard
  | cons fate rest =>
      cases fate with
      | answered => exact heard
      | lost => cases heard
      | unheard => cases heard

end Channel

end FaultInjection
