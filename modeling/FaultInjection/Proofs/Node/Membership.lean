import FaultInjection.Node.Membership
import FaultInjection.Proofs.Master.Call

/-!
A membership only ever joins, leaves and sends heartbeats, none of which touches what operators
have written.
-/

namespace FaultInjection

namespace Membership

theorem ask_unasked (master : Master) (now : Int) (call : Call) :
    Master.Unasked master (Link.ask master now call).2 :=
  master.answer_unasked now call

theorem announce_unasked (membership : Membership) (instant : Int) (master : Master) :
    Master.Unasked master (membership.announce instant master).2 :=
  ask_unasked master instant _

theorem register_unasked (membership : Membership) (instant : Int) (master : Master) :
    Master.Unasked master (membership.register instant master).far := by
  have announced := membership.announce_unasked instant master
  unfold register
  split
  · exact Master.Unasked.refl master
  · split <;> next told => rw [told] at announced; exact announced

theorem rejoin_unasked (membership : Membership) (instant : Int) (master : Master) :
    Master.Unasked master (membership.rejoin instant master).far := by
  unfold rejoin
  split
  · exact membership.announce_unasked instant master
  · exact Master.Unasked.refl master

theorem deregister_unasked (membership : Membership) (instant : Int) (master : Master) :
    Master.Unasked master (membership.deregister instant master).far := by
  have told := ask_unasked master instant (.deregister membership.node)
  unfold deregister
  dsimp only
  split <;> next answered => rw [answered] at told; exact told

theorem beat_unasked (membership : Membership) (instant : Int) (master : Master) :
    Master.Unasked master (membership.beat instant master).1 := by
  have told := ask_unasked master instant (.heartbeat (membership.beatMessage instant))
  unfold beat
  split <;> next answered => rw [answered] at told; exact told

theorem beatUntil_unasked (clock : Clock) (loop : BeatLoop) (master : Master)
    (membership : Membership) :
    Master.Unasked master (membership.beatUntil clock loop master).1 := by
  fun_induction beatUntil clock loop master membership with
  | case1 loop master membership due after ih =>
      have told : Master.Unasked master after.1 := membership.beat_unasked clock.instant master
      exact told.trans ih
  | case2 loop master membership early => exact Master.Unasked.refl master

theorem advance_unasked (membership : Membership) (clock : Clock) (master : Master) :
    Master.Unasked master (membership.advance clock master).1 := by
  unfold advance
  split
  · exact beatUntil_unasked clock _ master membership
  · exact Master.Unasked.refl master

theorem startBeating_unasked (membership : Membership) (clock : Clock) (interval : Int)
    (master : Master) :
    Master.Unasked master (membership.startBeating clock interval master).far := by
  unfold startBeating
  split
  · split
    · exact Master.Unasked.refl master
    · exact Master.Unasked.refl master
    · exact advance_unasked _ clock master
  · exact Master.Unasked.refl master

end Membership

end FaultInjection
