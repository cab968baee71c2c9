import FaultInjection.Proofs.Node.Lifecycle
import FaultInjection.Proofs.Node.Story

/-!
What one command does to the feed of a membership, and what the feed does to the command. Each
command goes on with the story of the newest feed or begins that of a new one, and comes to the same
whatever is in the feed.
-/

namespace FaultInjection

variable {σ : Type}

/-! The heartbeats of a loop -/

def failure? : Except Error CallAnswer → Option Error
  | .error error => some error
  | .ok _ => none

/-- A way to a master on which the errors are noted that heartbeats meet with, newest last. -/
structure Troubled (σ : Type) where
  far : σ
  errors : List Error

instance [Link σ] : Link (Troubled σ) where
  ask troubled now call :=
    let (answer, far) := Link.ask troubled.far now call
    (answer, ⟨far, if call.isBeat then troubled.errors ++ (failure? answer).toList
      else troubled.errors⟩)

namespace Membership

/-- The errors that wait in the newest feed, if it is still there. -/
def waiting (membership : Membership) : Option (List Error) := membership.feed.map (·.pending)

def beatEvent [Link σ] (membership : Membership) (instant : Int) (far : σ) : FeedEvent :=
  .beat membership.waiting
    (failure? (Link.ask far instant (.heartbeat (membership.beatMessage instant))).1)

def beats [Link σ] (clock : Clock) (loop : BeatLoop) (far : σ) (membership : Membership) :
    FeedStory :=
  if loop.next ≤ clock.now then
    let after := membership.beat clock.instant far
    membership.beatEvent clock.instant far ::
      beats clock { loop with next := loop.next + loop.interval } after.1 after.2
  else []
termination_by clock.now + 1 - loop.next
decreasing_by have := loop.intervalPositive; simp; omega

/-- What a command does to the newest feed, unless it opens a new one. -/
def events [Link σ] (membership : Membership) (clock : Clock) (far : σ) :
    MembershipCommand → FeedStory
  | .advance _ _ =>
      match membership.loop with
      | some loop => membership.beats clock loop far
      | none => []
  | .drain => [.read membership.drain.1]
  | .dropFeed => [.thrownAway]
  | _ => []

theorem beats_due [Link σ] (clock : Clock) (loop : BeatLoop) (far : σ) (membership : Membership)
    (due : loop.next ≤ clock.now) :
    membership.beats clock loop far =
      membership.beatEvent clock.instant far ::
        beats clock { loop with next := loop.next + loop.interval }
          (membership.beat clock.instant far).1 (membership.beat clock.instant far).2 := by
  rw [beats, if_pos due]

theorem beats_early [Link σ] (clock : Clock) (loop : BeatLoop) (far : σ) (membership : Membership)
    (early : ¬ loop.next ≤ clock.now) : membership.beats clock loop far = [] := by
  rw [beats, if_neg early]

theorem beat_moves [Link σ] (membership : Membership) (instant : Int) (far : σ) :
    (membership.beatEvent instant far).Moves membership.waiting
      (membership.beat instant far).2.waiting := by
  unfold beatEvent beat
  rcases Link.ask far instant (.heartbeat (membership.beatMessage instant)) with
    ⟨error | answer, after⟩
  · dsimp only [failure?]
    cases known : membership.feed with
    | none =>
        simp only [waiting, known, Option.map_none]
        exact .unheard error
    | some feed =>
        simp only [waiting, known, Option.map_some, ErrorFeed.offer]
        split
        next room => exact .admitted feed.pending error room
        next full => exact .refused feed.pending error full
  · exact .sent membership.waiting

theorem beat_far [Link σ] (membership : Membership) (instant : Int) (far : σ) :
    (membership.beat instant far).1 =
      (Link.ask far instant (.heartbeat (membership.beatMessage instant))).2 := by
  unfold beat
  split <;> next answered => rw [answered]

theorem beatUntil_follows [Link σ] (clock : Clock) (loop : BeatLoop) (far : σ)
    (membership : Membership) :
    (membership.beats clock loop far).Follows membership.waiting
      (membership.beatUntil clock loop far).2.waiting := by
  fun_induction beatUntil clock loop far membership with
  | case1 loop far membership due after ih =>
      rw [beats_due clock loop far membership due]
      exact .cons (membership.beat_moves clock.instant far) ih
  | case2 loop far membership early =>
      rw [beats_early clock loop far membership early]
      exact .nil membership.waiting

theorem beatUntil_errors [Link σ] (clock : Clock) (loop : BeatLoop)
    (far : Overheard (Troubled σ)) (membership : Membership) :
    (membership.beatUntil clock loop far).1.far.errors =
      far.far.errors ++ (membership.beats clock loop far).failures := by
  fun_induction beatUntil clock loop far membership with
  | case1 loop far membership due after ih =>
      have first : after.1.far.errors =
          far.far.errors ++ (membership.beatEvent clock.instant far).failed?.toList := by
        rw [show after.1 = _ from membership.beat_far clock.instant far]
        rfl
      rw [ih, first, beats_due clock loop far membership due, FeedStory.failures_cons,
        List.append_assoc]
  | case2 loop far membership early =>
      rw [beats_early clock loop far membership early]
      exact (List.append_nil _).symm

/-- Whatever becomes of the heartbeats, none is overdue. -/
theorem beatUntil_ahead [Link σ] (clock : Clock) (loop : BeatLoop) (far : σ)
    (membership : Membership) :
    ∀ next ∈ (membership.beatUntil clock loop far).2.loop, clock.now < next.next := by
  fun_induction beatUntil clock loop far membership with
  | case1 loop far membership due after ih => exact ih
  | case2 loop far membership early =>
      rintro _ ⟨⟩
      exact Nat.lt_of_not_le early

/-! Commands -/

theorem register_membership [Link σ] (membership : Membership) (instant : Int) (far : σ) :
    ∃ phase, (membership.register instant far).membership = { membership with phase } := by
  unfold register
  split
  · exact ⟨membership.phase, rfl⟩
  · split
    · exact ⟨.registered, rfl⟩
    · exact ⟨membership.phase, rfl⟩

theorem rejoin_membership [Link σ] (membership : Membership) (instant : Int) (far : σ) :
    (membership.rejoin instant far).membership = membership := by
  unfold rejoin
  split <;> rfl

theorem deregister_membership [Link σ] (membership : Membership) (instant : Int) (far : σ) :
    ∃ phase, (membership.deregister instant far).membership =
      { membership.stopBeating with phase } := by
  unfold deregister
  dsimp only
  split
  · exact ⟨.unregistered, rfl⟩
  · exact ⟨membership.stopBeating.phase, rfl⟩

theorem stopBeating_waiting (membership : Membership) :
    membership.stopBeating.waiting = membership.waiting := by
  unfold stopBeating
  split
  · rfl
  · simp [waiting, Function.comp_def]

theorem ask_errors [Link σ] (far : Overheard (Troubled σ)) (instant : Int) (call : Call)
    (other : call.isBeat = false) : (Link.ask far instant call).2.far.errors = far.far.errors := by
  simp [Link.ask, other]

theorem announce_errors [Link σ] (membership : Membership) (instant : Int)
    (far : Overheard (Troubled σ)) :
    (membership.announce instant far).2.far.errors = far.far.errors :=
  ask_errors far instant _ rfl

theorem register_errors [Link σ] (membership : Membership) (instant : Int)
    (far : Overheard (Troubled σ)) :
    (membership.register instant far).far.far.errors = far.far.errors := by
  have announced := membership.announce_errors instant far
  unfold register
  split
  · rfl
  · split <;> next told => rw [told] at announced; exact announced

theorem rejoin_errors [Link σ] (membership : Membership) (instant : Int)
    (far : Overheard (Troubled σ)) :
    (membership.rejoin instant far).far.far.errors = far.far.errors := by
  unfold rejoin
  split
  · exact membership.announce_errors instant far
  · rfl

theorem deregister_errors [Link σ] (membership : Membership) (instant : Int)
    (far : Overheard (Troubled σ)) :
    (membership.deregister instant far).far.far.errors = far.far.errors := by
  have told := ask_errors far instant (.deregister membership.node) rfl
  unfold deregister
  dsimp only
  split <;> next answered => rw [answered] at told; exact told

/-- A feed is opened, and the first heartbeat of its loop is due, or nothing is done. -/
theorem startBeating_opens [Link σ] (membership : Membership) (clock : Clock) (interval : Int)
    (far : σ) :
    (∃ error, membership.startBeating clock interval far = ⟨.error error, far, membership⟩) ∨
    ∃ (loop : BeatLoop) (started : Membership), loop.next = clock.now ∧
      started.node = membership.node ∧ started.waiting = some [] ∧
      membership.startBeating clock interval far =
        ⟨.ok (), (started.beatUntil clock loop far).1, (started.beatUntil clock loop far).2⟩ := by
  unfold startBeating
  split
  next positive =>
    cases membership.phase with
    | unregistered => exact Or.inl ⟨_, rfl⟩
    | beating => exact Or.inl ⟨_, rfl⟩
    | registered =>
        let loop : BeatLoop := ⟨interval.toNat, clock.now, by omega⟩
        let started := { membership with
          phase := .beating
          loop := some loop
          feed := some ⟨[], true⟩ }
        exact Or.inr ⟨loop, started, rfl, rfl, rfl, rfl⟩
  next => exact Or.inl ⟨_, rfl⟩

theorem beats_once [Link σ] (clock : Clock) (loop : BeatLoop) (far : σ) (membership : Membership)
    (first : loop.next = clock.now) :
    membership.beats clock loop far = [membership.beatEvent clock.instant far] := by
  have positive := loop.intervalPositive
  rw [beats_due clock loop far membership (by omega), beats_early]
  dsimp only
  omega

theorem drain_moves (membership : Membership) :
    (FeedEvent.read membership.drain.1).Moves membership.waiting membership.drain.2.waiting := by
  cases known : membership.feed with
  | none =>
      simp only [waiting, drain, known]
      exact .readNone
  | some feed =>
      simp only [waiting, drain, known, Option.map_some]
      simpa using FeedEvent.Moves.read feed.pending []

theorem receive_moves (membership : Membership) :
    (FeedEvent.read membership.receive.1).Moves membership.waiting
      membership.receive.2.waiting := by
  cases known : membership.feed with
  | none =>
      simp only [waiting, receive, known]
      exact .readNone
  | some feed =>
      obtain ⟨pending, isOpen⟩ := feed
      simp only [waiting, receive, known, Option.map_some]
      cases pending with
      | nil => cases isOpen <;> exact .read [] []
      | cons error rest => exact .read [error] rest

/-- The errors that are read one by one, up to some number of them. -/
def receives (membership : Membership) : Nat → List Error × Membership
  | 0 => ([], membership)
  | times + 1 =>
      let first := membership.receive
      let others := first.2.receives times
      (first.1 ++ others.1, others.2)

/-- Reading all that wait at once comes to the same as reading them one by one. -/
theorem drain_receives (membership : Membership) (pending : List Error)
    (waits : pending ∈ membership.waiting) :
    membership.drain = membership.receives pending.length ∧ membership.drain.1 = pending ∧
      membership.drain.2.waiting = some [] := by
  obtain ⟨feed, known, rfl⟩ := Option.map_eq_some_iff.mp waits
  refine ⟨?_, by simp [drain, known], by simp [drain, waiting, known]⟩
  obtain ⟨pending, isOpen⟩ := feed
  induction pending generalizing membership with
  | nil =>
      obtain ⟨node, labels, phase, loop, feed⟩ := membership
      cases known
      rfl
  | cons error rest ih =>
      have first : membership.receive =
          ([error], { membership with feed := some ⟨rest, isOpen⟩ }) := by
        simp [receive, known, ErrorFeed.read, FeedAnswer.errors]
      simp only [List.length_cons, receives, first]
      rw [← ih { membership with feed := some ⟨rest, isOpen⟩ } rfl rfl]
      simp [drain, known]

theorem receive_steady (membership : Membership) :
    Steady membership membership.receive.2 ∧ membership.receive.2.loop = membership.loop := by
  unfold receive
  split
  next => exact ⟨.refl membership, rfl⟩
  next feed known =>
    refine ⟨⟨rfl, rfl, ?_⟩, rfl⟩
    rintro left member
    cases member
    exact ⟨feed, known, feed.read_isOpen⟩

/-- A start that opens no feed does nothing. -/
theorem startBeating_unopened [Link σ] (membership : Membership) (clock : Clock) (interval : Int)
    (far : σ) (failed : (membership.startBeating clock interval far).result.isOk = false) :
    (membership.startBeating clock interval far).membership = membership ∧
      (membership.startBeating clock interval far).far = far := by
  rcases membership.startBeating_opens clock interval far with
    ⟨error, same⟩ | ⟨loop, started, _, _, _, same⟩
  · rw [same]
    exact ⟨rfl, rfl⟩
  · rw [same] at failed
    cases failed

/-- A command that opens no feed goes on with the story of the newest one. -/
theorem obey_follows [Link σ] (membership : Membership) (clock : Clock) (far : σ)
    (command : MembershipCommand)
    (unopened : ∀ interval, command = .startBeating interval →
      (membership.obey clock far command).result.isOk = false) :
    (membership.events clock far command).Follows membership.waiting
      (membership.obey clock far command).membership.waiting := by
  cases command with
  | register =>
      obtain ⟨phase, same⟩ := membership.register_membership clock.instant far
      simp only [obey, same]
      exact .nil _
  | rejoin =>
      simp only [obey, membership.rejoin_membership]
      exact .nil _
  | startBeating interval =>
      obtain ⟨same, _⟩ := membership.startBeating_unopened clock interval far (unopened _ rfl)
      simp only [obey, same]
      exact .nil _
  | stopBeating =>
      simp only [obey, membership.stopBeating_waiting]
      exact .nil _
  | deregister =>
      obtain ⟨phase, same⟩ := membership.deregister_membership clock.instant far
      simp only [obey, same]
      exact membership.stopBeating_waiting ▸ .nil _
  | advance span instant =>
      cases running : membership.loop with
      | none =>
          simp only [obey, events, advance, running]
          exact .nil _
      | some loop =>
          simp only [obey, events, advance, running]
          exact membership.beatUntil_follows clock loop far
  | drain => exact .single membership.drain_moves
  | dropFeed => exact .single (.thrownAway _)

theorem obey_errors [Link σ] (membership : Membership) (clock : Clock)
    (far : Overheard (Troubled σ)) (command : MembershipCommand)
    (unopened : ∀ interval, command = .startBeating interval →
      (membership.obey clock far command).result.isOk = false) :
    (membership.obey clock far command).far.far.errors =
      far.far.errors ++ (membership.events clock far command).failures := by
  have nothing : far.far.errors = far.far.errors ++ FeedStory.failures [] :=
    (List.append_nil _).symm
  cases command with
  | register => exact (membership.register_errors clock.instant far).trans nothing
  | rejoin => exact (membership.rejoin_errors clock.instant far).trans nothing
  | startBeating interval =>
      obtain ⟨_, same⟩ := membership.startBeating_unopened clock interval far (unopened _ rfl)
      simp only [obey, same]
      exact nothing
  | deregister => exact (membership.deregister_errors clock.instant far).trans nothing
  | advance span instant =>
      cases running : membership.loop with
      | none =>
          simp only [obey, events, advance, running]
          exact nothing
      | some loop =>
          simp only [obey, events, advance, running]
          exact membership.beatUntil_errors clock loop far
  | stopBeating | drain | dropFeed => exact nothing

def Ahead (clock : Clock) (membership : Membership) : Prop :=
  ∀ loop ∈ membership.loop, clock.now < loop.next

theorem ahead_of_idle (membership : Membership) (clock : Clock) (idle : membership.loop = none) :
    membership.Ahead clock := by
  intro loop running
  rw [idle] at running
  cases running

theorem obey_ahead [Link σ] (membership : Membership) (clock : Clock) (far : σ)
    (command : MembershipCommand) (ahead : membership.Ahead clock) :
    (membership.obey (command.clock clock) far command).membership.Ahead
      (command.clock clock) := by
  cases command with
  | register =>
      obtain ⟨phase, same⟩ := membership.register_membership clock.instant far
      simp only [obey, MembershipCommand.clock, same]
      exact ahead
  | rejoin =>
      simp only [obey, membership.rejoin_membership]
      exact ahead
  | startBeating interval =>
      simp only [obey, MembershipCommand.clock]
      rcases membership.startBeating_opens clock interval far with
        ⟨error, same⟩ | ⟨loop, started, _, _, _, same⟩
      · rw [same]
        exact ahead
      · rw [same]
        exact started.beatUntil_ahead clock loop far
  | stopBeating => exact ahead_of_idle _ clock membership.stopBeating_loop
  | deregister =>
      obtain ⟨phase, same⟩ := membership.deregister_membership clock.instant far
      simp only [obey, MembershipCommand.clock, same]
      exact ahead_of_idle _ clock membership.stopBeating_loop
  | advance span instant =>
      cases running : membership.loop with
      | none =>
          simp only [obey, advance, running]
          exact ahead_of_idle membership _ running
      | some loop =>
          simp only [obey, advance, running]
          exact membership.beatUntil_ahead _ loop far
  | drain =>
      simp only [obey, drain]
      split <;> exact ahead
  | dropFeed => exact ahead

/-! The owner of a feed -/

/-- Whatever is in the feed, the same heartbeats are sent. -/
theorem beatUntil_alike [Link σ] (clock : Clock) (loop : BeatLoop) (far : σ)
    (membership : Membership) (feed : Option ErrorFeed) :
    ∃ left, beatUntil clock loop far { membership with feed } =
      ((membership.beatUntil clock loop far).1,
        { (membership.beatUntil clock loop far).2 with feed := left }) := by
  fun_induction beatUntil clock loop far membership generalizing feed with
  | case1 loop far membership due after ih =>
      have first : ∃ left, ({ membership with feed } : Membership).beat clock.instant far =
          (after.1, { after.2 with feed := left }) := by
        simp only [after, beat, beatMessage]
        split
        · exact ⟨_, rfl⟩
        · exact ⟨_, rfl⟩
      obtain ⟨left, same⟩ := first
      obtain ⟨last, rest⟩ := ih left
      refine ⟨last, ?_⟩
      rw [beatUntil, if_pos due, same]
      exact rest
  | case2 loop far membership early =>
      refine ⟨feed, ?_⟩
      rw [beatUntil, if_neg early]

/-- Whatever is in the feed, a command comes to the same. -/
theorem obey_alike [Link σ] (clock : Clock) (far : σ) (membership : Membership)
    (feed : Option ErrorFeed) (command : MembershipCommand) :
    ∃ left, ({ membership with feed } : Membership).obey clock far command =
      ⟨(membership.obey clock far command).result, (membership.obey clock far command).far,
        { (membership.obey clock far command).membership with feed := left }⟩ := by
  obtain ⟨node, labels, phase, loop, own⟩ := membership
  cases command with
  | register =>
      cases phase with
      | unregistered =>
          rcases asked : Link.ask far clock.instant (.register ⟨node, labels⟩) with
            ⟨error | answer, after⟩
          all_goals
            refine ⟨feed, ?_⟩
            simp [obey, register, isRegistered, announce, asked, Except.map]
      | registered | beating => exact ⟨feed, rfl⟩
  | rejoin => cases phase <;> exact ⟨feed, rfl⟩
  | startBeating interval =>
      simp only [obey, startBeating]
      split
      · split <;> exact ⟨_, rfl⟩
      · exact ⟨feed, rfl⟩
  | stopBeating => cases loop <;> exact ⟨_, rfl⟩
  | deregister =>
      rcases asked : Link.ask far clock.instant (.deregister node) with ⟨error | answer, after⟩
      all_goals
        cases loop <;> exact ⟨_, by simp only [obey, deregister, stopBeating, asked]; rfl⟩
  | advance span instant =>
      cases loop with
      | none => exact ⟨feed, rfl⟩
      | some loop =>
          obtain ⟨left, same⟩ :=
            beatUntil_alike clock loop far ⟨node, labels, phase, some loop, own⟩ feed
          exact ⟨left, by simp only [obey, advance, same]⟩
  | drain => cases feed <;> cases own <;> exact ⟨_, rfl⟩
  | dropFeed => exact ⟨none, rfl⟩

end Membership

end FaultInjection
