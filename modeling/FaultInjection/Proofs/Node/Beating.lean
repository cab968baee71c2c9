import FaultInjection.Node.Membership
import FaultInjection.Proofs.Node.Run

/-!
What one command does to a membership, and what the master hears of it. A loop sends one heartbeat
for each time that is due, and nothing else sends any; a loop runs exactly while the node is
beating, and the feed of its errors is open exactly as long.
-/

namespace FaultInjection

variable {σ : Type}

def Call.isBeat : Call → Bool
  | .heartbeat _ => true
  | _ => false

def BeatLoop.due (loop : BeatLoop) (now : Nat) : Nat :=
  if loop.next ≤ now then (now - loop.next) / loop.interval + 1 else 0

theorem BeatLoop.due_next (loop : BeatLoop) (now : Nat) (here : loop.next ≤ now) :
    loop.due now = ({ loop with next := loop.next + loop.interval } : BeatLoop).due now + 1 := by
  have positive := loop.intervalPositive
  simp only [due, if_pos here]
  split
  next again =>
    have steps := Nat.div_eq_sub_div positive (show loop.interval ≤ now - loop.next by omega)
    rw [steps, Nat.sub_add_eq]
  next last =>
    rw [Nat.div_eq_of_lt (by omega)]

theorem ErrorFeed.offer_isOpen (feed : ErrorFeed) (error : Error) :
    (feed.offer error).isOpen = feed.isOpen := by
  unfold offer
  split <;> rfl

inductive MembershipCommand where
  | register
  | rejoin
  | startBeating (interval : Int)
  | stopBeating
  | deregister
  | advance (span : Nat) (instant : Int)
  | drain
  | dropFeed
  deriving DecidableEq

structure MembershipTurn where
  command : MembershipCommand
  clock : Clock
  result : Except Error Unit
  calls : List Call
  before : Membership
  after : Membership

namespace MembershipTurn

def joins (turn : MembershipTurn) : Bool := turn.command = .register && turn.result.isOk

def leaves (turn : MembershipTurn) : Bool := turn.command = .deregister && turn.result.isOk

def begins (turn : MembershipTurn) : Bool :=
  match turn.command with
  | .startBeating _ => turn.result.isOk
  | _ => false

def ends (turn : MembershipTurn) : Bool :=
  turn.command = .stopBeating || turn.command = .deregister

/-- How many heartbeats there should be: those that are due of the loop that runs, and the first
one of a loop that is started. -/
def dueBeats (turn : MembershipTurn) : Nat :=
  match turn.command with
  | .advance _ _ => (turn.before.loop.map (·.due turn.clock.now)).getD 0
  | _ => if turn.begins then 1 else 0

/-- The master hears the heartbeats that are due and no others. -/
def OnTime (turn : MembershipTurn) : Prop :=
  turn.calls.filter Call.isBeat =
    List.replicate turn.dueBeats (.heartbeat (turn.before.beatMessage turn.clock.instant))

/-- A command that fails changes nothing, except that leaving stops the loop in any case. -/
def Spares (turn : MembershipTurn) : Prop :=
  if turn.command = .deregister then
    turn.after.loop = none ∧ turn.after.phase =
      if turn.before.phase = .unregistered then .unregistered else .registered
  else turn.after = turn.before

end MembershipTurn

namespace Membership

def obey [Link σ] (membership : Membership) (clock : Clock) (far : σ) :
    MembershipCommand → MembershipOutcome σ
  | .register => membership.register clock.instant far
  | .rejoin => membership.rejoin clock.instant far
  | .startBeating interval => membership.startBeating clock interval far
  | .stopBeating => ⟨.ok (), far, membership.stopBeating⟩
  | .deregister => membership.deregister clock.instant far
  | .advance _ _ => ⟨.ok (), (membership.advance clock far).1, (membership.advance clock far).2⟩
  | .drain => ⟨.ok (), far, membership.drain.2⟩
  | .dropFeed => ⟨.ok (), far, membership.dropFeed⟩

def overheard [Link σ] (membership : Membership) (clock : Clock) (far : σ)
    (command : MembershipCommand) : MembershipOutcome (Overheard σ) :=
  membership.obey clock ⟨far, []⟩ command

def turn [Link σ] (membership : Membership) (clock : Clock) (far : σ)
    (command : MembershipCommand) : MembershipTurn :=
  let outcome := membership.overheard clock far command
  ⟨command, clock, outcome.result, outcome.far.calls, membership, outcome.membership⟩

/-- A loop runs while the node is beating, and its feed is open as long. -/
structure Sound (membership : Membership) : Prop where
  beating : membership.loop.isSome = true ↔ membership.phase = .beating
  feed : ∀ feed ∈ membership.feed, feed.isOpen = membership.loop.isSome

theorem Sound.idle {membership : Membership} (sound : membership.Sound)
    (other : membership.phase ≠ .beating) : membership.loop = none := by
  rw [← Option.not_isSome_iff_eq_none]
  exact fun running => other (sound.beating.mp running)

/-! Heartbeats -/

/-- Heartbeats put errors into the feed and change nothing else. -/
structure Steady (before after : Membership) : Prop where
  node : after.node = before.node
  phase : after.phase = before.phase
  feed : ∀ feed ∈ after.feed, ∃ earlier ∈ before.feed, feed.isOpen = earlier.isOpen

theorem Steady.refl (membership : Membership) : Steady membership membership :=
  ⟨rfl, rfl, fun feed member => ⟨feed, member, rfl⟩⟩

theorem Steady.trans {first second third : Membership} (start : Steady first second)
    (finish : Steady second third) : Steady first third := by
  constructor
  · exact finish.node.trans start.node
  · exact finish.phase.trans start.phase
  · rintro feed member
    obtain ⟨middle, known, same⟩ := finish.feed feed member
    obtain ⟨earlier, found, alike⟩ := start.feed middle known
    exact ⟨earlier, found, same.trans alike⟩

theorem Steady.sound {before after : Membership} (steady : Steady before after)
    (same : after.loop.isSome = before.loop.isSome) (sound : before.Sound) : after.Sound := by
  constructor
  · rw [same, steady.phase]
    exact sound.beating
  · rintro feed member
    obtain ⟨earlier, known, alike⟩ := steady.feed feed member
    rw [alike, same]
    exact sound.feed earlier known

theorem beat_steady [Link σ] (membership : Membership) (instant : Int) (far : σ) :
    Steady membership (membership.beat instant far).2 := by
  unfold beat
  split
  · exact .refl membership
  next error _ _ =>
    constructor
    · rfl
    · rfl
    · rintro feed member
      obtain ⟨earlier, known, rfl⟩ := Option.map_eq_some_iff.mp member
      exact ⟨earlier, known, ErrorFeed.offer_isOpen earlier error⟩

theorem beat_calls [Link σ] (membership : Membership) (instant : Int) (far : Overheard σ) :
    (membership.beat instant far).1.calls =
      far.calls ++ [.heartbeat (membership.beatMessage instant)] := by
  unfold beat
  split <;> next answered => exact congrArg (Overheard.calls ∘ Prod.snd) answered.symm

theorem beatUntil_steady [Link σ] (clock : Clock) (loop : BeatLoop) (far : σ)
    (membership : Membership) :
    Steady membership (membership.beatUntil clock loop far).2 ∧
      (membership.beatUntil clock loop far).2.loop.isSome = true := by
  fun_induction beatUntil clock loop far membership with
  | case1 loop far membership due after ih =>
      exact ⟨(membership.beat_steady clock.instant far).trans ih.1, ih.2⟩
  | case2 loop far membership early =>
      exact ⟨⟨rfl, rfl, fun feed member => ⟨feed, member, rfl⟩⟩, rfl⟩

theorem beatUntil_calls [Link σ] (clock : Clock) (loop : BeatLoop) (far : Overheard σ)
    (membership : Membership) :
    (membership.beatUntil clock loop far).1.calls = far.calls ++
      List.replicate (loop.due clock.now) (.heartbeat (membership.beatMessage clock.instant)) := by
  fun_induction beatUntil clock loop far membership with
  | case1 loop far membership due after ih =>
      have same : after.2.beatMessage clock.instant = membership.beatMessage clock.instant := by
        rw [beatMessage, beatMessage, (membership.beat_steady clock.instant far).node]
      have first : after.1.calls = _ := membership.beat_calls clock.instant far
      rw [ih, first, same, loop.due_next clock.now due, List.replicate_succ, List.append_assoc]
      rfl
  | case2 loop far membership early =>
      simp [BeatLoop.due, early]

theorem advance_steady [Link σ] (membership : Membership) (clock : Clock) (far : σ) :
    Steady membership (membership.advance clock far).2 ∧
      (membership.advance clock far).2.loop.isSome = membership.loop.isSome := by
  unfold advance
  split
  next loop running =>
    have passed := membership.beatUntil_steady clock loop far
    exact ⟨passed.1, by rw [passed.2, running]; rfl⟩
  next => exact ⟨.refl membership, rfl⟩

theorem advance_calls [Link σ] (membership : Membership) (clock : Clock) (far : Overheard σ) :
    (membership.advance clock far).1.calls = far.calls ++
      List.replicate ((membership.loop.map (·.due clock.now)).getD 0)
        (.heartbeat (membership.beatMessage clock.instant)) := by
  unfold advance
  split
  next loop running => rw [beatUntil_calls, running]; rfl
  next idle => rw [idle]; simp

theorem stopBeating_loop (membership : Membership) : membership.stopBeating.loop = none := by
  unfold stopBeating
  split
  next idle => exact idle
  next => rfl

theorem stopBeating_phase (membership : Membership) (sound : membership.Sound) :
    membership.stopBeating.phase =
      if membership.phase = .unregistered then .unregistered else .registered := by
  unfold stopBeating
  split
  next idle =>
    cases phase : membership.phase with
    | unregistered => rfl
    | registered => rfl
    | beating =>
        have running := sound.beating.mpr phase
        rw [idle] at running
        cases running
  next loop running =>
    have beating : membership.phase = .beating := sound.beating.mp (by rw [running]; rfl)
    simp [beating]

theorem stopBeating_sound (membership : Membership) (sound : membership.Sound) :
    membership.stopBeating.Sound := by
  have idle := membership.stopBeating_loop
  constructor
  · rw [idle, membership.stopBeating_phase sound]
    split <;> simp
  · rw [idle]
    unfold stopBeating
    split
    next none => exact none ▸ sound.feed
    next =>
      rintro feed member
      obtain ⟨earlier, _, rfl⟩ := Option.map_eq_some_iff.mp member
      rfl

/-- A loop that has just been started has sent its first heartbeat. -/
theorem startBeating_cases [Link σ] (membership : Membership) (clock : Clock) (interval : Int)
    (far : Overheard σ) :
    (∃ error, membership.startBeating clock interval far = ⟨.error error, far, membership⟩) ∨
    (membership.phase = .registered ∧ ∃ after, after.Sound ∧ after.phase = .beating ∧
      ∃ heard : Overheard σ, membership.startBeating clock interval far = ⟨.ok (), heard, after⟩ ∧
        heard.calls = far.calls ++ [.heartbeat (membership.beatMessage clock.instant)]) := by
  unfold startBeating
  split
  next positive =>
    cases phase : membership.phase with
    | unregistered => exact Or.inl ⟨_, rfl⟩
    | beating => exact Or.inl ⟨_, rfl⟩
    | registered =>
        let loop : BeatLoop := ⟨interval.toNat, clock.now, by omega⟩
        let started := { membership with
          phase := .beating
          loop := some loop
          feed := some ⟨[], true⟩ }
        have sound : started.Sound := by
          constructor
          · simp [started]
          · rintro feed member
            cases member
            rfl
        have once : loop.due clock.now = 1 := by simp [BeatLoop.due, loop]
        obtain ⟨steady, same⟩ := started.advance_steady clock far
        refine Or.inr ⟨rfl, _, steady.sound same sound, steady.phase, _, rfl, ?_⟩
        have calls := started.advance_calls clock far
        have due : (started.loop.map (·.due clock.now)).getD 0 = 1 := once
        rw [due] at calls
        exact calls
  next => exact Or.inl ⟨_, rfl⟩

end Membership

structure MembershipTurn.Lawful (turn : MembershipTurn) : Prop where
  sound : turn.after.Sound
  outside : turn.after.phase = .unregistered ↔
    turn.leaves = true ∨ turn.joins = false ∧ turn.before.phase = .unregistered
  idle : turn.begins = false → turn.before.loop = none → turn.after.loop = none
  ended : turn.ends = true → turn.after.loop = none
  begun : turn.begins = true → turn.before.loop = none
  onTime : turn.OnTime
  spares : turn.result.isOk = false → turn.Spares

/-- A turn that only passes time, looks at something, or fails. -/
theorem MembershipTurn.Lawful.steady {turn : MembershipTurn} (sound : turn.before.Sound)
    (steady : Membership.Steady turn.before turn.after)
    (same : turn.after.loop.isSome = turn.before.loop.isSome) (onTime : turn.OnTime)
    (failed : turn.result.isOk = false → turn.after = turn.before)
    (member : turn.joins = true → turn.before.phase ≠ .unregistered)
    (stays : turn.leaves = false) (begins : turn.begins = false) (ends : turn.ends = false) :
    turn.Lawful := by
  constructor
  case sound => exact steady.sound same sound
  case outside =>
    rw [steady.phase, stays]
    cases joins : turn.joins with
    | false => simp
    | true => simp [member joins]
  case idle =>
    intro _ idle
    rw [idle] at same
    exact Option.not_isSome_iff_eq_none.mp (by simp [same])
  case ended => simp [ends]
  case begun => simp [begins]
  case onTime => exact onTime
  case spares =>
    intro refused
    have other : turn.command ≠ .deregister := by
      intro leaving
      simp [MembershipTurn.ends, leaving] at ends
    simp [Spares, other, failed refused]

namespace Membership

variable [Link σ] {membership : Membership} (sound : membership.Sound) (clock : Clock) (far : σ)

include sound

theorem turn_register : (membership.turn clock far .register).Lawful := by
  cases phase : membership.isRegistered with
  | true =>
      have same : membership.turn clock far .register =
          ⟨.register, clock, .ok (), [], membership, membership⟩ := by
        simp [turn, overheard, obey, register, phase]
      rw [same]
      exact .steady sound (.refl _) rfl rfl nofun (fun _ => by simpa [isRegistered] using phase) rfl
        rfl rfl
  | false =>
      have outside : membership.phase = .unregistered := by simpa [isRegistered] using phase
      rcases asked : Link.ask far clock.instant
        (.register ⟨membership.node, membership.labels⟩) with ⟨error | answer, after⟩
      · have same : membership.turn clock far .register =
            ⟨.register, clock, .error error, [.register ⟨membership.node, membership.labels⟩],
              membership, membership⟩ := by
          simp [turn, overheard, obey, register, phase, announce, Link.ask, asked, Except.map]
        rw [same]
        exact .steady sound (.refl _) rfl rfl (fun _ => rfl) nofun rfl rfl rfl
      · have same : membership.turn clock far .register =
            ⟨.register, clock, .ok (), [.register ⟨membership.node, membership.labels⟩],
              membership, { membership with phase := .registered }⟩ := by
          simp [turn, overheard, obey, register, phase, announce, Link.ask, asked, Except.map]
        have idle := sound.idle (by simp [outside])
        rw [same]
        constructor
        case sound => exact ⟨by simp [idle], sound.feed⟩
        case outside => exact ⟨nofun, nofun⟩
        case idle => exact fun _ idle => idle
        case ended => exact nofun
        case begun => exact nofun
        case onTime => rfl
        case spares => exact nofun

theorem turn_rejoin : (membership.turn clock far .rejoin).Lawful := by
  have same : (membership.turn clock far .rejoin).after = membership := by
    simp only [turn, overheard, obey, rejoin]
    split <;> rfl
  have onTime : (membership.turn clock far .rejoin).OnTime := by
    simp only [MembershipTurn.OnTime, turn, overheard, obey, rejoin]
    split <;> rfl
  exact .steady sound (by rw [same]; exact .refl _) (by rw [same]; rfl) onTime (fun _ => same) nofun
    rfl rfl rfl

theorem turn_startBeating (interval : Int) :
    (membership.turn clock far (.startBeating interval)).Lawful := by
  rcases membership.startBeating_cases clock interval ⟨far, []⟩ with
    ⟨error, failed⟩ | ⟨phase, after, kept, beating, heard, started, calls⟩
  · have same : membership.turn clock far (.startBeating interval) =
        ⟨.startBeating interval, clock, .error error, [], membership, membership⟩ := by
      simp [turn, overheard, obey, failed]
    rw [same]
    exact .steady sound (.refl _) rfl rfl (fun _ => rfl) nofun rfl rfl rfl
  · have same : membership.turn clock far (.startBeating interval) =
        ⟨.startBeating interval, clock, .ok (), heard.calls, membership, after⟩ := by
      simp [turn, overheard, obey, started]
    rw [same]
    constructor
    case sound => exact kept
    case outside => simp [MembershipTurn.leaves, beating, phase]
    case idle => exact nofun
    case ended => exact nofun
    case begun => exact fun _ => sound.idle (by simp [phase])
    case onTime => rw [MembershipTurn.OnTime, calls]; rfl
    case spares => exact nofun

theorem turn_stopBeating : (membership.turn clock far .stopBeating).Lawful := by
  constructor
  case sound => exact membership.stopBeating_sound sound
  case outside =>
    change membership.stopBeating.phase = .unregistered ↔ _
    rw [membership.stopBeating_phase sound]
    split <;> simp_all [turn, MembershipTurn.leaves, MembershipTurn.joins]
  case idle => exact fun _ _ => membership.stopBeating_loop
  case ended => exact fun _ => membership.stopBeating_loop
  case begun => exact nofun
  case onTime => rfl
  case spares => exact nofun

theorem turn_deregister : (membership.turn clock far .deregister).Lawful := by
  have stopped := membership.stopBeating_sound sound
  have idle := membership.stopBeating_loop
  rcases asked : Link.ask far clock.instant (.deregister membership.node) with
    ⟨error | answer, after⟩
  · have same : membership.turn clock far .deregister =
        ⟨.deregister, clock, .error error, [.deregister membership.node], membership,
          membership.stopBeating⟩ := by
      simp [turn, overheard, obey, deregister, Link.ask, asked]
    have phase := membership.stopBeating_phase sound
    rw [same]
    constructor
    case sound => exact stopped
    case outside =>
      change membership.stopBeating.phase = .unregistered ↔ _
      rw [phase]
      split <;> simp_all [MembershipTurn.leaves, MembershipTurn.joins, Except.isOk, Except.toBool]
    case idle => exact fun _ _ => idle
    case ended => exact fun _ => idle
    case begun => exact nofun
    case onTime => rfl
    case spares => exact fun _ => ⟨idle, phase⟩
  · have same : membership.turn clock far .deregister =
        ⟨.deregister, clock, .ok (), [.deregister membership.node], membership,
          { membership.stopBeating with phase := .unregistered }⟩ := by
      simp [turn, overheard, obey, deregister, Link.ask, asked]
    rw [same]
    constructor
    case sound => exact ⟨by simp [idle], stopped.feed⟩
    case outside => exact ⟨fun _ => Or.inl rfl, fun _ => rfl⟩
    case idle => exact fun _ _ => idle
    case ended => exact fun _ => idle
    case begun => exact nofun
    case onTime => rfl
    case spares => exact nofun

theorem turn_advance (span : Nat) (instant : Int) :
    (membership.turn clock far (.advance span instant)).Lawful := by
  obtain ⟨steady, same⟩ := membership.advance_steady clock (⟨far, []⟩ : Overheard σ)
  have onTime : (membership.turn clock far (.advance span instant)).OnTime := by
    change (membership.advance clock (⟨far, []⟩ : Overheard σ)).1.calls.filter _ = _
    rw [membership.advance_calls, List.nil_append, List.filter_replicate_of_pos rfl]
    rfl
  exact .steady sound steady same onTime nofun nofun rfl rfl rfl

theorem turn_drain : (membership.turn clock far .drain).Lawful := by
  have steady : Steady membership membership.drain.2 ∧
      membership.drain.2.loop.isSome = membership.loop.isSome := by
    unfold drain
    split
    next => exact ⟨.refl membership, rfl⟩
    next feed known =>
      refine ⟨⟨rfl, rfl, ?_⟩, rfl⟩
      rintro read member
      cases member
      exact ⟨feed, known, rfl⟩
  exact .steady sound steady.1 steady.2 rfl nofun nofun rfl rfl rfl

theorem turn_dropFeed : (membership.turn clock far .dropFeed).Lawful :=
  .steady sound ⟨rfl, rfl, nofun⟩ rfl rfl nofun nofun rfl rfl rfl

theorem turn_lawful (command : MembershipCommand) :
    (membership.turn clock far command).Lawful := by
  cases command with
  | register => exact turn_register sound clock far
  | rejoin => exact turn_rejoin sound clock far
  | startBeating interval => exact turn_startBeating sound clock far interval
  | stopBeating => exact turn_stopBeating sound clock far
  | deregister => exact turn_deregister sound clock far
  | advance span instant => exact turn_advance sound clock far span instant
  | drain => exact turn_drain sound clock far
  | dropFeed => exact turn_dropFeed sound clock far

end Membership

end FaultInjection
