import FaultInjection.Proofs.Node.Feed

/-!
Runs of a membership whose errors are read. They are read in the order in which the heartbeats
failed, and what their reader does makes no difference to the loop.
-/

namespace FaultInjection

variable {σ : Type}

inductive FeedCommand where
  | obey (command : MembershipCommand)
  | receive

namespace FeedCommand

def consumes : FeedCommand → Bool
  | receive | obey .drain | obey .dropFeed => true
  | _ => false

end FeedCommand

structure FeedRun (σ : Type) where
  clock : Clock
  far : σ
  membership : Membership
  calls : List Call
  /-- What heartbeats have met with since the newest loop was started. -/
  errors : List Error
  story : Option FeedStory

namespace FeedRun

def start (clock : Clock) (far : σ) (node : String) (labels : Labels) : FeedRun σ :=
  ⟨clock, far, .ofNode node labels, [], [], none⟩

def way (run : FeedRun σ) : Overheard (Troubled σ) := ⟨⟨run.far, []⟩, []⟩

def opening [Link σ] (run : FeedRun σ) : FeedStory :=
  [({ run.membership with feed := some ⟨[], true⟩ } : Membership).beatEvent run.clock.instant
    run.way]

def perform [Link σ] (run : FeedRun σ) : FeedCommand → FeedRun σ
  | .receive =>
      { run with
        membership := run.membership.receive.2
        story := run.story.map (· ++ [.read run.membership.receive.1]) }
  | .obey command =>
      let clock := command.clock run.clock
      let turn := run.membership.turn clock run.way.far command
      let far := (run.membership.overheard clock run.way.far command).far.far
      { clock
        far := far.far
        membership := turn.after
        calls := run.calls ++ turn.calls
        errors := if turn.begins then far.errors else run.errors ++ far.errors
        story := if turn.begins then some run.opening
          else run.story.map (· ++ run.membership.events clock run.way command) }

def after [Link σ] (run : FeedRun σ) (commands : List FeedCommand) : FeedRun σ :=
  commands.foldl perform run

structure Told (run : FeedRun σ) : Prop where
  sound : run.membership.Sound
  ahead : run.membership.Ahead run.clock
  idle : run.story = none → run.membership.loop = none
  untold : run.story = none → run.membership.waiting = none
  told : ∀ story ∈ run.story,
    story.Follows (some []) run.membership.waiting ∧ story.failures = run.errors

theorem start_told (clock : Clock) (far : σ) (node : String) (labels : Labels) :
    (start clock far node labels).Told :=
  ⟨⟨⟨nofun, nofun⟩, nofun⟩, nofun, fun _ => rfl, fun _ => rfl, nofun⟩

/-- The story goes on with what a command does to the feed. -/
theorem Told.append {run : FeedRun σ} (told : run.Told) {events : FeedStory}
    {waiting : Option (List Error)} (follows : events.Follows run.membership.waiting waiting) :
    (run.story.map (· ++ events) = none → waiting = none) ∧
      ∀ story ∈ run.story.map (· ++ events),
        story.Follows (some []) waiting ∧ story.failures = run.errors ++ events.failures := by
  constructor
  · intro untold
    rw [told.untold (Option.map_eq_none_iff.mp untold)] at follows
    exact follows.of_none.1
  · rintro story member
    obtain ⟨earlier, known, rfl⟩ := Option.map_eq_some_iff.mp member
    obtain ⟨followed, errors⟩ := told.told earlier known
    exact ⟨followed.append follows, by rw [FeedStory.failures_append, errors]⟩

theorem Told.receive [Link σ] {run : FeedRun σ} (told : run.Told) :
    (run.perform .receive).Told := by
  have steady := run.membership.receive_steady
  obtain ⟨untold, story⟩ := told.append (.single run.membership.receive_moves)
  constructor
  case sound => exact steady.1.sound (congrArg Option.isSome steady.2) told.sound
  case ahead =>
    intro loop known
    exact told.ahead loop (steady.2 ▸ known)
  case idle =>
    exact fun silent => steady.2.trans (told.idle (Option.map_eq_none_iff.mp silent))
  case untold => exact untold
  case told => simpa [perform, FeedStory.failures, FeedEvent.failed?] using story

/-- A start that succeeds begins the story of a new feed. -/
theorem opening_follows [Link σ] (run : FeedRun σ) (interval : Int)
    (begun : (run.membership.startBeating run.clock interval run.way).result.isOk = true) :
    let outcome := run.membership.startBeating run.clock interval run.way
    run.opening.Follows (some []) outcome.membership.waiting ∧
      run.opening.failures = outcome.far.far.errors := by
  rcases run.membership.startBeating_opens run.clock interval run.way with
    ⟨error, same⟩ | ⟨loop, started, first, node, empty, same⟩
  · rw [same] at begun
    cases begun
  · -- the first heartbeat is due at once, and the second one is not due yet
    have opening : run.opening = started.beats run.clock loop run.way := by
      rw [Membership.beats_once run.clock loop run.way started first]
      simp only [opening, Membership.beatEvent, empty, Membership.beatMessage, node]
      rfl
    intro outcome
    simp only [outcome, same, opening]
    constructor
    · rw [← empty]
      exact started.beatUntil_follows run.clock loop run.way
    · exact (started.beatUntil_errors run.clock loop run.way).symm

theorem Told.obey [Link σ] {run : FeedRun σ} (told : run.Told) (command : MembershipCommand) :
    (run.perform (.obey command)).Told := by
  have lawful := Membership.turn_lawful told.sound (command.clock run.clock) run.way.far command
  have ahead := run.membership.obey_ahead run.clock run.way command told.ahead
  cases begun : (run.membership.turn (command.clock run.clock) run.way.far command).begins with
  | true =>
      cases command with
      | startBeating interval =>
          have opened := run.opening_follows interval begun
          constructor
          case sound => exact lawful.sound
          case ahead => exact ahead
          case idle => simp [perform, begun]
          case untold => simp [perform, begun]
          case told =>
            simp only [perform, begun, if_true]
            rintro _ ⟨⟩
            exact opened
      | _ => cases begun
  | false =>
      have unopened : ∀ interval, command = .startBeating interval →
          (run.membership.obey (command.clock run.clock) run.way command).result.isOk = false := by
        rintro interval rfl
        exact begun
      have follows := run.membership.obey_follows (command.clock run.clock) run.way command unopened
      have errors := run.membership.obey_errors (command.clock run.clock) run.way command unopened
      obtain ⟨untold, story⟩ := told.append follows
      constructor
      case sound => exact lawful.sound
      case ahead => exact ahead
      case idle =>
        simp only [perform, begun]
        exact fun silent => lawful.idle begun (told.idle (Option.map_eq_none_iff.mp silent))
      case untold =>
        simp only [perform, begun]
        exact untold
      case told =>
        simp only [perform, begun]
        rintro whole member
        obtain ⟨followed, failures⟩ := story whole member
        exact ⟨followed, failures.trans (congrArg _ errors.symm)⟩

theorem after_told [Link σ] (run : FeedRun σ) (commands : List FeedCommand) (told : run.Told) :
    (run.after commands).Told := by
  induction commands generalizing run with
  | nil => exact told
  | cons command rest ih =>
      apply ih
      cases command with
      | obey command => exact told.obey command
      | receive => exact told.receive

/-- Two runs that differ in their feeds alone. -/
structure Alike (one other : FeedRun σ) : Prop where
  clock : one.clock = other.clock
  far : one.far = other.far
  calls : one.calls = other.calls
  errors : one.errors = other.errors
  membership : ∃ feed, one.membership = { other.membership with feed }

theorem Alike.obey [Link σ] {one other : FeedRun σ} (alike : Alike one other)
    (command : MembershipCommand) :
    Alike (one.perform (.obey command)) (other.perform (.obey command)) := by
  obtain ⟨clock, far, membership, calls, errors, story⟩ := one
  obtain ⟨rfl, rfl, rfl, rfl, feed, same⟩ := alike
  dsimp only at same
  subst same
  obtain ⟨left, outcome⟩ := Membership.obey_alike (command.clock other.clock)
    (⟨⟨other.far, []⟩, []⟩ : Overheard (Troubled σ)) other.membership feed command
  simp only [perform, way, Membership.turn, Membership.overheard, outcome]
  exact ⟨rfl, rfl, rfl, rfl, left, rfl⟩

/-- What the owner of a feed does changes nothing but the feed. -/
theorem Alike.consume [Link σ] {one other : FeedRun σ} (alike : Alike one other)
    (command : FeedCommand) (consumes : command.consumes = true) :
    Alike (one.perform command) other := by
  obtain ⟨clock, far, membership, calls, errors, story⟩ := one
  obtain ⟨rfl, rfl, rfl, rfl, feed, same⟩ := alike
  dsimp only at same
  subst same
  cases command with
  | receive =>
      cases feed with
      | none => exact ⟨rfl, rfl, rfl, rfl, none, rfl⟩
      | some feed => exact ⟨rfl, rfl, rfl, rfl, _, rfl⟩
  | obey command =>
      cases command with
      | drain =>
          cases feed with
          | none => exact ⟨rfl, rfl, List.append_nil _, List.append_nil _, none, rfl⟩
          | some feed => exact ⟨rfl, rfl, List.append_nil _, List.append_nil _, _, rfl⟩
      | dropFeed => exact ⟨rfl, rfl, List.append_nil _, List.append_nil _, none, rfl⟩
      | _ => cases consumes

theorem alike_after [Link σ] (one other : FeedRun σ) (commands : List FeedCommand)
    (alike : Alike one other) :
    Alike (one.after commands) (other.after (commands.filter (!·.consumes))) := by
  induction commands generalizing one other with
  | nil => exact alike
  | cons command rest ih =>
      cases consumes : command.consumes with
      | true =>
          rw [List.filter_cons_of_neg (by simp [consumes])]
          exact ih _ _ (alike.consume command consumes)
      | false =>
          rw [List.filter_cons_of_pos (by simp [consumes])]
          cases command with
          | receive => cases consumes
          | obey command => exact ih _ _ (alike.obey command)

/-- The errors of heartbeats are delivered in order, and the only ones missed are those that find
the feed full or thrown away. All that wait can be read before the end of the feed is told, which
comes with the end of the loop, and reading them at once comes to the same as one by one. The loop
is never late, and goes on as if nobody read its errors. -/
theorem delivers [Link σ] (clock : Clock) (far : σ) (node : String) (labels : Labels)
    (commands : List FeedCommand) :
    let run := (start clock far node labels).after commands
    let unread := (start clock far node labels).after (commands.filter (!·.consumes))
    (run.story = none → run.membership.loop = none ∧ run.membership.waiting = none) ∧
    (∀ story ∈ run.story,
      story.Accounted run.membership.waiting ∧ story.failures = run.errors) ∧
    (∀ feed ∈ run.membership.feed, feed.reads (feed.pending.length + 1) =
      feed.pending.map .error ++ [if run.membership.loop.isSome then .nothing else .closed]) ∧
    (∀ pending ∈ run.membership.waiting, run.membership.drain =
      run.membership.receives pending.length ∧ run.membership.drain.1 = pending ∧
        run.membership.drain.2.waiting = some []) ∧
    run.membership.Ahead run.clock ∧ Alike run unread := by
  intro run unread
  have told : run.Told := after_told _ commands (start_told clock far node labels)
  refine ⟨fun silent => ⟨told.idle silent, told.untold silent⟩, ?accounted, ?closing, ?drain,
    told.ahead, ?alike⟩
  case accounted =>
    intro story known
    obtain ⟨followed, failures⟩ := told.told story known
    exact ⟨followed.accounted, failures⟩
  case closing =>
    intro feed known
    rw [← told.sound.feed feed known]
    exact ErrorFeed.reads_all feed.pending feed.isOpen
  case drain => exact fun pending => run.membership.drain_receives pending
  case alike => exact alike_after _ _ commands ⟨rfl, rfl, rfl, rfl, none, rfl⟩

/-- Of three heartbeats that fail, one error is read alone, and the others at once when the feed is
closed already. -/
example :
    let run := (start ⟨0, 0⟩ (⟨[], [.heartbeat], []⟩ : ScriptedMaster) "node" []).after
      [.obey .register, .obey (.startBeating 10), .receive, .obey (.advance 25 0),
        .obey .stopBeating, .obey .drain]
    run.story.map FeedStory.received = some (.replicate 3 (.nodeNotFound "node")) ∧
      run.membership.feed.map (·.isOpen) = some false := by
  decide +kernel

end FeedRun

end FaultInjection
