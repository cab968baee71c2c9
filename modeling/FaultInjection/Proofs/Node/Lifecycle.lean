import FaultInjection.Master.Rehearsal
import FaultInjection.Proofs.Node.Beating

/-!
Runs of a membership: joining, leaving, starting and stopping to send heartbeats, in any order and
whatever the master answers. What the membership takes itself for agrees with what has happened,
and the master hears heartbeats exactly while a loop runs.
-/

namespace FaultInjection

variable {σ : Type}

/-- A loop that was started, and the feed that was handed out for it, unless it was thrown away. -/
structure Tenure where
  running : Bool
  feed : Option ErrorFeed

structure MembershipRun (σ : Type) where
  clock : Clock
  far : σ
  membership : Membership
  tenures : List Tenure
  turns : List MembershipTurn

namespace MembershipTurn

/-- The loops after a turn. A loop that is started takes no older one's place: an older one that
had not been stopped would go on. -/
def tenures (turn : MembershipTurn) (before : List Tenure) : List Tenure :=
  let newest : Tenure := ⟨turn.after.loop.isSome, turn.after.feed⟩
  if turn.begins then newest :: before
  else match before with
    | [] => []
    | _ :: older => newest :: older

end MembershipTurn

def MembershipCommand.clock (before : Clock) : MembershipCommand → Clock
  | .advance span instant => ⟨before.now + span, instant⟩
  | _ => before

namespace MembershipRun

def start (clock : Clock) (far : σ) (node : String) (labels : Labels) : MembershipRun σ :=
  ⟨clock, far, .ofNode node labels, [], []⟩

def perform [Link σ] (run : MembershipRun σ) (command : MembershipCommand) : MembershipRun σ :=
  let clock := command.clock run.clock
  let turn := run.membership.turn clock run.far command
  { clock
    far := (run.membership.overheard clock run.far command).far.far
    membership := turn.after
    tenures := turn.tenures run.tenures
    turns := turn :: run.turns }

def after [Link σ] (run : MembershipRun σ) (commands : List MembershipCommand) : MembershipRun σ :=
  commands.foldl perform run

/-- The node has joined, and has not left since. -/
def Joined (turns : List MembershipTurn) : Prop :=
  ∃ since turn earlier, turns = since ++ turn :: earlier ∧ turn.joins = true ∧
    ∀ later ∈ since, later.leaves = false

/-- Once a loop has been told to stop, no heartbeat is sent until a loop is started. -/
def Quiet (turns : List MembershipTurn) : Prop :=
  ∀ since turn earlier, turns = since ++ turn :: earlier → turn.ends = true →
    (∀ later ∈ since, later.begins = false) →
      ∀ later ∈ turn :: since, later.calls.filter Call.isBeat = []

structure Orderly (run : MembershipRun σ) : Prop where
  beating : run.membership.loop.isSome = true ↔ run.membership.phase = .beating
  single : (run.tenures.filter (·.running)).length =
    if run.membership.phase = .beating then 1 else 0
  started : run.tenures.length = (run.turns.filter (·.begins)).length
  feeds : ∀ tenure ∈ run.tenures, ∀ feed ∈ tenure.feed, feed.isOpen = tenure.running
  outside : run.membership.phase = .unregistered ↔ ¬ Joined run.turns
  onTime : ∀ turn ∈ run.turns, turn.OnTime
  quiet : Quiet run.turns
  spares : ∀ turn ∈ run.turns, turn.result.isOk = false → turn.Spares

theorem joined_cons (turn : MembershipTurn) (turns : List MembershipTurn) :
    Joined (turn :: turns) ↔ turn.joins = true ∨ turn.leaves = false ∧ Joined turns := by
  constructor
  · rintro ⟨since, other, earlier, split, joins, stays⟩
    cases since with
    | nil =>
        obtain ⟨rfl, _⟩ := List.cons.inj split
        exact Or.inl joins
    | cons newest rest =>
        obtain ⟨rfl, rfl⟩ := List.cons.inj split
        exact Or.inr ⟨stays turn List.mem_cons_self, rest, other, earlier, rfl, joins,
          fun later member => stays later (List.mem_cons_of_mem turn member)⟩
  · rintro (joins | ⟨stays, since, other, earlier, rfl, joins, kept⟩)
    · exact ⟨[], turn, turns, rfl, joins, List.forall_mem_nil _⟩
    · refine ⟨turn :: since, other, earlier, rfl, joins, ?_⟩
      rintro later member
      rcases List.mem_cons.mp member with rfl | before
      · exact stays
      · exact kept later before

/-- A loop was told to stop, and none was started since. -/
def Resting (turns : List MembershipTurn) : Prop :=
  ∃ since turn earlier, turns = since ++ turn :: earlier ∧ turn.ends = true ∧
    ∀ later ∈ since, later.begins = false

theorem resting_cons (turn : MembershipTurn) (turns : List MembershipTurn)
    (resting : Resting (turn :: turns)) :
    turn.ends = true ∨ turn.begins = false ∧ Resting turns := by
  obtain ⟨since, other, earlier, split, ends, kept⟩ := resting
  cases since with
  | nil =>
      obtain ⟨rfl, _⟩ := List.cons.inj split
      exact Or.inl ends
  | cons newest rest =>
      obtain ⟨rfl, rfl⟩ := List.cons.inj split
      exact Or.inr ⟨kept turn List.mem_cons_self, rest, other, earlier, rfl, ends,
        fun later member => kept later (List.mem_cons_of_mem turn member)⟩

/-- The newest loop is the one that the membership knows, and no older one runs. -/
def Known (membership : Membership) : List Tenure → Prop
  | [] => membership.loop = none
  | newest :: older => newest = ⟨membership.loop.isSome, membership.feed⟩ ∧
      ∀ tenure ∈ older, tenure.running = false ∧ ∀ feed ∈ tenure.feed, feed.isOpen = false

theorem Known.none_runs {membership : Membership} {tenures : List Tenure}
    (known : Known membership tenures) (sound : membership.Sound) (idle : membership.loop = none) :
    ∀ tenure ∈ tenures, tenure.running = false ∧ ∀ feed ∈ tenure.feed, feed.isOpen = false := by
  cases tenures with
  | nil => exact List.forall_mem_nil _
  | cons newest older =>
      rintro tenure member
      rcases List.mem_cons.mp member with rfl | before
      · rw [known.1, idle]
        exact ⟨rfl, fun feed held => by rw [sound.feed feed held, idle]; rfl⟩
      · exact known.2 tenure before

theorem known_after (turn : MembershipTurn) (tenures : List Tenure)
    (known : Known turn.before tenures) (sound : turn.before.Sound) (lawful : turn.Lawful) :
    Known turn.after (turn.tenures tenures) := by
  unfold MembershipTurn.tenures
  split
  next begins => exact ⟨rfl, known.none_runs sound (lawful.begun begins)⟩
  next other =>
    cases tenures with
    | nil => exact lawful.idle (Bool.eq_false_iff.mpr other) known
    | cons newest older => exact ⟨rfl, known.2⟩

theorem length_tenures (turn : MembershipTurn) (tenures : List Tenure) :
    (turn.tenures tenures).length = tenures.length + if turn.begins then 1 else 0 := by
  unfold MembershipTurn.tenures
  split
  next begins => simp
  next => cases tenures <;> simp

theorem dueBeats_ends (turn : MembershipTurn) (ends : turn.ends = true) : turn.dueBeats = 0 := by
  obtain ⟨command, clock, result, calls, before, after⟩ := turn
  cases command <;> first | rfl | cases ends

theorem dueBeats_idle (turn : MembershipTurn) (other : turn.begins = false)
    (idle : turn.before.loop = none) : turn.dueBeats = 0 := by
  unfold MembershipTurn.dueBeats
  split
  next => simp [idle]
  next => simp [other]

theorem silent (turn : MembershipTurn) (onTime : turn.OnTime) (nothing : turn.dueBeats = 0) :
    turn.calls.filter Call.isBeat = [] := by
  rw [onTime, nothing, List.replicate_zero]

/-- A node does not join and leave in one turn. -/
theorem outside_iff (turn : MembershipTurn) (joined : Prop) :
    turn.leaves = true ∨ turn.joins = false ∧ ¬ joined ↔
      ¬ (turn.joins = true ∨ turn.leaves = false ∧ joined) := by
  have apart : turn.joins = true → turn.leaves = false := by
    intro joins
    have registers : turn.command = .register := by
      simpa [MembershipTurn.joins] using (Bool.and_eq_true_iff.mp joins).1
    simp [MembershipTurn.leaves, registers]
  cases joins : turn.joins with
  | false => cases turn.leaves <;> simp
  | true => simp [apart joins]

structure Tracked (run : MembershipRun σ) : Prop where
  sound : run.membership.Sound
  known : Known run.membership run.tenures
  started : run.tenures.length = (run.turns.filter (·.begins)).length
  outside : run.membership.phase = .unregistered ↔ ¬ Joined run.turns
  onTime : ∀ turn ∈ run.turns, turn.OnTime
  resting : Resting run.turns → run.membership.loop = none
  quiet : Quiet run.turns
  spares : ∀ turn ∈ run.turns, turn.result.isOk = false → turn.Spares

theorem start_tracked (clock : Clock) (far : σ) (node : String) (labels : Labels) :
    (start clock far node labels).Tracked := by
  constructor
  case sound => exact ⟨⟨nofun, nofun⟩, nofun⟩
  case known => rfl
  case started => rfl
  case outside => simp [start, Membership.ofNode, Joined]
  case onTime => exact List.forall_mem_nil _
  case resting => exact fun _ => rfl
  case quiet =>
    rintro since turn earlier split
    simp [start] at split
  case spares => exact List.forall_mem_nil _

theorem Tracked.quiet_cons {run : MembershipRun σ} (tracked : run.Tracked) (turn : MembershipTurn)
    (before : turn.before = run.membership) (onTime : turn.OnTime) :
    Quiet (turn :: run.turns) := by
  rintro since other earlier split ends kept
  cases since with
  | nil =>
      obtain ⟨rfl, _⟩ := List.cons.inj split
      rintro later member
      cases List.mem_singleton.mp member
      exact silent _ onTime (dueBeats_ends _ ends)
  | cons newest rest =>
      obtain ⟨rfl, same⟩ := List.cons.inj split
      have keptBefore : ∀ later ∈ rest, later.begins = false :=
        fun later member => kept later (List.mem_cons_of_mem turn member)
      have idle := tracked.resting ⟨rest, other, earlier, same, ends, keptBefore⟩
      have last := dueBeats_idle turn (kept turn List.mem_cons_self) (before ▸ idle)
      rintro later member
      rcases List.mem_cons.mp member with rfl | among
      · exact tracked.quiet rest _ earlier same ends keptBefore _ List.mem_cons_self
      · rcases List.mem_cons.mp among with rfl | earlierStill
        · exact silent _ onTime last
        · exact tracked.quiet rest other earlier same ends keptBefore later
            (List.mem_cons_of_mem other earlierStill)

theorem perform_tracked [Link σ] (run : MembershipRun σ) (command : MembershipCommand)
    (tracked : run.Tracked) : (run.perform command).Tracked := by
  have lawful := Membership.turn_lawful tracked.sound (command.clock run.clock) run.far command
  constructor
  case sound => exact lawful.sound
  case known => exact known_after _ _ tracked.known tracked.sound lawful
  case started =>
    simp only [perform, length_tenures, List.filter_cons, tracked.started]
    split <;> rfl
  case outside =>
    change (run.membership.turn _ _ command).after.phase = _ ↔ ¬ Joined (_ :: run.turns)
    rw [lawful.outside, joined_cons]
    change _ ∨ _ ∧ run.membership.phase = .unregistered ↔ _
    rw [tracked.outside]
    exact outside_iff _ (Joined run.turns)
  case onTime => exact List.forall_mem_cons.mpr ⟨lawful.onTime, tracked.onTime⟩
  case resting =>
    intro resting
    rcases resting_cons _ _ resting with ends | ⟨other, before⟩
    · exact lawful.ended ends
    · exact lawful.idle other (tracked.resting before)
  case quiet => exact tracked.quiet_cons _ rfl lawful.onTime
  case spares => exact List.forall_mem_cons.mpr ⟨lawful.spares, tracked.spares⟩

theorem after_tracked [Link σ] (run : MembershipRun σ) (commands : List MembershipCommand)
    (tracked : run.Tracked) : (run.after commands).Tracked := by
  induction commands generalizing run with
  | nil => exact tracked
  | cons command rest ih => exact ih _ (run.perform_tracked command tracked)

theorem Known.single {membership : Membership} {tenures : List Tenure}
    (known : Known membership tenures) :
    (tenures.filter (·.running)).length = if membership.loop.isSome then 1 else 0 := by
  cases tenures with
  | nil => rw [show membership.loop = none from known]; rfl
  | cons newest older =>
      have rest : older.filter (·.running) = [] :=
        List.filter_eq_nil_iff.mpr fun tenure member => by simp [(known.2 tenure member).1]
      rw [List.filter_cons, rest, known.1]
      split <;> rfl

theorem Known.feeds {membership : Membership} {tenures : List Tenure}
    (known : Known membership tenures) (sound : membership.Sound) :
    ∀ tenure ∈ tenures, ∀ feed ∈ tenure.feed, feed.isOpen = tenure.running := by
  cases tenures with
  | nil => exact List.forall_mem_nil _
  | cons newest older =>
      rintro tenure member
      rcases List.mem_cons.mp member with rfl | before
      · rw [known.1]
        exact sound.feed
      · rw [(known.2 tenure before).1]
        exact (known.2 tenure before).2

/-- A membership keeps its affairs in order, whatever is asked of it and whatever the master
answers. -/
theorem lifecycle_orderly [Link σ] (clock : Clock) (far : σ) (node : String) (labels : Labels)
    (commands : List MembershipCommand) :
    ((start clock far node labels).after commands).Orderly := by
  have tracked := after_tracked _ commands (start_tracked clock far node labels)
  constructor
  case beating => exact tracked.sound.beating
  case single =>
    rw [tracked.known.single]
    exact if_congr tracked.sound.beating rfl rfl
  case started => exact tracked.started
  case feeds => exact tracked.known.feeds tracked.sound
  case outside => exact tracked.outside
  case onTime => exact tracked.onTime
  case quiet => exact tracked.quiet
  case spares => exact tracked.spares

/-- Loops are started too early, twice and again, and the master fails every heartbeat and cannot be
told that the node leaves. -/
def troubledCommands : List MembershipCommand :=
  [.startBeating 10, .register, .startBeating 10, .startBeating 5, .advance 25 0, .stopBeating,
    .advance 10 0, .startBeating 5, .advance 5 0, .deregister, .advance 5 0]

theorem lifecycle_orderly_troubled :
    let run := (start ⟨0, 0⟩ (⟨[], [.heartbeat, .deregister], []⟩ : ScriptedMaster) "node" []).after
      troubledCommands
    run.Orderly ∧ run.membership.phase = .registered ∧
      run.tenures.map (·.running) = [false, false] ∧
      run.turns.reverse.map (fun turn =>
        (turn.result, (turn.calls.filter Call.isBeat).length)) =
        [(.error .notRegistered, 0), (.ok (), 0), (.ok (), 1), (.error .heartbeatActive, 0),
          (.ok (), 2), (.ok (), 0), (.ok (), 0), (.ok (), 1), (.ok (), 1),
          (.error (.transport "scripted outage"), 0), (.ok (), 0)] := by
  intro run
  exact ⟨lifecycle_orderly _ _ _ _ troubledCommands, by decide +kernel, by decide +kernel,
    by decide +kernel⟩

end MembershipRun

end FaultInjection
