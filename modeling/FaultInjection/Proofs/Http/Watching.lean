import FaultInjection.Proofs.Http.Watcher

/-!
Watchers and the master that they watch, step by step: the master goes on, the watcher takes up what
comes next, and its client reads. As long as no node comes or goes and the watcher is not late, the
client is told all that there is to tell.
-/

namespace FaultInjection

namespace Watcher

def pending (watcher : Watcher) (master : Master) : List Event :=
  Event.creations watcher.snapshot ++
    (master.eventsSince watcher.position).filter (watcher.concerns master)

/-- The filter of the events lets pass what is listed. -/
theorem concerns_eq (watcher : Watcher) (master : Master) (event : Event) :
    watcher.concerns master event = master.admits watcher.selector event.failure.node := by
  unfold concerns Master.admits Master.getNode Roster.labels?
  cases master.roster.get? event.failure.node <;> rfl

theorem pending_eq (watcher : Watcher) (master : Master) :
    watcher.pending master = Event.creations watcher.snapshot ++
      (master.eventsSince watcher.position).filter fun event =>
        master.admits watcher.selector event.failure.node := by
  rw [pending, funext fun event => watcher.concerns_eq master event]

section

variable (watcher : Watcher) (master : Master)

theorem next_kept : (watcher.next master).2.selector = watcher.selector ∧
    (watcher.next master).2.waiting = watcher.waiting := by
  unfold next
  split
  · exact ⟨rfl, rfl⟩
  · dsimp only
    split <;> exact ⟨rfl, rfl⟩

theorem next_within (within : watcher.position ≤ master.history.length) :
    watcher.position ≤ (watcher.next master).2.position ∧
      (watcher.next master).2.position ≤ master.history.length := by
  have late : watcher.position ≤ (watcher.catchUp master).position ∧
      (watcher.catchUp master).position ≤ master.history.length := by
    simp only [catchUp]
    omega
  unfold next
  split
  · exact ⟨Nat.le_refl _, within⟩
  · dsimp only
    split
    · exact late
    next event rest found =>
      have := (master.eventsSince_cons _ event rest found).1
      exact ⟨Nat.le_succ_of_le late.1, this⟩

/-- What is taken up is no longer to be passed on, and the rest is. -/
theorem next_pending (punctual : ¬ watcher.IsLate master) :
    watcher.pending master =
      (watcher.next master).1.toList ++ (watcher.next master).2.pending master := by
  cases snapshot : watcher.snapshot with
  | cons failure rest =>
      simp only [pending, next, snapshot, Event.creations, List.map_cons]
      rfl
  | nil =>
      cases found : master.eventsSince watcher.position with
      | nil => rw [watcher.next_nothing master snapshot punctual found, Option.toList_none,
          List.nil_append]
      | cons event rest =>
          have behind := (master.eventsSince_cons _ event rest found).2
          rw [watcher.next_event master event rest snapshot punctual found]
          simp only [pending, snapshot, found, behind, List.filter_cons, Event.creations]
          split <;> rfl

theorem pending_nil (nothing : watcher.left master = 0) : watcher.pending master = [] := by
  unfold left at nothing
  have started : watcher.snapshot = [] := List.eq_nil_of_length_eq_zero (by omega)
  have behind : master.eventsSince watcher.position = [] := by
    rw [Master.eventsSince_eq_nil_iff]
    omega
  rw [pending, started, behind]
  rfl

end

end Watcher

def Specification.HasJson (specification : Specification) : Prop := specification.json.isOk = true

instance (specification : Specification) : Decidable specification.HasJson :=
  inferInstanceAs (Decidable (_ = true))

/-- A text that tells what has become of a failure, with the JSON form of the failure. -/
def Watcher.Carries (event : Event) (text : String) : Prop :=
  ∃ failure, event.failure.json = .ok failure ∧
    text = "event: " ++ event.change.text ++ "\ndata: " ++
      (Json.object [("type", .string event.change.text), ("failure", failure)]).text ++ "\n\n"

theorem Watcher.eventText?_hasJson (event : Event)
    (hasJson : event.failure.specification.HasJson) : (eventText? event).isSome = true := by
  unfold Specification.HasJson at hasJson
  cases told : event.failure.specification.json with
  | ok json => simp [eventText?, Event.json, Failure.json, told, Except.map]
  | error fault =>
      rw [told] at hasJson
      cases hasJson

theorem Watcher.eventText?_carries (event : Event) (text : String)
    (sent : eventText? event = some text) : Carries event text := by
  unfold eventText? at sent
  split at sent
  next json told =>
    obtain ⟨failure, form, rfl⟩ := (map_eq_ok _ _ _).mp told
    exact ⟨failure, form, (Option.some.inj sent).symm⟩
  next => cases sent

/-- Events that all have a text are sent one by one. -/
theorem Watcher.texts_carry (events : List Event)
    (told : ∀ event ∈ events, (eventText? event).isSome = true) :
    List.Forall₂ Carries events (events.filterMap eventText?) := by
  induction events with
  | nil => exact .nil
  | cons event rest ih =>
      obtain ⟨first, others⟩ := List.forall_mem_cons.mp told
      obtain ⟨text, sent⟩ := Option.isSome_iff_exists.mp first
      rw [List.filterMap_cons_some sent]
      exact .cons (eventText?_carries event text sent) (ih others)

structure Watching where
  master : Master
  watcher : Watcher
  /-- The events that were passed on, oldest first. -/
  told : List Event
  read : List String
  /-- Whether events were lost before the watcher took them up. -/
  late : Bool

namespace Watching

inductive Step where
  | operate (operation : Operation)
  | forward
  | read

/-- A watcher that subscribes to the events of a master, and some operations later gets the list of
what there is. -/
def start (before : Master) (between : List Operation) (selector : Selector) (now : Nat) :
    Watching :=
  let master := before.after between
  let watcher := { Watcher.start master selector now with position := before.history.length }
  ⟨master, watcher, [], [], decide (watcher.IsLate master)⟩

def take (watching : Watching) : Step → Watching
  | .operate operation =>
      let master := (watching.master.perform operation).master
      { watching with master, late := watching.late || decide (watching.watcher.IsLate master) }
  | .forward =>
      { watching with
        watcher := watching.watcher.forward watching.master
        told := watching.told ++
          if watching.watcher.hasRoom then (watching.watcher.next watching.master).1.toList
          else [] }
  | .read =>
      { watching with
        watcher := { watching.watcher with waiting := [] }
        read := watching.read ++ watching.watcher.waiting }

def after (watching : Watching) (steps : List Step) : Watching := steps.foldl take watching

def operations (steps : List Step) : List Operation :=
  steps.filterMap fun step => match step with
    | .operate operation => some operation
    | .forward | .read => none

/-- What was passed on, and then what is yet to be passed on. -/
def stream (watching : Watching) : List Event :=
  watching.told ++ watching.watcher.pending watching.master

/-- A watcher that was not late passes on the list that it got, and then the events on the nodes
that the selector admits. -/
structure Follows (before : Master) (selector : Selector) (listed : List Failure)
    (watching : Watching) : Prop where
  selects : watching.watcher.selector = selector
  labels : watching.master.roster.labels? = before.roster.labels?
  early : before.history.length ≤ watching.master.history.length
  within : watching.watcher.position ≤ watching.master.history.length
  texts : watching.read ++ watching.watcher.waiting =
    watching.told.filterMap Watcher.eventText?
  punctual : watching.late = false → ¬ watching.watcher.IsLate watching.master
  stream : watching.late = false → watching.stream = Event.creations listed ++
    (watching.master.eventsSince before.history.length).filter fun event =>
      before.admits selector event.failure.node

namespace Follows

variable {before : Master} {selector : Selector} {listed : List Failure} {watching : Watching}

theorem operate (follows : watching.Follows before selector listed) (operation : Operation)
    (keeps : operation.keepsNodes watching.master = true) :
    (watching.take (.operate operation)).Follows before selector listed := by
  obtain ⟨master, watcher, told, read, late⟩ := watching
  obtain ⟨events, history⟩ := master.perform_grows operation
  obtain ⟨new, grown⟩ := master.perform_eventsSince operation
  have labels := (master.perform_labels operation keeps).trans follows.labels
  have longer : master.history.length ≤ (master.perform operation).master.history.length := by
    rw [history, List.length_append]
    omega
  refine ⟨follows.selects, labels, follows.early.trans longer, follows.within.trans longer,
    follows.texts, ?punctual, ?stream⟩
  case punctual =>
    intro kept
    exact of_decide_eq_false (Bool.or_eq_false_iff.mp kept).2
  case stream =>
    intro kept
    have before := follows.stream (Bool.or_eq_false_iff.mp kept).1
    have within := follows.within
    have early := follows.early
    have same := Master.admits_congr master (master.perform operation).master watcher.selector
      (master.perform_labels operation keeps).symm
    have admitted := Master.admits_congr master _ watcher.selector follows.labels
    have selected := follows.selects
    simp only [Watching.stream, take, Watcher.pending_eq] at before early within admitted selected ⊢
    -- what is yet to be passed on grows at its end
    rw [grown _ within, grown _ early, ← same, List.filter_append, List.filter_append,
      ← List.append_assoc, ← List.append_assoc, ← List.append_assoc, ← before, admitted, selected]
    simp only [List.append_assoc]

theorem forward (follows : watching.Follows before selector listed) :
    (watching.take .forward).Follows before selector listed := by
  obtain ⟨master, watcher, told, read, late⟩ := watching
  by_cases room : watcher.hasRoom = true
  · obtain ⟨selector, waiting⟩ := watcher.next_kept master
    obtain ⟨behind, within⟩ := watcher.next_within master follows.within
    simp only [take, Watcher.forward, room, ↓reduceIte]
    refine ⟨selector.trans follows.selects, follows.labels, follows.early, within, ?texts,
      ?punctual, ?stream⟩
    case texts =>
      have texts := follows.texts
      simp only [Watcher.offer, waiting, List.filterMap_append] at texts ⊢
      rw [← List.append_assoc, texts]
      cases (watcher.next master).1 <;> rfl
    case punctual =>
      intro kept
      have recent := follows.punctual kept
      simp only [Watcher.IsLate, Watcher.offer] at recent ⊢
      omega
    case stream =>
      intro kept
      rw [← follows.stream kept]
      simp only [Watching.stream]
      rw [watcher.next_pending master (follows.punctual kept), ← List.append_assoc]
      rfl
  · have same : take ⟨master, watcher, told, read, late⟩ .forward =
        ⟨master, watcher, told, read, late⟩ := by
      simp [take, watcher.forward_full master room, room]
    rw [same]
    exact follows

theorem read (follows : watching.Follows before selector listed) :
    (watching.take .read).Follows before selector listed := by
  refine ⟨follows.selects, follows.labels, follows.early, follows.within, ?texts,
    follows.punctual, follows.stream⟩
  have texts := follows.texts
  simpa [take] using texts

theorem after (follows : watching.Follows before selector listed) (steps : List Step)
    (keeps : watching.master.keepsNodes (operations steps) = true) :
    (watching.after steps).Follows before selector listed := by
  induction steps generalizing watching with
  | nil => exact follows
  | cons step rest ih =>
      cases step with
      | operate operation =>
          obtain ⟨first, others⟩ := Bool.and_eq_true_iff.mp keeps
          exact ih (follows.operate operation first) others
      | forward => exact ih follows.forward keeps
      | read => exact ih follows.read keeps

end Follows

theorem start_follows (before : Master) (between : List Operation) (selector : Selector) (now : Nat)
    (sound : before.ledger.Sound) (keeps : before.keepsNodes between = true) :
    (start before between selector now).Follows before selector
      ((before.after between).listFailures selector) := by
  obtain ⟨events, _, history, _⟩ := before.after_announced between sound
  have labels := before.after_labels between keeps
  have longer : before.history.length ≤ (before.after between).history.length := by
    rw [history, List.length_append]
    omega
  refine ⟨rfl, labels, longer, longer, rfl, of_decide_eq_false, fun _ => ?_⟩
  rw [stream, Watcher.pending_eq]
  have admitted := Master.admits_congr _ _ selector labels
  simp only [start, Watcher.start, List.nil_append, admitted]

theorem after_master (watching : Watching) (steps : List Step) :
    (watching.after steps).master = watching.master.after (operations steps) := by
  induction steps generalizing watching with
  | nil => rfl
  | cons step rest ih =>
      cases step with
      | operate operation => exact ih _
      | forward => exact ih _
      | read => exact ih _

/-- Without operations the master stays as it is, and so the watcher is not late. -/
theorem after_idle (watching : Watching) (steps : List Step) (idle : operations steps = []) :
    (watching.after steps).master = watching.master ∧
      (watching.after steps).late = watching.late := by
  induction steps generalizing watching with
  | nil => exact ⟨rfl, rfl⟩
  | cons step rest ih =>
      cases step with
      | operate operation => cases idle
      | forward => exact ih _ idle
      | read => exact ih _ idle

theorem after_forwards (watching : Watching) (rounds : Nat) :
    operations (.replicate rounds .forward) = [] ∧
      (watching.after (.replicate rounds .forward)).watcher =
        (Watcher.forward watching.master)^[rounds] watching.watcher ∧
      (watching.after (.replicate rounds .forward)).read = watching.read := by
  induction rounds generalizing watching with
  | zero => exact ⟨rfl, rfl, rfl⟩
  | succ rounds ih => exact ih (watching.take .forward)

/-- A client that reads all that can be read does so in some steps. -/
theorem after_readAll (watching : Watching) (rounds : Nat) :
    ∃ steps, operations steps = [] ∧
      (watching.after steps).watcher =
        (Watcher.readAll watching.master rounds watching.watcher).2 ∧
      (watching.after steps).read =
        watching.read ++ (Watcher.readAll watching.master rounds watching.watcher).1 := by
  induction rounds generalizing watching with
  | zero => exact ⟨[], rfl, rfl, (List.append_nil _).symm⟩
  | succ rounds ih =>
      obtain ⟨count, followed⟩ := watching.watcher.follow_forwards watching.master
      obtain ⟨idle, watcher, read⟩ := watching.after_forwards count
      obtain ⟨master, _⟩ := watching.after_idle _ idle
      rw [← followed] at watcher
      simp only [Watcher.readAll]
      split
      next => exact ⟨_, idle, watcher, by simp [read]⟩
      next =>
        obtain ⟨more, still, after, texts⟩ :=
          ih ((watching.after (.replicate count .forward)).take .read)
        have later : watching.after (.replicate count .forward ++ .read :: more) =
            ((watching.after (.replicate count .forward)).take .read).after more :=
          List.foldl_append
        simp only [take, master, watcher, read] at after texts later
        refine ⟨.replicate count .forward ++ .read :: more, ?_, ?_, ?_⟩
        · rw [operations, List.filterMap_append, ← operations, ← operations, idle]
          exact still
        · rw [later]
          exact after
        · rw [later, ← List.append_assoc]
          exact texts

/-- In the end the client has read all of the stream. -/
theorem Follows.read_up {before : Master} {selector : Selector} {listed : List Failure}
    {watching : Watching} (follows : watching.Follows before selector listed)
    (punctual : watching.late = false) (rounds : Nat)
    (enough : watching.watcher.left watching.master + 1 ≤ rounds) :
    watching.read ++ (Watcher.readAll watching.master rounds watching.watcher).1 =
      watching.stream.filterMap Watcher.eventText? := by
  obtain ⟨steps, idle, watcher, read⟩ := watching.after_readAll rounds
  obtain ⟨master, late⟩ := watching.after_idle steps idle
  obtain ⟨dry, silent⟩ := Watcher.readAll_dry watching.master watching.watcher rounds
    ((Nat.add_le_add_left (by split <;> omega) _).trans enough)
  have done := follows.after steps (by rw [idle]; rfl)
  have told : (watching.after steps).told = watching.stream := by
    have stream := done.stream (late.trans punctual)
    rw [Watching.stream, master, watcher, Watcher.pending_nil _ _ dry, List.append_nil] at stream
    rw [stream, follows.stream punctual]
  have texts := done.texts
  rw [watcher, silent, List.append_nil, told, read] at texts
  exact texts

/-- Whatever happens between the subscription and the list, and after it: if no node comes or goes
and the watcher is not late, then the client gets to read a text for each event of a stream that
leads to just what is listed for the selector. -/
theorem watch_has_no_gap (policy : LivenessPolicy) (earlier between : List Operation)
    (selector : Selector) (now : Nat) (steps : List Step)
    (keeps : ((Master.empty policy).after earlier).keepsNodes (between ++ operations steps) = true)
    (stored : ((Master.empty policy).after earlier).Stocks Specification.HasJson)
    (written : ∀ operation ∈ between ++ operations steps, ∀ specification ∈ operation.written?,
      specification.HasJson)
    (punctual : ((start ((Master.empty policy).after earlier) between selector now).after
      steps).late = false) :
    let before := (Master.empty policy).after earlier
    let watching := (start before between selector now).after steps
    watching.master = before.after (between ++ operations steps) ∧
      (Ledger.ofEvents watching.stream).list (fun _ => true) =
        watching.master.listFailures selector ∧
      List.Forall₂ Watcher.Carries watching.stream (watching.read ++
        (Watcher.readAll watching.master (watching.watcher.left watching.master + 2)
          watching.watcher).1) := by
  intro before watching
  have inOrder := (Master.empty policy).after_inOrder earlier (Master.empty_inOrder policy)
  have sound := (Master.empty policy).after_ledger_sound earlier Ledger.empty_sound
  obtain ⟨first, later⟩ := Bool.and_eq_true_iff.mp (before.keepsNodes_append _ _ ▸ keeps)
  have master : watching.master = before.after (between ++ operations steps) := by
    rw [Master.after_append]
    exact after_master _ steps
  have follows : watching.Follows before selector ((before.after between).listFailures selector) :=
    (start_follows before between selector now sound first).after steps later
  obtain ⟨events, announced, history, _⟩ :=
    before.after_announced (between ++ operations steps) sound
  have since : watching.master.eventsSince before.history.length = events := by
    rw [master, Master.eventsSince_eq, history]
    simp
  have stream := follows.stream punctual
  rw [since] at stream
  refine ⟨master, ?listed, ?read⟩
  case listed =>
    rw [stream, master]
    exact before.replay_listed between (operations steps) selector inOrder sound keeps events
      history
  case read =>
    rw [follows.read_up punctual _ (by omega)]
    apply Watcher.texts_carry
    intro event member
    rw [stream] at member
    apply Watcher.eventText?_hasJson
    rcases List.mem_append.mp member with listed | filtered
    · obtain ⟨failure, found, rfl⟩ := List.mem_map.mp listed
      refine (before.after between).listed_stocks selector (before.after_inOrder between inOrder)
        (before.after_ledger_sound between sound) ?_ failure found
      exact before.after_stocks between stored fun operation member _ _ =>
        written operation (List.mem_append_left _ member)
    · exact announced.stocks stored written event (List.mem_filter.mp filtered).1

def zoneSelector : Selector := ⟨[("zone", "a")]⟩

def zoneEarlier : List Operation :=
  [.call 0 (.register ⟨"node", [("zone", "a")]⟩),
    .request (.create "node" "kept" .empty .disabled),
    .request (.create "apart" "hidden" .empty .enabled)]

/-- A failure that comes and goes before there is a list of it. -/
def zoneBetween : List Operation :=
  [.request (.create "node" "brief" .empty .enabled),
    .request (.delete "node" "brief"), .request (.apply "node" "kept")]

def zoneSteps : List Step :=
  [.forward, .operate (.request (.create "node" "late" .empty .enabled)),
    .forward, .operate (.call 0 (.heartbeat ⟨"node", 0⟩)), .operate (.sweep 0), .forward, .read,
    .operate (.call 0 (.report "node" ⟨"late", "node", "", 1, 0, 0⟩)), .forward,
    .operate (.request (.delete "node" "kept")), .operate (.request (.apply "apart" "hidden"))]

/-- A watcher that reads while failures come and go, one of them on a node that is not known. -/
theorem watch_has_no_gap_zone :
    let before := (Master.empty .standard).after zoneEarlier
    let watching := (start before zoneBetween zoneSelector 0).after zoneSteps
    before.keepsNodes (zoneBetween ++ operations zoneSteps) = true ∧
      before.Stocks Specification.HasJson ∧
      (∀ operation ∈ zoneBetween ++ operations zoneSteps, ∀ specification ∈ operation.written?,
        specification.HasJson) ∧
      watching.late = false ∧
      watching.stream.map (fun event => (event.change, event.failure.id)) =
        [(.created, "kept"), (.created, "brief"), (.deleted, "brief"), (.updated, "kept"),
          (.created, "late"), (.updated, "late"), (.deleted, "kept")] ∧
      (Ledger.ofEvents watching.stream).list (fun _ => true) =
        watching.master.listFailures zoneSelector ∧
      List.Forall₂ Watcher.Carries watching.stream (watching.read ++
        (Watcher.readAll watching.master (watching.watcher.left watching.master + 2)
          watching.watcher).1) ∧
      watching.read.getLast? = some
        ("event: deleted\ndata: \x7b\"type\":\"deleted\",\"failure\":\x7b" ++
          "\"metadata\":\x7b\"id\":\"brief\",\"node_id\":\"node\"\x7d," ++
          "\"spec\":\x7b\"attacks\":[]\x7d,\"status\":\x7b\"current_state\":\"unknown\"," ++
          "\"expected_state\":\"enabled\",\"generation\":0\x7d\x7d\x7d\n\n") := by
  intro before watching
  have keeps : before.keepsNodes (zoneBetween ++ operations zoneSteps) = true := by decide +kernel
  have stored : before.Stocks Specification.HasJson := by
    have written : ∀ operation ∈ zoneEarlier, ∀ specification ∈ operation.written?,
        specification.HasJson := by decide +kernel
    exact (Master.empty .standard).after_stocks zoneEarlier (Master.empty_stocks .standard)
      fun operation member _ _ => written operation member
  have written : ∀ operation ∈ zoneBetween ++ operations zoneSteps,
      ∀ specification ∈ operation.written?, specification.HasJson := by decide +kernel
  have punctual : watching.late = false := by decide +kernel
  have complete := watch_has_no_gap .standard zoneEarlier zoneBetween zoneSelector 0 zoneSteps keeps
    stored written punctual
  exact ⟨keeps, stored, written, punctual, by decide +kernel, complete.2.1, complete.2.2,
    by decide +kernel⟩

end Watching

end FaultInjection
