import FaultInjection.Http.Watch
import FaultInjection.Proofs.Master.Stream

/-!
Those who receive the events of a master, at their own pace. A receiver that was never late gets
every event, in its order.
-/

namespace FaultInjection

structure Receiver where
  /-- How many events were received or lost. -/
  position : Nat
  received : List Event
  late : Bool

namespace Receiver

/-- A receiver of all that is announced from now on. -/
def ofMaster (master : Master) : Receiver := ⟨master.history.length, [], false⟩

/-- Receives the next event. A receiver that waited for too long finds that the oldest events are
not kept any more. -/
def receive (receiver : Receiver) (master : Master) : Receiver :=
  if receiver.position + Watcher.retention < master.history.length then
    { receiver with position := master.history.length - Watcher.retention, late := true }
  else match master.eventsSince receiver.position with
    | [] => receiver
    | event :: _ =>
        { receiver with
          position := receiver.position + 1, received := receiver.received ++ [event] }

end Receiver

structure Subscription where
  master : Master
  receiver : Receiver

namespace Subscription

inductive Step where
  | operate (operation : Operation)
  | receive

def start (master : Master) : Subscription := ⟨master, .ofMaster master⟩

def take (subscription : Subscription) : Step → Subscription
  | .operate operation =>
      { subscription with master := (subscription.master.perform operation).master }
  | .receive =>
      { subscription with receiver := subscription.receiver.receive subscription.master }

def after (subscription : Subscription) (steps : List Step) : Subscription :=
  steps.foldl take subscription

def operations (steps : List Step) : List Operation :=
  steps.filterMap fun step => match step with
    | .operate operation => some operation
    | .receive => none

/-- What was received, and then what is yet to be received. -/
def stream (subscription : Subscription) : List Event :=
  subscription.receiver.received ++
    subscription.master.eventsSince subscription.receiver.position

end Subscription

namespace Master

theorem eventsSince_eq (master : Master) (count : Nat) :
    master.eventsSince count = master.history.reverse.drop count := by
  rw [eventsSince, List.reverse_take]
  by_cases within : count ≤ master.history.length
  · congr 1
    omega
  · rw [List.drop_eq_nil_of_le, List.drop_eq_nil_of_le] <;> simp <;> omega

theorem eventsSince_eq_nil_iff (master : Master) (count : Nat) :
    master.eventsSince count = [] ↔ master.history.length ≤ count := by
  rw [eventsSince_eq, List.drop_eq_nil_iff, List.length_reverse]

theorem eventsSince_cons (master : Master) (count : Nat) (event : Event) (rest : List Event)
    (next : master.eventsSince count = event :: rest) :
    count < master.history.length ∧ master.eventsSince (count + 1) = rest := by
  constructor
  · by_contra past
    rw [(master.eventsSince_eq_nil_iff count).mpr (Nat.le_of_not_lt past)] at next
    cases next
  · rw [eventsSince_eq] at next ⊢
    rw [← List.drop_drop, next]
    rfl

theorem perform_grows (master : Master) (operation : Operation) :
    ∃ events, (master.perform operation).master.history = events ++ master.history := by
  rcases master.perform_cases operation with ⟨change, failure, _, _, tells⟩ | ⟨_, same, _⟩
  · exact ⟨[⟨change, failure⟩], tells.history⟩
  · exact ⟨[], same⟩

/-- An operation adds to what one has not received yet, at the end. -/
theorem perform_eventsSince (master : Master) (operation : Operation) :
    ∃ events, ∀ count ≤ master.history.length,
      (master.perform operation).master.eventsSince count =
        master.eventsSince count ++ events := by
  obtain ⟨events, history⟩ := master.perform_grows operation
  refine ⟨events.reverse, fun count early => ?_⟩
  rw [eventsSince_eq, eventsSince_eq, history, List.reverse_append,
    List.drop_append_of_le_length (by simpa using early)]

end Master

theorem Receiver.receive_next (receiver : Receiver) (master : Master) (event : Event)
    (rest : List Event) (next : master.eventsSince receiver.position = event :: rest)
    (recent : master.history.length ≤ receiver.position + Watcher.retention) :
    receiver.receive master =
      { receiver with
        position := receiver.position + 1, received := receiver.received ++ [event] } := by
  rw [receive, if_neg (Nat.not_lt.mpr recent), next]

namespace Subscription

theorem after_master (subscription : Subscription) (steps : List Step) :
    (subscription.after steps).master = subscription.master.after (operations steps) := by
  induction steps generalizing subscription with
  | nil => rfl
  | cons step rest ih =>
      cases step with
      | operate operation => exact ih _
      | receive => exact ih _

/-- A receiver that has lost nothing stands where the events that it received end. -/
structure Attentive (count : Nat) (subscription : Subscription) : Prop where
  within : subscription.receiver.position ≤ subscription.master.history.length
  stream : subscription.receiver.late = false →
    subscription.stream = subscription.master.eventsSince count

theorem take_attentive (count : Nat) (subscription : Subscription) (step : Step)
    (early : count ≤ subscription.master.history.length)
    (attentive : subscription.Attentive count) : (subscription.take step).Attentive count := by
  obtain ⟨master, receiver⟩ := subscription
  obtain ⟨within, whole⟩ := attentive
  cases step with
  | operate operation =>
      constructor
      · obtain ⟨events, history⟩ := master.perform_grows operation
        simp only [take, history, List.length_append] at within ⊢
        omega
      · intro kept
        obtain ⟨events, grown⟩ := master.perform_eventsSince operation
        have before := whole kept
        -- what is yet to be received grows at its end
        simp only [stream, take] at before early within ⊢
        rw [grown receiver.position within, grown count early, ← before, List.append_assoc]
  | receive =>
      simp only [take, Receiver.receive]
      split
      next lost => exact ⟨by simp, fun kept => by cases kept⟩
      next =>
        split
        next => exact ⟨within, whole⟩
        next event rest next =>
          obtain ⟨position, later⟩ := master.eventsSince_cons _ event rest next
          refine ⟨position, fun kept => ?_⟩
          rw [← whole kept]
          -- the first event yet to be received becomes the last one that was
          simp only [stream, next, later]
          simp

theorem after_attentive (count : Nat) (subscription : Subscription) (steps : List Step)
    (early : count ≤ subscription.master.history.length)
    (attentive : subscription.Attentive count) :
    (subscription.after steps).Attentive count := by
  induction steps generalizing subscription with
  | nil => exact attentive
  | cons step rest ih =>
      refine ih (subscription.take step) ?_ (subscription.take_attentive count step early attentive)
      cases step with
      | receive => exact early
      | operate operation =>
          obtain ⟨events, history⟩ := subscription.master.perform_grows operation
          simp only [take, history, List.length_append]
          omega

/-- After as many receptions as there are events left, all of them have been received. -/
theorem after_receives (subscription : Subscription) (lacking : Nat)
    (left : subscription.master.history.length = subscription.receiver.position + lacking)
    (recent : lacking ≤ Watcher.retention) :
    (subscription.after (.replicate lacking .receive)).receiver.received =
      subscription.stream := by
  induction lacking generalizing subscription with
  | zero =>
      have none : subscription.master.eventsSince subscription.receiver.position = [] :=
        (subscription.master.eventsSince_eq_nil_iff _).mpr left.le
      rw [stream, none, List.append_nil]
      rfl
  | succ lacking ih =>
      obtain ⟨master, receiver⟩ := subscription
      dsimp only at left
      have waits : master.eventsSince receiver.position ≠ [] := fun none => by
        have := (master.eventsSince_eq_nil_iff _).mp none
        omega
      obtain ⟨event, rest, next⟩ := List.exists_cons_of_ne_nil waits
      have later := (master.eventsSince_cons _ event rest next).2
      have received := receiver.receive_next master event rest next (by omega)
      refine (ih (take ⟨master, receiver⟩ .receive) ?_ (Nat.le_of_succ_le recent)).trans ?_
      · simp only [take, received]
        omega
      · simp [stream, take, received, next, later]

/-- A receiver that was never late gets the events of the operations since it came, in their order,
and they lead from the contents of the ledger at that time to its contents now. What it has received
is all of them once it lacks none, and as many receptions as it lacks events bring it there, as long
as they are kept for it. -/
theorem stream_complete (policy : LivenessPolicy) (earlier : List Operation) (steps : List Step)
    (kept : ((start ((Master.empty policy).after earlier)).after steps).receiver.late = false) :
    let before := (Master.empty policy).after earlier
    let subscription := (start before).after steps
    subscription.master = before.after (operations steps) ∧
      Announced before (operations steps) subscription.stream ∧
      before.contents.replay subscription.stream = subscription.master.contents ∧
      (subscription.receiver.position = subscription.master.history.length →
        subscription.receiver.received = subscription.stream) ∧
      ∀ lacking, subscription.master.history.length = subscription.receiver.position + lacking →
        lacking ≤ Watcher.retention →
        (subscription.after (.replicate lacking .receive)).receiver.received =
          subscription.stream := by
  intro before subscription
  have sound : before.ledger.Sound := Master.after_ledger_sound _ earlier Ledger.empty_sound
  have master : subscription.master = before.after (operations steps) := after_master _ steps
  have whole : subscription.stream = subscription.master.eventsSince before.history.length := by
    refine (after_attentive _ (start before) steps (Nat.le_refl _) ⟨Nat.le_refl _, ?_⟩).stream kept
    exact fun _ => List.nil_append _
  obtain ⟨events, announced, history, replayed⟩ := before.after_announced (operations steps) sound
  have same : subscription.stream = events := by
    rw [whole, master, Master.eventsSince_eq, history]
    simp
  refine ⟨master, same ▸ announced, ?_, ?_, subscription.after_receives⟩
  · rw [same, master]
    exact replayed
  · intro caughtUp
    exact subscription.after_receives 0 caughtUp.symm (Nat.zero_le _)

/-- Some changes of one failure, and some operations that are not told: a report that repeats what
is known, an update of nothing, a second failure of the same name, a call and a sweep. -/
def sharedSteps : List Step :=
  [.operate (.request (.apply "node" "shared")), .receive,
    .operate (.call 0 (.report "node" ⟨"shared", "node", "", 1, 0, 0⟩)),
    .operate (.call 0 (.report "node" ⟨"shared", "node", "", 1, 0, 0⟩)),
    .operate (.request (.update "node" "shared" none none)),
    .operate (.request (.create "node" "shared" .empty .enabled)),
    .operate (.call 0 (.heartbeat ⟨"node", 0⟩)), .operate (.sweep 0),
    .operate (.expect "node" "shared" .unknown), .receive, .receive,
    .operate (.request (.delete "node" "shared")),
    .operate (.request (.create "node" "shared" .empty .enabled)), .receive]

theorem stream_complete_shared :
    let before := (Master.empty .standard).after
      [.call 0 (.register ⟨"node", []⟩),
        .request (.create "node" "shared" .empty .disabled)]
    let subscription := (start before).after sharedSteps
    subscription.receiver.late = false ∧
      subscription.stream.map (·.change) = [.updated, .updated, .deleted, .created] ∧
      Announced before (operations sharedSteps) subscription.stream ∧
      before.contents.replay subscription.stream = subscription.master.contents ∧
      subscription.receiver.received.length = 3 ∧
      (subscription.after [.receive]).receiver.received = subscription.stream := by
  intro before subscription
  have kept : subscription.receiver.late = false := by decide +kernel
  have complete := stream_complete .standard [.call 0 (.register ⟨"node", []⟩),
    .request (.create "node" "shared" .empty .disabled)] sharedSteps kept
  exact ⟨kept, by decide +kernel, complete.2.1, complete.2.2.1, by decide +kernel,
    complete.2.2.2.2 1 (by decide +kernel) (by decide)⟩

end Subscription

end FaultInjection
