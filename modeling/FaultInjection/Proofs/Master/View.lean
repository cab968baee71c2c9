import FaultInjection.Proofs.Master.Listing
import FaultInjection.Proofs.Master.Stock
import FaultInjection.Proofs.Master.Stream

/-!
What one sees of a master who is told some failures and then follows events. Of the events about a
failure the last one counts, so that it does no harm to be told of changes that one knows already;
and events of nodes that one does not look at may be left out.
-/

namespace FaultInjection

/-! Contents that follow events -/

namespace Contents

def restrict (contents : Contents) (admits : String → Bool) : Contents := fun node id =>
  if admits node then contents node id else none

variable (first second contents : Contents) (events : List Event) (node id : String)

theorem replay_append (earlier later : List Event) :
    contents.replay (earlier ++ later) = (contents.replay earlier).replay later :=
  List.foldl_append

theorem replay_local (same : first node id = second node id) :
    first.replay events node id = second.replay events node id := by
  induction events generalizing first second with
  | nil => exact same
  | cons event rest ih =>
      refine ih (event.replay first) (event.replay second) ?_
      simp only [Event.replay, same]

/-- Where something is told of a failure, it does not count what was there before. -/
theorem replay_told (event : Event) (member : event ∈ events)
    (here : event.failure.node = node ∧ event.failure.id = id) :
    first.replay events node id = second.replay events node id := by
  induction events generalizing first second with
  | nil => cases member
  | cons earliest rest ih =>
      rcases List.mem_cons.mp member with rfl | later
      · refine replay_local (event.replay first) (event.replay second) rest node id ?_
        simp only [Event.replay, if_pos here]
      · exact ih (earliest.replay first) (earliest.replay second) later

theorem replay_untold
    (untold : ∀ event ∈ events, ¬(event.failure.node = node ∧ event.failure.id = id)) :
    contents.replay events node id = contents node id := by
  induction events generalizing contents with
  | nil => rfl
  | cons event rest ih =>
      refine (ih (event.replay contents) fun later member =>
        untold later (List.mem_cons_of_mem event member)).trans ?_
      simp only [Event.replay, if_neg (untold event List.mem_cons_self)]

/-- What is told twice is told once. -/
theorem replay_replay : (contents.replay events).replay events = contents.replay events := by
  funext node id
  by_cases told : ∃ event ∈ events, event.failure.node = node ∧ event.failure.id = id
  · obtain ⟨event, member, here⟩ := told
    exact replay_told _ _ events node id event member here
  · exact replay_untold _ events node id fun event member here => told ⟨event, member, here⟩

theorem restrict_replay (event : Event) (admits : String → Bool) :
    (event.replay contents).restrict admits =
      if admits event.failure.node then event.replay (contents.restrict admits)
      else contents.restrict admits := by
  funext node id
  by_cases here : event.failure.node = node ∧ event.failure.id = id
  · obtain ⟨rfl, rfl⟩ := here
    by_cases admitted : admits event.failure.node <;> simp [restrict, Event.replay, admitted]
  · split <;> simp [restrict, Event.replay, here]

/-- Events of other nodes make no difference to what there is on the nodes that one looks at. -/
theorem replay_restrict (admits : String → Bool) :
    (contents.restrict admits).replay (events.filter fun event => admits event.failure.node) =
      (contents.replay events).restrict admits := by
  induction events generalizing contents with
  | nil => rfl
  | cons event rest ih =>
      calc (contents.restrict admits).replay
              ((event :: rest).filter fun event => admits event.failure.node)
        _ = ((event.replay contents).restrict admits).replay
              (rest.filter fun event => admits event.failure.node) := by
          rw [restrict_replay, List.filter_cons]
          split <;> rfl
        _ = ((event.replay contents).replay rest).restrict admits := ih (event.replay contents)

end Contents

/-- Failures told as if they had just been created. -/
def Event.creations (failures : List Failure) : List Event :=
  failures.map fun failure => ⟨.created, failure⟩

def Contents.nothing : Contents := fun _ _ => none

theorem Contents.replay_creations (contents : Contents) (failures : List Failure)
    (listed : ∀ failure ∈ failures, contents failure.node failure.id = some failure)
    (whole : ∀ node id failure, contents node id = some failure →
      failure ∈ failures ∧ failure.node = node ∧ failure.id = id) :
    nothing.replay (Event.creations failures) = contents := by
  have kept : contents.replay (Event.creations failures) = contents := by
    clear whole
    induction failures with
    | nil => rfl
    | cons failure rest ih =>
        have same : Event.replay contents ⟨.created, failure⟩ = contents := by
          funext node id
          simp only [Event.replay, reduceCtorEq, ↓reduceIte]
          split
          next here => rw [← here.1, ← here.2, listed failure List.mem_cons_self]
          next => rfl
        calc contents.replay (Event.creations (failure :: rest))
          _ = (Event.replay contents ⟨.created, failure⟩).replay (Event.creations rest) := rfl
          _ = contents := by
            rw [same, ih fun later member => listed later (List.mem_cons_of_mem failure member)]
  funext node id
  -- what is told counts alone, and what is not told is not there
  by_cases told : ∃ event ∈ Event.creations failures,
      event.failure.node = node ∧ event.failure.id = id
  · obtain ⟨event, member, here⟩ := told
    rw [← kept]
    exact replay_told _ _ _ node id event member here
  · rw [replay_untold _ _ node id fun event member here => told ⟨event, member, here⟩]
    cases found : contents node id with
    | none => rfl
    | some failure =>
        obtain ⟨member, here⟩ := whole node id failure found
        exact absurd ⟨⟨.created, failure⟩, List.mem_map_of_mem member, here⟩ told

/-! Ledgers that follow events -/

/-- What is created or updated is put in its place, and what is deleted is taken away. -/
def Event.enter (ledger : Ledger) (event : Event) : Ledger :=
  match event.change with
  | .created | .updated => ledger.put event.failure
  | .deleted =>
      match ledger.delete event.failure.node event.failure.id with
      | .ok (_, after) => after
      | .error _ => ledger

/-- The ledger of one who has nothing at first. -/
def Ledger.ofEvents (events : List Event) : Ledger := events.foldl Event.enter .empty

theorem Ledger.delete_absent (ledger : Ledger) (node id : String) (error : Error)
    (refused : ledger.delete node id = .error error) : ledger.get? node id = none := by
  unfold Ledger.delete at refused
  split at refused
  next absent => exact absent
  next => cases refused

namespace Event

theorem enter_get? (ledger : Ledger) (event : Event) :
    (event.enter ledger).get? = event.replay ledger.get? := by
  funext node id
  obtain ⟨change, failure⟩ := event
  cases change with
  | created | updated => simp [enter, replay, Ledger.put_get?]
  | deleted =>
      simp only [enter, replay, ↓reduceIte]
      split
      next _ after deleted => exact Ledger.delete_get? _ _ _ _ after deleted node id
      next error refused =>
        split
        next here => rw [← here.1, ← here.2, ledger.delete_absent _ _ error refused]
        next => rfl

theorem enter_filed (ledger : Ledger) (event : Event) (filed : ledger.Filed) :
    (event.enter ledger).Filed := by
  have named : ∀ node id failure, (event.enter ledger).get? node id = some failure →
      failure.node = node ∧ failure.id = id := by
    intro node id failure found
    rw [enter_get?, replay] at found
    split at found
    next here =>
      split at found
      · cases found
      · cases found
        exact here
    next => exact filed.named node id failure found
  obtain ⟨change, failure⟩ := event
  cases change with
  | created | updated =>
      refine ⟨Table.put_ordered _ _ _ filed.nodes, fun node => ?_, named⟩
      simp only [enter, Ledger.put, Ledger.ofNode_put]
      split
      · exact Table.put_ordered _ _ _ (filed.ordered _)
      · exact filed.ordered node
  | deleted =>
      simp only [enter] at named ⊢
      split at named
      next _ after deleted =>
        exact ⟨(Ledger.delete_written _ _ _ _ _ deleted).ordered filed.nodes,
          ledger.delete_ordered _ _ _ after deleted filed.ordered, named⟩
      next => exact filed

end Event

namespace Ledger

theorem empty_filed : Ledger.empty.Filed :=
  ⟨List.Pairwise.nil, fun _ => List.Pairwise.nil, fun _ _ _ impossible => nomatch impossible⟩

theorem ofEvents_get? (events : List Event) :
    (ofEvents events).get? = Contents.nothing.replay events := by
  have general : ∀ ledger : Ledger, (events.foldl Event.enter ledger).get? =
      Contents.replay ledger.get? events := by
    induction events with
    | nil => exact fun _ => rfl
    | cons event rest ih =>
        intro ledger
        rw [List.foldl_cons, ih (event.enter ledger), Event.enter_get?]
        rfl
  exact general .empty

theorem ofEvents_filed (events : List Event) : (ofEvents events).Filed := by
  have general : ∀ ledger : Ledger, ledger.Filed → (events.foldl Event.enter ledger).Filed := by
    induction events with
    | nil => exact fun _ filed => filed
    | cons event rest ih => exact fun ledger filed => ih _ (event.enter_filed ledger filed)
  exact general .empty empty_filed

end Ledger

/-! Events of a run -/

/-- All that is told in a run was written in it, or was there before. -/
theorem Announced.stocks {kind : Specification → Prop} {master : Master}
    {operations : List Operation} {events : List Event}
    (announced : Announced master operations events) (stocks : master.Stocks kind)
    (written : ∀ operation ∈ operations, ∀ specification ∈ operation.written?,
      kind specification) :
    ∀ event ∈ events, kind event.failure.specification := by
  induction announced with
  | nothing => exact fun _ impossible => nomatch impossible
  | @told master operation rest change failure events _ _ tells later ih =>
      have after := master.perform_stocks operation stocks fun _ =>
        written operation List.mem_cons_self
      intro event member
      rcases List.mem_cons.mp member with rfl | later
      · obtain ⟨node, id, _, stored⟩ := tells.subject
        split at stored
        · exact stocks node id failure stored
        · exact after node id failure stored
      · exact ih after (fun later member => written later (List.mem_cons_of_mem operation member))
          event later
  | @untold master operation rest events _ later ih =>
      refine ih (master.perform_stocks operation stocks fun _ =>
        written operation List.mem_cons_self) fun later member => ?_
      exact written later (List.mem_cons_of_mem operation member)

namespace Master

theorem after_append (master : Master) (earlier later : List Operation) :
    master.after (earlier ++ later) = (master.after earlier).after later :=
  List.foldl_append

theorem keepsNodes_append (master : Master) (earlier later : List Operation) :
    master.keepsNodes (earlier ++ later) =
      (master.keepsNodes earlier && (master.after earlier).keepsNodes later) := by
  induction earlier generalizing master with
  | nil => rfl
  | cons operation rest ih =>
      simp only [List.cons_append, keepsNodes, ih, Bool.and_assoc]
      rfl

theorem creations_listed (master : Master) (selector : Selector) (inOrder : master.InOrder)
    (sound : master.ledger.Sound) :
    Contents.nothing.replay (Event.creations (master.listFailures selector)) =
      master.contents.restrict (master.admits selector) := by
  have filed := sound.filed inOrder.nodes
  rw [master.listFailures_eq inOrder.roster]
  refine Contents.replay_creations _ _ ?listed ?whole
  case listed =>
    intro failure member
    obtain ⟨admitted, found⟩ := (filed.mem_list _ failure).mp member
    exact (if_pos admitted).trans found
  case whole =>
    intro node id failure found
    unfold Contents.restrict at found
    split at found
    next admitted =>
      obtain ⟨rfl, rfl⟩ := filed.named node id failure found
      exact ⟨(filed.mem_list _ failure).mpr ⟨admitted, found⟩, rfl, rfl⟩
    next => cases found

theorem listed_stocks {kind : Specification → Prop} (master : Master) (selector : Selector)
    (inOrder : master.InOrder) (sound : master.ledger.Sound) (stocks : master.Stocks kind) :
    ∀ failure ∈ master.listFailures selector, kind failure.specification := by
  intro failure member
  rw [master.listFailures_eq inOrder.roster, (sound.filed inOrder.nodes).mem_list] at member
  exact stocks _ _ failure member.2

/-- One who is told what is listed for a selector, and all changes on the nodes that are admitted,
has what is listed for the selector. The changes may begin before the list. -/
theorem replay_listed (before : Master) (earlier later : List Operation) (selector : Selector)
    (inOrder : before.InOrder) (sound : before.ledger.Sound)
    (keeps : before.keepsNodes (earlier ++ later) = true) (events : List Event)
    (history : (before.after (earlier ++ later)).history = events.reverse ++ before.history) :
    (Ledger.ofEvents (Event.creations ((before.after earlier).listFailures selector) ++
      events.filter fun event => before.admits selector event.failure.node)).list (fun _ => true) =
        (before.after (earlier ++ later)).listFailures selector := by
  have middleOrder := before.after_inOrder earlier inOrder
  have middleSound := before.after_ledger_sound earlier sound
  obtain ⟨first, second⟩ := Bool.and_eq_true_iff.mp (before.keepsNodes_append earlier later ▸ keeps)
  have admitsMiddle := (before.after earlier).admits_congr before selector
    (before.after_labels earlier first)
  have admitsNow := ((before.after earlier).after later).admits_congr (before.after earlier)
    selector ((before.after earlier).after_labels later second)
  -- the events until the list was made, and those after it
  obtain ⟨known, _, knownHistory, knownContents⟩ := before.after_announced earlier sound
  obtain ⟨new, _, newHistory, newContents⟩ :=
    (before.after earlier).after_announced later middleSound
  rw [after_append, newHistory, knownHistory, ← List.append_assoc, ← List.reverse_append] at history
  cases List.reverse_injective (List.append_cancel_right history)
  rw [after_append]
  have nowOrder := (before.after earlier).after_inOrder later middleOrder
  have nowSound := (before.after earlier).after_ledger_sound later middleSound
  rw [Master.listFailures_eq _ nowOrder.roster, admitsNow, admitsMiddle]
  have contents : (Ledger.ofEvents (
      Event.creations ((before.after earlier).listFailures selector) ++
      (known ++ new).filter fun event => before.admits selector event.failure.node)).get? =
        (((before.after earlier).after later).contents).restrict (before.admits selector) := by
    rw [Ledger.ofEvents_get?, Contents.replay_append,
      creations_listed _ selector middleOrder middleSound, admitsMiddle, Contents.replay_restrict,
      Contents.replay_append, ← newContents]
    -- the list has the changes until it was made already
    congr 2
    rw [← knownContents, Contents.replay_replay]
  refine (Ledger.ofEvents_filed _).list_congr (nowSound.filed nowOrder.nodes) _ _ fun node id => ?_
  rw [contents]
  rfl

end Master

end FaultInjection
