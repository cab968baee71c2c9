import FaultInjection.Proofs.Master.Stay

/-!
What the history of a roster tells about the liveness of its nodes. The last sign of life of a node
is the latest of its heartbeats, in whatever order they came in; it is unreachable if a sweep has
found it silent for too long and nothing was heard of it since.
-/

namespace FaultInjection

def beatsOf (id : String) (commands : List RosterCommand) : List Int :=
  commands.filterMap fun command =>
    match command with
    | .heartbeat instant other => if other = id then some instant else none
    | _ => none

/-- Whether a sweep after the last heartbeat of an id came when the silence since some instant had
exceeded a bound. -/
def FoundSilent (id : String) (bound : Nat) (last : Int) (commands : List RosterCommand) : Prop :=
  ∃ earlier now later, commands = earlier ++ .sweep now :: later ∧ beatsOf id later = [] ∧
    (bound : Int) < now - last

theorem foundSilent_cons (id : String) (bound : Nat) (last : Int) (command : RosterCommand)
    (rest : List RosterCommand) :
    FoundSilent id bound last (command :: rest) ↔
      (∃ now, command = .sweep now ∧ beatsOf id rest = [] ∧ (bound : Int) < now - last) ∨
        FoundSilent id bound last rest := by
  constructor
  · rintro ⟨earlier, now, later, split, quiet, late⟩
    cases earlier with
    | nil =>
        cases split
        exact Or.inl ⟨now, rfl, quiet, late⟩
    | cons first others =>
        cases split
        exact Or.inr ⟨others, now, later, rfl, quiet, late⟩
  · rintro (⟨now, rfl, quiet, late⟩ | ⟨earlier, now, later, rfl, quiet, late⟩)
    · exact ⟨[], now, rest, rfl, quiet, late⟩
    · exact ⟨command :: earlier, now, later, rfl, quiet, late⟩

theorem LivenessPolicy.patience_eq (policy : LivenessPolicy) (threshold : Duration)
    (representable : policy.unreachableAfter? = some threshold) :
    policy.patience = threshold.nanos := by
  unfold unreachableAfter? Duration.ofNanos? at representable
  split at representable
  · cases representable
    rfl
  · cases representable

namespace Node

theorem under_given (policy : LivenessPolicy) (id : String) (node : Node)
    (commands : List RosterCommand) :
    let last := commands.foldl (under policy id) node
    last.id = node.id ∧ last.labels = node.labels ∧ last.registeredAt = node.registeredAt := by
  induction commands generalizing node with
  | nil => exact ⟨rfl, rfl, rfl⟩
  | cons command rest ih =>
      have first : (node.under policy id command).id = node.id ∧
          (node.under policy id command).labels = node.labels ∧
          (node.under policy id command).registeredAt = node.registeredAt := by
        cases command with
        | heartbeat instant other =>
            rw [under]
            split <;> exact ⟨rfl, rfl, rfl⟩
        | sweep now =>
            obtain ⟨liveness, same⟩ := node.swept_eq policy now
            rw [under, same]
            exact ⟨rfl, rfl, rfl⟩
        | register | deregister => exact ⟨rfl, rfl, rfl⟩
      obtain ⟨sameId, labels, registered⟩ := ih (node.under policy id command)
      exact ⟨sameId.trans first.1, labels.trans first.2.1, registered.trans first.2.2⟩

/-- A heartbeat that comes late does not set the last one back. -/
theorem under_lastHeartbeat (policy : LivenessPolicy) (id : String) (node : Node)
    (commands : List RosterCommand) :
    (commands.foldl (under policy id) node).lastHeartbeat =
      (beatsOf id commands).foldl max node.lastHeartbeat := by
  induction commands generalizing node with
  | nil => rfl
  | cons command rest ih =>
      rw [List.foldl_cons, ih]
      cases command with
      | heartbeat instant other =>
          by_cases same : other = id
          · simp [beatsOf, under, same, beat]
          · simp [beatsOf, under, same]
      | sweep now =>
          obtain ⟨liveness, same⟩ := node.swept_eq policy now
          simp [beatsOf, under, same]
      | register | deregister => rfl

theorem under_unreachable (policy : LivenessPolicy) (id : String) (node : Node)
    (commands : List RosterCommand) :
    let last := commands.foldl (under policy id) node
    last.liveness = .unreachable ↔
      node.liveness = .unreachable ∧ beatsOf id commands = [] ∨
        FoundSilent id policy.patience last.lastHeartbeat commands := by
  induction commands generalizing node with
  | nil => simp [beatsOf, FoundSilent]
  | cons command rest ih =>
      have heard := under_lastHeartbeat policy id (node.under policy id command) rest
      dsimp only at ih ⊢
      rw [List.foldl_cons, foundSilent_cons, ih]
      generalize (rest.foldl (under policy id) (node.under policy id command)).lastHeartbeat = last
        at heard ⊢
      cases command with
      | heartbeat instant other =>
          by_cases same : other = id
          · simp [beatsOf, under, same, beat]
          · simp [beatsOf, under, same]
      | sweep now =>
          -- nothing was heard since, so the silence is the one that the sweep has found
          have since : beatsOf id rest = [] → last = node.lastHeartbeat := by
            intro quiet
            obtain ⟨liveness, same⟩ := node.swept_eq policy now
            simpa [quiet, under, same] using heard
          have skipped : beatsOf id (.sweep now :: rest) = beatsOf id rest := rfl
          rw [under, swept_unreachable, skipped]
          by_cases quiet : beatsOf id rest = []
          · simp [quiet, since quiet, or_assoc]
          · simp [quiet]
      | register now other labels => simp [beatsOf, under]
      | deregister other => simp [beatsOf, under]

end Node

namespace Roster

theorem exists_node_iff (roster : Roster) (id : String) (holds : Node → Prop) :
    (∃ node, roster.get? id = some node ∧ holds node) ↔
      ∃ entry, roster.entries.get? id = some entry ∧ holds entry.node := by
  unfold get?
  cases roster.entries.get? id with
  | none => simp
  | some entry => simp

/-- A stay tells what is known of the node. -/
theorem Stays.tells {roster : Roster} {commands since : List RosterCommand} {id : String}
    {labels : Labels} {joined : Int} (stays : roster.Stays commands id labels joined since) :
    ∃ node, (roster.after commands).get? id = some node ∧
      node.id = id ∧ node.labels = labels ∧ node.registeredAt = joined ∧
      (joined :: beatsOf id since).max? = some node.lastHeartbeat ∧
      (node.liveness = .unreachable ↔
        FoundSilent id roster.policy.patience node.lastHeartbeat since) := by
  let first : Node := ⟨id, labels, .alive, joined, joined⟩
  obtain ⟨sameId, sameLabels, registered⟩ := first.under_given roster.policy id since
  refine ⟨_, stays.node, sameId, sameLabels, registered, ?_, ?_⟩
  · rw [List.max?_cons']
    exact congrArg some (first.under_lastHeartbeat roster.policy id since).symm
  · -- the node was alive when it registered
    refine (first.under_unreachable roster.policy id since).trans (or_iff_right ?_)
    rintro ⟨impossible, _⟩
    cases impossible

/-- What a sweep does, told from how long the nodes have been silent. -/
structure SweepExact (roster : Roster) (threshold : Duration) (now : Int) : Prop where
  turned : ∀ id, id ∈ (roster.sweep now).2.unreachable ↔
    ∃ node, roster.get? id = some node ∧ node.liveness = .alive ∧
      (threshold.nanos : Int) < now - node.lastHeartbeat
  evicted : ∀ id, id ∈ (roster.sweep now).2.evicted ↔
    ∃ node, roster.get? id = some node ∧
      (node.liveness = .unreachable ∨ (threshold.nanos : Int) < now - node.lastHeartbeat) ∧
      ∃ limit, roster.policy.evictAfter = some limit ∧
        (limit.nanos : Int) < now - node.lastHeartbeat
  removed : ∀ id, id ∈ (roster.sweep now).2.evicted ↔
    (roster.get? id).isSome = true ∧ (roster.sweep now).1.get? id = none
  spared : ∀ id, id ∉ (roster.sweep now).2.evicted →
    (roster.sweep now).1.get? id = (roster.get? id).map fun node =>
      if id ∈ (roster.sweep now).2.unreachable then { node with liveness := .unreachable } else node
  ascending : ((roster.sweep now).2.unreachable.Pairwise fun id later => id < later) ∧
    (roster.sweep now).2.evicted.Pairwise fun id later => id < later

theorem sweep_exact (roster : Roster) (sound : roster.Sound) (threshold : Duration) (now : Int)
    (patience : roster.policy.patience = threshold.nanos) : roster.SweepExact threshold now := by
  have found : ∀ id, id ∈ (roster.sweep now).2.evicted → (roster.get? id).isSome = true := by
    intro id evicted
    obtain ⟨entry, stored, _⟩ := (roster.mem_evicted now sound id).mp evicted
    simp [get?, stored]
  constructor
  case turned =>
    intro id
    rw [roster.mem_unreachable now sound, exists_node_iff]
    simp only [Node.isOverdue_iff, patience]
  case evicted =>
    intro id
    have last : ∀ node : Node, (node.swept roster.policy now).lastHeartbeat =
        node.lastHeartbeat := by
      intro node
      obtain ⟨liveness, same⟩ := node.swept_eq roster.policy now
      rw [same]
    rw [roster.mem_evicted now sound, exists_node_iff]
    simp only [Node.isEvictable_iff, Node.swept_unreachable, last, patience]
  case removed =>
    intro id
    constructor
    · intro evicted
      refine ⟨found id evicted, ?_⟩
      rw [get?, sweep_get?, if_pos evicted]
      rfl
    · rintro ⟨present, gone⟩
      by_contra spared
      rw [get?, sweep_get?, if_neg spared, Option.map_map, Option.map_eq_none_iff] at gone
      simp [get?, gone] at present
  case spared =>
    intro id spared
    rw [get?, sweep_get?, if_neg spared, get?, Option.map_map, Option.map_map]
    apply Option.map_congr
    intro entry stored
    have turned : id ∈ (roster.sweep now).2.unreachable ↔
        entry.node.isOverdue roster.policy now = true := by
      rw [roster.mem_unreachable now sound, stored]
      simp
    simp only [Function.comp_apply, Entry.swept, Node.swept, turned]
  case ascending => exact roster.sweep_ascends now sound

theorem register_isOk_iff (roster : Roster) (now : Int) (id : String) (labels : Labels) :
    (roster.register now id labels).isOk = true ↔
      id ≠ "" ∧ ∀ node, roster.get? id = some node → node.liveness = .unreachable := by
  have alive : roster.isAlive id = false ↔
      ∀ node, roster.get? id = some node → node.liveness = .unreachable := by
    unfold isAlive
    cases roster.get? id with
    | none => simp
    | some node => cases liveness : node.liveness <;> simp [liveness]
  rw [← alive]
  rcases roster.register_cases now id labels with ⟨named, free, taken⟩ | ⟨wrong, error, refused⟩
  · rw [taken]
    exact ⟨fun _ => ⟨named, free⟩, fun _ => rfl⟩
  · rw [refused]
    constructor
    · intro impossible
      cases impossible
    · rintro ⟨named, free⟩
      rcases wrong with blank | alive
      · exact absurd blank named
      · rw [free] at alive
        cases alive

/-- A roster is told by its history: which nodes are there, when each was last heard of, and which
are unreachable. What the next sweep does, and whom the roster takes in, follows from that. -/
theorem liveness_from_history (policy : LivenessPolicy) (threshold : Duration)
    (representable : policy.unreachableAfter? = some threshold) (commands : List RosterCommand) :
    let roster := (empty policy).after commands
    (∀ id, (roster.get? id).isSome = true ↔
      ∃ labels joined since, (empty policy).Stays commands id labels joined since) ∧
    (∀ id labels joined since, (empty policy).Stays commands id labels joined since →
      ∃ node, roster.get? id = some node ∧
        node.id = id ∧ node.labels = labels ∧ node.registeredAt = joined ∧
        (joined :: beatsOf id since).max? = some node.lastHeartbeat ∧
        (node.liveness = .unreachable ↔
          FoundSilent id threshold.nanos node.lastHeartbeat since)) ∧
    (∀ now, roster.SweepExact threshold now) ∧
    (∀ now id labels, (roster.register now id labels).isOk = true ↔
      id ≠ "" ∧ ∀ node, roster.get? id = some node → node.liveness = .unreachable) := by
  intro roster
  have patience := policy.patience_eq threshold representable
  have sound : roster.Sound := after_sound _ commands (empty_sound policy)
  have samePolicy : roster.policy = policy := (empty policy).after_policy commands
  refine ⟨?_, ?_, ?_, ?_⟩
  · intro id
    constructor
    · intro present
      have stored : (roster.entries.get? id).isSome = true := by
        simpa [get?] using present
      rcases (empty policy).after_present id commands stored with ⟨_, impossible⟩ | stays
      · cases impossible
      · exact stays
    · rintro ⟨labels, joined, since, stays⟩
      exact Option.isSome_of_eq_some stays.node
  · intro id labels joined since stays
    rw [← patience]
    exact stays.tells
  · intro now
    exact roster.sweep_exact sound threshold now (samePolicy ▸ patience)
  · intro now id labels
    exact roster.register_isOk_iff now id labels

/-- A second of silence is allowed, and nodes are evicted after two and a half. -/
def hastyPolicy : LivenessPolicy := ⟨.ofSeconds 1, 0, some ⟨2500000000, by decide⟩⟩

/-- One node comes back and is lost again, without a newer heartbeat; the other one is evicted. -/
def hastyCommands : List RosterCommand :=
  [.register 0 "kept" [], .register 0 "lost" [], .heartbeat 1000000000 "kept", .sweep 3000000000,
    .heartbeat (-5) "kept", .sweep 2000000001, .deregister "other"]

theorem liveness_from_history_hasty :
    let roster := (empty hastyPolicy).after hastyCommands
    ∃ node, roster.get? "kept" = some node ∧ node.registeredAt = 0 ∧
      node.lastHeartbeat = 1000000000 ∧ node.liveness = .unreachable ∧
      roster.get? "lost" = none ∧ (roster.register 7 "kept" []).isOk = true ∧
      "kept" ∈ (roster.sweep 4000000000).2.evicted := by
  obtain ⟨_, tells, sweeps, registers⟩ := liveness_from_history hastyPolicy (.ofSeconds 1) rfl
    hastyCommands
  obtain ⟨node, found, _, _, joined, last, silent⟩ := tells "kept" [] 0 (hastyCommands.drop 1)
    ⟨[], rfl, by decide +kernel, by decide +kernel⟩
  have heard : node.lastHeartbeat = 1000000000 := (Option.some.inj last).symm
  have unreachable : node.liveness = .unreachable :=
    silent.mpr ⟨(hastyCommands.drop 1).take 4, 2000000001, [.deregister "other"], rfl, rfl, by
      rw [heard]
      decide⟩
  refine ⟨node, found, joined, heard, unreachable, by decide +kernel, ?_, ?_⟩
  · refine (registers 7 "kept" []).mpr ⟨by decide, fun other same => ?_⟩
    cases found.symm.trans same
    exact unreachable
  · refine ((sweeps 4000000000).evicted "kept").mpr ⟨node, found, Or.inl unreachable, ?_⟩
    exact ⟨_, rfl, by rw [heard]; decide⟩

end Roster

end FaultInjection
