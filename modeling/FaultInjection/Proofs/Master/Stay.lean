import FaultInjection.Proofs.Master.Sweep

/-!
The nodes of a roster, told from what was done to it. A node is there as long as its registration
has not ended; when it was last heard of and whether it is unreachable follow from the heartbeats
and the sweeps since it registered.
-/

namespace FaultInjection

inductive RosterCommand where
  | register (now : Int) (id : String) (labels : Labels)
  | heartbeat (instant : Int) (id : String)
  | deregister (id : String)
  | sweep (now : Int)

namespace Roster

/-- The roster after a command. A call that is refused changes nothing. -/
def perform (roster : Roster) : RosterCommand → Roster
  | .register now id labels => (roster.register now id labels).toOption.getD roster
  | .heartbeat instant id => (roster.heartbeat instant id).toOption.getD roster
  | .deregister id => roster.deregister id
  | .sweep now => (roster.sweep now).1

def after (roster : Roster) (commands : List RosterCommand) : Roster :=
  commands.foldl perform roster

/-- Whether a command leaves the registration of an id in force: it does not register the id
afresh, and does not remove it. -/
def Keeps (roster : Roster) (id : String) : RosterCommand → Prop
  | .register now other labels => other = id → (roster.register now other labels).isOk = false
  | .heartbeat _ _ => True
  | .deregister other => other ≠ id
  | .sweep now => id ∉ (roster.sweep now).2.evicted

instance (roster : Roster) (id : String) :
    (command : RosterCommand) → Decidable (roster.Keeps id command)
  | .register now other labels =>
      inferInstanceAs (Decidable (other = id → (roster.register now other labels).isOk = false))
  | .heartbeat _ _ => inferInstanceAs (Decidable True)
  | .deregister other => inferInstanceAs (Decidable (other ≠ id))
  | .sweep now => inferInstanceAs (Decidable (id ∉ (roster.sweep now).2.evicted))

def KeptThrough (id : String) : Roster → List RosterCommand → Prop
  | _, [] => True
  | roster, command :: rest =>
      roster.Keeps id command ∧ KeptThrough id (roster.perform command) rest

instance decidableKeptThrough (id : String) : (roster : Roster) → (commands : List RosterCommand) →
    Decidable (KeptThrough id roster commands)
  | _, [] => isTrue trivial
  | roster, command :: rest =>
      have := decidableKeptThrough id (roster.perform command) rest
      inferInstanceAs (Decidable (roster.Keeps id command ∧ _))

/-- Some commands have registered an id, and the registration was kept through the last of them. -/
def Stays (roster : Roster) (commands : List RosterCommand) (id : String) (labels : Labels)
    (joined : Int) (since : List RosterCommand) : Prop :=
  ∃ earlier, commands = earlier ++ .register joined id labels :: since ∧
    ((roster.after earlier).register joined id labels).isOk = true ∧
    KeptThrough id ((roster.after earlier).perform (.register joined id labels)) since

/-! One command -/

/-- A node may register under an id that no alive node has. -/
theorem register_cases (roster : Roster) (now : Int) (id : String) (labels : Labels) :
    (id ≠ "" ∧ roster.isAlive id = false ∧ roster.register now id labels = .ok { roster with
      entries := roster.entries.put id ⟨roster.registrations, ⟨id, labels, .alive, now, now⟩⟩
      registrations := roster.registrations + 1 }) ∨
    ((id = "" ∨ roster.isAlive id = true) ∧
      ∃ error, roster.register now id labels = .error error) := by
  unfold register
  split
  next blank => exact Or.inr ⟨Or.inl (String.isEmpty_iff.mp blank), _, rfl⟩
  next named =>
    split
    next alive => exact Or.inr ⟨Or.inr alive, _, rfl⟩
    next free =>
      refine Or.inl ⟨fun blank => named (String.isEmpty_iff.mpr blank), ?_, rfl⟩
      exact Bool.eq_false_iff.mpr free

theorem perform_policy (roster : Roster) (command : RosterCommand) :
    (roster.perform command).policy = roster.policy := by
  cases command with
  | register now id labels =>
      rcases roster.register_cases now id labels with ⟨_, _, taken⟩ | ⟨_, error, refused⟩
      · rw [perform, taken]
        rfl
      · rw [perform, refused]
        rfl
  | heartbeat instant id =>
      rw [perform, heartbeat]
      split <;> rfl
  | deregister id => rfl
  | sweep now => exact (roster.sweep_kept now).1

theorem perform_sound (roster : Roster) (command : RosterCommand) (sound : roster.Sound) :
    (roster.perform command).Sound := by
  cases command with
  | register now id labels =>
      exact getD_keeps Sound _ roster sound fun after =>
        roster.register_sound after now id labels sound
  | heartbeat instant id =>
      exact getD_keeps Sound _ roster sound fun after =>
        roster.heartbeat_sound after instant id sound
  | deregister id => exact roster.deregister_sound id sound
  | sweep now => exact roster.sweep_sound now sound

theorem after_sound (roster : Roster) (commands : List RosterCommand) (sound : roster.Sound) :
    (roster.after commands).Sound := by
  induction commands generalizing roster with
  | nil => exact sound
  | cons command rest ih => exact ih _ (roster.perform_sound command sound)

theorem after_policy (roster : Roster) (commands : List RosterCommand) :
    (roster.after commands).policy = roster.policy := by
  induction commands generalizing roster with
  | nil => rfl
  | cons command rest ih => exact (ih _).trans (roster.perform_policy command)

end Roster

def Node.under (policy : LivenessPolicy) (id : String) (node : Node) : RosterCommand → Node
  | .heartbeat instant other => if other = id then node.beat instant else node
  | .sweep now => node.swept policy now
  | _ => node

namespace Roster

theorem perform_kept (roster : Roster) (id : String) (command : RosterCommand)
    (keeps : roster.Keeps id command) :
    (roster.perform command).entries.get? id = (roster.entries.get? id).map fun entry =>
      { entry with node := entry.node.under roster.policy id command } := by
  cases command with
  | register now other labels =>
      rcases roster.register_cases now other labels with ⟨_, _, taken⟩ | ⟨_, error, refused⟩
      · have different : other ≠ id := by
          intro same
          have refused := keeps same
          rw [taken] at refused
          cases refused
        simp [perform, taken, Except.toOption, Table.get?_put, different, Node.under]
      · simp [perform, refused, Except.toOption, Node.under]
  | heartbeat instant other =>
      simp only [perform, heartbeat, Node.under]
      cases found : roster.entries.get? other with
      | none =>
          by_cases same : other = id
          · simp [Except.toOption, ← same, found]
          · simp [Except.toOption, same]
      | some entry =>
          by_cases same : other = id
          · simp [Except.toOption, Table.get?_put, ← same, found]
          · simp [Except.toOption, Table.get?_put, same]
  | deregister other =>
      have different : other ≠ id := keeps
      simp [perform, deregister, Table.get?_erase, different, Node.under]
  | sweep now =>
      have spared : id ∉ (roster.sweep now).2.evicted := keeps
      rw [perform, sweep_get?, if_neg spared]
      rfl

/-- What ends a registration either removes the id or registers it afresh. -/
theorem perform_ended (roster : Roster) (id : String) (command : RosterCommand)
    (ends : ¬ roster.Keeps id command) :
    (roster.perform command).entries.get? id = none ∨
      ∃ now labels, command = .register now id labels ∧
        (roster.register now id labels).isOk = true ∧
        (roster.perform command).registrations = roster.registrations + 1 ∧
        (roster.perform command).entries.get? id =
          some ⟨roster.registrations, ⟨id, labels, .alive, now, now⟩⟩ := by
  cases command with
  | register now other labels =>
      simp only [Keeps, Classical.not_imp, Bool.not_eq_false] at ends
      obtain ⟨rfl, accepted⟩ := ends
      refine Or.inr ⟨now, labels, rfl, accepted, ?_⟩
      rcases roster.register_cases now other labels with ⟨_, _, taken⟩ | ⟨_, error, refused⟩
      · simp [perform, taken, Except.toOption, Table.get?_put]
      · rw [refused] at accepted
        cases accepted
  | heartbeat instant other => exact absurd trivial ends
  | deregister other =>
      have same : other = id := Classical.not_not.mp ends
      exact Or.inl (by simp [perform, deregister, Table.get?_erase, same])
  | sweep now =>
      have evicted : id ∈ (roster.sweep now).2.evicted := Classical.not_not.mp ends
      exact Or.inl (by rw [perform, sweep_get?, if_pos evicted])

/-! Many commands -/

/-- What is kept of a registration through some commands. -/
theorem after_kept (roster : Roster) (id : String) (commands : List RosterCommand)
    (kept : KeptThrough id roster commands) :
    (roster.after commands).entries.get? id = (roster.entries.get? id).map fun entry =>
      { entry with node := commands.foldl (Node.under roster.policy id) entry.node } := by
  induction commands generalizing roster with
  | nil => simp [after]
  | cons command rest ih =>
      rw [after, List.foldl_cons, ← after, ih _ kept.2, roster.perform_kept id command kept.1,
        roster.perform_policy command, Option.map_map]
      rfl

/-- An id that is there was there from the start, or has registered since. -/
theorem after_present (roster : Roster) (id : String) (commands : List RosterCommand)
    (present : ((roster.after commands).entries.get? id).isSome = true) :
    (KeptThrough id roster commands ∧ (roster.entries.get? id).isSome = true) ∨
      ∃ labels joined since, roster.Stays commands id labels joined since := by
  induction commands generalizing roster with
  | nil => exact Or.inl ⟨trivial, present⟩
  | cons command rest ih =>
      rcases ih (roster.perform command) present with ⟨kept, there⟩ |
        ⟨labels, joined, since, earlier, rfl, accepted, kept⟩
      · by_cases keeps : roster.Keeps id command
        · rw [roster.perform_kept id command keeps, Option.isSome_map] at there
          exact Or.inl ⟨⟨keeps, kept⟩, there⟩
        · rcases roster.perform_ended id command keeps with
            gone | ⟨now, labels, rfl, accepted, _, _⟩
          · rw [gone] at there
            cases there
          · exact Or.inr ⟨labels, now, rest, [], rfl, accepted, kept⟩
      · exact Or.inr ⟨labels, joined, since, command :: earlier, rfl, accepted, kept⟩

theorem after_append (roster : Roster) (earlier later : List RosterCommand) :
    roster.after (earlier ++ later) = (roster.after earlier).after later :=
  List.foldl_append

-- no command since the registration has replaced or removed the entry: each changed its node
theorem Stays.node {roster : Roster} {commands since : List RosterCommand} {id : String}
    {labels : Labels} {joined : Int} (stays : roster.Stays commands id labels joined since) :
    (roster.after commands).get? id =
      some (since.foldl (Node.under roster.policy id) ⟨id, labels, .alive, joined, joined⟩) := by
  obtain ⟨earlier, rfl, accepted, kept⟩ := stays
  have ends : ¬ (roster.after earlier).Keeps id (.register joined id labels) := by
    intro keeps
    have refused := keeps rfl
    rw [accepted] at refused
    cases refused
  have whole : roster.after (earlier ++ .register joined id labels :: since) =
      ((roster.after earlier).perform (.register joined id labels)).after since :=
    roster.after_append earlier (_ :: since)
  have policy : ((roster.after earlier).perform (.register joined id labels)).policy =
      roster.policy := (perform_policy _ _).trans (roster.after_policy earlier)
  rw [whole, get?, after_kept _ id since kept, policy]
  rcases (roster.after earlier).perform_ended id _ ends with gone | ⟨now, given, same, _, _, fresh⟩
  · rcases (roster.after earlier).register_cases joined id labels with
      ⟨_, _, taken⟩ | ⟨_, error, refused⟩
    · simp [perform, taken, Except.toOption, Table.get?_put] at gone
    · rw [refused] at accepted
      cases accepted
  · cases same
    rw [fresh]
    rfl

end Roster

end FaultInjection
