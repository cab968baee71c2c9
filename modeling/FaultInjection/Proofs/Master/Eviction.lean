import FaultInjection.Proofs.Master.Stay

/-!
Evictions on stale evidence. Whatever is done to a roster between picking candidates and evicting
them, only such candidates go whose registration is the one that was picked and who are still
silent. Numbers of registrations are not used again, so a number tells whether an entry has been
replaced.
-/

namespace FaultInjection

namespace Roster

/-- A roster whose entries have numbers that were given out before. -/
structure Numbered (roster : Roster) : Prop extends Sound roster where
  numbered : ∀ id entry, roster.entries.get? id = some entry →
    entry.registration < roster.registrations

theorem empty_numbered (policy : LivenessPolicy) : (empty policy).Numbered :=
  { empty_sound policy with numbered := fun _ _ impossible => nomatch impossible }

theorem markSilent_numbered (roster : Roster) (now : Int) (numbered : roster.Numbered) :
    (roster.markSilent now).Numbered := by
  refine { roster.markSilent_sound now numbered.toSound with numbered := ?_ }
  intro id marked found
  rw [markSilent_get?] at found
  obtain ⟨entry, stored, rfl⟩ := Option.map_eq_some_iff.mp found
  exact numbered.numbered id entry stored

theorem perform_registrations (roster : Roster) (command : RosterCommand) :
    roster.registrations ≤ (roster.perform command).registrations := by
  cases command with
  | register now id labels =>
      rcases roster.register_cases now id labels with ⟨_, _, taken⟩ | ⟨_, error, refused⟩
      · rw [perform, taken]
        exact Nat.le_succ _
      · rw [perform, refused]
        exact Nat.le_refl _
  | heartbeat instant id =>
      rw [perform, heartbeat]
      split <;> exact Nat.le_refl _
  | deregister id => exact Nat.le_refl _
  | sweep now => exact Nat.le_of_eq (roster.sweep_kept now).2.symm

/-- The entry of an id after a command is the one from before, or has just registered. -/
theorem perform_entry (roster : Roster) (id : String) (command : RosterCommand) (entry : Entry)
    (found : (roster.perform command).entries.get? id = some entry) :
    (roster.Keeps id command ∧ ∃ before, roster.entries.get? id = some before ∧
      entry.registration = before.registration) ∨
    (entry.registration = roster.registrations ∧
      (roster.perform command).registrations = roster.registrations + 1) := by
  by_cases keeps : roster.Keeps id command
  · rw [roster.perform_kept id command keeps] at found
    obtain ⟨before, stored, rfl⟩ := Option.map_eq_some_iff.mp found
    exact Or.inl ⟨keeps, before, stored, rfl⟩
  · rcases roster.perform_ended id command keeps with gone | ⟨_, _, _, _, count, fresh⟩
    · rw [gone] at found
      cases found
    · rw [fresh] at found
      cases found
      exact Or.inr ⟨rfl, count⟩

theorem perform_numbered (roster : Roster) (command : RosterCommand)
    (numbered : roster.Numbered) : (roster.perform command).Numbered := by
  refine { roster.perform_sound command numbered.toSound with numbered := ?_ }
  intro id entry found
  rcases roster.perform_entry id command entry found with ⟨_, before, stored, same⟩ | ⟨new, count⟩
  · rw [same]
    exact Nat.lt_of_lt_of_le (numbered.numbered id before stored)
      (roster.perform_registrations command)
  · rw [new, count]
    exact Nat.lt_succ_self _

theorem after_numbered (roster : Roster) (commands : List RosterCommand)
    (numbered : roster.Numbered) : (roster.after commands).Numbered := by
  induction commands generalizing roster with
  | nil => exact numbered
  | cons command rest ih => exact ih _ (roster.perform_numbered command numbered)

/-! Registrations that have ended -/

/-- Whatever is under an id has registered when some registrations were made already. -/
structure Renewed (roster : Roster) (id : String) (count : Nat) : Prop where
  counted : count ≤ roster.registrations
  later : ∀ entry, roster.entries.get? id = some entry → count ≤ entry.registration

theorem perform_renewed (roster : Roster) (id : String) (count : Nat) (command : RosterCommand)
    (renewed : roster.Renewed id count) : (roster.perform command).Renewed id count := by
  refine ⟨Nat.le_trans renewed.counted (roster.perform_registrations command), ?_⟩
  intro entry found
  rcases roster.perform_entry id command entry found with ⟨_, before, stored, same⟩ | ⟨new, _⟩
  · rw [same]
    exact renewed.later before stored
  · rw [new]
    exact renewed.counted

theorem after_renewed (roster : Roster) (id : String) (count : Nat)
    (commands : List RosterCommand) (renewed : roster.Renewed id count) :
    (roster.after commands).Renewed id count := by
  induction commands generalizing roster with
  | nil => exact renewed
  | cons command rest ih => exact ih _ (roster.perform_renewed id count command renewed)

/-- A registration that has ended does not come back. -/
theorem after_ended (roster : Roster) (id : String) (entry : Entry)
    (commands : List RosterCommand) (numbered : roster.Numbered)
    (found : roster.entries.get? id = some entry) (ended : ¬ KeptThrough id roster commands) :
    (roster.after commands).Renewed id (entry.registration + 1) := by
  induction commands generalizing roster entry with
  | nil => exact absurd trivial ended
  | cons command rest ih =>
      have given := numbered.numbered id entry found
      by_cases keeps : roster.Keeps id command
      · have kept := roster.perform_kept id command keeps
        rw [found, Option.map_some] at kept
        have renewed := ih (roster.perform command) _ (roster.perform_numbered command numbered)
          kept fun later => ended ⟨keeps, later⟩
        exact renewed
      · refine (roster.perform command).after_renewed id _ rest
          ⟨Nat.le_trans given (roster.perform_registrations command), ?_⟩
        intro other stored
        rcases roster.perform_entry id command other stored with ⟨kept, _⟩ | ⟨new, _⟩
        · exact absurd kept keeps
        · rw [new]
          exact given

/-- The number of an entry stands for its registration. -/
theorem after_registration_iff (roster : Roster) (id : String) (entry : Entry)
    (commands : List RosterCommand) (numbered : roster.Numbered)
    (found : roster.entries.get? id = some entry) :
    KeptThrough id roster commands ↔
      ∃ later, (roster.after commands).entries.get? id = some later ∧
        later.registration = entry.registration := by
  constructor
  · intro kept
    have stands := roster.after_kept id commands kept
    rw [found] at stands
    exact ⟨_, stands, rfl⟩
  · rintro ⟨later, stored, same⟩
    by_contra ended
    have renewed := (roster.after_ended id entry commands numbered found ended).later later stored
    omega

/-! Evicting what was picked before -/

theorem stillEvictable_after_iff (roster : Roster) (id : String) (entry : Entry)
    (commands : List RosterCommand) (numbered : roster.Numbered)
    (found : roster.entries.get? id = some entry) (now : Int) :
    (roster.after commands).stillEvictable now (id, entry.registration) = true ↔
      KeptThrough id roster commands ∧
      ∃ node, (roster.after commands).get? id = some node ∧ node.liveness = .unreachable ∧
        ∃ limit, roster.policy.evictAfter = some limit ∧
          (limit.nanos : Int) < now - node.lastHeartbeat := by
  rw [stillEvictable_iff, roster.after_registration_iff id entry commands numbered found,
    roster.after_policy commands]
  constructor
  · rintro ⟨later, stored, same, evictable⟩
    have known : (roster.after commands).get? id = some later.node := by
      rw [get?, stored]
      rfl
    exact ⟨⟨later, stored, same⟩, later.node, known,
      (later.node.isEvictable_iff _ now).mp evictable⟩
  · rintro ⟨⟨later, stored, same⟩, node, known, silent⟩
    rw [get?, stored] at known
    cases known
    exact ⟨later, stored, same, (later.node.isEvictable_iff _ now).mpr silent⟩

/-- Between picking and evicting, a candidate is spared if its registration ended or if it is heard
of again, and nothing else is touched. -/
theorem evict_spares (roster : Roster) (numbered : roster.Numbered) (now : Int)
    (between : List RosterCommand) :
    let marked := roster.markSilent now
    let picked := marked.candidates now
    let meanwhile := marked.after between
    let after := evict now meanwhile picked
    (∀ id, id ∈ after.2 ↔
      id ∈ picked.map (·.1) ∧ KeptThrough id marked between ∧
      ∃ node, meanwhile.get? id = some node ∧ node.liveness = .unreachable ∧
        ∃ limit, roster.policy.evictAfter = some limit ∧
          (limit.nanos : Int) < now - node.lastHeartbeat) ∧
    (∀ id, after.1.entries.get? id =
      if id ∈ after.2 then none else meanwhile.entries.get? id) ∧
    after.2.Pairwise fun id later => id < later := by
  intro marked picked meanwhile after
  have markedNumbered : marked.Numbered := roster.markSilent_numbered now numbered
  have ascending := marked.candidates_ascend markedNumbered.ordered now
  have evicted : after.2 = (picked.filter (meanwhile.stillEvictable now)).map (·.1) :=
    evict_evicted now meanwhile picked (ascending.imp String.ne_of_lt)
  have still : ∀ candidate ∈ picked, meanwhile.stillEvictable now candidate = true ↔
      KeptThrough candidate.1 marked between ∧
      ∃ node, meanwhile.get? candidate.1 = some node ∧ node.liveness = .unreachable ∧
        ∃ limit, roster.policy.evictAfter = some limit ∧
          (limit.nanos : Int) < now - node.lastHeartbeat := by
    rintro ⟨id, number⟩ member
    obtain ⟨entry, found, rfl, _⟩ :=
      (marked.mem_candidates markedNumbered.ordered now id number).mp member
    exact marked.stillEvictable_after_iff id entry between markedNumbered found now
  refine ⟨?_, evict_get? now meanwhile picked, ?_⟩
  · intro id
    rw [evicted]
    constructor
    · intro member
      obtain ⟨candidate, chosen, rfl⟩ := List.mem_map.mp member
      obtain ⟨known, evictable⟩ := List.mem_filter.mp chosen
      exact ⟨List.mem_map_of_mem known, (still candidate known).mp evictable⟩
    · rintro ⟨member, silent⟩
      obtain ⟨candidate, known, rfl⟩ := List.mem_map.mp member
      exact List.mem_map_of_mem (List.mem_filter.mpr ⟨known, (still candidate known).mpr silent⟩)
  · rw [evicted]
    exact ascending.sublist (List.filter_sublist.map _)

/-- Nodes are evicted after two seconds. -/
def sternPolicy : LivenessPolicy := ⟨.ofSeconds 1, 1, some (.ofSeconds 2)⟩

/-- A roster in which all nodes have been silent for three seconds. -/
def silentRoster : Roster :=
  (empty sternPolicy).after (["again", "beat", "gone", "late", "left", "lost"].map
    (RosterCommand.register 0 · []))

/-- Of six candidates, one registers afresh, one is heard of, one leaves, one is heard of and lost
again, one leaves, registers afresh and is lost again, and one does nothing. -/
def comebacks : List RosterCommand :=
  [.register 3000000000 "again" [], .heartbeat 3000000000 "beat", .heartbeat (-1) "late",
    .deregister "gone", .deregister "left", .register 0 "left" [], .sweep 1500000000]

theorem evict_spares_comebacks :
    let marked := silentRoster.markSilent 3000000000
    let picked := marked.candidates 3000000000
    let after := evict 3000000000 (marked.after comebacks) picked
    picked.map (·.1) = ["again", "beat", "gone", "late", "left", "lost"] ∧
      "lost" ∈ after.2 ∧ "late" ∈ after.2 ∧ "left" ∉ after.2 ∧
      after.1.entries.get? "again" =
        some ⟨6, ⟨"again", [], .alive, 3000000000, 3000000000⟩⟩ := by
  obtain ⟨exact, rest, _⟩ := evict_spares silentRoster
    (after_numbered _ _ (empty_numbered sternPolicy)) 3000000000 comebacks
  refine ⟨by decide +kernel, ?_, ?_, ?_, ?_⟩
  · exact (exact "lost").mpr ⟨by decide +kernel, by decide +kernel,
      ⟨"lost", [], .unreachable, 0, 0⟩, by decide +kernel, rfl, _, rfl, by decide⟩
  · exact (exact "late").mpr ⟨by decide +kernel, by decide +kernel,
      ⟨"late", [], .unreachable, 0, 0⟩, by decide +kernel, rfl, _, rfl, by decide⟩
  · intro evicted
    exact absurd ((exact "left").mp evicted).2.1 (by decide +kernel)
  · have spared : "again" ∉ _ := fun evicted =>
      absurd ((exact "again").mp evicted).2.1 (by decide +kernel)
    rw [rest "again", if_neg spared]
    decide +kernel

end Roster

end FaultInjection
