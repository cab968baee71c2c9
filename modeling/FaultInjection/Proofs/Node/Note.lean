import FaultInjection.Proofs.Node.Run

/-!
What an agent notes of the failures that it enables. An engine that is enabled was enabled with a
generation that is still noted, and every engine has published its state.
-/

namespace FaultInjection

variable {α : Type}

namespace Engine

variable [Attack α]

theorem fail_published (engine : Engine α) (now : Nat) (fired : Bool)
    (faithful : engine.published = engine.state) :
    (engine.fail now fired).1.engine.published = (engine.fail now fired).1.engine.state := by
  rcases engine.fail_cases now fired with ⟨_, same⟩ | ⟨_, _, same⟩ | ⟨_, error, _, same⟩
  · rw [same]
    exact faithful
  · rw [same, enterPeriod_published, enterPeriod_state]
  · rw [same]
    dsimp only
    split
    · exact faithful
    · rfl

theorem fail_error_down (engine : Engine α) (now : Nat) (fired : Bool) (error : Error)
    (failed : (engine.fail now fired).1.result = .error error) :
    (engine.fail now fired).1.engine.state ≠ .enabled := by
  rcases engine.fail_cases now fired with ⟨_, same⟩ | ⟨_, _, same⟩ | ⟨down, _, _, same⟩
  · rw [same] at failed
    cases failed
  · rw [same] at failed
    cases failed
  · rw [same]
    dsimp only
    split
    · exact down
    · exact nofun

theorem advance_published (engine : Engine α) (now : Nat)
    (faithful : engine.published = engine.state) :
    (engine.advance now).1.published = (engine.advance now).1.state := by
  rw [advance_eq]
  split
  · have down : (engine.waiting now).timeOut.engine.state = .disabled := subside_state _
    have told : (engine.waiting now).timeOut.engine.published = .disabled :=
      subside_published _ faithful
    exact told.trans down.symm
  · exact faithful

theorem enabled_of_advance (engine : Engine α) (now : Nat)
    (enabled : (engine.advance now).1.state = .enabled) : engine.state = .enabled := by
  rw [advance_eq] at enabled
  split at enabled
  · have down : (engine.waiting now).timeOut.engine.state = .disabled := subside_state _
    exact absurd (down.symm.trans enabled) nofun
  · exact enabled

/-- An engine that has published its state, whose timers are in order, and whose generation is
noted when it is enabled. -/
structure Noted (engine : Engine α) (generation : Option UInt64) : Prop where
  published : engine.published = engine.state
  timed : engine.Timed
  noted : engine.state = .enabled → generation.isSome = true

theorem Noted.advance {engine : Engine α} {generation : Option UInt64}
    (noted : engine.Noted generation) (now : Nat) : (engine.advance now).1.Noted generation :=
  ⟨engine.advance_published now noted.published, engine.advance_timed now noted.timed,
    fun enabled => noted.noted (engine.enabled_of_advance now enabled)⟩

end Engine

namespace Agent

variable [Attack α]

structure Noted (agent : Agent α) : Prop where
  ordered : agent.slots.Ordered
  engines : ∀ id slot, agent.slots.get? id = some slot →
    slot.engine.Noted (agent.armed.get? id)

omit [Attack α] in
theorem ofNode_noted (node : String) (catalogue : Catalogue α) : (ofNode node catalogue).Noted :=
  ⟨List.Pairwise.nil, fun _ _ impossible => nomatch impossible⟩

omit [Attack α] in
theorem put_noted (agent : Agent α) (id : String) (slot : Slot α) (noted : agent.Noted)
    (fit : slot.engine.Noted (agent.armed.get? id)) :
    ({ agent with slots := agent.slots.put id slot } : Agent α).Noted := by
  refine ⟨Table.put_ordered _ _ _ noted.ordered, ?_⟩
  intro other found stored
  simp only [Table.get?_put] at stored
  split at stored
  next same =>
    cases stored
    exact same ▸ fit
  next => exact noted.engines other found stored

theorem enable_noted (agent : Agent α) (now : Nat) (failure : Failure) (slot : Slot α)
    (found : agent.slots.get? failure.id = some slot) (noted : agent.Noted) :
    (agent.enable now failure slot).agent.Noted := by
  have before := noted.engines failure.id slot found
  have published := slot.engine.fail_published now agent.stopped before.published
  have timed := slot.engine.fail_timed now agent.stopped before.timed
  unfold enable
  split
  · exact noted
  · dsimp only
    split
    -- an apply that succeeds is noted before anything else happens
    next =>
      refine ⟨Table.put_ordered _ _ _ noted.ordered, ?_⟩
      intro other kept stored
      simp only [store, Table.get?_put] at stored ⊢
      split at stored
      next same =>
        cases stored
        rw [if_pos same]
        exact ⟨published, timed, fun _ => rfl⟩
      next different =>
        rw [if_neg different]
        exact noted.engines other kept stored
    next error failed =>
      have down := slot.engine.fail_error_down now agent.stopped error failed
      have stored := agent.put_noted failure.id _ noted
        (⟨published, timed, fun enabled => absurd enabled down⟩ :
          ({ slot with engine := (slot.engine.fail now agent.stopped).1.engine } :
            Slot α).engine.Noted _)
      exact ⟨stored.ordered, stored.engines⟩

theorem edit_noted (before after : Agent α) (edit : Edit before after) (noted : before.Noted) :
    after.Noted := by
  cases edit with
  | install failure engine free built =>
      obtain ⟨attacks, _, rfl⟩ := (map_eq_ok _ _ _).mp built
      have timed := Engine.ofFailure_timed before.catalogue failure _ built
      have stored := before.put_noted failure.id ⟨before.built, _⟩ noted
        ⟨rfl, timed, fun enabled => nomatch enabled⟩
      exact ⟨stored.ordered, stored.engines⟩
  | retire id slot found =>
      refine ⟨Table.erase_ordered _ _ noted.ordered, ?_⟩
      intro other kept stored
      simp only [Table.get?_erase] at stored
      split at stored
      · cases stored
      · exact noted.engines other kept stored
  | enable now failure slot found => exact before.enable_noted now failure slot found noted
  | disable id slot found =>
      have engine := noted.engines id slot found
      have down : slot.engine.revert.engine.state = .disabled := Engine.subside_state _
      have published : slot.engine.revert.engine.published = .disabled :=
        Engine.subside_published _ engine.published
      refine before.put_noted id { slot with engine := slot.engine.revert.engine } noted ?_
      exact ⟨published.trans down.symm, Engine.subside_timed _,
        fun enabled => by rw [down] at enabled; cases enabled⟩
  | forget id gone =>
      refine ⟨noted.ordered, ?_⟩
      intro other kept stored
      have different : ¬ id = other := by
        rintro rfl
        rw [gone] at stored
        cases stored
      simp only [Table.get?_erase, if_neg different]
      exact noted.engines other kept stored

theorem advance_noted (agent : Agent α) (now : Nat) (noted : agent.Noted) :
    (agent.advance now).Noted := by
  refine ⟨List.pairwise_map.mpr noted.ordered, ?_⟩
  intro id kept stored
  rw [advance_slots] at stored
  obtain ⟨slot, found, rfl⟩ := Option.map_eq_some_iff.mp stored
  exact (noted.engines id slot found).advance now

theorem revertAll_noted (agent : Agent α) (_ : agent.Noted) : agent.revertAll.Noted := by
  have empty := agent.revertAll_edits.2
  refine ⟨empty ▸ List.Pairwise.nil, ?_⟩
  intro id slot found
  rw [empty] at found
  cases found

end Agent

end FaultInjection
