import FaultInjection.Proofs.Master.Chronicle

/-!
What the specifications of a master's failures have in common. Operators alone write them, when
they create a failure and when they give it another specification; so what holds of each
specification that is written, holds of all that are there. A specification that has no text is
not written.
-/

namespace FaultInjection

namespace Operation

/-- The specification that the operation writes, if it is accepted. -/
def written? : Operation → Option Specification
  | request (.create _ _ specification _) => some specification.1
  | operation => operation.given?

theorem begunWith_written (operation : Operation) (failure : Failure)
    (begun : begunWith [] operation = some failure) :
    operation.written? = some failure.specification := by
  unfold begunWith at begun
  split at begun
  · cases begun
    rfl
  · cases begun

theorem written?_inside (operation : Operation) (inside : operation.isBound = false) :
    operation.written? = operation.given? := by
  cases operation with
  | request request =>
      cases request with
      | create _ _ _ _ => cases inside
      | apply _ _ | revert _ _ | update _ _ _ _ | delete _ _ => rfl
  | expect _ _ _ | call _ _ | sweep _ => rfl

/-- A failure has the specification that was just written, or the one that it had. -/
theorem effect_specification (operation : Operation) (master : Master) (before : Option Failure)
    (changed : Failure) (accepted : (master.perform operation).accepted = true)
    (made : operation.effect before = some changed) :
    operation.written? = some changed.specification ∨
      ∃ failure, before = some failure ∧ changed.specification = failure.specification := by
  rw [operation.effect_eq master before accepted] at made
  split at made
  next => exact Or.inl (operation.begunWith_written changed made)
  next inside =>
    obtain ⟨failure, rfl, rfl⟩ := Option.map_eq_some_iff.mp made
    rw [operation.written?_inside (Bool.eq_false_iff.mpr inside)]
    cases given : operation.given? with
    | some specification => exact Or.inl (by simp [revise, given])
    | none => exact Or.inr ⟨failure, rfl, by simp [revise, given]⟩

end Operation

namespace Master

def Stocks (kind : Specification → Prop) (master : Master) : Prop :=
  ∀ node id failure, master.contents node id = some failure → kind failure.specification

variable {kind : Specification → Prop}

theorem empty_stocks (policy : LivenessPolicy) : (empty policy).Stocks kind :=
  fun _ _ _ impossible => nomatch impossible

theorem perform_stocks (master : Master) (operation : Operation) (stocks : master.Stocks kind)
    (written : (master.perform operation).accepted = true →
      ∀ specification ∈ operation.written?, kind specification) :
    (master.perform operation).master.Stocks kind := by
  cases accepted : (master.perform operation).accepted with
  | false =>
      rw [master.perform_refused operation accepted]
      exact stocks
  | true =>
      intro node id changed found
      rw [contents, (master.perform_done operation accepted).ledger] at found
      split at found
      · rcases operation.effect_specification master _ changed accepted found with
          new | ⟨failure, stored, same⟩
        · exact written accepted changed.specification new
        · rw [same]
          exact stocks node id failure stored
      · exact stocks node id changed found

theorem after_stocks (master : Master) (operations : List Operation)
    (stocks : master.Stocks kind)
    (written : ∀ operation ∈ operations, ∀ master : Master,
      (master.perform operation).accepted = true →
        ∀ specification ∈ operation.written?, kind specification) :
    (master.after operations).Stocks kind := by
  induction operations generalizing master with
  | nil => exact stocks
  | cons operation rest ih =>
      refine ih _ (master.perform_stocks operation stocks ?_) fun later member =>
        written later (List.mem_cons_of_mem operation member)
      exact written operation List.mem_cons_self master

end Master

/-! Specifications that have a text -/

def Specification.Renders (specification : Specification) : Prop :=
  ∃ text, specification.render = .ok text

namespace Master

theorem deliverable_renders (specification accepted : Specification)
    (delivered : deliverable specification = .ok accepted) : specification.Renders := by
  obtain ⟨text, rendered, _⟩ := (map_eq_ok _ _ _).mp delivered
  exact ⟨text, rendered⟩

theorem newFailure_renders (node id : String) (specification : Specification)
    (expected : Failure.State) (failure : Failure)
    (made : newFailure node id specification expected = .ok failure) : specification.Renders := by
  unfold newFailure at made
  split at made
  · cases made
  · obtain ⟨_, _, made⟩ := (bind_eq_ok _ _ _).mp made
    obtain ⟨accepted, delivered, _⟩ := (bind_eq_ok _ _ _).mp made
    exact deliverable_renders specification accepted delivered

/-- Both ways to write a specification try first whether it has a text. -/
theorem written_renders (master : Master) (operation : Operation)
    (accepted : (master.perform operation).accepted = true) :
    ∀ specification ∈ operation.written?, specification.Renders := by
  intro specification written
  cases operation with
  | expect _ _ _ | call _ _ | sweep _ => cases written
  | request request =>
      obtain ⟨answer, answered⟩ := verdict_accepted _ accepted
      cases request with
      | apply _ _ | revert _ _ | delete _ _ => cases written
      | create node id given expected =>
          cases written
          simp only [Request.reply, createFailure] at answered
          split at answered
          · cases answered
          next failure made => exact newFailure_renders node id given.1 expected failure made
      | update node id given expected =>
          obtain ⟨whole, rfl, rfl⟩ := Option.map_eq_some_iff.mp written
          simp only [Request.reply, updateFailure] at answered
          split at answered
          · cases answered
          · split at answered
            · cases answered
            next delivered =>
              obtain ⟨accepted, deliverable, _⟩ := (map_eq_ok _ _ _).mp delivered
              exact deliverable_renders whole.1 accepted deliverable

end Master

end FaultInjection
