import FaultInjection.Proofs.Engine.Step

/-!
What the token of an apply does, and what is done to it. A token that has fired stops a pass before
the first attack that it would start. Attacks that leave the token alone give it back as they
found it.
-/

namespace FaultInjection

variable {α : Type} [Attack α]

theorem applyAll_fired (now index : Nat) (attacks : List α) :
    (applyAll now index true attacks).attacks = attacks ∧
      (applyAll now index true attacks).uses = [] ∧
      (applyAll now index true attacks).fired = true := by
  induction attacks generalizing index with
  | nil => exact ⟨rfl, rfl, rfl⟩
  | cons first rest ih =>
      obtain ⟨same, unused, fired⟩ := ih (index + 1)
      by_cases applied : Attack.isApplied first = true
      · simp [applyAll, applied, same, unused, fired]
      · simp [applyAll, applied]

theorem Engine.fail_fired (engine : Engine α) (now : Nat) :
    (engine.fail now true).1.engine.attacks = engine.attacks ∧
      (engine.fail now true).1.uses = [] ∧ (engine.fail now true).2 = true := by
  obtain ⟨same, unused, fired⟩ := applyAll_fired now 0 engine.attacks
  rcases engine.fail_cases now true with ⟨_, outcome⟩ | ⟨_, _, outcome⟩ | ⟨_, error, _, outcome⟩
  · rw [outcome]
    exact ⟨rfl, rfl, rfl⟩
  · rw [outcome]
    exact ⟨(enterPeriod_attacks _ now).trans same, unused, fired⟩
  · rw [outcome]
    refine ⟨?_, unused, fired⟩
    dsimp only
    split
    · exact same
    · exact same

class DiscreetAttack (α : Type) [Attack α] : Prop where
  fires : ∀ (now : Nat) (attack : α), (Attack.apply now false attack).fires = false

theorem startUnless_fires {α : Type} (applied : Bool) (attack : α) (start : Attempt α)
    (discreet : start.fires = false) : (startUnless false applied attack start).fires = false := by
  cases applied with
  | true => rfl
  | false => exact discreet

instance [Host] : DiscreetAttack Allocation where
  fires now attack := by
    apply startUnless_fires
    unfold Allocation.start
    split <;> rfl

instance [Host] : DiscreetAttack Leak where
  fires _ attack := startUnless_fires _ attack _ rfl

instance [Host] : DiscreetAttack Load where
  fires now attack := by
    apply startUnless_fires
    unfold Load.start
    split <;> rfl

instance [Host] : DiscreetAttack BuiltIn where
  fires now attack := by
    cases attack with
    | allocation attack => exact DiscreetAttack.fires now attack
    | leak attack => exact DiscreetAttack.fires now attack
    | load attack => exact DiscreetAttack.fires now attack

theorem applyAll_discreet [DiscreetAttack α] (now index : Nat) (fired : Bool) (attacks : List α) :
    (applyAll now index fired attacks).fired = fired := by
  induction attacks generalizing index fired with
  | nil => rfl
  | cons first rest ih =>
      simp only [applyAll]
      split
      · exact ih (index + 1) fired
      · split
        · rfl
        next unfired =>
          have quiet : (Attack.apply now fired first).fires = fired := by
            rw [Bool.eq_false_iff.mpr unfired]
            exact DiscreetAttack.fires now first
          split
          · exact (ih (index + 1) _).trans quiet
          · exact quiet

theorem Engine.fail_discreet [DiscreetAttack α] (engine : Engine α) (now : Nat) (fired : Bool) :
    (engine.fail now fired).2 = fired := by
  rcases engine.fail_cases now fired with ⟨_, same⟩ | ⟨_, _, same⟩ | ⟨_, error, _, same⟩
  · rw [same]
  · rw [same]
    exact applyAll_discreet now 0 fired engine.attacks
  · rw [same]
    exact applyAll_discreet now 0 fired engine.attacks

end FaultInjection
