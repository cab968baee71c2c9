import Mathlib.Data.List.Basic
import FaultInjection.Engine.Basic
import FaultInjection.Proofs.Attack.Lifecycle

/-!
What one pass over the attacks of an engine does to them. An apply pass leaves applied attacks
alone and starts the others in order, until all are applied or it has to stop at one. A revert pass
ends exactly the applied attacks, last first, and goes on past those that complain.
-/

namespace FaultInjection

variable {α : Type} [Attack α]

def idlePlaces (index : Nat) (attacks : List α) : List Nat :=
  attacks.findIdxs (fun attack => !Attack.isApplied attack) index

def appliedPlaces (index : Nat) (attacks : List α) : List Nat :=
  attacks.findIdxs Attack.isApplied index

theorem mem_idlePlaces (attacks : List α) (place : Nat) :
    place ∈ idlePlaces 0 attacks ↔
      ∃ attack, attacks[place]? = some attack ∧ Attack.isApplied attack = false := by
  simp [idlePlaces, List.getElem?_eq_some_iff]

theorem mem_appliedPlaces (attacks : List α) (place : Nat) :
    place ∈ appliedPlaces 0 attacks ↔
      ∃ attack, attacks[place]? = some attack ∧ Attack.isApplied attack = true := by
  simp [appliedPlaces, List.getElem?_eq_some_iff]

theorem idlePlaces_cons (index : Nat) (first : α) (rest : List α) :
    idlePlaces index (first :: rest) =
      if Attack.isApplied first then idlePlaces (index + 1) rest
      else index :: idlePlaces (index + 1) rest := by
  unfold idlePlaces
  rw [List.findIdxs_cons]
  cases Attack.isApplied first <;> rfl

theorem appliedPlaces_cons (index : Nat) (first : α) (rest : List α) :
    appliedPlaces index (first :: rest) =
      if Attack.isApplied first then index :: appliedPlaces (index + 1) rest
      else appliedPlaces (index + 1) rest :=
  List.findIdxs_cons

/-! Applying -/

theorem applyAll_applied [LawfulAttack α] (now index : Nat) (fired : Bool) (attacks : List α)
    (succeeded : (applyAll now index fired attacks).result = .ok ()) :
    ∀ attack ∈ (applyAll now index fired attacks).attacks, Attack.isApplied attack = true := by
  induction attacks generalizing index fired with
  | nil => intro attack member; cases member
  | cons first rest ih =>
      simp only [applyAll] at succeeded ⊢
      split at succeeded
      next applied =>
        rw [if_pos applied]
        intro attack member
        rcases List.mem_cons.mp member with rfl | later
        · exact applied
        · exact ih (index + 1) fired succeeded attack later
      next idle =>
        rw [if_neg idle]
        split at succeeded
        · cases succeeded
        next unfired =>
          rw [if_neg unfired]
          cases attempted : (Attack.apply now fired first).result with
          | error error =>
              simp only [attempted] at succeeded
              cases succeeded
          | ok done =>
              simp only [attempted] at succeeded ⊢
              intro attack member
              rcases List.mem_cons.mp member with rfl | later
              · exact LawfulAttack.applied_of_ok now fired first attempted
              · exact ih (index + 1) _ succeeded attack later

theorem mem_applyAll (now index : Nat) (fired : Bool) (attacks : List α) (attack : α)
    (member : attack ∈ attacks) (applied : Attack.isApplied attack = true) :
    attack ∈ (applyAll now index fired attacks).attacks := by
  induction attacks generalizing index fired with
  | nil => cases member
  | cons first rest ih =>
      simp only [applyAll]
      by_cases busy : Attack.isApplied first = true
      · rw [if_pos busy]
        rcases List.mem_cons.mp member with rfl | later
        · exact List.mem_cons_self
        · exact List.mem_cons_of_mem first (ih (index + 1) fired later)
      · have later : attack ∈ rest := by
          rcases List.mem_cons.mp member with rfl | later
          · exact absurd applied busy
          · exact later
        rw [if_neg busy]
        split
        · exact List.mem_cons_of_mem first later
        · split
          · exact List.mem_cons_of_mem _ (ih (index + 1) _ later)
          · exact List.mem_cons_of_mem _ later

theorem length_applyAll (now index : Nat) (fired : Bool) (attacks : List α) :
    (applyAll now index fired attacks).attacks.length = attacks.length := by
  induction attacks generalizing index fired with
  | nil => rfl
  | cons first rest ih =>
      simp only [applyAll]
      split
      · exact congrArg (· + 1) (ih (index + 1) fired)
      · split
        · rfl
        · split
          · exact congrArg (· + 1) (ih (index + 1) _)
          · rfl

/-- A pass that starts every attack starts those that were idle. -/
theorem applyAll_uses (now index : Nat) (fired : Bool) (attacks : List α)
    (succeeded : (applyAll now index fired attacks).result = .ok ()) :
    (applyAll now index fired attacks).uses = (idlePlaces index attacks).map .apply := by
  induction attacks generalizing index fired with
  | nil => rfl
  | cons first rest ih =>
      rw [idlePlaces_cons]
      simp only [applyAll] at succeeded ⊢
      split at succeeded
      next applied =>
        rw [if_pos applied, if_pos applied]
        exact ih (index + 1) fired succeeded
      next idle =>
        rw [if_neg idle, if_neg idle]
        split at succeeded
        · cases succeeded
        next unfired =>
          rw [if_neg unfired]
          cases attempted : (Attack.apply now fired first).result with
          | error error =>
              simp only [attempted] at succeeded
              cases succeeded
          | ok done =>
              simp only [attempted] at succeeded ⊢
              exact congrArg _ (ih (index + 1) _ succeeded)

/-- A pass that has stopped at an attack, between those that were started before and those that it
has not come to. -/
structure Halted (now index : Nat) (pass : ApplyPass α) (before : List α) (attack : α)
    (behind : List α) : Prop where
  idle : Attack.isApplied attack = false
  left : ∃ started last, pass.attacks = started ++ last :: behind ∧
    started.length = before.length ∧ (∀ attack ∈ started, Attack.isApplied attack = true) ∧
    Attack.isApplied last = false
  told : (pass.result = .error (.cancelled (index + before.length)) ∧
      pass.uses = (idlePlaces index before).map .apply) ∨
    ∃ cause, (Attack.apply now false attack).result = .error cause ∧
      pass.result = .error (stopCause (index + before.length) (Attack.kind attack) cause) ∧
      pass.uses = (idlePlaces index before ++ [index + before.length]).map .apply

/-- A pass that has stopped further on has the attack before it applied. -/
theorem Halted.cons {now index : Nat} {later pass : ApplyPass α} {before behind : List α}
    {attack : α} (halted : Halted now (index + 1) later before attack behind) (first made : α)
    (applied : Attack.isApplied made = true) (result : pass.result = later.result)
    (attacks : pass.attacks = made :: later.attacks)
    (uses : pass.uses = (idlePlaces index [first]).map .apply ++ later.uses) :
    Halted now index pass (first :: before) attack behind := by
  have places : idlePlaces index (first :: before) =
      idlePlaces index [first] ++ idlePlaces (index + 1) before := by
    rw [idlePlaces_cons, idlePlaces_cons]
    split <;> rfl
  have place : index + 1 + before.length = index + (first :: before).length := by
    rw [List.length_cons]
    omega
  obtain ⟨started, last, left, length, all, idle⟩ := halted.left
  refine ⟨halted.idle, ⟨made :: started, last, ?_, ?_, ?_, idle⟩, ?_⟩
  · rw [attacks, left, List.cons_append]
  · rw [List.length_cons, length, List.length_cons]
  · intro other member
    rcases List.mem_cons.mp member with rfl | earlier
    · exact applied
    · exact all other earlier
  · rw [result, uses, ← place, places]
    rcases halted.told with ⟨told, used⟩ | ⟨cause, refused, told, used⟩
    · exact Or.inl ⟨told, by rw [used, List.map_append]⟩
    · exact Or.inr ⟨cause, refused, told, by rw [used, List.append_assoc, ← List.map_append]⟩

/-- A pass that fails has stopped at an attack that is still idle. -/
theorem applyAll_halted [LawfulAttack α] (now index : Nat) (fired : Bool) (attacks : List α)
    (error : Error) (failed : (applyAll now index fired attacks).result = .error error) :
    ∃ before attack behind, attacks = before ++ attack :: behind ∧
      Halted now index (applyAll now index fired attacks) before attack behind := by
  induction attacks generalizing index fired with
  | nil => cases failed
  | cons first rest ih =>
      by_cases applied : Attack.isApplied first = true
      · simp only [applyAll, if_pos applied] at failed ⊢
        obtain ⟨before, attack, behind, rfl, halted⟩ := ih (index + 1) fired failed
        refine ⟨first :: before, attack, behind, rfl, halted.cons first first applied rfl rfl ?_⟩
        simp [idlePlaces, applied]
      · have idle := Bool.eq_false_iff.mpr applied
        simp only [applyAll, if_neg applied] at failed ⊢
        cases fired with
        | true =>
            exact ⟨[], first, rest, rfl, idle, ⟨[], first, rfl, rfl, List.forall_mem_nil _, idle⟩,
              Or.inl ⟨rfl, rfl⟩⟩
        | false =>
            simp only [Bool.false_eq_true, ↓reduceIte] at failed ⊢
            cases attempted : (Attack.apply now false first).result with
            | ok done =>
                simp only [attempted] at failed ⊢
                obtain ⟨before, attack, behind, rfl, halted⟩ := ih (index + 1) _ failed
                refine ⟨first :: before, attack, behind, rfl, halted.cons first
                  (Attack.apply now false first).attack ?_ rfl rfl ?_⟩
                · exact LawfulAttack.applied_of_ok now false first attempted
                · simp [idlePlaces, applied]
            | error cause =>
                have kept := LawfulAttack.kept_of_error now false first cause attempted
                exact ⟨[], first, rest, rfl, idle,
                  ⟨[], _, rfl, rfl, List.forall_mem_nil _, kept.trans idle⟩,
                  Or.inr ⟨cause, attempted, rfl, rfl⟩⟩

theorem applyAll_stopped [LawfulAttack α] (now index : Nat) (fired : Bool) (attacks : List α)
    (error : Error) (failed : (applyAll now index fired attacks).result = .error error) :
    ∃ attack ∈ (applyAll now index fired attacks).attacks, Attack.isApplied attack = false := by
  obtain ⟨before, attack, behind, _, halted⟩ :=
    applyAll_halted now index fired attacks error failed
  obtain ⟨started, last, left, _, _, idle⟩ := halted.left
  refine ⟨last, ?_, idle⟩
  rw [left]
  exact List.mem_append_right _ List.mem_cons_self

/-! Reverting -/

def reverted (attack : α) : α :=
  if Attack.isApplied attack then (Attack.revert attack).2 else attack

theorem revertAll_attacks (index : Nat) (attacks : List α) :
    (revertAll index attacks).attacks = attacks.map reverted := by
  induction attacks generalizing index with
  | nil => rfl
  | cons first rest ih =>
      by_cases applied : Attack.isApplied first = true <;>
        simp [revertAll, reverted, applied, ih]

theorem revertAll_uses (index : Nat) (attacks : List α) :
    (revertAll index attacks).uses = (appliedPlaces index attacks).reverse.map .revert := by
  induction attacks generalizing index with
  | nil => rfl
  | cons first rest ih =>
      rw [appliedPlaces_cons, revertAll]
      split
      · rw [List.reverse_cons, List.map_append, ih]
        rfl
      · exact ih (index + 1)

/-- What the attacks that are applied complain of when they are reverted, last first. -/
def complaints (attacks : List α) : List String :=
  (attacks.filter Attack.isApplied).reverse.flatMap fun attack =>
    revertFault attack (Attack.revert attack).1

theorem revertAll_faults (index : Nat) (attacks : List α) :
    (revertAll index attacks).faults = complaints attacks := by
  unfold complaints
  induction attacks generalizing index with
  | nil => rfl
  | cons first rest ih =>
      rw [revertAll, List.filter_cons]
      split
      · rw [List.reverse_cons, List.flatMap_append, ← ih (index + 1), List.flatMap_singleton]
      · exact ih (index + 1)

theorem revertFault_eq_nil_iff (attack : α) (answer : Except Error Unit) :
    revertFault attack answer = [] ↔ answer = .ok () := by
  cases answer <;> simp [revertFault]

theorem complaints_eq_nil_iff (attacks : List α) :
    complaints attacks = [] ↔ ∀ attack ∈ attacks, Attack.isApplied attack = true →
      (Attack.revert attack).1 = .ok () := by
  simp only [complaints, List.flatMap_eq_nil_iff, List.mem_reverse, List.mem_filter,
    revertFault_eq_nil_iff, and_imp]

theorem reverted_idle_of_ended (attack : α)
    (ended : Attack.isApplied attack = true → Attack.isApplied (Attack.revert attack).2 = false) :
    Attack.isApplied (reverted attack) = false := by
  unfold reverted
  split
  next applied => exact ended applied
  next idle => exact Bool.eq_false_iff.mpr idle

theorem reverted_idle [LawfulAttack α] (attack : α)
    (succeeded : Attack.isApplied attack = true → (Attack.revert attack).1 = .ok ()) :
    Attack.isApplied (reverted attack) = false :=
  reverted_idle_of_ended attack fun applied =>
    LawfulAttack.idle_of_reverted attack (succeeded applied)

end FaultInjection
