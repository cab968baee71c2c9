import FaultInjection.Attack.Rehearsal
import FaultInjection.Proofs.Outcome

/-!
The laws that every attack keeps: an attempt that succeeds leaves the attack applied, one that
fails leaves it as it was, a revert that succeeds leaves it idle, and time alone changes neither.
An attack that is new is idle.
-/

namespace FaultInjection

variable {α : Type}

class LawfulAttack (α : Type) [Attack α] : Prop where
  applied_of_ok : ∀ (now : Nat) (fired : Bool) (attack : α),
    (Attack.apply now fired attack).result = .ok () →
      Attack.isApplied (Attack.apply now fired attack).attack = true
  kept_of_error : ∀ (now : Nat) (fired : Bool) (attack : α) (error : Error),
    (Attack.apply now fired attack).result = .error error →
      Attack.isApplied (Attack.apply now fired attack).attack = Attack.isApplied attack
  idle_of_reverted : ∀ attack : α,
    (Attack.revert attack).1 = .ok () → Attack.isApplied (Attack.revert attack).2 = false
  applied_advance : ∀ (now : Nat) (attack : α),
    Attack.isApplied (Attack.advance now attack) = Attack.isApplied attack

/-- Attacks that a revert ends, whatever it tells. -/
class ReversibleAttack (α : Type) [Attack α] : Prop extends LawfulAttack α where
  idle_of_revert : ∀ attack : α, Attack.isApplied (Attack.revert attack).2 = false

/-- Attacks whose revert always succeeds are such. -/
theorem ReversibleAttack.of_reverted_ok [Attack α] [LawfulAttack α]
    (succeeds : ∀ attack : α, (Attack.revert attack).1 = .ok ()) : ReversibleAttack α :=
  ⟨fun attack => LawfulAttack.idle_of_reverted attack (succeeds attack)⟩

def Catalogue.BuildsIdle [Attack α] (catalogue : Catalogue α) : Prop :=
  ∀ kind options attack, catalogue.create kind options = .ok attack →
    Attack.isApplied attack = false

/-! The rule about tokens and repeated attempts passes the laws of what it starts on. -/

theorem startUnless_ok (isApplied : α → Bool) (fired applied : Bool) (attack : α)
    (start : Attempt α) (law : start.result = .ok () → isApplied start.attack = true)
    (succeeded : (startUnless fired applied attack start).result = .ok ()) :
    isApplied (startUnless fired applied attack start).attack = true := by
  cases fired with
  | true => cases succeeded
  | false =>
      cases applied with
      | true => cases succeeded
      | false => exact law succeeded

theorem startUnless_error (isApplied : α → Bool) (fired applied : Bool) (attack : α)
    (start : Attempt α) (error : Error)
    (law : start.result = .error error → isApplied start.attack = isApplied attack)
    (failed : (startUnless fired applied attack start).result = .error error) :
    isApplied (startUnless fired applied attack start).attack = isApplied attack := by
  cases fired with
  | true => rfl
  | false =>
      cases applied with
      | true => rfl
      | false => exact law failed

/-! The kinds that every node has -/

theorem Leak.advance_run [Host] (now : Nat) (leak : Leak) :
    (Leak.advance now leak).run.isSome = leak.run.isSome := by
  cases running : leak.run <;> simp [Leak.advance, running]

instance [Host] : LawfulAttack Allocation where
  applied_of_ok now fired attack := by
    apply startUnless_ok
    unfold Allocation.start
    split
    · intro refused; cases refused
    · intro _; rfl
  kept_of_error now fired attack error := by
    apply startUnless_error
    unfold Allocation.start
    split
    · intro _; rfl
    · intro succeeded; cases succeeded
  idle_of_reverted attack _ := rfl
  applied_advance now attack := rfl

instance [Host] : LawfulAttack Leak where
  applied_of_ok now fired attack := by
    apply startUnless_ok
    intro _
    exact Leak.advance_run now _
  kept_of_error now fired attack error := by
    apply startUnless_error
    intro failed
    cases failed
  idle_of_reverted attack _ := rfl
  applied_advance := Leak.advance_run

instance [Host] : LawfulAttack Load where
  applied_of_ok now fired attack := by
    apply startUnless_ok
    unfold Load.start
    split
    · intro refused; cases refused
    · intro _
      exact decide_eq_true (Nat.pos_iff_ne_zero.mp attack.coresPositive)
  kept_of_error now fired attack error := by
    apply startUnless_error
    unfold Load.start
    split
    · intro _; rfl
    · intro succeeded; cases succeeded
  idle_of_reverted attack _ := rfl
  applied_advance now attack := rfl

instance [Host] : LawfulAttack BuiltIn where
  applied_of_ok now fired attack succeeded := by
    cases attack with
    | allocation attack => exact LawfulAttack.applied_of_ok now fired attack succeeded
    | leak attack => exact LawfulAttack.applied_of_ok now fired attack succeeded
    | load attack => exact LawfulAttack.applied_of_ok now fired attack succeeded
  kept_of_error now fired attack error failed := by
    cases attack with
    | allocation attack => exact LawfulAttack.kept_of_error now fired attack error failed
    | leak attack => exact LawfulAttack.kept_of_error now fired attack error failed
    | load attack => exact LawfulAttack.kept_of_error now fired attack error failed
  idle_of_reverted attack succeeded := by
    cases attack with
    | allocation attack => exact LawfulAttack.idle_of_reverted attack succeeded
    | leak attack => exact LawfulAttack.idle_of_reverted attack succeeded
    | load attack => exact LawfulAttack.idle_of_reverted attack succeeded
  applied_advance now attack := by
    cases attack with
    | allocation attack => exact LawfulAttack.applied_advance now attack
    | leak attack => exact LawfulAttack.applied_advance now attack
    | load attack => exact LawfulAttack.applied_advance now attack

instance [Host] : ReversibleAttack Allocation := .of_reverted_ok fun _ => rfl

instance [Host] : ReversibleAttack Leak where
  idle_of_revert _ := rfl

instance [Host] : ReversibleAttack Load where
  idle_of_revert _ := rfl

instance [Host] : ReversibleAttack BuiltIn where
  idle_of_revert attack := by
    cases attack with
    | allocation attack => exact ReversibleAttack.idle_of_revert attack
    | leak attack => exact ReversibleAttack.idle_of_revert attack
    | load attack => exact ReversibleAttack.idle_of_revert attack

/-! The rehearsed ones -/

theorem Scripted.play_ok (scripted : Scripted) (succeeded : scripted.play.result = .ok ()) :
    scripted.play.attack.applied = true := by
  cases script : scripted.script <;> simp only [Scripted.play, script] at succeeded ⊢
  case flaky =>
    split at succeeded
    next again => simp [again, Attempt.succeed]
    next => cases succeeded
  case failing => cases succeeded
  case cancelled => cases succeeded
  all_goals rfl

theorem Scripted.play_error (scripted : Scripted) (error : Error)
    (failed : scripted.play.result = .error error) :
    scripted.play.attack.applied = scripted.applied := by
  cases script : scripted.script <;> simp only [Scripted.play, script] at failed ⊢
  case flaky =>
    split at failed
    next => cases failed
    next first => simp [first, Attempt.refuse]
  case failing => rfl
  case cancelled => rfl
  all_goals cases failed

instance : LawfulAttack Scripted where
  applied_of_ok now fired scripted := by
    apply startUnless_ok
    exact scripted.play_ok
  kept_of_error now fired scripted error := by
    apply startUnless_error
    exact scripted.play_error error
  idle_of_reverted scripted succeeded := by
    cases script : scripted.script <;> simp_all [Attack.revert, Attack.isApplied]
  applied_advance now scripted := rfl

instance [Host] : LawfulAttack Rehearsal where
  applied_of_ok now fired attack succeeded := by
    cases attack with
    | scripted attack => exact LawfulAttack.applied_of_ok now fired attack succeeded
    | real attack => exact LawfulAttack.applied_of_ok now fired attack succeeded
  kept_of_error now fired attack error failed := by
    cases attack with
    | scripted attack => exact LawfulAttack.kept_of_error now fired attack error failed
    | real attack => exact LawfulAttack.kept_of_error now fired attack error failed
  idle_of_reverted attack succeeded := by
    cases attack with
    | scripted attack => exact LawfulAttack.idle_of_reverted attack succeeded
    | real attack => exact LawfulAttack.idle_of_reverted attack succeeded
  applied_advance now attack := by
    cases attack with
    | scripted attack => exact LawfulAttack.applied_advance now attack
    | real attack => exact LawfulAttack.applied_advance now attack

/-! New attacks -/

theorem buildsIdle_of_entries [Attack α] (catalogue : Catalogue α)
    (idle : ∀ entry ∈ catalogue, ∀ options attack, entry.2 options = .ok attack →
      Attack.isApplied attack = false) : catalogue.BuildsIdle := by
  intro kind options attack created
  unfold Catalogue.create at created
  split at created
  next build found =>
    exact idle (kind, build) (Table.mem_of_get? catalogue kind build found) options attack created
  next => cases created

theorem Allocation.held_ofOptions (options : Option Options) (attack : Allocation)
    (built : Allocation.ofOptions options = .ok attack) : attack.held = none := by
  obtain ⟨checked, _, built⟩ := (bind_eq_ok _ _ _).mp built
  obtain ⟨size, _, built⟩ := (bind_eq_ok _ _ _).mp built
  cases built
  rfl

theorem Leak.run_ofOptions (options : Option Options) (attack : Leak)
    (built : Leak.ofOptions options = .ok attack) : attack.run = none := by
  obtain ⟨checked, _, built⟩ := (bind_eq_ok _ _ _).mp built
  obtain ⟨size, _, built⟩ := (bind_eq_ok _ _ _).mp built
  dsimp only at built
  split at built
  · cases built
    rfl
  · cases built

theorem Load.workers_ofOptions [Host] (options : Option Options) (attack : Load)
    (built : Load.ofOptions options = .ok attack) : attack.workers = 0 ∧ attack.since = 0 := by
  unfold Load.ofOptions at built
  split at built
  · cases built
  · dsimp only at built
    split at built
    · cases built
    · cases built
      exact ⟨rfl, rfl⟩

theorem BuiltIn.idle_of_entry [Host] :
    ∀ entry ∈ BuiltIn.catalogue, ∀ options attack, entry.2 options = .ok attack →
      Attack.isApplied attack = false := by
  intro entry member options attack built
  have listed := Table.mem_ofEntries _ entry member
  simp only [List.mem_cons, List.not_mem_nil, or_false] at listed
  rcases listed with rfl | rfl | rfl
  · obtain ⟨made, new, rfl⟩ := (map_eq_ok _ _ _).mp built
    simp [Attack.isApplied, Allocation.held_ofOptions options made new]
  · obtain ⟨made, new, rfl⟩ := (map_eq_ok _ _ _).mp built
    simp [Attack.isApplied, Leak.run_ofOptions options made new]
  · obtain ⟨made, new, rfl⟩ := (map_eq_ok _ _ _).mp built
    simp [Attack.isApplied, (Load.workers_ofOptions options made new).1]

theorem BuiltIn.catalogue_buildsIdle [Host] : BuiltIn.catalogue.BuildsIdle :=
  buildsIdle_of_entries BuiltIn.catalogue BuiltIn.idle_of_entry

theorem Scripted.applied_ofOptions (script : Script) (options : Option Options) :
    (Scripted.ofOptions script options).applied = false := by
  unfold Scripted.ofOptions
  split <;> rfl

/-- One kind for each script, and no real ones. -/
def Scripted.catalogue : Catalogue Scripted :=
  Script.all.map fun script => (script.kind, fun options => .ok (.ofOptions script options))

theorem Scripted.catalogue_buildsIdle : Scripted.catalogue.BuildsIdle := by
  apply buildsIdle_of_entries
  intro entry member options attack built
  obtain ⟨script, _, rfl⟩ := List.mem_map.mp member
  cases built
  exact Scripted.applied_ofOptions script options

theorem Rehearsal.catalogue_buildsIdle [Host] : Rehearsal.catalogue.BuildsIdle := by
  apply buildsIdle_of_entries
  intro entry member options attack built
  rcases List.mem_append.mp (Table.mem_ofEntries _ entry member) with real | scripted
  · obtain ⟨original, known, rfl⟩ := List.mem_map.mp real
    obtain ⟨made, new, rfl⟩ := (map_eq_ok _ _ _).mp built
    exact BuiltIn.idle_of_entry original known options made new
  · obtain ⟨script, _, rfl⟩ := List.mem_map.mp scripted
    cases built
    exact Scripted.applied_ofOptions script options

end FaultInjection
