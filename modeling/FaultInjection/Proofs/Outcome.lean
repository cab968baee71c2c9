/-!
Computations that may fail, taken apart: a chain succeeds when each of its links does.
-/

namespace FaultInjection

variable {ε α β : Type}

theorem bind_eq_ok (first : Except ε α) (next : α → Except ε β) (result : β) :
    (first >>= next) = .ok result ↔ ∃ value, first = .ok value ∧ next value = .ok result := by
  cases first with
  | error error =>
      constructor
      · intro failed; cases failed
      · rintro ⟨value, succeeded, _⟩; cases succeeded
  | ok value =>
      constructor
      · exact fun continued => ⟨value, rfl, continued⟩
      · rintro ⟨_, same, continued⟩; cases same; exact continued

theorem map_eq_ok (first : Except ε α) (change : α → β) (result : β) :
    first.map change = .ok result ↔ ∃ value, first = .ok value ∧ change value = result := by
  cases first with
  | error error =>
      constructor
      · intro failed; cases failed
      · rintro ⟨value, succeeded, _⟩; cases succeeded
  | ok value =>
      constructor
      · exact fun mapped => ⟨value, rfl, Except.ok.inj mapped⟩
      · rintro ⟨_, same, rfl⟩; cases same; rfl

theorem isOk_iff (outcome : Except ε α) :
    outcome.isOk = true ↔ ∃ result, outcome = .ok result := by
  cases outcome with
  | error error => exact ⟨nofun, nofun⟩
  | ok result => exact ⟨fun _ => ⟨result, rfl⟩, fun _ => rfl⟩

theorem isOk_map (change : α → β) (outcome : Except ε α) :
    (outcome.map change).isOk = outcome.isOk := by
  cases outcome <;> rfl

theorem toOption_eq_some (outcome : Except ε α) (result : α) :
    outcome.toOption = some result ↔ outcome = .ok result := by
  cases outcome <;> simp [Except.toOption]

/-- What holds before a step that may fail, and after one that succeeds. -/
theorem getD_keeps (kept : α → Prop) (outcome : Except ε α) (before : α) (start : kept before)
    (step : ∀ after, outcome = .ok after → kept after) : kept (outcome.toOption.getD before) := by
  cases outcome with
  | error error => exact start
  | ok after => exact step after rfl

end FaultInjection
