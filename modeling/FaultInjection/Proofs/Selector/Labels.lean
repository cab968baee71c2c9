import FaultInjection.Proofs.Selector.Reading

/-!
Labels and selectors that are read from the same text. A text gives labels exactly if it is a
selector. Of several values under one key the labels keep the last one, while the selector asks for
all of them; so it accepts the labels of its own text unless the text disagrees with itself.
-/

namespace FaultInjection

namespace Selector

/-- A text gives a key a value, and does not give the key any value behind that place. -/
def GivesLast (text key value : String) : Prop :=
  ∃ earlier part later, sections text = earlier ++ part :: later ∧ States part (key, value) ∧
    ∀ other ∈ later, ∀ another, ¬ States other (key, another)

/-- The labels are those that the text gives last. -/
theorem get?_labels (text : String) (selector : Selector) (accepted : parse text = .ok selector)
    (key value : String) :
    (Table.ofEntries selector.requirements).get? key = some value ↔ GivesLast text key value := by
  rw [Table.get?_ofEntries_eq_some_iff, ((parse_eq_ok_iff text selector).mp accepted).2]
  constructor
  · rintro ⟨front, back, split, others⟩
    -- behind the part that gives the last requirement all parts are idle or have another key
    obtain ⟨first, second, whole, _, rest⟩ := List.filterMap_eq_append_iff.mp split
    obtain ⟨idle, part, later, rfl, _, stated, rfl⟩ := List.filterMap_eq_cons_iff.mp rest
    refine ⟨first ++ idle, part, later, by simp [whole], (stated?_eq_some_iff _ _).mp stated, ?_⟩
    intro other member another states
    have listed := List.mem_filterMap.mpr ⟨other, member, (stated?_eq_some_iff _ _).mpr states⟩
    exact others (key, another) listed rfl
  · rintro ⟨earlier, part, later, whole, states, others⟩
    refine ⟨earlier.filterMap stated?, later.filterMap stated?, ?_, ?_⟩
    · have stated := (stated?_eq_some_iff _ _).mpr states
      rw [whole, List.filterMap_append, List.filterMap_cons_some stated]
    · rintro ⟨name, another⟩ member rfl
      obtain ⟨other, inside, stated⟩ := List.mem_filterMap.mp member
      exact others other inside another ((stated?_eq_some_iff _ _).mp stated)

/-- Requirements are met by the labels that they give if no two of them are about the same key and
ask for different values. -/
theorem accepts_own_labels (selector : Selector) :
    selector.accepts (Table.ofEntries selector.requirements) = true ↔
      ∀ key first second, (key, first) ∈ selector.requirements →
        (key, second) ∈ selector.requirements → first = second := by
  simp only [accepts, List.all_eq_true, decide_eq_true_eq]
  constructor
  · intro met key first second one other
    exact Option.some.inj ((met _ one).symm.trans (met _ other))
  · rintro agreed ⟨key, value⟩ listed
    have known := (Table.mem_keys_ofEntries selector.requirements key).mpr ⟨value, listed⟩
    rw [Table.mem_keys_iff, Option.isSome_iff_exists] at known
    obtain ⟨kept, found⟩ := known
    have member := Table.mem_ofEntries _ _ (Table.mem_of_get? _ _ _ found)
    rw [found, agreed key kept value member listed]

end Selector

namespace Labels

open Selector

/-- A text gives labels exactly if it is a selector, and is refused for the same reason otherwise.
The labels are those that it gives last, and no others; and its selector accepts them exactly if
the text never gives two different values to one key. -/
theorem labels_of_text (text : String) :
    (parse text).isOk = (Selector.parse text).isOk ∧
    (∀ error, parse text = .error error ↔ Selector.parse text = .error error) ∧
    ∀ labels selector, parse text = .ok labels → Selector.parse text = .ok selector →
      labels.Ordered ∧
      (∀ key value, labels.get? key = some value ↔ GivesLast text key value) ∧
      (∀ key, key ∈ labels.keys ↔ ∃ value, Gives text key value) ∧
      (selector.accepts labels = true ↔
        ∀ key first second, Gives text key first → Gives text key second → first = second) := by
  refine ⟨isOk_map _ _, fun error => ?refused, fun labels selector given accepted => ?taken⟩
  case refused =>
    rw [parse]
    cases Selector.parse text with
    | error cause => simp [Except.map]
    | ok selector => simp [Except.map]
  case taken =>
    have stated := mem_requirements text selector accepted
    have same : labels = Table.ofEntries selector.requirements := by
      rw [parse, accepted] at given
      exact (Except.ok.inj given).symm
    refine ⟨same ▸ Table.ofEntries_ordered _, ?_, ?_, ?_⟩
    · rw [same]
      exact get?_labels text selector accepted
    · intro key
      rw [same, Table.mem_keys_ofEntries]
      simp only [stated]
    · rw [same, accepts_own_labels]
      simp only [stated]

/-- A text that gives a key two values, and another key the same value twice. -/
theorem labels_of_text_divided :
    let text := "role=db, zone = eu,zone=eu ,role=web"
    let labels : Labels := [("role", "web"), ("zone", "eu")]
    let selector : Selector :=
      ⟨[("role", "db"), ("zone", "eu"), ("zone", "eu"), ("role", "web")]⟩
    parse text = .ok labels ∧ Selector.parse text = .ok selector ∧
      GivesLast text "role" "web" ∧ selector.accepts labels = false ∧
      ∃ key first second, Gives text key first ∧ Gives text key second ∧ first ≠ second := by
  intro text labels selector
  have given : parse text = .ok labels := by decide +kernel
  have accepted : Selector.parse text = .ok selector := by decide +kernel
  obtain ⟨_, last, _, met⟩ := (labels_of_text text).2.2 labels selector given accepted
  have refused : selector.accepts labels = false := by decide
  -- that no two values disagree would make the selector accept the labels
  refine ⟨given, accepted, (last "role" "web").mp (by decide), refused, ?_⟩
  by_contra agreed
  have accepts := met.mpr fun key first second one other => by
    by_contra different
    exact agreed ⟨key, first, second, one, other, different⟩
  cases refused.symm.trans accepts

end Labels

end FaultInjection
