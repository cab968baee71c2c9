import FaultInjection.Failure.Specification

/-!
Equality of values, to the letter, which can be decided, and up to the order of mapping entries.
The latter is reflexive and transitive, and sorting the mappings of a value does not lead out of it.
-/

namespace FaultInjection

theorem Binary64.same_refl (number : Binary64) : number.same number = true := by
  cases number <;> simp [same]

theorem Binary64.same_trans (a b c : Binary64) (first : a.same b = true)
    (second : b.same c = true) : a.same c = true := by
  cases a <;> cases b <;> cases c <;>
    simp only [same, Bool.or_eq_true, Bool.and_eq_true, beq_iff_eq, Bool.false_eq_true]
      at first second ⊢
  case infinite => exact first.trans second
  case finite =>
    rcases first with ⟨zero, middle⟩ | ⟨⟨sign, significand⟩, exponent⟩
    · rcases second with ⟨_, last⟩ | ⟨⟨_, same⟩, _⟩
      · exact Or.inl ⟨zero, last⟩
      · exact Or.inl ⟨zero, same ▸ middle⟩
    · subst sign significand exponent
      exact second

namespace Yaml

mutual

/-- Equality of values to the letter. -/
def Value.equal : Value → Value → Bool
  | .null, .null => true
  | .bool a, .bool b => a == b
  | .integer a, .integer b => a == b
  | .float a, .float b => a == b
  | .string a, .string b => a == b
  | .sequence a, .sequence b => equalItems a b
  | .mapping a, .mapping b => equalEntries a b
  | .tagged s a, .tagged t b => s == t && a.equal b
  | _, _ => false

def equalItems : List Value → List Value → Bool
  | [], [] => true
  | a :: as, b :: bs => a.equal b && equalItems as bs
  | _, _ => false

def equalEntries : List (Value × Value) → List (Value × Value) → Bool
  | [], [] => true
  | (key, value) :: rest, (key', value') :: rest' =>
      key.equal key' && value.equal value' && equalEntries rest rest'
  | _, _ => false

end

mutual

theorem Value.equal_iff : ∀ a b : Value, a.equal b = true ↔ a = b
  | .null, b | .bool _, b | .integer _, b | .float _, b | .string _, b => by
      cases b <;> simp [Value.equal]
  | .sequence items, b => by cases b <;> simp [Value.equal, equalItems_iff items]
  | .mapping entries, b => by cases b <;> simp [Value.equal, equalEntries_iff entries]
  | .tagged tag value, b => by cases b <;> simp [Value.equal, Value.equal_iff value]

theorem equalItems_iff : ∀ a b : List Value, equalItems a b = true ↔ a = b
  | [], b => by cases b <;> simp [equalItems]
  | item :: rest, b => by
      cases b <;> simp [equalItems, Value.equal_iff item, equalItems_iff rest]

theorem equalEntries_iff : ∀ a b : List (Value × Value), equalEntries a b = true ↔ a = b
  | [], b => by cases b <;> simp [equalEntries]
  | (key, value) :: rest, b => by
      cases b <;>
        simp [equalEntries, Value.equal_iff key, Value.equal_iff value, equalEntries_iff rest,
          Prod.ext_iff, and_assoc]

end

instance : DecidableEq Value := fun a b => decidable_of_iff _ (Value.equal_iff a b)

theorem sameEntries_iff (entries others : List (Value × Value)) :
    sameEntries entries others = true ↔ ∀ entry ∈ entries, ∃ other ∈ others,
      entry.1.same other.1 = true ∧ entry.2.same other.2 = true := by
  induction entries with
  | nil => simp [sameEntries]
  | cons entry rest ih => simp [sameEntries, ih]

mutual

theorem Value.same_refl : ∀ value : Value, value.same value = true
  | .null | .bool _ | .integer _ | .string _ => by simp [Value.same]
  | .float number => by simp [Value.same, number.same_refl]
  | .sequence items => by simpa [Value.same] using sameItems_refl items
  | .mapping entries => by
      simpa [Value.same] using sameEntries_of_subset entries entries fun _ member => member
  | .tagged tag value => by simp [Value.same, Value.same_refl value]

theorem sameItems_refl : ∀ items : List Value, sameItems items items = true
  | [] => rfl
  | item :: rest => by simp [sameItems, Value.same_refl item, sameItems_refl rest]

theorem sameEntries_of_subset : ∀ entries others : List (Value × Value),
    (∀ entry ∈ entries, entry ∈ others) → sameEntries entries others = true
  | [], _, _ => rfl
  | (key, value) :: rest, others, inside => by
      have here : others.any (fun entry => key.same entry.1 && value.same entry.2) = true :=
        List.any_eq_true.mpr ⟨(key, value), inside _ List.mem_cons_self, by
          simp [Value.same_refl key, Value.same_refl value]⟩
      have tail := sameEntries_of_subset rest others fun entry member =>
        inside entry (List.mem_cons_of_mem _ member)
      rw [sameEntries, here, tail]
      rfl

end

mutual

theorem Value.same_trans : ∀ a b c : Value, a.same b = true → b.same c = true → a.same c = true
  | .null, b, c, first, second => by cases b <;> cases c <;> simp_all [Value.same]
  | .bool _, b, c, first, second => by cases b <;> cases c <;> simp_all [Value.same]
  | .integer _, b, c, first, second => by cases b <;> cases c <;> simp_all [Value.same]
  | .string _, b, c, first, second => by cases b <;> cases c <;> simp_all [Value.same]
  | .float x, b, c, first, second => by
      cases b <;> simp only [Value.same, Bool.false_eq_true] at first
      cases c <;> simp only [Value.same, Bool.false_eq_true] at second ⊢
      exact x.same_trans _ _ first second
  | .sequence items, b, c, first, second => by
      cases b <;> simp only [Value.same, Bool.false_eq_true] at first
      cases c <;> simp only [Value.same, Bool.false_eq_true] at second ⊢
      exact sameItems_trans items _ _ first second
  | .mapping entries, b, c, first, second => by
      cases b <;> simp only [Value.same, Bool.false_eq_true, Bool.and_eq_true, beq_iff_eq] at first
      cases c <;>
        simp only [Value.same, Bool.false_eq_true, Bool.and_eq_true, beq_iff_eq] at second ⊢
      exact ⟨first.1.trans second.1, sameEntries_trans entries _ _ first.2 second.2⟩
  | .tagged tag value, b, c, first, second => by
      cases b <;> simp only [Value.same, Bool.false_eq_true, Bool.and_eq_true, beq_iff_eq] at first
      cases c <;>
        simp only [Value.same, Bool.false_eq_true, Bool.and_eq_true, beq_iff_eq] at second ⊢
      exact ⟨first.1.trans second.1, Value.same_trans value _ _ first.2 second.2⟩

theorem sameItems_trans : ∀ a b c : List Value,
    sameItems a b = true → sameItems b c = true → sameItems a c = true
  | [], b, c, first, second => by cases b <;> cases c <;> simp_all [sameItems]
  | item :: rest, b, c, first, second => by
      cases b <;> simp only [sameItems, Bool.false_eq_true, Bool.and_eq_true] at first
      cases c <;> simp only [sameItems, Bool.false_eq_true, Bool.and_eq_true] at second ⊢
      exact ⟨Value.same_trans item _ _ first.1 second.1, sameItems_trans rest _ _ first.2 second.2⟩

theorem sameEntries_trans : ∀ a b c : List (Value × Value),
    sameEntries a b = true → sameEntries b c = true → sameEntries a c = true
  | [], _, _, _, _ => rfl
  | (key, value) :: rest, b, c, first, second => by
      rw [sameEntries, Bool.and_eq_true, List.any_eq_true] at first ⊢
      obtain ⟨⟨middle, member, alike⟩, tail⟩ := first
      obtain ⟨last, found, keys, values⟩ := (sameEntries_iff b c).mp second middle member
      have start := Bool.and_eq_true_iff.mp alike
      refine ⟨⟨last, found, Bool.and_eq_true_iff.mpr ⟨?_, ?_⟩⟩,
        sameEntries_trans rest b c tail second⟩
      · exact Value.same_trans key _ _ start.1 keys
      · exact Value.same_trans value _ _ start.2 values

end

theorem sortEntries_perm (entries : List (Value × Value)) : (sortEntries entries).Perm entries :=
  List.mergeSort_perm entries _

theorem length_canonicalEntries (entries : List (Value × Value)) :
    (canonicalEntries entries).length = entries.length := by
  induction entries with
  | nil => rfl
  | cons entry rest ih => simp [canonicalEntries, ih]

mutual

theorem Value.canonical_same : ∀ value : Value, value.canonical.same value = true
  | .null | .bool _ | .integer _ | .string _ | .float _ => Value.same_refl _
  | .sequence items => by simpa [Value.canonical, Value.same] using canonicalItems_same items
  | .mapping entries => by
      have sorted := sortEntries_perm (canonicalEntries entries)
      have inside := canonicalEntries_same entries entries fun _ member => member
      rw [Value.canonical, Value.same, Bool.and_eq_true, beq_iff_eq, sameEntries_iff]
      refine ⟨sorted.length_eq.trans (length_canonicalEntries entries), fun entry member => ?_⟩
      exact (sameEntries_iff _ _).mp inside entry (sorted.mem_iff.mp member)
  | .tagged tag value => by simp [Value.canonical, Value.same, Value.canonical_same value]

theorem canonicalItems_same : ∀ items : List Value, sameItems (canonicalItems items) items = true
  | [] => rfl
  | item :: rest => by
      simp [canonicalItems, sameItems, Value.canonical_same item, canonicalItems_same rest]

/-- Each entry of the canonical ones has an equal one among those that it was made from. -/
theorem canonicalEntries_same : ∀ entries others : List (Value × Value),
    (∀ entry ∈ entries, entry ∈ others) → sameEntries (canonicalEntries entries) others = true
  | [], _, _ => rfl
  | (key, value) :: rest, others, inside => by
      have here : others.any (fun entry => key.same entry.1 &&
          value.canonical.same entry.2) = true :=
        List.any_eq_true.mpr ⟨(key, value), inside _ List.mem_cons_self, by
          simp [Value.same_refl key, Value.canonical_same value]⟩
      have tail := canonicalEntries_same rest others fun entry member =>
        inside entry (List.mem_cons_of_mem _ member)
      rw [canonicalEntries, sameEntries, here, tail]
      rfl

end

end Yaml

end FaultInjection
