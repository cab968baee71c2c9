import FaultInjection.Failure.Specification

/-!
The canonical form of a value has its mappings in order, and values in order stay as they are, to
the last entry. So there is nothing left to do once a value is canonical.
-/

namespace FaultInjection.Yaml

def Sorted (entries : List (Value × Value)) : Prop :=
  entries.Pairwise fun first second => (!decide (second.1.sortKey < first.1.sortKey)) = true

theorem not_after_iff (first second : Value × Value) :
    (!decide (second.1.sortKey < first.1.sortKey)) = true ↔
      first.1.sortKey ≤ second.1.sortKey := by
  rw [Bool.not_eq_true', decide_eq_false_iff_not, String.not_lt]

theorem sortKey_trans (first second third : Value × Value)
    (before : (!decide (second.1.sortKey < first.1.sortKey)) = true)
    (after : (!decide (third.1.sortKey < second.1.sortKey)) = true) :
    (!decide (third.1.sortKey < first.1.sortKey)) = true := by
  rw [not_after_iff] at before after ⊢
  exact String.le_trans before after

theorem sortKey_total (first second : Value × Value) :
    (!decide (second.1.sortKey < first.1.sortKey) ||
      !decide (first.1.sortKey < second.1.sortKey)) = true := by
  rw [Bool.or_eq_true, not_after_iff, not_after_iff]
  exact String.le_total _ _

theorem sortEntries_sorted (entries : List (Value × Value)) : Sorted (sortEntries entries) :=
  List.pairwise_mergeSort sortKey_trans sortKey_total entries

theorem sortEntries_of_sorted (entries : List (Value × Value)) (sorted : Sorted entries) :
    sortEntries entries = entries :=
  List.mergeSort_of_pairwise sorted

theorem sortEntries_swap (first second : Value × Value)
    (before : second.1.sortKey < first.1.sortKey) :
    sortEntries [first, second] = [second, first] := by
  have ascending : Sorted [second, first] :=
    List.pairwise_pair.mpr (by rw [decide_eq_false (String.lt_asymm before), Bool.not_false])
  have same : (sortEntries [first, second]).Perm [second, first] :=
    (List.mergeSort_perm _ _).trans (List.Perm.swap _ _ _)
  refine List.Perm.eq_of_pairwise ?_ (sortEntries_sorted _) ascending same
  have pair : ∀ entry ∈ [second, first], entry = second ∨ entry = first := by simp
  rintro here there member other forward backward
  rcases pair here (same.mem_iff.mp member) with rfl | rfl <;>
    rcases pair there other with rfl | rfl
  · rfl
  · rw [decide_eq_true before] at backward
    cases backward
  · rw [decide_eq_true before] at forward
    cases forward
  · rfl

theorem canonicalEntries_eq (entries : List (Value × Value)) :
    canonicalEntries entries = entries.map fun entry => (entry.1, entry.2.canonical) := by
  induction entries with
  | nil => rfl
  | cons entry rest ih => rw [canonicalEntries, ih, List.map_cons]

theorem canonicalItems_eq (items : List Value) :
    canonicalItems items = items.map Value.canonical := by
  induction items with
  | nil => rfl
  | cons item rest ih => rw [canonicalItems, ih, List.map_cons]

/-- Entries whose values are canonical. -/
theorem canonicalEntries_self (entries : List (Value × Value))
    (canonical : ∀ entry ∈ entries, entry.2.canonical = entry.2) :
    canonicalEntries entries = entries := by
  rw [canonicalEntries_eq]
  refine (List.map_congr_left fun entry member => ?_).trans (List.map_id entries)
  rw [canonical entry member]
  rfl

mutual

theorem Value.canonical_canonical : ∀ value : Value, value.canonical.canonical = value.canonical
  | .null | .bool _ | .integer _ | .float _ | .string _ => rfl
  | .sequence items => by
      rw [Value.canonical, Value.canonical, canonicalItems_canonical items]
  | .mapping entries => by
      have kept : canonicalEntries (sortEntries (canonicalEntries entries)) =
          sortEntries (canonicalEntries entries) := by
        refine canonicalEntries_self _ fun entry member => ?_
        exact canonicalEntries_canonical entries entry ((List.mem_mergeSort).mp member)
      rw [Value.canonical, Value.canonical, kept, sortEntries_of_sorted _ (sortEntries_sorted _)]
  | .tagged tag value => by
      rw [Value.canonical, Value.canonical, Value.canonical_canonical value]

theorem canonicalItems_canonical : ∀ items : List Value,
    canonicalItems (canonicalItems items) = canonicalItems items
  | [] => rfl
  | item :: rest => by
      simp only [canonicalItems, Value.canonical_canonical item, canonicalItems_canonical rest]

theorem canonicalEntries_canonical : ∀ entries : List (Value × Value),
    ∀ entry ∈ canonicalEntries entries, entry.2.canonical = entry.2
  | [] => List.forall_mem_nil _
  | (_, value) :: rest =>
      List.forall_mem_cons.mpr ⟨Value.canonical_canonical value, canonicalEntries_canonical rest⟩

end

end FaultInjection.Yaml
