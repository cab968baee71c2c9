import FaultInjection.Proofs.Yaml.Distinct
import Mathlib.Data.List.Pairwise

/-!
What sorting does to a value, and all that it does. The entries of a mapping come to stand in the
order of their sort keys, and those with one sort key stay in the order that they had; this leads
to one value only, and putting its mappings together again loses none of their entries.
-/

namespace FaultInjection.Yaml

def Ascending (entries : List (Value × Value)) : Prop :=
  entries.Pairwise fun entry later => entry.1.sortKey ≤ later.1.sortKey

instance (entries : List (Value × Value)) : Decidable (Ascending entries) :=
  inferInstanceAs (Decidable (List.Pairwise _ _))

def withSortKey (text : String) (entries : List (Value × Value)) : List (Value × Value) :=
  entries.filter fun entry => entry.1.sortKey = text

/-- The same entries by ascending sort keys, where those with one sort key stand as they did. -/
structure StablySorted (entries others : List (Value × Value)) : Prop where
  order : entries.Perm others
  ascending : Ascending others
  stable : ∀ text, withSortKey text others = withSortKey text entries

theorem stablySorted_iff (entries others : List (Value × Value)) :
    StablySorted entries others ↔ entries.Perm others ∧ Ascending others ∧
      ∀ text ∈ entries.map (·.1.sortKey), withSortKey text others = withSortKey text entries := by
  refine ⟨fun sorted => ⟨sorted.order, sorted.ascending, fun text _ => sorted.stable text⟩, ?_⟩
  rintro ⟨order, ascending, stable⟩
  refine ⟨order, ascending, fun text => ?_⟩
  by_cases known : text ∈ entries.map (·.1.sortKey)
  · exact stable text known
  · have absent : withSortKey text entries = [] := by simpa [withSortKey] using known
    have others : (withSortKey text entries).Perm (withSortKey text others) := order.filter _
    rw [absent] at others ⊢
    exact others.symm.eq_nil

instance (entries others : List (Value × Value)) : Decidable (StablySorted entries others) :=
  decidable_of_iff _ (stablySorted_iff entries others).symm

mutual

/-- The same value with its mappings sorted, except those inside keys. -/
inductive Value.SortsTo : Value → Value → Prop
  | null : Value.SortsTo .null .null
  | bool (value : Bool) : Value.SortsTo (.bool value) (.bool value)
  | integer (value : Int) : Value.SortsTo (.integer value) (.integer value)
  | float (value : Binary64) : Value.SortsTo (.float value) (.float value)
  | string (text : String) : Value.SortsTo (.string text) (.string text)
  | sequence {items others : List Value} (each : ItemsSortTo items others) :
      Value.SortsTo (.sequence items) (.sequence others)
  | mapping {entries middle others : List (Value × Value)} (each : EntriesSortTo entries middle)
      (sorted : StablySorted middle others) : Value.SortsTo (.mapping entries) (.mapping others)
  | tagged {value other : Value} (tag : String) (inside : Value.SortsTo value other) :
      Value.SortsTo (.tagged tag value) (.tagged tag other)

inductive ItemsSortTo : List Value → List Value → Prop
  | nil : ItemsSortTo [] []
  | cons {item other : Value} {rest others : List Value} (here : Value.SortsTo item other)
      (later : ItemsSortTo rest others) : ItemsSortTo (item :: rest) (other :: others)

inductive EntriesSortTo : List (Value × Value) → List (Value × Value) → Prop
  | nil : EntriesSortTo [] []
  | cons {value other : Value} {rest others : List (Value × Value)} (key : Value)
      (here : Value.SortsTo value other) (later : EntriesSortTo rest others) :
      EntriesSortTo ((key, value) :: rest) ((key, other) :: others)

end

/-! Sorted entries -/

theorem Sorted.ascending {entries : List (Value × Value)} (sorted : Sorted entries) :
    Ascending entries :=
  sorted.imp (not_after_iff _ _).mp

theorem withSortKey_sorted (text : String) (entries : List (Value × Value)) :
    Sorted (withSortKey text entries) := by
  have known : ∀ entry ∈ withSortKey text entries, entry.1.sortKey = text := fun entry member => by
    simpa using (List.mem_filter.mp member).2
  refine List.pairwise_of_forall_mem_list fun entry member later member' => ?_
  simp [known entry member, known later member']

theorem sortEntries_stablySorted (entries : List (Value × Value)) :
    StablySorted entries (sortEntries entries) := by
  refine ⟨(sortEntries_perm entries).symm, (sortEntries_sorted entries).ascending, fun text => ?_⟩
  -- the entries with one sort key are sorted as they stand, so that sorting all keeps their order
  have kept : (withSortKey text entries).Sublist (sortEntries entries) :=
    List.sublist_mergeSort sortKey_trans sortKey_total (withSortKey_sorted text entries)
      List.filter_sublist
  have inside := kept.filter fun entry => entry.1.sortKey = text
  rw [withSortKey, List.filter_filter] at inside
  simp only [Bool.and_self] at inside
  exact (inside.eq_of_length ((sortEntries_perm entries).filter _).length_eq.symm).symm

theorem Ascending.head_least {entry : Value × Value} {rest : List (Value × Value)}
    (ascending : Ascending (entry :: rest)) {other : Value × Value}
    (member : other ∈ entry :: rest) : entry.1.sortKey ≤ other.1.sortKey := by
  rcases List.mem_cons.mp member with rfl | later
  · exact String.le_refl _
  · exact List.rel_of_pairwise_cons ascending later

theorem mem_iff_of_withSortKey {first second : List (Value × Value)}
    (same : ∀ text, withSortKey text first = withSortKey text second) (entry : Value × Value) :
    entry ∈ first ↔ entry ∈ second := by
  have both := congrArg (entry ∈ ·) (same entry.1.sortKey)
  simpa [withSortKey] using both

/-- Ascending entries are told by those that each sort key has. -/
theorem Ascending.eq_of_withSortKey {first second : List (Value × Value)}
    (ascending : Ascending first) (ascending' : Ascending second)
    (same : ∀ text, withSortKey text first = withSortKey text second) : first = second := by
  have shared := mem_iff_of_withSortKey same
  induction first generalizing second with
  | nil =>
      refine (List.eq_nil_iff_forall_not_mem.mpr fun entry member => ?_).symm
      cases (shared entry).mpr member
  | cons entry rest ih =>
      cases second with
      | nil => cases (shared entry).mp List.mem_cons_self
      | cons other later =>
          -- each of the two that come first has the least of all sort keys
          have equal : entry.1.sortKey = other.1.sortKey := String.le_antisymm
            (ascending.head_least ((shared other).mpr List.mem_cons_self))
            (ascending'.head_least ((shared entry).mp List.mem_cons_self))
          have heads := same other.1.sortKey
          simp only [withSortKey, List.filter_cons, equal, decide_true, ↓reduceIte] at heads
          obtain ⟨rfl, _⟩ := List.cons.inj heads
          have tails : ∀ text, withSortKey text rest = withSortKey text later := fun text => by
            have whole := same text
            simp only [withSortKey, List.filter_cons] at whole ⊢
            split at whole
            · exact (List.cons.inj whole).2
            · exact whole
          rw [ih ascending.of_cons ascending'.of_cons tails (mem_iff_of_withSortKey tails)]

theorem StablySorted.unique {entries others : List (Value × Value)}
    (sorted : StablySorted entries others) : others = sortEntries entries := by
  have known := sortEntries_stablySorted entries
  exact sorted.ascending.eq_of_withSortKey known.ascending fun text =>
    (sorted.stable text).trans (known.stable text).symm

/-! Sorted values -/

mutual

theorem Value.sortsTo_canonical : ∀ value : Value, value.SortsTo value.canonical
  | .null => .null
  | .bool value => .bool value
  | .integer value => .integer value
  | .float value => .float value
  | .string text => .string text
  | .sequence items => .sequence (itemsSortTo_canonical items)
  | .mapping entries => .mapping (entriesSortTo_canonical entries) (sortEntries_stablySorted _)
  | .tagged tag value => .tagged tag value.sortsTo_canonical

theorem itemsSortTo_canonical : ∀ items : List Value, ItemsSortTo items (canonicalItems items)
  | [] => .nil
  | item :: rest => .cons item.sortsTo_canonical (itemsSortTo_canonical rest)

theorem entriesSortTo_canonical : ∀ entries : List (Value × Value),
    EntriesSortTo entries (canonicalEntries entries)
  | [] => .nil
  | (key, value) :: rest => .cons key value.sortsTo_canonical (entriesSortTo_canonical rest)

end

mutual

theorem Value.SortsTo.unique : ∀ value other : Value, value.SortsTo other → other = value.canonical
  | _, _, .null | _, _, .bool _ | _, _, .integer _ | _, _, .float _ | _, _, .string _ => rfl
  | .sequence items, .sequence others, .sequence each => by
      rw [Value.canonical, ItemsSortTo.unique items others each]
  | .mapping entries, .mapping others, .mapping each sorted => by
      rw [Value.canonical, sorted.unique, EntriesSortTo.unique entries _ each]
  | .tagged tag value, .tagged _ other, .tagged _ inside => by
      rw [Value.canonical, Value.SortsTo.unique value other inside]

theorem ItemsSortTo.unique : ∀ items others : List Value, ItemsSortTo items others →
    others = canonicalItems items
  | [], [], .nil => rfl
  | item :: rest, other :: others, .cons here later => by
      rw [canonicalItems, Value.SortsTo.unique item other here,
        ItemsSortTo.unique rest others later]

theorem EntriesSortTo.unique : ∀ entries others : List (Value × Value),
    EntriesSortTo entries others → others = canonicalEntries entries
  | [], [], .nil => rfl
  | (key, value) :: rest, (_, other) :: others, .cons _ here later => by
      rw [canonicalEntries, Value.SortsTo.unique value other here,
        EntriesSortTo.unique rest others later]

end

/-! Mappings put together again -/

mutual

/-- The value with all mappings sorted, except those inside keys, and each of them put together
from its sorted entries. -/
def Value.rebuilt : Value → Value
  | .mapping entries => .mapping (gathered (sortEntries (rebuiltEntries entries)))
  | .sequence items => .sequence (rebuiltItems items)
  | .tagged tag value => .tagged tag value.rebuilt
  | other => other

def rebuiltItems : List Value → List Value
  | [] => []
  | item :: rest => item.rebuilt :: rebuiltItems rest

def rebuiltEntries : List (Value × Value) → List (Value × Value)
  | [] => []
  | (key, value) :: rest => (key, value.rebuilt) :: rebuiltEntries rest

end

theorem rebuiltItems_eq (items : List Value)
    (each : ∀ item ∈ items, item.rebuilt = item.canonical) :
    rebuiltItems items = canonicalItems items := by
  induction items with
  | nil => rfl
  | cons item rest ih =>
      obtain ⟨here, later⟩ := List.forall_mem_cons.mp each
      rw [rebuiltItems, canonicalItems, here, ih later]

theorem rebuiltEntries_eq (entries : List (Value × Value))
    (each : ∀ entry ∈ entries, entry.2.rebuilt = entry.2.canonical) :
    rebuiltEntries entries = canonicalEntries entries := by
  induction entries with
  | nil => rfl
  | cons entry rest ih =>
      obtain ⟨here, later⟩ := List.forall_mem_cons.mp each
      rw [rebuiltEntries, canonicalEntries, here, ih later]

/-- What holds of each entry with its value sorted holds of the entries of the sorted mapping. -/
theorem forall_mem_sorted {holds : Value × Value → Prop} (entries : List (Value × Value))
    (each : ∀ entry ∈ entries, holds (entry.1, entry.2.canonical)) :
    ∀ entry ∈ sortEntries (canonicalEntries entries), holds entry := by
  intro entry member
  rw [(sortEntries_perm _).mem_iff, canonicalEntries_eq] at member
  obtain ⟨old, inside, rfl⟩ := List.mem_map.mp member
  exact each old inside

theorem KeysApart.sorted {entries : List (Value × Value)} (apart : KeysApart entries)
    (keys : ∀ entry ∈ entries, entry.1.KeysDiffer) :
    KeysApart (sortEntries (canonicalEntries entries)) := by
  have same : KeysApart (canonicalEntries entries) := by
    rw [canonicalEntries_eq]
    exact List.pairwise_map.mpr apart
  refine same.of_perm ?_ (sortEntries_perm _).symm
  rw [canonicalEntries_eq]
  exact List.forall_mem_map.mpr keys

theorem Value.KeysDiffer.canonical {value : Value} (differ : value.KeysDiffer) :
    value.canonical.KeysDiffer := by
  induction differ with
  | null => exact .null
  | bool value => exact .bool value
  | integer value => exact .integer value
  | float value => exact .float value
  | string text => exact .string text
  | sequence items each ih =>
      rw [Value.canonical, canonicalItems_eq]
      exact .sequence _ (List.forall_mem_map.mpr ih)
  | mapping entries apart keys values ihKeys ihValues =>
      exact .mapping _ (apart.sorted keys)
        (forall_mem_sorted entries keys) (forall_mem_sorted entries ihValues)
  | tagged tag value inside ih => exact .tagged tag _ ih

/-- Where keys differ, no entry is lost when mappings are put together again. -/
theorem Value.KeysDiffer.rebuilt_eq {value : Value} (differ : value.KeysDiffer) :
    value.rebuilt = value.canonical := by
  induction differ with
  | null | bool _ | integer _ | float _ | string _ => rfl
  | sequence items each ih => rw [Value.rebuilt, Value.canonical, rebuiltItems_eq items ih]
  | mapping entries apart keys values ihKeys ihValues =>
      rw [Value.rebuilt, Value.canonical, rebuiltEntries_eq entries ihValues]
      rw [gathered_eq (forall_mem_sorted entries keys) (apart.sorted keys)]
  | tagged tag value inside ih => rw [Value.rebuilt, Value.canonical, ih]

/-- Sorting only reorders. A value sorts to its canonical form and to nothing else; if keys differ,
putting the mappings together again changes nothing, and neither does sorting a second time. -/
theorem Value.canonical_only_reorders (value : Value) (differ : value.KeysDiffer) :
    (∀ other, value.SortsTo other ↔ other = value.canonical) ∧
    value.rebuilt = value.canonical ∧
    value.canonical.canonical = value.canonical ∧
    value.rebuilt.rebuilt = value.rebuilt := by
  have again : value.canonical.rebuilt = value.canonical :=
    differ.canonical.rebuilt_eq.trans value.canonical_canonical
  refine ⟨fun other => ⟨SortsTo.unique value other, ?reached⟩, differ.rebuilt_eq,
    value.canonical_canonical, ?rebuilt⟩
  case reached =>
    rintro rfl
    exact value.sortsTo_canonical
  case rebuilt => rw [differ.rebuilt_eq, again]

/-- A mapping with a text and a number that are sorted by one text, and with a mapping as a key. -/
def unsortedSettings : Value :=
  .tagged "set" (.mapping [
    (.string "1\n", .sequence [.mapping [(.string "b", .null), (.string "a", .bool true)],
      .integer 3]),
    (.integer 1, .tagged "unit" (.mapping [(.string "z", .integer 1), (.null, .string "x")])),
    (.mapping [(.string "y", .integer 2), (.string "x", .integer 1)], .string "kept"),
    (.string "0", .null)])

def sortedSettings : Value :=
  .tagged "set" (.mapping [
    (.string "0", .null),
    (.string "1\n", .sequence [.mapping [(.string "a", .bool true), (.string "b", .null)],
      .integer 3]),
    (.integer 1, .tagged "unit" (.mapping [(.null, .string "x"), (.string "z", .integer 1)])),
    (.mapping [(.string "y", .integer 2), (.string "x", .integer 1)], .string "kept")])

theorem unsortedSettings_sortsTo : unsortedSettings.SortsTo sortedSettings := by
  have items : ItemsSortTo [.mapping [(.string "b", .null), (.string "a", .bool true)], .integer 3]
      [.mapping [(.string "a", .bool true), (.string "b", .null)], .integer 3] :=
    .cons (.mapping (.cons _ .null (.cons _ (.bool true) .nil)) (by decide +kernel))
      (.cons (.integer 3) .nil)
  have unit : Value.SortsTo (.mapping [(.string "z", .integer 1), (.null, .string "x")])
      (.mapping [(.null, .string "x"), (.string "z", .integer 1)]) :=
    .mapping (.cons _ (.integer 1) (.cons _ (.string "x") .nil)) (by decide +kernel)
  exact .tagged "set" (.mapping (.cons _ (.sequence items) (.cons _ (.tagged "unit" unit)
    (.cons _ (.string "kept") (.cons _ .null .nil)))) (by decide +kernel))

theorem unsortedSettings_keysDiffer : unsortedSettings.KeysDiffer := by
  have flags : Value.KeysDiffer (.mapping [(.string "b", .null), (.string "a", .bool true)]) :=
    .mapping _ (by decide +kernel) (by simpa using ⟨.string _, .string _⟩)
      (by simpa using ⟨.null, .bool true⟩)
  have items : Value.KeysDiffer
      (.sequence [.mapping [(.string "b", .null), (.string "a", .bool true)], .integer 3]) :=
    .sequence _ (by simpa using ⟨flags, .integer 3⟩)
  have unit : Value.KeysDiffer (.mapping [(.string "z", .integer 1), (.null, .string "x")]) :=
    .mapping _ (by decide +kernel) (by simpa using ⟨.string _, .null⟩)
      (by simpa using ⟨.integer 1, .string _⟩)
  have key : Value.KeysDiffer (.mapping [(.string "y", .integer 2), (.string "x", .integer 1)]) :=
    .mapping _ (by decide +kernel) (by simpa using ⟨.string _, .string _⟩)
      (by simpa using ⟨.integer 2, .integer 1⟩)
  exact .tagged "set" _ (.mapping _ (by decide +kernel)
    (by simpa using ⟨.string _, .integer 1, key, .string _⟩)
    (by simpa using ⟨items, .tagged "unit" _ unit, .string _, .null⟩))

/-- A text and a number with one sort key stay as they stood, and so does what is inside a key. -/
theorem canonical_only_reorders_settings :
    unsortedSettings.KeysDiffer ∧
    (∀ other, unsortedSettings.SortsTo other ↔ other = sortedSettings) ∧
    unsortedSettings.rebuilt = sortedSettings ∧ sortedSettings.canonical = sortedSettings ∧
    sortedSettings.rebuilt = sortedSettings := by
  obtain ⟨sorts, rebuilt, again, rebuiltAgain⟩ :=
    unsortedSettings.canonical_only_reorders unsortedSettings_keysDiffer
  have same := (sorts sortedSettings).mp unsortedSettings_sortsTo
  rw [← same] at sorts rebuilt again
  rw [rebuilt] at rebuiltAgain
  exact ⟨unsortedSettings_keysDiffer, sorts, rebuilt, again, rebuiltAgain⟩

end FaultInjection.Yaml
