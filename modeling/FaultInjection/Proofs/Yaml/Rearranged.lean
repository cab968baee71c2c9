import FaultInjection.Proofs.Yaml.Canonical
import FaultInjection.Proofs.Yaml.Sameness
import Mathlib.Data.List.Nodup

/-!
Values that differ in nothing but the order of mapping entries. Sorting leads to one value for all
of them just if it leaves no choice: keys that are sorted differ in what they are sorted by, and
there is nothing to be rearranged inside of them.
-/

namespace FaultInjection.Yaml

mutual

/-- The same value but for the order of mapping entries, inside keys as well. -/
inductive Value.Rearranged : Value → Value → Prop
  | same (value : Value) : Value.Rearranged value value
  | sequence {items others : List Value} (each : ItemsRearranged items others) :
      Value.Rearranged (.sequence items) (.sequence others)
  | mapping {entries middle others : List (Value × Value)}
      (each : EntriesRearranged entries middle) (order : middle.Perm others) :
      Value.Rearranged (.mapping entries) (.mapping others)
  | tagged {value other : Value} (tag : String) (inside : Value.Rearranged value other) :
      Value.Rearranged (.tagged tag value) (.tagged tag other)

inductive ItemsRearranged : List Value → List Value → Prop
  | nil : ItemsRearranged [] []
  | cons {item other : Value} {rest others : List Value} (here : Value.Rearranged item other)
      (later : ItemsRearranged rest others) : ItemsRearranged (item :: rest) (other :: others)

inductive EntriesRearranged : List (Value × Value) → List (Value × Value) → Prop
  | nil : EntriesRearranged [] []
  | cons {key key' value value' : Value} {rest others : List (Value × Value)}
      (keyed : Value.Rearranged key key') (valued : Value.Rearranged value value')
      (later : EntriesRearranged rest others) :
      EntriesRearranged ((key, value) :: rest) ((key', value') :: others)

end

theorem ItemsRearranged.same (items : List Value) : ItemsRearranged items items := by
  induction items with
  | nil => exact .nil
  | cons item rest ih => exact .cons (.same item) ih

theorem EntriesRearranged.same (entries : List (Value × Value)) :
    EntriesRearranged entries entries := by
  induction entries with
  | nil => exact .nil
  | cons entry rest ih => exact .cons (.same entry.1) (.same entry.2) ih

theorem Value.Rearranged.sequence_inv {items : List Value} {other : Value}
    (moved : (Value.sequence items).Rearranged other) :
    ∃ others, other = .sequence others ∧ ItemsRearranged items others := by
  cases moved with
  | same => exact ⟨items, rfl, .same items⟩
  | sequence each => exact ⟨_, rfl, each⟩

theorem Value.Rearranged.mapping_inv {entries : List (Value × Value)} {other : Value}
    (moved : (Value.mapping entries).Rearranged other) :
    ∃ middle others, other = .mapping others ∧ EntriesRearranged entries middle ∧
      middle.Perm others := by
  cases moved with
  | same => exact ⟨entries, entries, rfl, .same entries, List.Perm.refl _⟩
  | mapping each order => exact ⟨_, _, rfl, each, order⟩

/-- A text is its only rearrangement. -/
theorem Value.Rearranged.single_inv {name : String} {value other : Value}
    (moved : (Value.mapping [(.string name, value)]).Rearranged other) :
    ∃ value', other = .mapping [(.string name, value')] ∧ value.Rearranged value' := by
  obtain ⟨middle, others, rfl, each, order⟩ := moved.mapping_inv
  cases each with | cons keyed valued later =>
  cases keyed
  cases later
  exact ⟨_, congrArg Value.mapping (List.singleton_perm.mp order).symm, valued⟩

mutual

theorem Value.rearranged_canonical : ∀ value : Value, value.Rearranged value.canonical
  | .null | .bool _ | .integer _ | .float _ | .string _ => .same _
  | .sequence items => .sequence (items_rearranged_canonical items)
  | .mapping entries =>
      .mapping (entries_rearranged_canonical entries) (sortEntries_perm _).symm
  | .tagged tag value => .tagged tag value.rearranged_canonical

theorem items_rearranged_canonical : ∀ items : List Value,
    ItemsRearranged items (canonicalItems items)
  | [] => .nil
  | item :: rest => .cons item.rearranged_canonical (items_rearranged_canonical rest)

theorem entries_rearranged_canonical : ∀ entries : List (Value × Value),
    EntriesRearranged entries (canonicalEntries entries)
  | [] => .nil
  | (_, value) :: rest =>
      .cons (.same _) value.rearranged_canonical (entries_rearranged_canonical rest)

end

/-! What cannot be rearranged -/

/-- Values in which the entries of each mapping, inside keys as well, are as `holds` says. -/
inductive Value.Everywhere (holds : List (Value × Value) → Prop) : Value → Prop
  | null : Everywhere holds .null
  | bool (value : Bool) : Everywhere holds (.bool value)
  | integer (value : Int) : Everywhere holds (.integer value)
  | float (value : Binary64) : Everywhere holds (.float value)
  | string (text : String) : Everywhere holds (.string text)
  | sequence (items : List Value) (each : ∀ item ∈ items, Everywhere holds item) :
      Everywhere holds (.sequence items)
  | mapping (entries : List (Value × Value)) (here : holds entries)
      (keys : ∀ entry ∈ entries, Everywhere holds entry.1)
      (values : ∀ entry ∈ entries, Everywhere holds entry.2) : Everywhere holds (.mapping entries)
  | tagged (tag : String) (value : Value) (inside : Everywhere holds value) :
      Everywhere holds (.tagged tag value)

def Value.Distinct : Value → Prop := Value.Everywhere fun entries => (entries.map (·.1)).Nodup

def Value.Rigid : Value → Prop := Value.Everywhere fun entries => entries.length ≤ 1

mutual

theorem Value.rigid_unmoved : ∀ value other : Value, value.Rigid → value.Rearranged other →
    other = value
  | .null, _, _, moved | .bool _, _, _, moved | .integer _, _, _, moved
  | .float _, _, _, moved | .string _, _, _, moved => by cases moved; rfl
  | .sequence items, _, rigid, moved => by
      cases rigid with | sequence _ each =>
      cases moved with
      | same => rfl
      | sequence moved => rw [items_unmoved items _ each moved]
  | .mapping entries, _, rigid, moved => by
      cases rigid with | mapping _ single keys values =>
      cases moved with
      | same => rfl
      | mapping moved order =>
          rw [entries_unmoved entries _ keys values moved] at order
          match entries, single with
          | [], _ => rw [List.nil_perm.mp order]
          | [entry], _ => rw [List.singleton_perm.mp order]
  | .tagged tag value, _, rigid, moved => by
      cases rigid with | tagged _ _ inside =>
      cases moved with
      | same => rfl
      | tagged _ moved => rw [Value.rigid_unmoved value _ inside moved]

theorem items_unmoved : ∀ items others : List Value, (∀ item ∈ items, item.Rigid) →
    ItemsRearranged items others → others = items
  | [], _, _, .nil => rfl
  | item :: rest, _, rigid, .cons here later => by
      obtain ⟨first, others⟩ := List.forall_mem_cons.mp rigid
      rw [Value.rigid_unmoved item _ first here, items_unmoved rest _ others later]

theorem entries_unmoved : ∀ entries others : List (Value × Value),
    (∀ entry ∈ entries, entry.1.Rigid) → (∀ entry ∈ entries, entry.2.Rigid) →
    EntriesRearranged entries others → others = entries
  | [], _, _, _, .nil => rfl
  | (key, value) :: rest, _, keys, values, .cons keyed valued later => by
      obtain ⟨firstKey, otherKeys⟩ := List.forall_mem_cons.mp keys
      obtain ⟨firstValue, otherValues⟩ := List.forall_mem_cons.mp values
      rw [Value.rigid_unmoved key _ firstKey keyed, Value.rigid_unmoved value _ firstValue valued,
        entries_unmoved rest _ otherKeys otherValues later]

end

mutual

/-- A value with different keys that is its only rearrangement has nothing to rearrange. -/
theorem Value.rigid_of_unmoved : ∀ value : Value, value.Distinct →
    (∀ other, value.Rearranged other → other = value) → value.Rigid
  | .null, _, _ => .null
  | .bool value, _, _ => .bool value
  | .integer value, _, _ => .integer value
  | .float value, _, _ => .float value
  | .string text, _, _ => .string text
  | .sequence items, distinct, unmoved => by
      cases distinct with | sequence _ each =>
      refine .sequence items (items_rigid items each fun others moved => ?_)
      exact Value.sequence.inj (unmoved _ (.sequence moved))
  | .mapping entries, distinct, unmoved => by
      cases distinct with | mapping _ different keys values =>
      have members := entries_rigid entries keys values fun others moved =>
        Value.mapping.inj (unmoved _ (.mapping moved (List.Perm.refl _)))
      refine .mapping entries ?_ members.1 members.2
      match entries, different with
      | [], _ => exact Nat.zero_le 1
      | [entry], _ => exact Nat.le_refl 1
      | first :: second :: rest, different =>
          -- two entries that trade places make another value
          have swapped := unmoved _ (.mapping (.same _) (List.Perm.swap second first rest))
          have same : second = first := (List.cons.inj (Value.mapping.inj swapped)).1
          simp [same] at different
  | .tagged tag value, distinct, unmoved => by
      cases distinct with | tagged _ _ inside =>
      refine .tagged tag value (Value.rigid_of_unmoved value inside fun other moved => ?_)
      exact (Value.tagged.inj (unmoved _ (.tagged tag moved))).2

theorem items_rigid : ∀ items : List Value, (∀ item ∈ items, item.Distinct) →
    (∀ others, ItemsRearranged items others → others = items) → ∀ item ∈ items, item.Rigid
  | [], _, _ => List.forall_mem_nil _
  | item :: rest, distinct, unmoved => by
      obtain ⟨first, others⟩ := List.forall_mem_cons.mp distinct
      refine List.forall_mem_cons.mpr ⟨Value.rigid_of_unmoved item first fun other moved => ?_,
        items_rigid rest others fun others moved => ?_⟩
      · exact (List.cons.inj (unmoved _ (.cons moved (.same rest)))).1
      · exact (List.cons.inj (unmoved _ (.cons (.same item) moved))).2

theorem entries_rigid : ∀ entries : List (Value × Value), (∀ entry ∈ entries, entry.1.Distinct) →
    (∀ entry ∈ entries, entry.2.Distinct) →
    (∀ others, EntriesRearranged entries others → others = entries) →
    (∀ entry ∈ entries, entry.1.Rigid) ∧ ∀ entry ∈ entries, entry.2.Rigid
  | [], _, _, _ => ⟨List.forall_mem_nil _, List.forall_mem_nil _⟩
  | (key, value) :: rest, keys, values, unmoved => by
      obtain ⟨firstKey, otherKeys⟩ := List.forall_mem_cons.mp keys
      obtain ⟨firstValue, otherValues⟩ := List.forall_mem_cons.mp values
      have later := entries_rigid rest otherKeys otherValues fun others moved =>
        (List.cons.inj (unmoved _ (.cons (.same key) (.same value) moved))).2
      have keyed : key.Rigid := Value.rigid_of_unmoved key firstKey fun other moved =>
        (Prod.mk.inj (List.cons.inj (unmoved _ (.cons moved (.same value) (.same rest)))).1).1
      have valued : value.Rigid := Value.rigid_of_unmoved value firstValue fun other moved =>
        (Prod.mk.inj (List.cons.inj (unmoved _ (.cons (.same key) moved (.same rest)))).1).2
      exact ⟨List.forall_mem_cons.mpr ⟨keyed, later.1⟩, List.forall_mem_cons.mpr ⟨valued, later.2⟩⟩

end

/-! What sorting makes the same -/

/-- Values that sorting leaves no choice in: where it sorts, sort keys differ and keys are rigid. -/
inductive Value.Sortable : Value → Prop
  | null : Sortable .null
  | bool (value : Bool) : Sortable (.bool value)
  | integer (value : Int) : Sortable (.integer value)
  | float (value : Binary64) : Sortable (.float value)
  | string (text : String) : Sortable (.string text)
  | sequence (items : List Value) (each : ∀ item ∈ items, Sortable item) :
      Sortable (.sequence items)
  | mapping (entries : List (Value × Value)) (apart : (entries.map (·.1.sortKey)).Nodup)
      (keys : ∀ entry ∈ entries, entry.1.Rigid) (values : ∀ entry ∈ entries, Sortable entry.2) :
      Sortable (.mapping entries)
  | tagged (tag : String) (value : Value) (inside : Sortable value) : Sortable (.tagged tag value)

theorem sortKeys_canonicalEntries (entries : List (Value × Value)) :
    (canonicalEntries entries).map (·.1.sortKey) = entries.map (·.1.sortKey) := by
  rw [canonicalEntries_eq, List.map_map]
  rfl

/-- Entries with different sort keys are sorted in one way. -/
theorem sortEntries_of_perm (entries others : List (Value × Value))
    (apart : (entries.map (·.1.sortKey)).Nodup) (order : entries.Perm others) :
    sortEntries others = sortEntries entries := by
  have sorted : (sortEntries others).Perm (sortEntries entries) :=
    (sortEntries_perm others).trans (order.symm.trans (sortEntries_perm entries).symm)
  refine List.Perm.eq_of_pairwise ?_ (sortEntries_sorted others) (sortEntries_sorted entries) sorted
  intro first second member other before after
  rw [not_after_iff] at before after
  have here : first ∈ entries := order.mem_iff.mpr ((sortEntries_perm others).mem_iff.mp member)
  have there : second ∈ entries := (sortEntries_perm entries).mem_iff.mp other
  exact List.inj_on_of_nodup_map apart here there (String.le_antisymm before after)

mutual

theorem Value.canonical_of_rearranged : ∀ value other : Value, value.Sortable →
    value.Rearranged other → other.canonical = value.canonical
  | .null, _, _, moved | .bool _, _, _, moved | .integer _, _, _, moved
  | .float _, _, _, moved | .string _, _, _, moved => by cases moved; rfl
  | .sequence items, _, sortable, moved => by
      cases sortable with | sequence _ each =>
      cases moved with
      | same => rfl
      | sequence moved =>
          rw [Value.canonical, Value.canonical, canonicalItems_of_rearranged items _ each moved]
  | .mapping entries, _, sortable, moved => by
      cases sortable with | mapping _ apart keys values =>
      cases moved with
      | same => rfl
      | mapping moved order =>
          have same := canonicalEntries_of_rearranged entries _ keys values moved
          have ordered := order.map fun entry : Value × Value => (entry.1, entry.2.canonical)
          rw [← canonicalEntries_eq, ← canonicalEntries_eq, same] at ordered
          rw [← sortKeys_canonicalEntries] at apart
          rw [Value.canonical, Value.canonical, sortEntries_of_perm _ _ apart ordered]
  | .tagged tag value, _, sortable, moved => by
      cases sortable with | tagged _ _ inside =>
      cases moved with
      | same => rfl
      | tagged _ moved =>
          rw [Value.canonical, Value.canonical, Value.canonical_of_rearranged value _ inside moved]

theorem canonicalItems_of_rearranged : ∀ items others : List Value,
    (∀ item ∈ items, item.Sortable) → ItemsRearranged items others →
    canonicalItems others = canonicalItems items
  | [], _, _, .nil => rfl
  | item :: rest, _, sortable, .cons here later => by
      obtain ⟨first, others⟩ := List.forall_mem_cons.mp sortable
      rw [canonicalItems, canonicalItems, Value.canonical_of_rearranged item _ first here,
        canonicalItems_of_rearranged rest _ others later]

theorem canonicalEntries_of_rearranged : ∀ entries others : List (Value × Value),
    (∀ entry ∈ entries, entry.1.Rigid) → (∀ entry ∈ entries, entry.2.Sortable) →
    EntriesRearranged entries others → canonicalEntries others = canonicalEntries entries
  | [], _, _, _, .nil => rfl
  | (key, value) :: rest, _, keys, values, .cons keyed valued later => by
      obtain ⟨firstKey, otherKeys⟩ := List.forall_mem_cons.mp keys
      obtain ⟨firstValue, otherValues⟩ := List.forall_mem_cons.mp values
      rw [canonicalEntries, canonicalEntries, key.rigid_unmoved _ firstKey keyed,
        Value.canonical_of_rearranged value _ firstValue valued,
        canonicalEntries_of_rearranged rest _ otherKeys otherValues later]

end

/-- Two items of a list without repetitions stand in one order. -/
theorem not_both_orders {α : Type} {first second : α} {items : List α} (nodup : items.Nodup)
    (forward : [first, second].Sublist items) (backward : [second, first].Sublist items) :
    False := by
  induction items with
  | nil => cases forward
  | cons item rest ih =>
      obtain ⟨fresh, others⟩ := List.nodup_cons.mp nodup
      cases forward with
      | cons _ forward =>
          cases backward with
          | cons _ backward => exact ih others forward backward
          | cons_cons _ backward => exact fresh (forward.subset (by simp))
      | cons_cons _ forward =>
          cases backward with
          | cons _ backward => exact fresh (backward.subset (by simp))
          | cons_cons _ backward => exact fresh (forward.subset (by simp))

/-- Entries with the same sort key keep the order that they came in. -/
theorem sortEntries_stable (first second : Value × Value) (entries : List (Value × Value))
    (same : first.1.sortKey = second.1.sortKey) (order : [first, second].Sublist entries) :
    [first, second].Sublist (sortEntries entries) :=
  List.pair_sublist_mergeSort sortKey_trans sortKey_total (by simp [same]) order

theorem sortKeys_nodup (entries : List (Value × Value)) (distinct : (entries.map (·.1)).Nodup)
    (settled : ∀ others, entries.Perm others →
      sortEntries (canonicalEntries others) = sortEntries (canonicalEntries entries)) :
    (entries.map (·.1.sortKey)).Nodup := by
  refine List.Nodup.map_on (fun first member second other same => ?_) distinct.of_map
  by_contra apart
  have later : second ∈ entries.erase first := (List.mem_erase_of_ne (Ne.symm apart)).mpr other
  have forward := (List.perm_cons_erase member).trans ((List.perm_cons_erase later).cons first)
  have backward := forward.trans (List.Perm.swap second first _)
  -- whichever of the two comes first in the entries comes first in what is sorted
  have kept : ∀ (early late : Value × Value) (rest : List (Value × Value)),
      entries.Perm (early :: late :: rest) → early.1.sortKey = late.1.sortKey →
      [(early.1, early.2.canonical), (late.1, late.2.canonical)].Sublist
        (sortEntries (canonicalEntries entries)) := by
    intro early late rest order equal
    rw [← settled _ order]
    exact sortEntries_stable _ _ _ equal (List.prefix_append _ (canonicalEntries rest)).sublist
  have nodup : (sortEntries (canonicalEntries entries)).Nodup := by
    refine (sortEntries_perm _).nodup_iff.mpr (List.Nodup.of_map (·.1) ?_)
    rw [canonicalEntries_eq, List.map_map]
    exact distinct
  exact not_both_orders nodup (kept _ _ _ forward same) (kept _ _ _ backward same.symm)

theorem head_of_perm {α : Type} [DecidableEq α] {first second : α} {rest : List α}
    (order : (first :: rest).Perm (second :: rest)) : first = second := by
  have counted := order.count_eq first
  by_contra different
  simp [Ne.symm different] at counted

mutual

theorem Value.sortable_of_settled : ∀ value : Value, value.Distinct →
    (∀ other, value.Rearranged other → other.canonical = value.canonical) → value.Sortable
  | .null, _, _ => .null
  | .bool value, _, _ => .bool value
  | .integer value, _, _ => .integer value
  | .float value, _, _ => .float value
  | .string text, _, _ => .string text
  | .sequence items, distinct, settled => by
      cases distinct with | sequence _ each =>
      refine .sequence items (items_sortable items each fun others moved => ?_)
      exact Value.sequence.inj (settled _ (.sequence moved))
  | .mapping entries, distinct, settled => by
      cases distinct with | mapping _ different keys values =>
      have same : ∀ middle others, EntriesRearranged entries middle → middle.Perm others →
          sortEntries (canonicalEntries others) = sortEntries (canonicalEntries entries) :=
        fun middle others moved order => Value.mapping.inj (settled _ (.mapping moved order))
      -- what is sorted tells of its members, but not of their places
      have members := entries_sortable entries keys values fun others moved =>
        (sortEntries_perm _).symm.trans
          ((List.Perm.of_eq (same others others moved (List.Perm.refl _))).trans
            (sortEntries_perm _))
      exact .mapping entries (sortKeys_nodup entries different fun others => same entries others
        (.same entries)) members.1 members.2
  | .tagged tag value, distinct, settled => by
      cases distinct with | tagged _ _ inside =>
      refine .tagged tag value (Value.sortable_of_settled value inside fun other moved => ?_)
      exact (Value.tagged.inj (settled _ (.tagged tag moved))).2

theorem items_sortable : ∀ items : List Value, (∀ item ∈ items, item.Distinct) →
    (∀ others, ItemsRearranged items others → canonicalItems others = canonicalItems items) →
    ∀ item ∈ items, item.Sortable
  | [], _, _ => List.forall_mem_nil _
  | item :: rest, distinct, settled => by
      obtain ⟨first, others⟩ := List.forall_mem_cons.mp distinct
      refine List.forall_mem_cons.mpr ⟨Value.sortable_of_settled item first fun other moved => ?_,
        items_sortable rest others fun others moved => ?_⟩
      · exact (List.cons.inj (settled _ (.cons moved (.same rest)))).1
      · exact (List.cons.inj (settled _ (.cons (.same item) moved))).2

theorem entries_sortable : ∀ entries : List (Value × Value),
    (∀ entry ∈ entries, entry.1.Distinct) → (∀ entry ∈ entries, entry.2.Distinct) →
    (∀ others, EntriesRearranged entries others →
      (canonicalEntries others).Perm (canonicalEntries entries)) →
    (∀ entry ∈ entries, entry.1.Rigid) ∧ ∀ entry ∈ entries, entry.2.Sortable
  | [], _, _, _ => ⟨List.forall_mem_nil _, List.forall_mem_nil _⟩
  | (key, value) :: rest, keys, values, settled => by
      obtain ⟨firstKey, otherKeys⟩ := List.forall_mem_cons.mp keys
      obtain ⟨firstValue, otherValues⟩ := List.forall_mem_cons.mp values
      have later := entries_sortable rest otherKeys otherValues fun others moved =>
        (settled _ (.cons (.same key) (.same value) moved)).cons_inv
      have keyed : key.Rigid := key.rigid_of_unmoved firstKey fun other moved =>
        (Prod.mk.inj (head_of_perm (settled _ (.cons moved (.same value) (.same rest))))).1
      have valued : value.Sortable := Value.sortable_of_settled value firstValue fun other moved =>
        (Prod.mk.inj (head_of_perm (settled _ (.cons (.same key) moved (.same rest))))).2
      exact ⟨List.forall_mem_cons.mpr ⟨keyed, later.1⟩, List.forall_mem_cons.mpr ⟨valued, later.2⟩⟩

end

/-- Sorting leads all rearrangements of a value to the same just if it leaves no choice in it. -/
theorem Value.sortable_iff (value : Value) (distinct : value.Distinct) :
    value.Sortable ↔ ∀ other, value.Rearranged other → other.canonical = value.canonical :=
  ⟨fun sortable other => value.canonical_of_rearranged other sortable,
    value.sortable_of_settled distinct⟩

end FaultInjection.Yaml
