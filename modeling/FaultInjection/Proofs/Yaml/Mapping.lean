import FaultInjection.Proofs.Yaml.Rearranged

/-!
Mappings are kept by their keys, so that each key has one entry. Keys are compared as values are,
which is symmetric as long as keys differ; so entries with different keys can be put into a mapping
one after the other, in whatever order they come, and all of them are in it in the end.
-/

namespace FaultInjection

theorem Binary64.same_symm (a b : Binary64) (alike : a.same b = true) : b.same a = true := by
  cases a <;> cases b <;>
    simp only [same, Bool.or_eq_true, Bool.and_eq_true, beq_iff_eq, Bool.false_eq_true]
      at alike ⊢
  case infinite => exact alike.symm
  case finite =>
    rcases alike with ⟨zero, zero'⟩ | ⟨⟨sign, significand⟩, exponent⟩
    · exact Or.inl ⟨zero', zero⟩
    · exact Or.inr ⟨⟨sign.symm, significand.symm⟩, exponent.symm⟩

namespace Yaml

def KeysApart (entries : List (Value × Value)) : Prop :=
  entries.Pairwise fun entry later => entry.1.same later.1 = false

instance (entries : List (Value × Value)) : Decidable (KeysApart entries) :=
  inferInstanceAs (Decidable (List.Pairwise _ _))

/-- No mapping, inside keys as well, has two keys that are the same. -/
def Value.KeysDiffer : Value → Prop := Value.Everywhere KeysApart

theorem Value.Everywhere.imp {holds weaker : List (Value × Value) → Prop} {value : Value}
    (follows : ∀ entries, holds entries → weaker entries) (everywhere : value.Everywhere holds) :
    value.Everywhere weaker := by
  induction everywhere with
  | null => exact .null
  | bool value => exact .bool value
  | integer value => exact .integer value
  | float value => exact .float value
  | string text => exact .string text
  | sequence items each ih => exact .sequence items ih
  | mapping entries here keys values ihKeys ihValues =>
      exact .mapping entries (follows entries here) ihKeys ihValues
  | tagged tag value inside ih => exact .tagged tag value ih

/-- Keys that are not the same are not equal. -/
theorem Value.KeysDiffer.distinct {value : Value} (differ : value.KeysDiffer) : value.Distinct := by
  refine differ.imp fun entries apart => List.pairwise_map.mpr (apart.imp fun different equal => ?_)
  rw [equal, Value.same_refl] at different
  cases different

/-! Equality is symmetric -/

theorem sameItems_symm (items others : List Value)
    (back : ∀ item ∈ items, ∀ other ∈ others, item.same other = true → other.same item = true)
    (alike : sameItems items others = true) : sameItems others items = true := by
  induction items generalizing others with
  | nil =>
      cases others with
      | nil => rfl
      | cons other later => cases alike
  | cons item rest ih =>
      cases others with
      | nil => cases alike
      | cons other later =>
          obtain ⟨here, there⟩ := Bool.and_eq_true_iff.mp alike
          refine Bool.and_eq_true_iff.mpr ⟨?_, ih later (fun item member other member' => ?_) there⟩
          · exact back item List.mem_cons_self other List.mem_cons_self here
          · exact back item (List.mem_cons_of_mem _ member) other (List.mem_cons_of_mem _ member')

/-- Entries that are all found among as many others, and no two of which share a key, leave none of
the others out. -/
theorem sameEntries_onto (entries others : List (Value × Value)) (apart : KeysApart entries)
    (back : ∀ entry ∈ entries, ∀ other ∈ others,
      entry.1.same other.1 = true → other.1.same entry.1 = true)
    (count : entries.length = others.length) (alike : sameEntries entries others = true) :
    ∀ other ∈ others, ∃ entry ∈ entries,
      entry.1.same other.1 = true ∧ entry.2.same other.2 = true := by
  induction entries generalizing others with
  | nil =>
      rw [List.eq_nil_of_length_eq_zero count.symm]
      exact List.forall_mem_nil _
  | cons entry rest ih =>
      obtain ⟨different, apart⟩ := List.pairwise_cons.mp apart
      obtain ⟨⟨partner, found, keys, values⟩, tail⟩ :=
        List.forall_mem_cons.mp ((sameEntries_iff _ _).mp alike)
      obtain ⟨before, behind, rfl⟩ := List.append_of_mem found
      have moved : ∀ other, other ∈ before ++ partner :: behind ↔
          other = partner ∨ other ∈ before ++ behind := fun other => by simp [or_left_comm]
      -- the partner of the first entry is not one of a later entry, whose key would be the same
      have left : sameEntries rest (before ++ behind) = true := by
        refine (sameEntries_iff _ _).mpr fun later member => ?_
        obtain ⟨other, there, keys', values'⟩ := tail later member
        rcases (moved other).mp there with rfl | remaining
        · have again := entry.1.same_trans _ _ keys
            (back later (List.mem_cons_of_mem _ member) other there keys')
          cases (different later member).symm.trans again
        · exact ⟨other, remaining, keys', values'⟩
      have others := ih (before ++ behind) apart
        (fun later member other remaining => back later (List.mem_cons_of_mem _ member) other
          ((moved other).mpr (Or.inr remaining))) (by simp at count ⊢; omega) left
      intro other member
      rcases (moved other).mp member with rfl | remaining
      · exact ⟨entry, List.mem_cons_self, keys, values⟩
      · obtain ⟨later, inside, alike⟩ := others other remaining
        exact ⟨later, List.mem_cons_of_mem _ inside, alike⟩

theorem Value.same_symm (a b : Value) (differ : a.KeysDiffer) (differ' : b.KeysDiffer)
    (alike : a.same b = true) : b.same a = true := by
  induction differ generalizing b with
  | null | bool _ | integer _ | string _ => cases b <;> simp_all [Value.same]
  | float number =>
      cases b <;> simp only [Value.same, Bool.false_eq_true] at alike ⊢
      case float other => exact number.same_symm other alike
  | sequence items each ih =>
      cases b <;> simp only [Value.same, Bool.false_eq_true] at alike ⊢
      case sequence others =>
        cases differ' with | sequence _ each' =>
        exact sameItems_symm items others
          (fun item member other member' => ih item member other (each' other member')) alike
  | mapping entries apart keys values ihKeys ihValues =>
      cases b <;>
        simp only [Value.same, Bool.false_eq_true, Bool.and_eq_true, beq_iff_eq] at alike ⊢
      case mapping others =>
        cases differ' with | mapping _ _ keys' values' =>
        have onto := sameEntries_onto entries others apart
          (fun entry member other member' => ihKeys entry member other.1 (keys' other member'))
          alike.1 alike.2
        refine ⟨alike.1.symm, (sameEntries_iff _ _).mpr fun other member' => ?_⟩
        obtain ⟨entry, member, key, value⟩ := onto other member'
        exact ⟨entry, member, ihKeys entry member _ (keys' other member') key,
          ihValues entry member _ (values' other member') value⟩
  | tagged tag value inside ih =>
      cases b <;>
        simp only [Value.same, Bool.false_eq_true, Bool.and_eq_true, beq_iff_eq] at alike ⊢
      case tagged other =>
        cases differ' with | tagged _ _ inside' =>
        exact ⟨alike.1.symm, ih other inside' alike.2⟩

/-! Putting entries into a mapping -/

/-- The entries with one more. A key that is there already stays where it is and gets the value. -/
def putEntry : List (Value × Value) → Value × Value → List (Value × Value)
  | [], entry => [entry]
  | (key, value) :: rest, entry =>
      if entry.1.same key then (key, entry.2) :: rest else (key, value) :: putEntry rest entry

def gathered (entries : List (Value × Value)) : List (Value × Value) := entries.foldl putEntry []

theorem putEntry_new (entries : List (Value × Value)) (entry : Value × Value)
    (new : ∀ old ∈ entries, entry.1.same old.1 = false) :
    putEntry entries entry = entries ++ [entry] := by
  induction entries with
  | nil => rfl
  | cons first rest ih =>
      obtain ⟨here, later⟩ := List.forall_mem_cons.mp new
      simp [putEntry, here, ih later]

theorem foldl_putEntry (before entries : List (Value × Value))
    (new : (before ++ entries).Pairwise fun entry later => later.1.same entry.1 = false) :
    entries.foldl putEntry before = before ++ entries := by
  induction entries generalizing before with
  | nil => exact (List.append_nil before).symm
  | cons entry rest ih =>
      have fresh : ∀ old ∈ before, entry.1.same old.1 = false := fun old member =>
        (List.pairwise_append.mp new).2.2 old member entry List.mem_cons_self
      rw [List.append_cons] at new ⊢
      rw [List.foldl_cons, putEntry_new before entry fresh, ih _ new]

section

variable {entries : List (Value × Value)} (keys : ∀ entry ∈ entries, entry.1.KeysDiffer)
  (apart : KeysApart entries)

include keys apart

/-- Keys that are apart are so in both directions. -/
theorem KeysApart.both : entries.Pairwise fun entry later =>
    entry.1.same later.1 = false ∧ later.1.same entry.1 = false := by
  refine apart.imp_of_mem fun {entry later} member member' different => ⟨different, ?_⟩
  refine Bool.eq_false_iff.mpr fun alike => ?_
  have back := later.1.same_symm entry.1 (keys later member') (keys entry member) alike
  cases different.symm.trans back

theorem KeysApart.of_perm {others : List (Value × Value)} (order : entries.Perm others) :
    KeysApart others :=
  ((KeysApart.both keys apart).perm order And.symm).imp And.left

/-- Entries with different keys are all in the mapping, as they came. -/
theorem gathered_eq : gathered entries = entries :=
  foldl_putEntry [] entries ((KeysApart.both keys apart).imp And.right)

end

end Yaml

end FaultInjection
