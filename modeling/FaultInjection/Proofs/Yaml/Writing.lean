import FaultInjection.Failure.Specification

/-!
Which values can be written. The keys of a specification are texts, and no text is taken for a tag,
so a specification can be written if the values of its options can.
-/

namespace FaultInjection

namespace Yaml

theorem itemsHaveText_iff (items : List Value) :
    itemsHaveText items = true ↔ ∀ item ∈ items, item.hasText = true := by
  induction items with
  | nil => simp [itemsHaveText]
  | cons item rest ih => simp [itemsHaveText, ih]

def Value.named (entries : List (String × Value)) : Value :=
  .mapping (entries.map fun entry => (.string entry.1, entry.2))

theorem Value.hasText_named (entries : List (String × Value)) :
    (Value.named entries).hasText = true ↔ ∀ entry ∈ entries, entry.2.hasText = true := by
  have members : ∀ others : List (String × Value),
      entriesHaveText (others.map fun entry => (.string entry.1, entry.2)) = true ↔
        ∀ entry ∈ others, entry.2.hasText = true := by
    intro others
    induction others with
    | nil => simp [entriesHaveText]
    | cons entry rest ih => simp [entriesHaveText, Value.hasText, ih]
  rcases entries with _ | ⟨first, _ | ⟨second, rest⟩⟩
  · simp [named, Value.hasText, entriesHaveText]
  -- a single key is looked at more closely, but only tags are refused
  · simp [named, Value.hasText, isTagLike]
  · exact members (first :: second :: rest)

/-- Values that can be written. A mapping of one entry whose key is a tagged value, or another such
mapping, would be taken for a tag, unless it has a tag itself; and no value has two tags. -/
inductive Value.Legible : Value → Prop
  | null : Legible .null
  | bool (value : Bool) : Legible (.bool value)
  | integer (value : Int) : Legible (.integer value)
  | float (value : Binary64) : Legible (.float value)
  | string (text : String) : Legible (.string text)
  | sequence (items : List Value) (each : ∀ item ∈ items, Legible item) :
      Legible (.sequence items)
  | mapping (entries : List (Value × Value)) (keys : ∀ entry ∈ entries, Legible entry.1)
      (values : ∀ entry ∈ entries, Legible entry.2)
      (apart : ∀ entry, entries = [entry] → entry.1.isTagLike = false) :
      Legible (.mapping entries)
  | taggedMapping (tag : String) (entries : List (Value × Value))
      (keys : ∀ entry ∈ entries, Legible entry.1) (values : ∀ entry ∈ entries, Legible entry.2) :
      Legible (.tagged tag (.mapping entries))
  | tagged (tag : String) (value : Value) (untagged : value.isTagged = false)
      (legible : Legible value) : Legible (.tagged tag value)

theorem Value.hasText_mapping (entries : List (Value × Value)) :
    (Value.mapping entries).hasText = true ↔ entriesHaveText entries = true ∧
      ∀ entry, entries = [entry] → entry.1.isTagLike = false := by
  rcases entries with _ | ⟨⟨key, value⟩, _ | ⟨second, rest⟩⟩
  · simp [hasText]
  · simp only [hasText, entriesHaveText, Bool.and_eq_true, Bool.not_eq_true', and_true,
      List.cons.injEq, forall_eq']
    rw [and_assoc, and_comm]
  · simp [hasText]

mutual

theorem Value.hasText_iff : ∀ value : Value, value.hasText = true ↔ value.Legible
  | .null => iff_of_true rfl .null
  | .bool value => iff_of_true rfl (.bool value)
  | .integer value => iff_of_true rfl (.integer value)
  | .float value => iff_of_true rfl (.float value)
  | .string text => iff_of_true rfl (.string text)
  | .sequence items => by
      rw [Value.hasText, itemsHaveText_legible items]
      exact ⟨.sequence items, fun | .sequence _ each => each⟩
  | .mapping entries => by
      rw [Value.hasText_mapping, entriesHaveText_legible entries]
      constructor
      · rintro ⟨⟨keys, values⟩, apart⟩
        exact .mapping entries keys values apart
      · rintro ⟨⟩
        next keys values apart => exact ⟨⟨keys, values⟩, apart⟩
  | .tagged tag (.mapping entries) => by
      rw [Value.hasText, entriesHaveText_legible entries]
      constructor
      · rintro ⟨keys, values⟩
        exact .taggedMapping tag entries keys values
      · rintro ⟨⟩
        next keys values => exact ⟨keys, values⟩
        next _ legible => cases legible with | mapping _ keys values _ => exact ⟨keys, values⟩
  | .tagged tag (.sequence items) => by
      change itemsHaveText items = true ↔ _
      rw [itemsHaveText_legible items]
      constructor
      · exact fun each => .tagged tag _ rfl (.sequence items each)
      · rintro ⟨⟩
        next legible => cases legible with | sequence _ each => exact each
  | .tagged tag (.tagged other value) => by
      refine iff_of_false nofun fun legible => ?_
      cases legible with | tagged _ _ untagged _ => cases untagged
  | .tagged tag .null => iff_of_true rfl (.tagged tag _ rfl .null)
  | .tagged tag (.bool value) => iff_of_true rfl (.tagged tag _ rfl (.bool value))
  | .tagged tag (.integer value) => iff_of_true rfl (.tagged tag _ rfl (.integer value))
  | .tagged tag (.float value) => iff_of_true rfl (.tagged tag _ rfl (.float value))
  | .tagged tag (.string text) => iff_of_true rfl (.tagged tag _ rfl (.string text))

theorem itemsHaveText_legible : ∀ items : List Value,
    itemsHaveText items = true ↔ ∀ item ∈ items, item.Legible
  | [] => iff_of_true rfl (List.forall_mem_nil _)
  | item :: rest => by
      rw [itemsHaveText, Bool.and_eq_true, Value.hasText_iff item, itemsHaveText_legible rest,
        List.forall_mem_cons]

theorem entriesHaveText_legible : ∀ entries : List (Value × Value),
    entriesHaveText entries = true ↔
      (∀ entry ∈ entries, entry.1.Legible) ∧ ∀ entry ∈ entries, entry.2.Legible
  | [] => iff_of_true rfl ⟨List.forall_mem_nil _, List.forall_mem_nil _⟩
  | (key, value) :: rest => by
      rw [entriesHaveText, Bool.and_eq_true, Bool.and_eq_true, Value.hasText_iff key,
        Value.hasText_iff value, entriesHaveText_legible rest, List.forall_mem_cons,
        List.forall_mem_cons]
      exact and_and_and_comm

end

end Yaml

open Yaml

def AttackMap.optionsValue : Option Options → Value
  | none => .null
  | some options => .named options

theorem AttackMap.value_eq (map : AttackMap) :
    map.value = .named (map.map fun entry => (entry.1, optionsValue entry.2)) := by
  simp only [value, Value.named, List.map_map, Value.mapping.injEq]
  apply List.map_congr_left
  rintro ⟨kind, options⟩ _
  cases options <;> rfl

namespace Specification

def EveryOption (holds : Value → Prop) (specification : Specification) : Prop :=
  ∀ map ∈ specification.attacks, ∀ entry ∈ map, ∀ options ∈ entry.2, ∀ option ∈ options,
    holds option.2

def Writable (specification : Specification) : Prop :=
  ∀ map ∈ specification.attacks, ∀ entry ∈ map, ∀ options ∈ entry.2, ∀ option ∈ options,
    option.2.hasText = true

instance (specification : Specification) : Decidable specification.Writable :=
  inferInstanceAs (Decidable (∀ map ∈ specification.attacks, ∀ entry ∈ map,
    ∀ options ∈ entry.2, ∀ option ∈ options, option.2.hasText = true))

theorem writable_iff (specification : Specification) :
    specification.Writable ↔ specification.EveryOption Value.Legible := by
  simp only [Writable, EveryOption, Value.hasText_iff]

/-- The fields of a specification, of which the timeout may be left out. -/
theorem value_eq (specification : Specification) : specification.value = .named
    (if specification.timeout.isZero then
      [("attacks", .sequence (specification.attacks.map AttackMap.value))]
    else [("timeout", .string specification.timeout.text),
      ("attacks", .sequence (specification.attacks.map AttackMap.value))]) := by
  unfold value
  split <;> rfl

section

variable {holds : Value → Prop} (null : holds .null) (text : ∀ text, holds (.string text))
  (sequence : ∀ items, holds (.sequence items) ↔ ∀ item ∈ items, holds item)
  (named : ∀ entries, holds (.named entries) ↔ ∀ entry ∈ entries, holds entry.2)

include null named

theorem holds_attack (map : AttackMap) :
    holds map.value ↔ ∀ entry ∈ map, ∀ options ∈ entry.2, ∀ option ∈ options, holds option.2 := by
  rw [AttackMap.value_eq, named, List.forall_mem_map]
  refine forall₂_congr fun entry _ => ?_
  cases held : entry.2 with
  | none => exact iff_of_true null nofun
  | some options =>
      simp only [AttackMap.optionsValue, named, Option.mem_def, Option.some.injEq, forall_eq']

include text sequence

/-- All keys of a specification are texts, so that it is as good as the values of its options. -/
theorem holds_value (specification : Specification) :
    holds specification.value ↔ specification.EveryOption holds := by
  have attacks : holds (.sequence (specification.attacks.map AttackMap.value)) ↔
      specification.EveryOption holds := by
    rw [sequence, List.forall_mem_map]
    exact forall₂_congr fun map _ => holds_attack null named map
  rw [value_eq, named, ← attacks]
  split
  · simp
  · simp [text]

end

theorem hasText_value (specification : Specification) :
    specification.value.hasText = true ↔ specification.Writable := by
  have sequence : ∀ items, (Value.sequence items).hasText = true ↔
      ∀ item ∈ items, item.hasText = true := fun items => by rw [Value.hasText, itemsHaveText_iff]
  exact @holds_value (fun value => value.hasText = true) rfl (fun _ => rfl) sequence
    Value.hasText_named specification

theorem renderValue_isOk (specification : Specification) (document : Value)
    (single : specification.hasSingleMaps = true) :
    (specification.renderValue document).isOk = document.hasText := by
  simp only [renderValue, single, if_true, Value.text?]
  cases document.hasText <;> rfl

/-- A specification with several kinds in one place is refused, whatever its options are. -/
theorem render_several (specification : Specification)
    (several : ∃ map ∈ specification.attacks, map.length ≠ 1) :
    specification.render = .error .multiKeyAttackMap := by
  have refused : specification.hasSingleMaps = false := by
    obtain ⟨map, member, longer⟩ := several
    exact List.all_eq_false.mpr ⟨map, member, by simpa using longer⟩
  simp [render, renderValue, refused]

theorem render_single (specification : Specification)
    (single : ∀ map ∈ specification.attacks, map.length = 1) (writable : specification.Writable) :
    ∃ text, specification.value.text? = some text ∧ specification.render = .ok text := by
  have allowed : specification.hasSingleMaps = true :=
    List.all_eq_true.mpr fun map member => decide_eq_true (single map member)
  have written : specification.value.text? = some
      ((writeValue none none false false Pen.start specification.value).toColumn 0).text :=
    if_pos (specification.hasText_value.mpr writable)
  exact ⟨_, written, by simp [render, renderValue, allowed, written]⟩

end Specification

end FaultInjection
