import FaultInjection.Failure.Basic
import FaultInjection.Proofs.Outcome
import FaultInjection.Proofs.Yaml.Writing

/-!
Which values have a JSON form. Members of a JSON object are named by texts, so that the keys of a
mapping need a text of their own, however deep the mapping stands. A failure has a JSON form if the
values of its options do.
-/

namespace FaultInjection

theorem Binary64.write_isSome (style : DecimalStyle) (number : Binary64) :
    (number.write style).isSome = number.isFinite := by
  cases number <;> rfl

namespace Yaml

inductive Value.IsName : Value → Prop
  | bool (value : Bool) : IsName (.bool value)
  | integer (value : Int) : IsName (.integer value)
  | float (value : Binary64) (finite : value.isFinite = true) : IsName (.float value)
  | string (text : String) : IsName (.string text)

inductive Value.Presentable : Value → Prop
  | null : Presentable .null
  | bool (value : Bool) : Presentable (.bool value)
  | integer (value : Int) : Presentable (.integer value)
  | float (value : Binary64) : Presentable (.float value)
  | string (text : String) : Presentable (.string text)
  | sequence (items : List Value) (each : ∀ item ∈ items, Presentable item) :
      Presentable (.sequence items)
  | mapping (entries : List (Value × Value)) (named : ∀ entry ∈ entries, entry.1.IsName)
      (each : ∀ entry ∈ entries, Presentable entry.2) : Presentable (.mapping entries)
  | tagged (tag : String) (value : Value) (presentable : Presentable value) :
      Presentable (.tagged tag value)

theorem Value.memberName_isOk_iff (key : Value) : key.memberName.isOk = true ↔ key.IsName := by
  cases key with
  | bool value => exact iff_of_true rfl (.bool value)
  | integer value => exact iff_of_true rfl (.integer value)
  | string text => exact iff_of_true rfl (.string text)
  | float value =>
      have written := value.write_isSome jsonNumberStyle
      cases text : value.write jsonNumberStyle with
      | some text' =>
          rw [text] at written
          simp only [memberName, text]
          exact iff_of_true rfl (.float value written.symm)
      | none =>
          rw [text] at written
          simp only [memberName, text]
          refine iff_of_false nofun ?_
          rintro ⟨⟩
          next finite => cases written.trans finite
  | null | sequence _ | mapping _ | tagged _ _ => exact iff_of_false nofun nofun

theorem itemsJson_cons_isOk (item : Value) (rest : List Value) :
    (itemsJson (item :: rest)).isOk = (item.json.isOk && (itemsJson rest).isOk) := by
  rw [itemsJson]
  cases item.json <;> cases itemsJson rest <;> rfl

theorem entriesJson_cons_isOk (key value : Value) (rest : List (Value × Value)) :
    (entriesJson ((key, value) :: rest)).isOk =
      (key.memberName.isOk && value.json.isOk && (entriesJson rest).isOk) := by
  rw [entriesJson]
  cases key.memberName <;> cases value.json <;> cases entriesJson rest <;> rfl

mutual

theorem Value.json_isOk_iff : ∀ value : Value, value.json.isOk = true ↔ value.Presentable
  | .null => iff_of_true rfl .null
  | .bool value => iff_of_true rfl (.bool value)
  | .integer value => iff_of_true rfl (.integer value)
  | .float value => iff_of_true rfl (.float value)
  | .string text => iff_of_true rfl (.string text)
  | .sequence items => by
      rw [Value.json, isOk_map, itemsJson_isOk_iff items]
      exact ⟨.sequence items, fun | .sequence _ each => each⟩
  | .mapping entries => by
      rw [Value.json, isOk_map, entriesJson_isOk_iff entries]
      constructor
      · exact fun both => .mapping entries both.1 both.2
      · exact fun | .mapping _ named each => ⟨named, each⟩
  | .tagged tag value => by
      rw [Value.json, isOk_map, Value.json_isOk_iff value]
      exact ⟨.tagged tag value, fun | .tagged _ _ presentable => presentable⟩

theorem itemsJson_isOk_iff : ∀ items : List Value,
    (itemsJson items).isOk = true ↔ ∀ item ∈ items, item.Presentable
  | [] => iff_of_true rfl (List.forall_mem_nil _)
  | item :: rest => by
      rw [itemsJson_cons_isOk, Bool.and_eq_true, Value.json_isOk_iff item, itemsJson_isOk_iff rest,
        List.forall_mem_cons]

theorem entriesJson_isOk_iff : ∀ entries : List (Value × Value), (entriesJson entries).isOk = true ↔
    (∀ entry ∈ entries, entry.1.IsName) ∧ ∀ entry ∈ entries, entry.2.Presentable
  | [] => iff_of_true rfl ⟨List.forall_mem_nil _, List.forall_mem_nil _⟩
  | (key, value) :: rest => by
      rw [entriesJson_cons_isOk, Bool.and_eq_true, Bool.and_eq_true, Value.memberName_isOk_iff,
        Value.json_isOk_iff value, entriesJson_isOk_iff rest, List.forall_mem_cons,
        List.forall_mem_cons]
      exact and_and_and_comm

end

theorem Value.presentable_named (entries : List (String × Value)) :
    (Value.named entries).Presentable ↔ ∀ entry ∈ entries, entry.2.Presentable := by
  constructor
  · rintro ⟨⟩
    next each =>
      rintro entry member
      exact each (.string entry.1, entry.2) (List.mem_map_of_mem member)
  · intro each
    refine .mapping _ ?_ ?_
    · rintro entry member
      obtain ⟨⟨name, value⟩, _, rfl⟩ := List.mem_map.mp member
      exact .string name
    · rintro entry member
      obtain ⟨⟨name, value⟩, known, rfl⟩ := List.mem_map.mp member
      exact each (name, value) known

end Yaml

open Yaml

theorem Specification.json_isOk_iff (specification : Specification) :
    specification.json.isOk = true ↔ specification.EveryOption Value.Presentable := by
  rw [json, Value.json_isOk_iff]
  exact holds_value .null .string
    (fun items => ⟨fun | .sequence _ each => each, .sequence items⟩) Value.presentable_named
    specification

theorem Failure.json_isOk_iff (failure : Failure) :
    failure.json.isOk = true ↔ failure.specification.EveryOption Value.Presentable := by
  rw [json, isOk_map, Specification.json_isOk_iff]

end FaultInjection
