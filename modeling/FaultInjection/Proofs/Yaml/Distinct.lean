import FaultInjection.Failure.Definition
import FaultInjection.Proofs.Yaml.Mapping
import FaultInjection.Proofs.Yaml.Record

/-!
No document has a mapping with one key twice: a key that has come before is refused, in whatever
form it is spelled.
-/

namespace FaultInjection

namespace Yaml

theorem Value.KeysDiffer.wrapped {value : Value} (differ : value.KeysDiffer)
    (tag : Option String) : (wrapped tag value).KeysDiffer := by
  cases tag with
  | none => exact differ
  | some tag => exact .tagged tag value differ

theorem Value.keysDiffer_of_scalar (value : Value) (scalar : (scalarText? value).isSome = true) :
    value.KeysDiffer := by
  cases value with
  | null => exact .null
  | bool value => exact .bool value
  | integer value => exact .integer value
  | float value => exact .float value
  | string text => exact .string text
  | _ => cases scalar

def NodeDecoder.Distinguishes (decode : NodeDecoder) : Prop :=
  ∀ path node count value after, decode path node count = .ok (value, after) → value.Distinct

def NodeDecoder.KeepsApart (decode : NodeDecoder) : Prop :=
  ∀ path node count value after, decode path node count = .ok (value, after) → value.KeysDiffer

section

variable {decode : NodeDecoder} (keepsApart : decode.KeepsApart)

include keepsApart

theorem decodeItems_keysDiffer (path : Path) (items : List Node) (index count : Nat)
    (values : List Value) (after : Nat)
    (decoded : decodeItems decode path index items count = .ok (values, after)) :
    ∀ value ∈ values, value.KeysDiffer := by
  induction items generalizing index count values with
  | nil =>
      cases decoded
      exact List.forall_mem_nil _
  | cons item rest ih =>
      obtain ⟨value, middle, first, decoded⟩ := (Decoding.bind_eq_ok _ _ _ _).mp decoded
      obtain ⟨others, last, later, decoded⟩ := (Decoding.bind_eq_ok _ _ _ _).mp decoded
      cases decoded
      exact List.forall_mem_cons.mpr ⟨keepsApart _ _ _ _ _ first, ih _ _ _ later⟩

theorem decodeEntries_keysDiffer (path : Path) (nodes : List (Node × Node))
    (before : List (Value × Value)) (count : Nat) (entries : List (Value × Value)) (after : Nat)
    (decoded : decodeEntries decode path before nodes count = .ok (entries, after))
    (apart : KeysApart before) (keys : ∀ entry ∈ before, entry.1.KeysDiffer)
    (values : ∀ entry ∈ before, entry.2.KeysDiffer) : (Value.mapping entries).KeysDiffer := by
  induction nodes generalizing before count with
  | nil =>
      cases decoded
      exact .mapping _ apart keys values
  | cons pair rest ih =>
      obtain ⟨keyNode, valueNode⟩ := pair
      obtain ⟨key, keyed, readKey, decoded⟩ := (Decoding.bind_eq_ok _ _ _ _).mp decoded
      split at decoded
      · cases decoded
      next fresh =>
        obtain ⟨value, valued, readValue, decoded⟩ := (Decoding.bind_eq_ok _ _ _ _).mp decoded
        -- the entries so far carry the invariant, and the new key is not among theirs
        refine ih _ _ decoded ?_ ?_ ?_
        · refine List.pairwise_append.mpr ⟨apart, List.pairwise_singleton _ _, ?_⟩
          intro entry old other new
          rw [List.mem_singleton.mp new]
          exact Bool.eq_false_iff.mpr fun same => fresh (List.any_eq_true.mpr ⟨entry, old, same⟩)
        · exact List.forall_mem_append.mpr
            ⟨keys, List.forall_mem_singleton.mpr (keepsApart _ _ _ _ _ readKey)⟩
        · exact List.forall_mem_append.mpr
            ⟨values, List.forall_mem_singleton.mpr (keepsApart _ _ _ _ _ readValue)⟩

end

theorem decodeNode_keysDiffer (document : Document) (inner : Option NodeDecoder)
    (members : ∀ decode ∈ inner, decode.KeepsApart) :
    NodeDecoder.KeepsApart (decodeNode document inner) := by
  intro path node count value after decoded
  obtain ⟨target, middle, followed, real, decoded⟩ := decodeNode_target _ _ _ _ _ _ decoded
  cases real with
  | void =>
      cases decoded
      exact .null
  | scalar own text style =>
      obtain ⟨content, read, rfl, _⟩ := decodeNode_scalar _ _ _ _ _ _ _ _ _ decoded
      exact (content.keysDiffer_of_scalar (readScalar_scalar _ _ _ _ read)).wrapped _
  | sequence own items whole =>
      obtain ⟨decode, values, known, read, rfl⟩ := decodeNode_items _ _ _ _ _ _ _ _ _ decoded
      have each := decodeItems_keysDiffer (members decode known) _ _ _ _ _ _ read
      exact Value.KeysDiffer.wrapped (.sequence values each) _
  | mapping own nodes whole =>
      obtain ⟨decode, entries, known, _, read, rfl⟩ :=
        decodeNode_entries _ _ _ _ _ _ _ _ _ decoded
      exact (decodeEntries_keysDiffer (members decode known) _ _ _ _ _ _ read List.Pairwise.nil
        (List.forall_mem_nil _) (List.forall_mem_nil _)).wrapped _

theorem decodeValue_keysDiffer (document : Document) (depth : Nat) :
    (decodeValue document depth).KeepsApart := by
  induction depth with
  | zero => exact decodeNode_keysDiffer document none nofun
  | succ depth ih =>
      refine decodeNode_keysDiffer document (some (decodeValue document depth)) ?_
      rintro decode same
      exact Option.some.inj same ▸ ih

theorem decodeValue_distinct (document : Document) (depth : Nat) :
    (decodeValue document depth).Distinguishes := fun path node count value after decoded =>
  (decodeValue_keysDiffer document depth path node count value after decoded).distinct

theorem unexpected_ne_ok {α : Type} (path : Path) (node : Node) (expected : Expected) (count : Nat)
    (result : α × Nat) : (unexpected path node expected : Decoding α) count ≠ .ok result := by
  unfold unexpected
  cases foundNode node <;> exact nofun

/-- What each field of a record keeps, all of them keep, one after the other. -/
theorem foldlM_fields_keep {α : Type} (kept : α → Prop) (document : Document) (path : Path)
    (read : α → String → Path → Node → Decoding α)
    (step : ∀ record name path node count result after, kept record →
      read record name path node count = .ok (result, after) → kept result)
    (nodes : List (Node × Node)) (record result : α) (count after : Nat) (held : kept record)
    (folded : (nodes.foldlM (fun record entry => do
      let name ← decodeFieldName document path entry.1
      read record name (path.under entry.1) entry.2) record : Decoding α) count =
        .ok (result, after)) : kept result := by
  induction nodes generalizing record count with
  | nil =>
      cases folded
      exact held
  | cons entry rest ih =>
      rw [List.foldlM_cons] at folded
      obtain ⟨next, middle, first, folded⟩ := (Decoding.bind_eq_ok _ _ _ _).mp folded
      obtain ⟨name, named, _, first⟩ := (Decoding.bind_eq_ok _ _ _ _).mp first
      exact ih next middle (step _ _ _ _ _ _ _ held first) folded

/-- What the fields of a record keep, the record has. -/
theorem decodeRecord_keeps {α : Type} (kept : α → Prop) (document : Document) (expected : Expected)
    (read : α → String → Path → Node → Decoding α) (empty record : α) (depth : Nat) (path : Path)
    (node : Node) (count after : Nat) (start : kept empty)
    (step : ∀ record name path node count result after, kept record →
      read record name path node count = .ok (result, after) → kept result)
    (decoded : decodeRecord document expected read empty depth path node count =
      .ok (record, after)) : kept record := by
  obtain ⟨target, middle, _, decoded⟩ := (Decoding.bind_eq_ok _ _ _ _).mp decoded
  cases target with
  | mapping tag nodes whole =>
      dsimp only at decoded
      split at decoded
      · cases decoded
      · obtain ⟨result, last, folded, decoded⟩ := (Decoding.bind_eq_ok _ _ _ _).mp decoded
        obtain ⟨_, _, _, decoded⟩ := (Decoding.bind_eq_ok _ _ _ _).mp decoded
        cases decoded
        exact foldlM_fields_keep kept document _ read step _ _ _ _ _ start folded
  | void =>
      cases decoded
      exact start
  | scalar tag text style =>
      dsimp only at decoded
      split at decoded
      · cases decoded
        exact start
      · cases unexpected_ne_ok _ _ _ _ _ decoded
  | _ => cases unexpected_ne_ok _ _ _ _ _ decoded

end Yaml

open Yaml

def RawSpecification.Distinct (raw : RawSpecification) : Prop :=
  ∀ attacks ∈ raw.attacks, attacks.Distinct

theorem readSpecificationField_distinct (document : Document) (depth : Nat) (record path : Path)
    (seen result : Option (Option String) × Option (Option Value)) (name : String)
    (node : Yaml.Node) (count after : Nat)
    (distinct : ∀ attacks, seen.2 = some (some attacks) → attacks.Distinct)
    (read : readSpecificationField document depth record seen name path node count =
      .ok (result, after)) :
    ∀ attacks, result.2 = some (some attacks) → attacks.Distinct := by
  unfold readSpecificationField at read
  split at read
  · split at read
    · cases read
    · obtain ⟨text, middle, _, read⟩ := (Decoding.bind_eq_ok _ _ _ _).mp read
      cases read
      exact distinct
  · split at read
    · split at read
      · cases read
      · obtain ⟨value, middle, valued, read⟩ := (Decoding.bind_eq_ok _ _ _ _).mp read
        cases read
        rintro attacks ⟨⟩
        obtain ⟨target, next, _, valued⟩ := (Decoding.bind_eq_ok _ _ _ _).mp valued
        obtain ⟨present, last, _, valued⟩ := (Decoding.bind_eq_ok _ _ _ _).mp valued
        cases present with
        | false => cases valued
        | true =>
            obtain ⟨value, _, decoded, valued⟩ := (Decoding.bind_eq_ok _ _ _ _).mp valued
            cases valued
            exact decodeValue_distinct _ _ _ _ _ _ _ decoded
    · obtain ⟨_, middle, _, read⟩ := (Decoding.bind_eq_ok _ _ _ _).mp read
      cases read
      exact distinct

theorem decodeSpecification_distinct (document : Document) (depth : Nat) (path : Path)
    (node : Yaml.Node) (count : Nat) (raw : RawSpecification) (after : Nat)
    (decoded : decodeSpecification document depth path node count = .ok (raw, after)) :
    raw.Distinct := by
  obtain ⟨fields, middle, record, decoded⟩ := (Decoding.bind_eq_ok _ _ _ _).mp decoded
  cases decoded
  have kept : ∀ attacks, fields.2 = some (some attacks) → attacks.Distinct :=
    decodeRecord_keeps (fun seen : Option (Option String) × Option (Option Value) =>
      ∀ attacks, seen.2 = some (some attacks) → attacks.Distinct) _ _ _ _ _ _ _ _ _ _
      (by rintro _ ⟨⟩)
      (fun _ _ _ _ _ _ _ => readSpecificationField_distinct _ _ _ _ _ _ _ _ _ _) record
  exact fun attacks known => kept attacks (Option.join_eq_some_iff.mp known)

theorem decodeDefinition_distinct (document : Document) (depth : Nat) (path : Path)
    (node : Yaml.Node) (count : Nat) (raw : RawSpecification) (after : Nat)
    (decoded : decodeDefinition document depth path node count = .ok (raw, after)) :
    raw.Distinct := by
  obtain ⟨found, middle, record, decoded⟩ := (Decoding.bind_eq_ok _ _ _ _).mp decoded
  cases found with
  | none => cases decoded
  | some raw =>
      cases decoded
      refine decodeRecord_keeps (fun seen : Option RawSpecification =>
        ∀ raw ∈ seen, raw.Distinct) _ _ _ none _ _ _ _ _ _ nofun ?_ record raw rfl
      intro seen name path node count result after distinct read
      unfold readDefinitionField at read
      split at read
      · split at read
        · cases read
        · obtain ⟨raw, middle, specified, read⟩ := (Decoding.bind_eq_ok _ _ _ _).mp read
          cases read
          rintro _ ⟨⟩
          exact decodeSpecification_distinct _ _ _ _ _ _ _ specified
      · obtain ⟨_, middle, _, read⟩ := (Decoding.bind_eq_ok _ _ _ _).mp read
        cases read
        exact distinct

end FaultInjection
