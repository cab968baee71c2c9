import FaultInjection.CommandLine
import FaultInjection.Proofs.Failure.Transfer
import FaultInjection.Proofs.Text.Utf8

/-!
The canonical form of a definition. What was read from a document is in its canonical form already,
so that it is read again as it was written and written again as it was read, in a definition as well
as on its own. Whether it can be written at all depends on the values of its options.
-/

namespace FaultInjection

open Yaml

namespace Specification

def definition (specification : Specification) : Value :=
  .mapping [(.string "spec", specification.value)]

section

variable {document : Document} {depth : Nat} {path : Path} {count after : Nat}

/-- Where a definition stands as a value, it stands as a record as well. -/
theorem decodeDefinition_of_value (specification : Specification) (node : Yaml.Node)
    (decoded : decodeValue document (depth + 2) path node count =
      .ok (specification.definition, after)) :
    decodeDefinition document (depth + 2) path node count = .ok (specification.raw, after) := by
  obtain ⟨target, middle, followed, real, decoded⟩ := decodeNode_target _ _ _ _ _ _ decoded
  obtain ⟨tag, nodes, decode, rfl, known, read⟩ := decodeNode_mapping _ _ _ _ real _ _ _ decoded
  cases known
  obtain ⟨entries, same, read⟩ := decodeEntries_read _ _ _ _ _ _ _ read
  rw [List.nil_append] at same
  subst same
  obtain ⟨key, value, _, keyed, last, rfl, named, valued, read⟩ := read.cons
  obtain ⟨rfl, ended⟩ := read.nil
  rw [ended] at valued
  have field : (do
      let name ← decodeFieldName document path key
      readDefinitionField document (depth + 1) path none name (path.under key) value :
        Decoding _) middle = .ok (some specification.raw, after) := by
    refine (Decoding.bind_eq_ok _ _ _ _).mpr ⟨_, _, decodeFieldName_of_value named, ?_⟩
    refine (Decoding.bind_eq_ok _ _ _ _).mpr ⟨_, _, ?_, rfl⟩
    exact specification.decodeSpecification_of_value value valued
  have fields : ([(key, value)].foldlM (fun record entry => do
      let name ← decodeFieldName document path entry.1
      readDefinitionField document (depth + 1) path record name (path.under entry.1) entry.2)
        none : Decoding _) middle = .ok (some specification.raw, after) :=
    (Decoding.bind_eq_ok _ _ _ _).mpr ⟨_, _, field, rfl⟩
  have record := decodeRecord_mapping _ .definition _ _ _ (depth + 1) _ _ _ _ _ _ _ followed fields
  exact (Decoding.bind_eq_ok _ _ _ _).mpr ⟨_, _, record, rfl⟩

end

theorem parseDefinition_renderDefinition (specification : Specification) (text : String)
    (ordered : specification.Ordered) (readsBack : specification.definition.ReadsBack)
    (rendered : specification.renderDefinition = .ok text) :
    parseDefinition text = .ok specification.canonical := by
  have single := specification.single_of_rendered _ text rendered
  have written := specification.text_of_rendered _ text rendered
  obtain ⟨⟨after, decoded⟩, sound⟩ := (decodeDocument_eq_ok _ _ _).mp (readsBack text written)
  have read : (decodeDocument text fun document node =>
      decodeDefinition document nestingLimit .root node) = .ok specification.raw :=
    (decodeDocument_eq_ok _ _ _).mpr
      ⟨⟨after, specification.decodeDefinition_of_value _ decoded⟩, sound⟩
  rw [parseDefinition, read, ofDecoded, specification.ofRaw_raw single ordered]

/-! What was read from a document -/

namespace Checked

variable {specification : Specification} (checked : specification.Checked)

include checked

theorem single : specification.hasSingleMaps = true :=
  List.all_eq_true.mpr fun map member => decide_eq_true (checked map member).single

theorem ordered : specification.Ordered := fun map member => (checked map member).ordered

theorem canonical : specification.canonical = specification := by
  have maps : specification.attacks.map AttackMap.canonical = specification.attacks :=
    (List.map_congr_left fun map member => (checked map member).canonical).trans (List.map_id _)
  rw [Specification.canonical, maps]

theorem render_isOk_iff :
    specification.render.isOk = true ↔ specification.EveryOption Value.Legible := by
  rw [render, specification.renderValue_isOk _ checked.single, hasText_value, writable_iff]

theorem renderDefinition_isOk_iff :
    specification.renderDefinition.isOk = true ↔ specification.EveryOption Value.Legible := by
  rw [renderDefinition, specification.renderValue_isOk _ checked.single]
  refine (Value.hasText_named [("spec", specification.value)]).trans ?_
  rw [List.forall_mem_singleton, hasText_value, writable_iff]

end Checked

theorem checked_of_read (text : String) (specification : Specification)
    (read : parseDefinition text = .ok specification ∨ parse text = .ok specification) :
    specification.Checked := by
  rcases read with rooted | bare
  · exact ofDecoded_checked _ specification rooted
  · exact ofDecoded_checked _ specification bare

/-- The canonical text of what was read from a document is read as the same and written as the
same. There is such a text if the values of all options can be written. -/
theorem canonical_text_fixed (text : String) (specification : Specification)
    (read : parseDefinition text = .ok specification ∨ parse text = .ok specification) :
    (specification.render.isOk = true ↔ specification.EveryOption Value.Legible) ∧
    (specification.renderDefinition.isOk = true ↔ specification.EveryOption Value.Legible) ∧
    (specification.value.ReadsBack → ∀ bare, specification.render = .ok bare →
      parse bare = .ok specification ∧ (parse bare >>= render) = .ok bare) ∧
    (specification.definition.ReadsBack → ∀ rooted, specification.renderDefinition = .ok rooted →
      parseDefinition rooted = .ok specification ∧
      (parseDefinition rooted >>= renderDefinition) = .ok rooted ∧
      ∀ path, Command.rendered path (.ok (Text.encode rooted)) = .ok rooted) := by
  have checked := checked_of_read text specification read
  refine ⟨checked.render_isOk_iff, checked.renderDefinition_isOk_iff, ?bare, ?rooted⟩
  case bare =>
    intro readsBack bare rendered
    have again := specification.parse_render bare checked.ordered
      (specification.readsBack_of_value readsBack) rendered
    rw [checked.canonical] at again
    exact ⟨again, by rw [again]; exact rendered⟩
  case rooted =>
    intro readsBack rooted rendered
    have again := specification.parseDefinition_renderDefinition rooted checked.ordered readsBack
      rendered
    rw [checked.canonical] at again
    refine ⟨again, by rw [again]; exact rendered, fun path => ?_⟩
    simp only [Command.rendered, Text.decodeStrict?_encode, again, rendered]
    rfl

instance : DecidableEq RawSpecification := fun first second =>
  decidable_of_iff (first.timeout = second.timeout ∧ first.attacks = second.attacks) (by
    cases first
    cases second
    simp)

/-- A definition that is not in its canonical form. -/
def looseDefinition : String :=
  "spec:\n  attacks:\n  - load:\n      limits: \x7bb: 1, a: [x, \x7bd: 1, c: !unit 2\x7d]\x7d\n" ++
    "  timeout: 90s\n"

def looseLimits : Value :=
  .mapping [(.string "b", .integer 1), (.string "a", .sequence [.string "x",
    .mapping [(.string "d", .integer 1), (.string "c", .tagged "unit" (.integer 2))]])]

def sortedLimits : Value :=
  .mapping [(.string "a", .sequence [.string "x",
    .mapping [(.string "c", .tagged "unit" (.integer 2)), (.string "d", .integer 1)]]),
    (.string "b", .integer 1)]

def looseRaw : RawSpecification :=
  ⟨some "90s", some (.sequence [.mapping [(.string "load",
    .mapping [(.string "limits", looseLimits)])]])⟩

def looseSpecification : Specification :=
  ⟨⟨90000000000, by decide⟩, [.ofKind "load" (some [("limits", sortedLimits)])]⟩

def looseBare : String :=
  "timeout: 1m30s\nattacks:\n- load:\n    limits:\n      a:\n      - x\n      - c: !unit 2\n" ++
    "        d: 1\n      b: 1\n"

def looseRooted : String :=
  "spec:\n  timeout: 1m30s\n  attacks:\n  - load:\n      limits:\n        a:\n        - x\n" ++
    "        - c: !unit 2\n          d: 1\n        b: 1\n"

theorem looseDefinition_decoded : (decodeDocument looseDefinition fun document node =>
    decodeDefinition document nestingLimit .root node) = .ok looseRaw := by
  decide +kernel

theorem looseLimits_sorted : looseLimits.canonical = sortedLimits := by
  simp only [looseLimits, sortedLimits, Value.canonical, canonicalEntries, canonicalItems]
  rw [sortEntries_swap (.string "d", _) _ (by decide),
    sortEntries_swap (.string "b", _) _ (by decide)]

theorem looseSpecification_read : parseDefinition looseDefinition = .ok looseSpecification := by
  have timeout : Duration.ofText "90s" = .ok looseSpecification.timeout := by decide +kernel
  rw [parseDefinition, looseDefinition_decoded, ofDecoded]
  simp only [ofRaw, looseRaw, timeout, attacksOfValue, attacksOfItems, AttackMap.ofValue,
    Options.ofEntries, looseLimits_sorted]
  rfl

theorem looseSpecification_written :
    looseSpecification.render = .ok looseBare ∧
      looseSpecification.renderDefinition = .ok looseRooted := by
  decide +kernel

theorem looseSpecification_readsBack :
    looseSpecification.value.ReadsBack ∧ looseSpecification.definition.ReadsBack := by
  constructor
  · intro text written
    cases (looseSpecification.text_of_rendered _ _ looseSpecification_written.1).symm.trans written
    decide +kernel
  · intro text written
    cases (looseSpecification.text_of_rendered _ _ looseSpecification_written.2).symm.trans written
    decide +kernel

/-- A definition is put into its canonical form once. -/
theorem canonical_text_fixed_loose :
    parseDefinition looseDefinition = .ok looseSpecification ∧
    parse looseBare = .ok looseSpecification ∧
    parseDefinition looseRooted = .ok looseSpecification ∧
    Command.rendered "loose.yaml" (.ok (Text.encode looseRooted)) = .ok looseRooted := by
  have fixed := canonical_text_fixed looseDefinition looseSpecification
    (Or.inl looseSpecification_read)
  have bare := fixed.2.2.1 looseSpecification_readsBack.1 looseBare looseSpecification_written.1
  have rooted := fixed.2.2.2 looseSpecification_readsBack.2 looseRooted looseSpecification_written.2
  exact ⟨looseSpecification_read, bare.1, rooted.1, rooted.2.2 "loose.yaml"⟩

/-- A definition with a mapping whose only key is a tagged value. -/
def taggedDefinition : String :=
  "spec:\n  attacks:\n  - custom:\n      settings:\n        !unit x: 1\n"

theorem definition_without_text :
    ¬ ∀ (text : String) (specification : Specification),
      parseDefinition text = .ok specification → specification.renderDefinition.isOk = true := by
  intro writes
  have read : (parseDefinition taggedDefinition).map (·.renderDefinition.isOk) = .ok false := by
    decide +kernel
  obtain ⟨specification, parsed, refused⟩ := (map_eq_ok _ _ _).mp read
  cases refused.symm.trans (writes taggedDefinition specification parsed)

end Specification

end FaultInjection
