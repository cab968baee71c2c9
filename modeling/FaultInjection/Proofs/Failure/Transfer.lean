import FaultInjection.Proofs.Failure.Delivery
import FaultInjection.Proofs.Wire.Assignment
import FaultInjection.Proofs.Yaml.Record
import FaultInjection.Proofs.Yaml.Writing

/-!
A failure that is sent to its node arrives as it was. Its specification can be written if its
options can, and is read back if the document is; its parts are read back from the bytes of the
message.
-/

namespace FaultInjection

open Yaml

def Yaml.Value.ReadsBack (value : Value) : Prop :=
  ∀ text, value.text? = some text →
    (decodeDocument text fun document node => decodeValue document nestingLimit .root node) =
      .ok value

theorem decodeDocument_eq_ok {α : Type} (text : String)
    (decode : Document → Yaml.Node → Decoding α) (result : α) :
    decodeDocument text decode = .ok result ↔
      (∃ after, decode (Document.ofText text) (Document.ofText text).root 0 =
        .ok (result, after)) ∧
      ((Document.ofText text).fault.isSome || !(Document.ofText text).alone) = false := by
  unfold decodeDocument
  constructor
  · intro succeeded
    obtain ⟨⟨found, after⟩, decoded, succeeded⟩ := (bind_eq_ok _ _ _).mp succeeded
    dsimp only at succeeded
    split at succeeded
    · cases succeeded
    next sound =>
      cases succeeded
      exact ⟨⟨after, decoded⟩, Bool.eq_false_iff.mpr sound⟩
  · rintro ⟨⟨after, decoded⟩, sound⟩
    refine (bind_eq_ok _ _ _).mpr ⟨_, decoded, ?_⟩
    simp [sound]

namespace Specification

section

variable {document : Document} {depth : Nat} {path : Path} {count after : Nat}

theorem timeout_of_value {key node : Yaml.Node} {keyed : Nat} {text : String}
    {seen : Option (Option Value)}
    (named : decodeValue document depth path key count = .ok (.string "timeout", keyed))
    (valued : decodeValue document depth (path.under key) node keyed =
      .ok (.string text, after)) :
    (do
      let name ← decodeFieldName document path key
      readSpecificationField document depth path (none, seen) name (path.under key) node :
        Decoding _) count = .ok ((some (some text), seen), after) := by
  refine (Decoding.bind_eq_ok _ _ _ _).mpr ⟨_, _, decodeFieldName_of_value named, ?_⟩
  exact (Decoding.bind_eq_ok _ _ _ _).mpr ⟨_, _, decodeText?_of_value valued, rfl⟩

theorem attacks_of_value {key node : Yaml.Node} {keyed : Nat} {items : List Value}
    {seen : Option (Option String)}
    (named : decodeValue document depth path key count = .ok (.string "attacks", keyed))
    (valued : decodeValue document depth (path.under key) node keyed =
      .ok (.sequence items, after)) :
    (do
      let name ← decodeFieldName document path key
      readSpecificationField document depth path (seen, none) name (path.under key) node :
        Decoding _) count = .ok ((seen, some (some (.sequence items))), after) := by
  refine (Decoding.bind_eq_ok _ _ _ _).mpr ⟨_, _, decodeFieldName_of_value named, ?_⟩
  exact (Decoding.bind_eq_ok _ _ _ _).mpr ⟨_, _, decodeValue?_of_sequence valued, rfl⟩

/-- Where a specification stands as a value, it stands as a record as well. -/
theorem decodeSpecification_of_value (specification : Specification) (node : Yaml.Node)
    (decoded : decodeValue document (depth + 1) path node count =
      .ok (specification.value, after)) :
    decodeSpecification document (depth + 1) path node count =
      .ok (specification.raw, after) := by
  obtain ⟨target, middle, followed, real, decoded⟩ := decodeNode_target _ _ _ _ _ _ decoded
  obtain ⟨tag, nodes, decode, rfl, known, read⟩ := decodeNode_mapping _ _ _ _ real _ _ _ decoded
  cases known
  obtain ⟨entries, same, read⟩ := decodeEntries_read _ _ _ _ _ _ _ read
  rw [List.nil_append] at same
  have fields : ∃ fields, (nodes.foldlM (fun record entry => do
      let name ← decodeFieldName document path entry.1
      readSpecificationField document depth path record name (path.under entry.1) entry.2)
        (none, none) : Decoding _) middle = .ok (fields, after) ∧
      (⟨fields.1.join, fields.2.join⟩ : RawSpecification) = specification.raw := by
    unfold raw
    -- a timeout of zero is left out of the record
    by_cases endless : specification.timeout.isZero = true
    · simp only [endless, ↓reduceIte] at same ⊢
      subst same
      obtain ⟨key, value, _, _, _, rfl, named, valued, read⟩ := read.cons
      obtain ⟨rfl, rfl⟩ := read.nil
      exact ⟨_, (Decoding.bind_eq_ok _ _ _ _).mpr ⟨_, _, attacks_of_value named valued, rfl⟩, rfl⟩
    · simp only [endless, Bool.false_eq_true, ↓reduceIte] at same ⊢
      subst same
      obtain ⟨first, text, _, _, _, rfl, timed, texted, read⟩ := read.cons
      obtain ⟨key, value, _, _, _, rfl, named, valued, read⟩ := read.cons
      obtain ⟨rfl, rfl⟩ := read.nil
      refine ⟨(some (some specification.timeout.text), some (some _)),
        (Decoding.bind_eq_ok _ _ _ _).mpr ⟨_, _, timeout_of_value timed texted, ?_⟩, rfl⟩
      exact (Decoding.bind_eq_ok _ _ _ _).mpr ⟨_, _, attacks_of_value named valued, rfl⟩
  obtain ⟨fields, folded, same⟩ := fields
  rw [← same]
  refine (Decoding.bind_eq_ok _ _ _ _).mpr ⟨_, _, ?_, rfl⟩
  exact decodeRecord_mapping _ _ _ _ _ _ _ _ _ _ _ _ _ followed folded

end

theorem readsBack_of_value (specification : Specification)
    (readsBack : specification.value.ReadsBack) : specification.ReadsBack := by
  intro text rendered
  have written := specification.text_of_rendered _ text rendered
  obtain ⟨⟨after, decoded⟩, sound⟩ := (decodeDocument_eq_ok _ _ _).mp (readsBack text written)
  exact (decodeDocument_eq_ok _ _ _).mpr
    ⟨⟨after, specification.decodeSpecification_of_value _ decoded⟩, sound⟩

end Specification

namespace Failure

def State.IsCode (code : Int32) : Prop := 0 ≤ code.toInt ∧ code.toInt ≤ 2

instance (code : Int32) : Decidable (State.IsCode code) :=
  inferInstanceAs (Decidable (_ ∧ _))

theorem State.ofCode_unknown (code : Int32) (unknown : ¬ State.IsCode code) :
    State.ofCode code = .error (.unknownState code.toInt) := by
  have other : ∀ known : Int32, State.IsCode known → code ≠ known := by
    rintro known isCode rfl
    exact unknown isCode
  unfold State.ofCode
  rw [if_neg (other 0 (by decide)), if_neg (other 1 (by decide)), if_neg (other 2 (by decide))]

theorem State.ofCode_known (code : Int32) (known : State.IsCode code) :
    ∃ state, State.ofCode code = .ok state := by
  obtain ⟨least, most⟩ := known
  have cases : code.toInt = 0 ∨ code.toInt = 1 ∨ code.toInt = 2 := by omega
  rcases cases with zero | one | two
  · have same : code = 0 := Int32.toInt_inj.mp zero
    exact ⟨.unknown, by rw [same]; rfl⟩
  · have same : code = 1 := Int32.toInt_inj.mp one
    exact ⟨.enabled, by rw [same]; rfl⟩
  · have same : code = 2 := Int32.toInt_inj.mp two
    exact ⟨.disabled, by rw [same]; rfl⟩

/-- What is assumed of a failure on its way. Names are ordered in the maps that hold them, option
values can be written, the document is read as the value that was written, and texts are of a
length that can be told. -/
structure Sendable (failure : Failure) : Prop where
  ordered : failure.specification.Ordered
  writable : failure.specification.Writable
  readsBack : failure.specification.value.ReadsBack
  id : failure.id.utf8ByteSize < 18446744073709551616
  node : failure.node.utf8ByteSize < 18446744073709551616
  definition : ∀ text, failure.specification.render = .ok text →
    text.utf8ByteSize < 18446744073709551616

/-- A failure arrives as it was sent, unless one of its attacks is not of one kind; then it is not
sent. An assignment with a state that there is not is refused. -/
theorem received_as_sent (failure : Failure) :
    ((∃ map ∈ failure.specification.attacks, map.length ≠ 1) →
      failure.toAssignment = .error .multiKeyAttackMap) ∧
    ((∀ map ∈ failure.specification.attacks, map.length = 1) → failure.Sendable →
      ∃ sent received read, failure.toAssignment = .ok sent ∧
        Wire.Assignment.decode? sent.encode = some received ∧
        ofAssignment received = .ok read ∧ read.same failure = true) ∧
    ∀ assignment : Wire.Assignment,
      (¬ State.IsCode assignment.current →
        ofAssignment assignment = .error (.unknownState assignment.current.toInt)) ∧
      (State.IsCode assignment.current → ¬ State.IsCode assignment.expected →
        ofAssignment assignment = .error (.unknownState assignment.expected.toInt)) := by
  refine ⟨?several, ?single, fun assignment => ⟨?current, ?expected⟩⟩
  case several =>
    intro several
    rw [toAssignment, failure.specification.render_several several]
    rfl
  case single =>
    intro single sendable
    obtain ⟨text, _, rendered⟩ := failure.specification.render_single single sendable.writable
    have sent : failure.toAssignment = .ok ⟨failure.id, failure.node, text, failure.current.code,
        failure.expected.code, failure.generation⟩ := by
      rw [toAssignment, rendered]
      rfl
    have received := Wire.Assignment.decode?_encode ⟨failure.id, failure.node, text,
      failure.current.code, failure.expected.code, failure.generation⟩
      ⟨sendable.id, sendable.node, sendable.definition text rendered⟩
    obtain ⟨read, taken, alike⟩ := failure.ofAssignment_toAssignment _ sendable.ordered
      (failure.specification.readsBack_of_value sendable.readsBack) sent
    exact ⟨_, _, _, sent, received, taken, by simp [same, alike]⟩
  case current =>
    intro unknown
    rw [ofAssignment, State.ofCode_unknown _ unknown]
    rfl
  case expected =>
    intro known unknown
    obtain ⟨state, current⟩ := State.ofCode_known _ known
    rw [ofAssignment, current, State.ofCode_unknown _ unknown]
    rfl

def mixedFailure : Failure :=
  ⟨"node", "mixed", ⟨⟨90500000000, by decide⟩, [.ofKind "first" none, .ofKind "second" (some []),
    .ofKind "third" (some [("levels", .sequence [.integer (-1), .null, .string "true",
        .tagged "unit" (.bool true)]),
      ("table", .mapping [(.integer 2, .float (.infinite false)), (.sequence [], .string "")])])]⟩,
    .enabled, .disabled, 18446744073709551615⟩

def mixedText : String :=
  "timeout: 1m30s500ms\nattacks:\n- first: null\n- second: \x7b\x7d\n- third:\n" ++
    "    levels:\n    - -1\n    - null\n    - 'true'\n    - !unit true\n" ++
    "    table:\n      2: .inf\n      []: ''\n"

theorem mixedFailure_sendable : mixedFailure.Sendable where
  ordered := by decide
  writable := by decide +kernel
  readsBack := by
    intro text written
    have known : mixedFailure.specification.value.text? = some mixedText := by decide +kernel
    cases known.symm.trans written
    decide +kernel
  id := by decide +kernel
  node := by decide +kernel
  definition := by
    intro text rendered
    have known : mixedFailure.specification.render = .ok mixedText := by decide +kernel
    cases known.symm.trans rendered
    decide +kernel

/-- A failure that is sent, one that is not, and an assignment that is refused. -/
theorem received_as_sent_mixed :
    (∃ sent received read, mixedFailure.toAssignment = .ok sent ∧
      Wire.Assignment.decode? sent.encode = some received ∧ ofAssignment received = .ok read ∧
      read.same mixedFailure = true) ∧
    { mixedFailure with specification := ⟨.zero, [[("first", none), ("second", none)]]⟩
      }.toAssignment = .error .multiKeyAttackMap ∧
    ofAssignment ⟨"mixed", "node", "", 1, -1, 0⟩ = .error (.unknownState (-1)) := by
  refine ⟨(received_as_sent mixedFailure).2.1 (by decide) mixedFailure_sendable, ?_, ?_⟩
  · exact (received_as_sent { mixedFailure with
      specification := ⟨.zero, [[("first", none), ("second", none)]]⟩ }).1 (by decide)
  · exact ((received_as_sent mixedFailure).2.2 ⟨"mixed", "node", "", 1, -1, 0⟩).2 (by decide)
      (by decide)

end Failure

end FaultInjection
